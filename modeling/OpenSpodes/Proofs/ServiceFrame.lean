import OpenSpodes.Proofs.Encoders
import OpenSpodes.Proofs.LinkFrame
import OpenSpodes.Proofs.ServiceRelation

/-! # What sending leaves alone

A response on its way out changes the link, the counters of message protection and the record of
what was sent. The objects, the transfers from the client and a long GET in progress are not touched
and the dispatcher is not called, which is what `Replies` says.
-/

namespace OpenSpodes

open Machine Machine.Fallible

variable {σ : Type}

/-- The call of the dispatcher that an event records. -/
def Event.call : Event → Option (Service × Descriptor)
  | .dispatched service target _ => some (service, target)
  | _ => none

/-- The calls of the dispatcher recorded between two states. -/
def callsSince (s t : Server σ) : List (Service × Descriptor) :=
  (t.log.drop s.log.length).filterMap Event.call

variable {new : List Event}

theorem callsSince_of_append {s t : Server σ} (log : t.log = s.log ++ new) :
    callsSince s t = new.filterMap Event.call := by
  rw [callsSince, log, List.drop_left]

/-- The negotiated parameters are the same, and the transmit buffer is as large. -/
def SameLimits (w after : Wire) : Prop :=
  after.hdlc.xid = w.hdlc.xid ∧ w.txBuf.length ≤ after.txBuf.length

instance : IsPreorder Wire SameLimits where
  refl _ := ⟨rfl, le_rfl⟩
  trans _ _ _ first second := ⟨second.1.trans first.1, first.2.trans second.2⟩

theorem limitsLink : LinkRelation SameLimits where
  setWorld _ _ := ⟨rfl, le_rfl⟩
  fillTx _ _ := ⟨rfl, by simp only [Wire.fillTx, overwrite, List.length_append, List.length_drop]; omega⟩
  fillRx _ _ := ⟨rfl, le_rfl⟩
  session _ _ _ kept := ⟨kept.2, le_rfl⟩

/-- The event is no call, and what it hands to the link satisfies `P`. -/
def Event.IsReply (P : List UInt8 → Prop) : Event → Prop
  | .dispatched _ _ _ => False
  | .emitted plain _ => P plain
  | _ => True

/-- Messages that satisfy `P` were sent, and nothing was called. -/
structure Replies (P : List UInt8 → Prop) (s t : Server σ) : Prop where
  objects : t.objects = s.objects
  requireAcl : t.requireAcl = s.requireAcl
  hdlcActive : t.hdlcActive = s.hdlcActive
  maxPdu : t.maxPdu = s.maxPdu
  limits : SameLimits s.wire t.wire
  pendingGet : t.pendingGet = s.pendingGet
  pendingSet : t.pendingSet = s.pendingSet
  pendingActionIn : t.pendingActionIn = s.pendingActionIn
  log : ∃ new, t.log = s.log ++ new ∧ ∀ event ∈ new, event.IsReply P

section Replies

variable {P : List UInt8 → Prop} {s t u : Server σ}

theorem Replies.trans (first : Replies P s t) (second : Replies P t u) : Replies P s u := by
  obtain ⟨new, log, reply⟩ := first.log
  obtain ⟨more, log', reply'⟩ := second.log
  refine ⟨second.objects.trans first.objects, second.requireAcl.trans first.requireAcl,
    second.hdlcActive.trans first.hdlcActive, second.maxPdu.trans first.maxPdu,
    trans_of SameLimits first.limits second.limits, second.pendingGet.trans first.pendingGet,
    second.pendingSet.trans first.pendingSet, second.pendingActionIn.trans first.pendingActionIn,
    new ++ more, ?_, ?_⟩
  · rw [log', log, List.append_assoc]
  · intro event member
    rcases List.mem_append.mp member with before | after
    · exact reply event before
    · exact reply' event after

theorem Replies.silent (log : t.log = s.log) : ∃ new, t.log = s.log ++ new ∧ ∀ event ∈ new, event.IsReply P :=
  ⟨[], by rw [log, List.append_nil], by simp⟩

instance : IsPreorder (Server σ) (Replies P) where
  refl s := ⟨rfl, rfl, rfl, rfl, refl_of SameLimits s.wire, rfl, rfl, rfl, Replies.silent rfl⟩
  trans _ _ _ := Replies.trans

/-- A transfer to the client or a notification in the queue does not count. -/
theorem Replies.aside {out : BlockOut} {push : PendingPush} :
    Replies P s { s with pendingActionOut := out, pendingPush := push } :=
  ⟨rfl, rfl, rfl, rfl, refl_of SameLimits s.wire, rfl, rfl, rfl, Replies.silent rfl⟩

theorem calls_of_replies (reply : ∀ event ∈ new, event.IsReply P) : new.filterMap Event.call = [] := by
  refine List.filterMap_eq_nil_iff.mpr fun event member => ?_
  cases event with
  | dispatched service target association => exact (reply _ member).elim
  | _ => rfl

theorem Replies.callsSince (replies : Replies P s t) : callsSince s t = [] := by
  obtain ⟨new, log, reply⟩ := replies.log
  rw [callsSince_of_append log, calls_of_replies reply]

/-- Replying later adds no call. -/
theorem Replies.callsSince_eq (replies : Replies P t u) (log : t.log = s.log ++ new) :
    OpenSpodes.callsSince s u = new.filterMap Event.call := by
  obtain ⟨more, log', reply⟩ := replies.log
  rw [callsSince_of_append (log'.trans (by rw [log, List.append_assoc])), List.filterMap_append,
    calls_of_replies reply, List.append_nil]

end Replies

/-! ## Sending -/

section Sending

variable {P : List UInt8 → Prop} {event : Event} {first second : UInt8} {more : List UInt8} {encode : Write Unit}

theorem onWire_replies {α : Type} {program : Program Wire α} (kept : Keeps SameLimits program) :
    Keeps (Replies P : Server σ → Server σ → Prop) (onWire program) := by
  refine .zoom fun s => (kept _).mono fun a w limits => ?_
  refine ⟨rfl, rfl, rfl, rfl, limits, rfl, rfl, rfl, w.links.map Event.link, rfl, ?_⟩
  intro event member
  obtain ⟨link, -, rfl⟩ := List.mem_map.mp member
  trivial

theorem note_replies (reply : event.IsReply P) : Keeps (Replies P : Server σ → Server σ → Prop) (note event) :=
  .modify fun s => ⟨rfl, rfl, rfl, rfl, refl_of SameLimits s.wire, rfl, rfl, rfl, [event], rfl, by simpa⟩

/-- Every message of the encoder satisfies `P`. -/
def Emits (P : List UInt8 → Prop) (encode : Write Unit) : Prop :=
  ∀ size c, encode (WBuf.init size) = .ok () c → P c.out

/-- The messages that may leave besides the response to a GET satisfy `P`. -/
structure Allows (P : List UInt8 → Prop) : Prop where
  notification : ∀ pool dn, Emits P (dataNotificationEncode pool dn)
  setResponse : ∀ invokeIdPriority resp, Emits P (setResponseEncode invokeIdPriority resp)
  actionResponse : ∀ pool invokeIdPriority resp, Emits P (actionResponseEncode pool invokeIdPriority resp)

theorem Allows.mono {Q : List UInt8 → Prop} (allows : Allows P) (implied : ∀ plain, P plain → Q plain) : Allows Q :=
  ⟨fun pool dn size c wrote => implied _ (allows.notification pool dn size c wrote),
    fun iid resp size c wrote => implied _ (allows.setResponse iid resp size c wrote),
    fun pool iid resp size c wrote => implied _ (allows.actionResponse pool iid resp size c wrote)⟩

theorem allows_any : Allows fun _ => True := ⟨fun _ _ _ _ _ => trivial, fun _ _ _ _ _ => trivial,
  fun _ _ _ _ _ _ => trivial⟩

def Foreign (plain : List UInt8) : Prop := plain.length < 2 ∨ plain.getD 0 0 ≠ 0xC4

theorem foreign_of_header {rest : Write Unit} (other : first ≠ 0xC4) (leaves : Leaves Extends rest) :
    Emits Foreign (do writeEach (first :: second :: more); rest) := by
  intro size c wrote
  rcases starts_of_writeEach leaves wrote with short | ⟨behind, starts⟩
  · exact .inl short
  · exact .inr (by simpa [starts] using other)

theorem foreign_of_bytes (other : first ≠ 0xC4) : Emits Foreign (writeEach (first :: second :: more)) := by
  have emits : Emits Foreign (do writeEach (first :: second :: more); pure ()) :=
    foreign_of_header other (.pure ())
  simpa using emits

theorem allows_foreign : Allows Foreign where
  notification pool dn size c wrote := by
    obtain ⟨⟨⟩, b, header, wrote⟩ := bind_ok_iff.mp wrote
    have leaves : Leaves Extends (do
        axdrWriteU32 dn.longInvokeIdAndPriority
        dlmsWriteLen dn.dateTime.val.length
        writeBytes dn.dateTime.val .invalid
        writeValue pool dn.notificationBody) :=
      .bind (extends_writeBytes _ _) fun _ => .bind (extends_writeBytes _ _) fun _ =>
        .bind (extends_writeBytes _ _) fun _ => extends_writeValue _ _
    obtain ⟨tail, starts⟩ := (leaves.of_ok wrote).1
    right
    simp [← starts, writeBytes_ok header, WBuf.init]
  setResponse invoke resp := by
    have other : (0xC5 : UInt8) ≠ 0xC4 := by decide
    cases resp with
    | normal result => exact foreign_of_bytes other
    | datablock | lastDatablock => exact foreign_of_header other (.ignore (extends_writeBytes _ _))
    | withList results =>
      exact foreign_of_header other (.bind (.ignore (extends_writeBytes _ _)) fun _ => extends_writeEach _)
  actionResponse pool invoke resp := by
    have other : (0xC7 : UInt8) ≠ 0xC4 := by decide
    cases resp with
    | normal result value =>
      refine foreign_of_header other (.ite ?_ (extends_writeEach _))
      exact .bind (extends_writeEach _) fun _ => .ignore (extends_valueWrite _ _)
    | withParamBlock last number rawData =>
      refine foreign_of_header other (.ignore ?_)
      exact .bind (extends_writeBytes _ _) fun _ => .bind (extends_writeBytes _ _) fun _ =>
        .bind (extends_writeBytes _ _) fun _ => extends_writeEach _
    | nextParamBlock number => exact foreign_of_header other (.ignore (extends_writeBytes _ _))

variable (env : Env σ)

theorem serverTransmit_replies {plain : List UInt8} (good : P plain) (source : ApduSource) :
    Keeps (Replies P) (serverTransmit env plain source) := by
  refine .bind .get fun _ => .bind (note_replies good) fun _ => .ite ?_ (.ite ?_ ?_)
  · exact onWire_replies (keeps_gbtTransportSend limitsLink _ _)
  · exact onWire_replies (keeps_hdlcSessionSendApdu limitsLink _)
  · exact onWire_replies (keeps_transportSendApdu limitsLink _)

theorem serverSend_replies {source : ApduSource} {s : Server σ} (good : P (source.bytes s.wire)) :
    KeepsAt (Replies P) s (serverSend env source) := by
  rw [KeepsAt, serverSend, wp_bind, wp_get]
  refine KeepsAt.ite (fun _ => ?_) fun _ => serverTransmit_replies env good source s
  cases gloProtect env.hal s.aa.cipherTx
      (svcCipherTagForPlain s.aa.cipherTx ((source.bytes s.wire).getD 0 0)) (source.bytes s.wire) with
  | none => exact .pure _
  | some sealed =>
    refine KeepsAt.bind (Keeps.modify (fun s => ⟨rfl, rfl, rfl, rfl, refl_of SameLimits s.wire, rfl, rfl, rfl,
      [.sealed _], rfl, by simp [Event.IsReply]⟩) s) fun _ => .ite (.pure _) ?_
    exact serverTransmit_replies env good _

theorem padTo_overwrite (mem bytes : List UInt8) : Bytes.padTo bytes.length (overwrite mem bytes) = bytes := by
  simp [Bytes.padTo, overwrite]

theorem sendEncoded_repliesAt {s : Server σ}
    (emits : ∀ c, encode (WBuf.init s.wire.txBuf.length) = .ok () c → P c.out) :
    KeepsAt (Replies P) s (sendEncoded env encode) := by
  rw [KeepsAt, sendEncoded, wp_bind, encodeTx, wp_bind, wp_get]
  cases encoded : encode (WBuf.init s.wire.txBuf.length) with
  | error e buf =>
    simp only [wp_bind]
    refine (onWire_replies (P := P) (keeps_fillTx limitsLink _) s).mono fun _ t replies => ?_
    simpa using replies
  | ok u buf =>
    simp only [wp_bind]
    have filled : wp (onWire (modify (·.fillTx buf.out)))
        (fun _ t => Replies P s t ∧ t.wire.txBuf = overwrite s.wire.txBuf buf.out) s := by
      refine (onWire_replies (keeps_fillTx limitsLink _) s).and ?_
      simp [onWire, Wire.fillTx]
    refine filled.mono fun _ t ⟨replies, holds⟩ => ?_
    rw [wp_pure]
    refine KeepsAt.after replies (serverSend_replies env ?_)
    rw [ApduSource.bytes, holds, padTo_overwrite]
    exact emits _ encoded

theorem sendEncoded_replies (emits : Emits P encode) : Keeps (Replies P) (sendEncoded env encode) :=
  fun _ => sendEncoded_repliesAt env (emits _)

variable (allows : Allows P)

include allows

/-- Responses and what is sent behind them are replies. -/
theorem replies_send : SendRelation env (Replies P) where
  aside _ _ _ := .aside
  notification _ _ := sendEncoded_replies env (allows.notification _ _)
  setResponse _ _ := sendEncoded_replies env (allows.setResponse _ _)
  actionResponse _ _ _ := sendEncoded_replies env (allows.actionResponse _ _ _)

theorem sendGetResponse_repliesAt {invoke : UInt8} {resp : GetResponse} {s : Server σ}
    (emits : ∀ c, getResponseEncode s.objects.pool invoke resp (WBuf.init s.wire.txBuf.length) = .ok () c → P c.out) :
    KeepsAt (Replies P) s (sendGetResponse env invoke resp) := by
  rw [KeepsAt, sendGetResponse, wp_bind, wp_get]
  exact KeepsAt.bind (sendEncoded_repliesAt env emits) fun _ => (replies_send env allows).serverFlushDeferred _

end Sending

/-! ## Calls of the dispatcher -/

/-- The dispatcher was called once; transfers and link are as they were. -/
structure Called (service : Service) (target : Descriptor) (s t : Server σ) : Prop where
  aa : t.aa = s.aa
  wire : t.wire = s.wire
  hdlcActive : t.hdlcActive = s.hdlcActive
  maxPdu : t.maxPdu = s.maxPdu
  pendingGet : t.pendingGet = s.pendingGet
  pendingSet : t.pendingSet = s.pendingSet
  pendingActionIn : t.pendingActionIn = s.pendingActionIn
  log : t.log = s.log ++ [.dispatched service target s.aa.association]

section Calls

variable (env : Env σ)

theorem dispatchSet_called (attr : Descriptor) (value : Value) :
    Keeps (Called .set attr) (dispatchSet env attr value) := by
  intro s
  simp only [KeepsAt, dispatchSet, note, wp_bind, wp_get, wp_modify, wp_set, wp_pure]
  exact ⟨rfl, rfl, rfl, rfl, rfl, rfl, rfl, rfl⟩

/-- A notification that the method queues does not count. -/
theorem dispatchAction_called (method : Descriptor) (param old : Value) :
    Keeps (Called .action method) (dispatchAction env method param old) := by
  intro s
  simp only [KeepsAt, dispatchAction, note, wp_bind, wp_get, wp_modify, wp_set, wp_pure]
  cases (dispatcherAction env.behaviour s.requireAcl s.aa.association method param old s.objects).1.2.2 with
  | none | some => exact ⟨rfl, rfl, rfl, rfl, rfl, rfl, rfl, rfl⟩

/-- Reading a value out of a buffer changes only the pool of nested values. -/
theorem readBuffered_of_read {buffer : List UInt8} {s : Server σ} {err : Err} {value : Value} {reader : Reader}
    (read : valueRead env.stack.value ⟨Buf.ofBytes buffer, s.objects.pool⟩ = ((err, value), reader)) :
    readBuffered env buffer s = some ((err, value), { s with objects := { s.objects with pool := reader.pool } }) := by
  simp only [readBuffered, get_bind_apply, read]
  rfl

end Calls

end OpenSpodes
