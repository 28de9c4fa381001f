import OpenSpodes.Proofs.GetBlocks
import OpenSpodes.Proofs.OpenLink
import OpenSpodes.Proofs.SampleServer
import OpenSpodes.Proofs.StackIndependence

/-! # Responses and the contents of the stack

A response is the same for all contents of the uninitialised structures exactly when the request was received far
enough and the call stores what is sent. Where it is not, two contents give different responses or calls already
on the simplest link: a descriptor that is cut off is completed from the stack, for attribute 2 the range of a
selective access comes from it, and the result of a method is sent even when nothing was stored in it.
-/

namespace OpenSpodes

open Machine Machine.Fallible

variable {σ : Type}

/-! ## Returning on a direct link -/

section Returns

variable {s : Server σ} (env : Env σ) {service : Service} {target : Descriptor}

theorem sendGetData_returns (direct : s.Direct) (idle : s.pendingPush.pending = false) (invoke : UInt8)
    (value : Value) : ∃ result t, sendGetData env invoke value s = some (result, t) ∧ s.log <+: t.log := by
  have respond (out : BlockOut) (resp : GetResponse) :
      ∃ result t, sendGetResponse env invoke resp { s with pendingGet := out } = some (result, t) ∧
        s.log <+: t.log := by
    obtain ⟨result, t, returned, grown, -⟩ := sendGetResponse_returns (s := { s with pendingGet := out }) env
      ⟨direct.plain, direct.gbtEnabled, direct.hdlcActive⟩ idle invoke resp
    exact ⟨result, t, returned, grown⟩
  by_cases needs : s.needsBlocks invoke value = true
  · rcases sendGetData_blocks env needs with ⟨encoding, -, started⟩ | ⟨-, data, failed⟩
    · rw [started]
      exact respond _ _
    · rw [failed]
      exact respond _ _
  · rw [sendGetData, get_bind_apply]
    cases encoded : getResponseEncode s.objects.pool invoke (.data value) (WBuf.init 1024) with
    | error e buf => simp [Server.needsBlocks, encoded] at needs
    | ok u buf =>
      have fits : ¬buf.out.length > s.sendPayloadMax := by
        simpa [Server.needsBlocks, encoded, direct.gbtEnabled] using needs
      simp only [if_neg fits]
      exact respond s.pendingGet _

theorem Server.Asked.isOpen {t : Server σ} (asked : s.Asked service target t) (isOpen : s.Open) : t.Open :=
  ⟨⟨asked.aa ▸ isOpen.plain, asked.gbtEnabled.trans isOpen.gbtEnabled, asked.hdlcActive.trans isOpen.hdlcActive⟩,
    asked.wire ▸ isOpen.wire⟩

theorem Server.Asked.direct {t : Server σ} (asked : s.Asked service target t) (direct : s.Direct) : t.Direct :=
  ⟨asked.aa ▸ direct.plain, asked.gbtEnabled.trans direct.gbtEnabled, asked.hdlcActive.trans direct.hdlcActive⟩

theorem handleGet_returns (req : GetRequest) (direct : s.Direct) (idle : s.pendingPush.pending = false)
    (normal : req.kind = .normal) : ∃ result t, handleGet env req s = some (result, t) ∧
      s.log ++ [.dispatched .get req.attr s.aa.association] <+: t.log := by
  obtain ⟨read, t, reads, asked, push⟩ := readAttribute_asked env req s
  rw [← asked.log]
  rcases handleGet_of_attribute normal reads with ⟨dar, -, handled⟩ | ⟨value, -, handled⟩
  · obtain ⟨result, u, returned, grown, -⟩ := sendGetResponse_returns env (asked.direct direct) (push ▸ idle)
      req.invokeIdPriority (.dataError dar)
    exact ⟨result, u, handled.trans returned, grown⟩
  · obtain ⟨result, u, returned, grown⟩ :=
      sendGetData_returns env (asked.direct direct) (push ▸ idle) req.invokeIdPriority value
    exact ⟨result, u, handled.trans returned, grown⟩

variable {method : Descriptor} {param old : Value} {err : Err} {value : Value} {push : Option Push}
  {after : Objects σ}

theorem dispatchAction_asked
    (calls : dispatcherAction env.behaviour s.requireAcl s.aa.association method param old s.objects =
      ((err, value, push), after)) :
    ∃ t, dispatchAction env method param old s = some ((err, value), t) ∧ s.Asked .action method t ∧
      t.objects = after := by
  simp only [dispatchAction, note, get_bind_apply, modify_bind_apply, calls]
  cases push with
  | none | some => exact ⟨_, rfl, ⟨rfl, rfl, rfl, rfl, rfl, rfl⟩, rfl⟩

variable (req : ActionRequest)

theorem handleAction_of_called {t u : Server σ} {sent : Err} (normal : req.kind = .normal)
    (called : dispatchAction env req.method req.data env.stack.value s = some ((err, value), t))
    (responded : sendEncoded env (actionResponseEncode t.objects.pool req.invokeIdPriority
      (.normal (darOfErr err) value)) t = some (sent, u)) : handleAction env req s = serverFlushAction env sent u := by
  have handled : handleAction env req = (do
      let result ← dispatchAction env req.method req.data env.stack.value
      let sent ← sendActionResponse env req.invokeIdPriority (.normal (darOfErr result.1) result.2)
      serverFlushAction env sent) := by
    simp only [handleAction, normal]
  rw [handled]
  exact (bind_of_some called).trans (bind_of_some responded)

theorem handleAction_returns (direct : s.Direct) (normal : req.kind = .normal)
    (calls : dispatcherAction env.behaviour s.requireAcl s.aa.association req.method req.data env.stack.value
      s.objects = ((err, value, push), after)) : ∃ result t, handleAction env req s = some (result, t) ∧
      s.log ++ [.dispatched .action req.method s.aa.association] <+: t.log ∧ t.objects = after := by
  obtain ⟨t, called, asked, objects⟩ := dispatchAction_asked env calls
  obtain ⟨sent, u, responded, grown⟩ := sendEncoded_returns env (asked.direct direct)
    (actionResponseEncode t.objects.pool req.invokeIdPriority (.normal (darOfErr err) value))
  obtain ⟨result, v, flushed, grown', kept⟩ :=
    serverFlushAction_returns env (grown.direct (asked.direct direct)) sent
  exact ⟨result, v, (handleAction_of_called env req normal called responded).trans flushed,
    asked.log ▸ grown.log.trans grown', kept.trans (grown.objects.trans objects)⟩

/-- The response to an ACTION is the first message that leaves. -/
theorem handleAction_emits (isOpen : s.Open) (normal : req.kind = .normal)
    (calls : dispatcherAction env.behaviour s.requireAcl s.aa.association req.method req.data env.stack.value
      s.objects = ((err, value, push), after)) {buf : WBuf}
    (encoded : actionResponseEncode after.pool req.invokeIdPriority (.normal (darOfErr err) value)
      (WBuf.init 1024) = .ok () buf) (small : buf.out.length ≤ 1024) :
    ∃ result t, handleAction env req s = some (result, t) ∧
      s.log ++ [.dispatched .action req.method s.aa.association, .emitted buf.out buf.out] <+: t.log := by
  obtain ⟨t, called, asked, rfl⟩ := dispatchAction_asked env calls
  have responded := sendEncoded_open env (asked.isOpen isOpen) encoded small
  have later : ((t.filling buf.out).emitting buf.out).Direct :=
    (((asked.isOpen isOpen).filling small).emitting).toDirect
  obtain ⟨result, v, flushed, grown, -⟩ := serverFlushAction_returns env later .ok
  refine ⟨result, v, (handleAction_of_called env req normal called responded).trans flushed, ?_⟩
  have before : ((t.filling buf.out).emitting buf.out).log =
      s.log ++ [.dispatched .action req.method s.aa.association, .emitted buf.out buf.out] := by
    simp [Server.emitting, Server.filling, asked.log]
  rwa [before] at grown

end Returns

/-! ## Arrays and views with entries -/

def emptyReply (invokeIdPriority : UInt8) : List UInt8 := [0xC4, 1, invokeIdPriority, 0, 1, 0]

section Narrows

variable {behaviour : Behaviour σ} (conforms : behaviour.Conforms) {objects : Objects σ} {value : Value} {pool : Pool}
  {c b : WBuf}

theorem dlmsLenBytes_of_pos {count : ℕ} (some : count ≠ 0) :
    ∃ first rest, dlmsLenBytes count = first :: rest ∧ first ≠ 0 := by
  unfold dlmsLenBytes
  split
  · rename_i small
    refine ⟨_, _, rfl, fun zero => ?_⟩
    have := congrArg UInt8.toNat zero
    simp at this
    omega
  · refine ⟨_, _, rfl, fun zero => ?_⟩
    have := congrArg UInt8.toNat zero
    unfold dlmsMinOctets at this
    split_ifs at this <;> simp at this

include conforms in
/-- It is written as an array with a number of entries that is not zero. -/
theorem valueWrite_narrows (narrows : value.Narrows behaviour objects) (wrote : valueWrite pool value b = .ok () c) :
    ∃ count more, c.out = b.out ++ 1 :: count :: more ∧ count ≠ 0 := by
  cases value with
  | array start count =>
    obtain ⟨first, rest, bytes, positive⟩ := dlmsLenBytes_of_pos narrows
    obtain ⟨⟨⟩, d, tagged, wrote⟩ := bind_ok_iff.mp wrote
    obtain ⟨⟨⟩, e, counted, wrote⟩ := bind_ok_iff.mp wrote
    obtain ⟨tail, same⟩ := ((extends_writeItems (extends_valueWriteImpl pool _) _ _ _).of_ok wrote).1
    refine ⟨first, rest ++ tail, ?_, positive⟩
    rw [← same, writeBytes_ok counted, writeBytes_ok tagged, bytes]
    simp
  | owned tag pieces outcome =>
    rcases conforms.view tag pieces outcome objects with unchanged | ⟨⟨count, e, e', rows, rfl, positive⟩, -⟩
    · obtain ⟨entryFrom, entryTo, changed⟩ := narrows
      exact absurd (unchanged entryFrom entryTo) changed
    · obtain ⟨⟨⟩, d, checked, wrote⟩ := bind_ok_iff.mp wrote
      obtain ⟨⟨⟩, f, tagged, wrote⟩ := bind_ok_iff.mp wrote
      obtain ⟨⟨⟩, g, counted, wrote⟩ := bind_ok_iff.mp wrote
      obtain ⟨tail, same⟩ := ((extends_writePieces _ _).of_ok wrote).1
      have unchanged : d = b := by
        simp only [needFree, Machine.Fallible.get_bind, failIf] at checked
        split at checked
        · cases checked
        · cases checked
          rfl
      refine ⟨count, tail, ?_, positive⟩
      rw [← same, writeBytes_ok counted, writeBytes_ok tagged, unchanged]
      simp
  | _ => exact narrows.elim

theorem writeValue_ok (wrote : writeValue pool value b = .ok () c) : valueWrite pool value b = .ok () c := by
  obtain ⟨written, d, tried, wrote⟩ := bind_ok_iff.mp wrote
  cases written with
  | none => cases wrote
  | some u =>
    cases wrote
    simp only [attempt] at tried
    split at tried
    · cases tried
      assumption
    · cases tried

theorem allows_notEmpty (invoke : UInt8) : Allows (· ≠ emptyReply invoke) :=
  allows_foreign.mono fun plain foreign same => by
    subst same
    rcases foreign with short | other
    · exact absurd short (by simp [emptyReply])
    · exact other rfl

include conforms in
theorem getResponse_narrows (narrows : value.Narrows behaviour objects) {invoke : UInt8}
    (wrote : getResponseEncode pool invoke (.data value) (WBuf.init 1024) = .ok () c) : c.out ≠ emptyReply invoke := by
  obtain ⟨⟨⟩, b, header, wrote⟩ := bind_ok_iff.mp wrote
  obtain ⟨d, header', out⟩ := (writeEach_puts [0xC4, 1, invoke, 0]).init (show 4 ≤ 1024 by decide)
  obtain rfl : d = b := by simpa using header'.symm.trans header
  obtain ⟨count, more, same, positive⟩ := valueWrite_narrows conforms narrows (writeValue_ok wrote)
  rw [same, out]
  intro equal
  simp only [emptyReply, List.cons_append, List.nil_append, List.cons.injEq, true_and] at equal
  exact positive equal.1

include conforms in
/-- Whatever is sent for such a value, it is not the empty array. -/
theorem sendGetData_narrows {s : Server σ} (narrows : value.Narrows behaviour objects)
    (room : s.wire.txBuf.length = 1024) (env : Env σ) (invoke : UInt8) : wp (sendGetData env invoke value)
      (fun _ t => ∃ new, t.log = s.log ++ new ∧ ∀ event ∈ new, event.IsReply (· ≠ emptyReply invoke)) s := by
  have allows := allows_notEmpty invoke
  have respond (out : BlockOut) {resp : GetResponse}
      (emits : ∀ c, getResponseEncode s.objects.pool invoke resp (WBuf.init 1024) = .ok () c →
        c.out ≠ emptyReply invoke) :
      wp (sendGetResponse env invoke resp)
        (fun _ t => ∃ new, t.log = s.log ++ new ∧ ∀ event ∈ new, event.IsReply (· ≠ emptyReply invoke))
        { s with pendingGet := out } :=
    (sendGetResponse_repliesAt env allows (s := { s with pendingGet := out })
      (fun c wrote => emits c (room ▸ wrote))).mono fun _ _ replies => replies.log
  by_cases needs : s.needsBlocks invoke value = true
  · rcases sendGetData_blocks env needs with ⟨encoding, -, started⟩ | ⟨-, data, failed⟩
    · rw [wp, started]
      refine respond _ fun c wrote => ?_
      have leaves (number : ℕ) (rawData : List UInt8) : Leaves Extends (do
          ignore (axdrWriteU32 number)
          writeEach [0]
          ignore (dlmsWriteLen rawData.length)
          writeEach rawData) :=
        .bind (.ignore (extends_writeBytes _ _)) fun _ => .bind (extends_writeEach _) fun _ =>
          .bind (.ignore (extends_writeBytes _ _)) fun _ => extends_writeEach _
      rcases starts_of_writeEach (leaves _ _) wrote with short | ⟨behind, starts⟩
      · exact fun equal => absurd short (by simp [equal, emptyReply])
      · rw [starts]
        exact fun equal => absurd equal (by simp [emptyReply])
    · rw [wp, failed]
      refine respond _ fun c wrote => ?_
      obtain ⟨d, header, out⟩ := (writeEach_puts [0xC4, 1, invoke, 1, Dar.temporaryFailure.code]).init
        (show 5 ≤ 1024 by decide)
      obtain rfl : d = c := by simpa using header.symm.trans wrote
      rw [out]
      exact fun equal => absurd (congrArg List.length equal) (by simp [emptyReply])
  · rw [wp, sendGetData, get_bind_apply]
    cases encoded : getResponseEncode s.objects.pool invoke (.data value) (WBuf.init 1024) with
    | error e buf => simp [Server.needsBlocks, encoded] at needs
    | ok u buf =>
      have notEmpty := getResponse_narrows conforms narrows encoded
      by_cases long : buf.out.length > s.sendPayloadMax
      · have cut : s.gbtEnabled = true ∧ buf.out.length > s.gbtPayloadMax := by
          simpa [Server.needsBlocks, encoded, long] using needs
        simp only [if_pos long, if_pos cut]
        have good : (ApduSource.own buf.out).bytes s.wire ≠ emptyReply invoke := notEmpty
        exact (serverSend_replies (P := (· ≠ emptyReply invoke)) env good).mono
          fun _ _ replies => replies.log
      · simp only [if_neg long]
        exact respond s.pendingGet fun c wrote => getResponse_narrows conforms narrows wrote

/-- Some range leaves nothing of it. -/
theorem selectValue_emptied {s : Server σ} (conforms : behaviour.Conforms) {env : Env σ}
    (same : env.behaviour = behaviour) (narrows : value.Narrows behaviour s.objects) :
    ∃ selection none, selectValue env selection 2 value s = some (none, s) ∧
      ∀ pool invoke, Puts (getResponseEncode pool invoke (.data none)) (emptyReply invoke) := by
  subst same
  cases value with
  | array start count =>
    have kept : keepEntries (count + 1) 0 start count s.objects.pool = (s.objects.pool, 0) := by
      unfold keepEntries
      have skips (indices : List ℕ) (small : ∀ i ∈ indices, i < count) (kept : Pool × ℕ) :
          indices.foldl (fun kept i =>
            if count + 1 ≤ i + 1 ∧ (0 = 0 ∨ i + 1 ≤ 0) then
              (kept.1.put (start + kept.2) (kept.1.slots (start + i)), kept.2 + 1)
            else kept) kept = kept := by
        induction indices with
        | nil => rfl
        | cons i rest ih =>
          have before : ¬(count + 1 ≤ i + 1 ∧ (0 = 0 ∨ i + 1 ≤ 0)) := by
            have := small i (by simp)
            omega
          rw [List.foldl_cons, if_neg before]
          exact ih fun j member => small j (by simp [member])
      exact skips _ (by simp) _
    refine ⟨⟨.byEntry, count + 1, 0⟩, .array start 0, ?_, fun pool invoke => ?_⟩
    · simp only [selectValue, true_or, and_self, if_true, get_bind_apply, kept]
      rfl
    · have content : Puts (valueWrite pool (.array start 0)) [1, 0] :=
        (writeBytes_puts [1] _).andThen ((writeBytes_puts [0] _).andThen .pure)
      exact (writeEach_puts [0xC4, 1, invoke, 0]).andThen (writeValue_puts content)
  | owned tag pieces outcome =>
    rcases conforms.view tag pieces outcome s.objects with
      unchanged | ⟨-, entryFrom, entryTo, tag', e, e', emptied⟩
    · obtain ⟨entryFrom, entryTo, changed⟩ := narrows
      exact absurd (unchanged entryFrom entryTo) changed
    · refine ⟨⟨.byEntry, entryFrom, entryTo⟩, .owned tag' [([1], e), ([0], e')] .ok, ?_,
        fun pool invoke => ?_⟩
      · have kept := conforms.select entryFrom entryTo (.owned tag pieces outcome) s.objects
        simp only [selectValue, true_or, and_self, if_true, get_bind_apply, kept, emptied]
        rfl
      · have pieces : Puts (writePieces .ok [([1], e), ([0], e')]) [1, 0] :=
          (writeBytes_puts [1] _).andThen ((writeBytes_puts [0] _).andThen .pure)
        have content : Puts (valueWrite pool (.owned tag' [([1], e), ([0], e')] .ok)) [1, 0] :=
          pieces.needFree (by decide)
        exact (writeEach_puts [0xC4, 1, invoke, 0]).andThen (writeValue_puts content)
  | _ => exact narrows.elim

end Narrows

/-! ## The simplest link -/

/-- The server with the same objects and request, associated without protection on a transport of its own. -/
def Server.probe (s : Server σ) : Server σ :=
  let blank := secContextInit .suite0 .lowest (Vector.replicate 8 0)
  { s with
    aa :=
      { security := blank
        cipherTx := blank
        cipherRx := blank
        associated := true
        association := s.aa.association }
    wire :=
      { s.wire with
        framing := .none
        world := { rx := [] }
        txBuf := List.replicate 1024 0
        links := [] }
    hdlcActive := false
    maxPdu := 1024
    gbtEnabled := false
    pendingPush := {} }

theorem Server.probe_same (s : Server σ) : s.SameRequest s.probe := ⟨rfl, rfl, rfl, rfl⟩

theorem Server.probe_open (s : Server σ) (reader : Reader) : (s.probe.decoded reader).Open :=
  ⟨⟨rfl, rfl, rfl⟩, show Framing.none ≠ .hdlc by decide, rfl, rfl, List.length_replicate⟩

theorem Server.probe_idle (s : Server σ) (reader : Reader) : (s.probe.decoded reader).pendingPush.pending = false :=
  rfl

theorem acceptPlain_probe {s : Server σ} (request : s.rxTag = 0xC0 ∨ s.rxTag = 0xC3) (env : Env σ) (arrived : Bool)
    (len : ℕ) : acceptPlain env arrived len s.probe = acceptService env len s.probe := by
  have single : s.probe.rxTag ≠ 0xE0 := by
    rcases request with get | action
    · rw [show s.probe.rxTag = 0xC0 from get]; decide
    · rw [show s.probe.rxTag = 0xC3 from action]; decide
  have associated : s.probe.aa.associated = true := rfl
  have unciphered : s.probe.aa.cipheringEnabled = false := rfl
  simp only [acceptPlain, get_bind_apply, if_neg single, associated, Bool.not_true, Bool.false_eq_true, if_false]
  simp only [acceptReassembled, get_bind_apply, unciphered, Bool.false_eq_true, false_and, if_false]

theorem shownSince_of_grown {s t : Server (σ × List ClassCall)} {events : List Event}
    (grown : s.log ++ events <+: t.log) :
    ∃ more, shownSince s t = (events.filter Event.shown ++ more, t.objects.hidden.2) := by
  obtain ⟨more, log⟩ := grown
  refine ⟨more.filter Event.shown, ?_⟩
  rw [shownSince, ← log, List.append_assoc, List.drop_left, List.filter_append]

theorem Server.SameRequest.getStored {behaviour : Behaviour σ} {s t : Server σ} {len : ℕ} (same : s.SameRequest t)
    (stored : GetStored behaviour s len) : GetStored behaviour t len := by
  rw [GetStored, Server.rx, same.objects, same.requireAcl, same.association, same.rxBuf]
  exact stored

theorem Server.SameRequest.actionStored {behaviour : Behaviour σ} {s t : Server σ} {len : ℕ} (same : s.SameRequest t)
    (stored : ActionStored behaviour s len) : ActionStored behaviour t len := by
  rw [ActionStored, Server.rx, same.objects, same.requireAcl, same.association, same.rxBuf]
  exact stored

/-- What the request shows does not depend on the structures, whatever link and association it arrives over. -/
def Independent (hal : Hal) (behaviour : Behaviour σ) (stack : Stack) (s : Server (σ × List ClassCall)) (len : ℕ) :
    Prop :=
  ∀ t arrived locals locals', s.SameRequest t →
    shown hal behaviour stack arrived len t locals = shown hal behaviour stack arrived len t locals'

section Needs

variable {hal : Hal} {behaviour : Behaviour σ} {stack : Stack} {s : Server (σ × List ClassCall)} {len : ℕ}
  {reader : Reader} {locals : Locals} {after : Objects (σ × List ClassCall)} {req : GetRequest} {value : Value}

theorem shown_get (isGet : s.rxTag = 0xC0)
    (decoded : getRequestDecode locals.getRequest ⟨s.rx len, s.objects.pool⟩ = .ok req reader) :
    shown hal behaviour stack false len s.probe locals =
      (handleGet ⟨hal, behaviour.recorded, stack.holding locals⟩ req (s.probe.decoded reader)).map
        fun returned => shownSince s.probe returned.2 := by
  rw [shown, acceptPlain_probe (.inl isGet)]
  exact congrArg (Option.map _) (acceptService_get (s := s.probe) _ isGet decoded)

theorem probe_reads (conforms : behaviour.Conforms) {attr : Descriptor}
    (got : dispatcherGet behaviour.recorded s.requireAcl s.aa.association attr .null
      { s.objects with pool := reader.pool } = ((.ok, value), after)) (hal : Hal) (stack : Stack) :
    ∃ t, (∀ locals, dispatchGetAttr ⟨hal, behaviour.recorded, stack.holding locals⟩ attr (s.probe.decoded reader) =
        some (.data value, t)) ∧
      t.Open ∧ t.pendingPush.pending = false ∧ t.maxPdu = 1024 ∧ t.objects = after ∧
      t.log = s.probe.log ++ [.dispatched .get attr s.aa.association] := by
  obtain ⟨item, t, called, -⟩ := dispatchGetAttr_stored conforms.recorded hal stack attr (s.probe.decoded reader)
  have computed := called ⟨.zero, .zero, .null⟩
  have got : dispatcherGet behaviour.recorded (s.probe.decoded reader).requireAcl
    (s.probe.decoded reader).aa.association attr .null (s.probe.decoded reader).objects = ((.ok, value), after) := got
  simp only [dispatchGetAttr, dispatchGet, note, bind_assoc, get_bind_apply, modify_bind_apply, Stack.holding, got,
    set_bind_apply, pure_bind, Machine.pure_apply, Option.some.injEq, Prod.mk.injEq] at computed
  obtain ⟨rfl, rfl⟩ := computed
  exact ⟨_, called, ⟨⟨rfl, rfl, rfl⟩, (s.probe_open reader).wire⟩, rfl, rfl, rfl, rfl⟩

theorem shown_action {req : ActionRequest} (isAction : s.rxTag = 0xC3)
    (decoded : actionRequestDecode locals.actionRequest ⟨s.rx len, s.objects.pool⟩ = .ok req reader) :
    shown hal behaviour stack false len s.probe locals =
      ((if req.isPass3 then handleHlsPass3 ⟨hal, behaviour.recorded, stack.holding locals⟩ req
        else handleAction ⟨hal, behaviour.recorded, stack.holding locals⟩ req) (s.probe.decoded reader)).map
        fun returned => shownSince s.probe returned.2 := by
  rw [shown, acceptPlain_probe (.inr isAction)]
  exact congrArg (Option.map _) (acceptService_action (s := s.probe) _ isAction decoded)

/-- A value that no response without a result has. -/
def someValue : Value := .scalar .boolean 1

theorem actionResponse_null_puts (pool : Pool) (invoke : UInt8) (dar : Dar) :
    Puts (actionResponseEncode pool invoke (.normal dar .null)) [0xC7, 1, invoke, dar.code, 0] :=
  (writeEach_puts [0xC7, 1, invoke, dar.code]).andThen (writeEach_puts [0])

theorem actionResponse_someValue_puts (pool : Pool) (invoke : UInt8) (dar : Dar) :
    Puts (actionResponseEncode pool invoke (.normal dar someValue)) [0xC7, 1, invoke, dar.code, 1, 0, 3, 1] := by
  have content : Puts (valueWrite pool someValue) [3, 1] := (writeBytes_puts [3] _).andThen (writeBytes_puts [1] _)
  exact (writeEach_puts [0xC7, 1, invoke, dar.code]).andThen
    ((writeEach_puts [1, 0]).andThen content.ignore)

/-- A result that nobody stored is sent. -/
theorem action_leaks {iid : UInt8} {method : Descriptor} {err : Err} {push : Option Push} (isAction : s.rxTag = 0xC3)
    {locals' : Locals} {data data' : Value}
    (decoded : actionRequestDecode locals.actionRequest ⟨s.rx len, s.objects.pool⟩ =
      .ok (locals.actionRequest.filled iid method data) reader)
    (decoded' : actionRequestDecode locals'.actionRequest ⟨s.rx len, s.objects.pool⟩ =
      .ok (locals'.actionRequest.filled iid method data') reader)
    (other : (ActionRequest.zero.filled iid method .null).isPass3 = false)
    (calls : dispatcherAction behaviour.recorded s.requireAcl s.aa.association method data .null
      { s.objects with pool := reader.pool } = ((err, .null, push), after))
    (calls' : dispatcherAction behaviour.recorded s.requireAcl s.aa.association method data' someValue
      { s.objects with pool := reader.pool } = ((err, someValue, push), after)) (null : locals.value = .null)
    (some : locals'.value = someValue) :
    shown hal behaviour stack false len s.probe locals ≠ shown hal behaviour stack false len s.probe locals' := by
  have notPass3 (old : ActionRequest) (data : Value) : ¬(old.filled iid method data).isPass3 = true := by
    rw [show (old.filled iid method data).isPass3 = false from other]
    exact Bool.false_ne_true
  obtain ⟨buf, encoded, out⟩ := (actionResponse_null_puts after.pool iid (darOfErr err)).init (show 5 ≤ 1024 by decide)
  obtain ⟨buf', encoded', out'⟩ :=
    (actionResponse_someValue_puts after.pool iid (darOfErr err)).init (show 8 ≤ 1024 by decide)
  obtain ⟨result, t, handled, grown⟩ := handleAction_emits ⟨hal, behaviour.recorded, stack.holding locals⟩
    (locals.actionRequest.filled iid method data) (s.probe_open reader) rfl (by rw [← calls, ← null]; rfl)
    encoded (by simp [out])
  obtain ⟨result', t', handled', grown'⟩ := handleAction_emits ⟨hal, behaviour.recorded, stack.holding locals'⟩
    (locals'.actionRequest.filled iid method data') (s.probe_open reader) rfl (by rw [← calls', ← some]; rfl)
    encoded' (by simp [out'])
  obtain ⟨more, seen⟩ := shownSince_of_grown (s := s.probe) grown
  obtain ⟨more', seen'⟩ := shownSince_of_grown (s := s.probe) grown'
  rw [shown_action isAction decoded, shown_action isAction decoded', if_neg (notPass3 _ _), if_neg (notPass3 _ _),
    handled, handled']
  simp only [Option.map_some, seen, seen', out, out', ne_eq, Option.some.injEq, Prod.mk.injEq, not_and]
  intro same
  simp [List.filter_cons, Event.shown] at same

/-- A call reaches a class, which records the argument, or it is refused and the result stays as it was. -/
theorem dispatcherAction_recorded (behaviour : Behaviour σ) (requireAcl : Bool) (association : Option ℕ)
    (method : Descriptor) (objects : Objects (σ × List ClassCall)) : (∃ inst, ∀ param old,
      (dispatcherAction behaviour.recorded requireAcl association method param old objects).2.hidden.2 =
        objects.hidden.2 ++ [⟨.action, inst, method.id, param⟩]) ∨
    ∃ err, ∀ param old, dispatcherAction behaviour.recorded requireAcl association method param old objects =
      ((err, old, none), objects) := by
  unfold dispatcherAction
  cases objects.find method.classId method.instanceId with
  | none => exact .inr ⟨.notFound, fun _ _ => rfl⟩
  | some e =>
    by_cases callable : (!e.hasInvoke) = true
    · exact .inr ⟨.notFound, fun _ _ => by simp [callable]⟩
    · by_cases refused :
        (!granted requireAcl association objects (·.canInvoke method.classId method.instanceId method.id)) = true
      · exact .inr ⟨.security, fun _ _ => by simp [callable, refused]⟩
      · exact .inl ⟨e.inst, fun param old => by simp [callable, refused, Behaviour.recorded, Objects.withHidden]⟩

/-- The third pass of a handshake with an authenticator from the stack, on a link without a mechanism. -/
theorem pass3_shows (reader : Reader) (env : Env (σ × List ClassCall)) (req : ActionRequest)
    (authenticator : req.data = .octetString [0]) :
    ∃ result t plain, handleHlsPass3 env req (s.probe.decoded reader) = some (result, t) ∧
      (shownSince s.probe t).1 = [.emitted plain plain] := by
  let u : Server (σ × List ClassCall) :=
    { s.probe.decoded reader with
      log := (s.probe.decoded reader).log ++ [.pass3 false] }
  have isOpen : u.Open := ⟨⟨rfl, rfl, rfl⟩, (s.probe_open reader).wire⟩
  obtain ⟨buf, encoded, out⟩ :=
    (actionResponse_null_puts u.objects.pool req.invokeIdPriority .authorizationFailure).init (show 5 ≤ 1024 by decide)
  have sent := sendEncoded_open env isOpen encoded (by simp [out])
  refine ⟨.ok, (u.filling buf.out).emitting buf.out, buf.out, ?_, ?_⟩
  · have failed : hlsPass3Verify env.hal [0] (s.probe.decoded reader).aa.security =
        .error (-1) (s.probe.decoded reader).aa.security := rfl
    have step : handleHlsPass3 env req (s.probe.decoded reader) =
        sendActionResponse env req.invokeIdPriority (.normal .authorizationFailure .null) u := by
      simp only [handleHlsPass3, authenticator, List.length_singleton, Nat.one_ne_zero, if_false, get_bind_apply,
        failed, transition, modify_bind_apply]
      rfl
    rw [step, sendActionResponse, get_bind_apply]
    exact sent
  · have log : ((u.filling buf.out).emitting buf.out).log =
        s.probe.log ++ [.pass3 false, .emitted buf.out buf.out] := by
      simp [Server.emitting, Server.filling, u, Server.decoded]
    rw [shownSince, log, List.drop_left]
    rfl

variable (independent : Independent hal behaviour stack s len)

include independent

/-- Two contents that lead to different descriptors show different calls. -/
theorem no_id_from_stack (service : Service) (locals : UInt8 → Locals)
    (shows : ∀ id ≠ 1, ∃ target more calls, target.id = id ∧ shown hal behaviour stack false len s.probe (locals id) =
      some (.dispatched service target s.aa.association :: more, calls)) : False := by
  obtain ⟨target, more, calls, two, seen⟩ := shows 2 (by decide)
  obtain ⟨target', more', calls', three, seen'⟩ := shows 3 (by decide)
  have same := seen.symm.trans ((independent s.probe false _ _ s.probe_same).trans seen')
  simp only [Option.some.injEq, Prod.mk.injEq, List.cons.injEq, Event.dispatched.injEq, true_and] at same
  have ids := congrArg Descriptor.id same.1.1.1
  rw [two, three] at ids
  exact absurd ids (by decide)

variable (normal : s.wire.rxBuf.getD 1 0 = 1) (bounded : len < 2 ^ 32)

include normal bounded

/-- A GET whose descriptor is cut off addresses whatever the stack says. -/
theorem get_whole (isGet : s.rxTag = 0xC0) (long : 3 ≤ len) : 12 ≤ len := by
  by_contra short
  obtain ⟨change, kept, read⟩ :=
    descriptorRead_cut s.wire.rxBuf s.objects.pool long (show len < 3 + 9 by omega) bounded
  obtain ⟨reader, decoded⟩ := getRequestDecode_of_attr s.objects.pool isGet normal long bounded read
  -- the contents differ in the id, which is never stored
  let locals (id : UInt8) : Locals := ⟨{ GetRequest.zero with attr := ⟨0, Vector.replicate 6 0, id⟩ }, .zero, .null⟩
  refine no_id_from_stack independent .get locals fun id _ => ?_
  obtain ⟨result, t, handled, grown⟩ := handleGet_returns ⟨hal, behaviour.recorded, stack.holding (locals id)⟩
    ((locals id).getRequest.filled (s.wire.rxBuf.getD 2 0) (change (locals id).getRequest.attr))
    (s.probe_open reader).toDirect (s.probe_idle reader) rfl
  obtain ⟨more, seen⟩ := shownSince_of_grown grown
  refine ⟨change (locals id).getRequest.attr, more, t.objects.hidden.2, kept _, ?_⟩
  rw [shown_get isGet (decoded _), handled]
  exact congrArg some seen

/-- An attribute 2 with entries is narrowed to whatever range the stack says. -/
theorem get_unchanged (conforms : behaviour.Conforms) (isGet : s.rxTag = 0xC0) (whole : 12 ≤ len)
    (decoded : getRequestDecode .zero ⟨s.rx len, s.objects.pool⟩ = .ok req reader) (two : req.attr.id = 2)
    (got : dispatcherGet behaviour.recorded s.requireAcl s.aa.association req.attr .null
      { s.objects with pool := reader.pool } = ((.ok, value), after)) :
    ¬value.Narrows behaviour.recorded after := by
  intro narrows
  obtain ⟨attr, read⟩ := descriptorRead_whole s.wire.rxBuf s.objects.pool (show 3 + 9 ≤ len from whole) bounded
  obtain ⟨reader', decodes⟩ := getRequestDecode_of_attr s.objects.pool isGet normal (by omega) bounded read
  obtain ⟨rfl, rfl⟩ : GetRequest.zero.filled (s.wire.rxBuf.getD 2 0) attr = req ∧ reader' = reader := by
    simpa using (decodes .zero).symm.trans decoded
  have got : dispatcherGet behaviour.recorded s.requireAcl s.aa.association attr .null
    { s.objects with pool := reader'.pool } = ((.ok, value), after) := got
  obtain ⟨t, called, isOpen, idle, maxPdu, rfl, log⟩ := probe_reads conforms got hal stack
  let iid := s.wire.rxBuf.getD 2 0
  let env : Env (σ × List ClassCall) := ⟨hal, behaviour.recorded, stack⟩
  have same : env.behaviour = behaviour.recorded := rfl
  obtain ⟨selection, none, emptied, puts⟩ := selectValue_emptied conforms.recorded same narrows
  -- one content without a selection, one with the range that leaves nothing
  have shows (chosen : SelectiveAccess) (selected : Value)
      (select : selectValue env chosen attr.id value t = some (selected, t)) :
      shown hal behaviour stack false len s.probe ⟨{ GetRequest.zero with accessSelection := chosen }, .zero, .null⟩ =
        (sendGetData env iid selected t).map fun returned => shownSince s.probe returned.2 := by
    rw [shown_get isGet (decodes _)]
    refine congrArg (Option.map _) ?_
    change (dispatchGetAttr _ attr >>= _) _ = _
    rw [bind_of_some (called _)]
    exact bind_of_some select
  have all : selectValue env ⟨.none, 0, 0⟩ attr.id value t = some (value, t) := by simp [selectValue]
  have range : selectValue env selection attr.id value t = some (none, t) := by
    rw [show attr.id = 2 from two]
    exact emptied
  have fits : (emptyReply iid).length ≤ t.sendPayloadMax := by
    rw [isOpen.toDirect.sendPayloadMax (by omega), maxPdu]
    simp [emptyReply]
  have sent := sendGetData_open env isOpen idle (puts t.objects.pool iid) fits
  have same := (shows _ _ all).symm.trans ((independent s.probe false _ _ s.probe_same).trans (shows _ _ range))
  rw [sent] at same
  cases returned : sendGetData env iid value t with
  | none => simp [returned] at same
  | some pair =>
    obtain ⟨new, grown, replies⟩ :=
      sendGetData_narrows conforms.recorded narrows isOpen.wire.room env iid pair.1 pair.2 returned
    have shownNew : new.filter Event.shown = [.emitted (emptyReply iid) (emptyReply iid)] := by
      simp only [returned, Option.map_some, Option.some.injEq, shownSince, Prod.mk.injEq, grown, log,
        Server.emitting, Server.filling, List.append_assoc, List.drop_left] at same
      simpa [List.filter_cons, Event.shown] using same.1
    have member : Event.emitted (emptyReply iid) (emptyReply iid) ∈ new.filter Event.shown := by simp [shownNew]
    exact replies _ (List.mem_of_mem_filter member) rfl

variable (isAction : s.rxTag = 0xC3)

include isAction

/-- An ACTION whose descriptor is cut off and still decodes addresses whatever the stack says. -/
theorem action_whole (long : 3 < len) (five : len ≠ 5) (eleven : len ≠ 11) (twelve : len ≠ 12) : 13 ≤ len := by
  by_contra short
  obtain ⟨change, kept, read⟩ :=
    descriptorRead_cut s.wire.rxBuf s.objects.pool long.le (show len < 3 + 9 by omega) bounded
  have behind : 3 + storedOf (len - 3) + 1 ≤ len := by
    simp only [storedOf]
    split_ifs <;> omega
  obtain ⟨keep, reader, parameter, -, -⟩ := actionParameter_at s.wire.rxBuf s.objects.pool behind bounded
  have decoded := actionRequestDecode_of_parts s.objects.pool isAction normal long.le bounded read parameter
  let locals (id : UInt8) : Locals := ⟨.zero, { ActionRequest.zero with method := ⟨0, Vector.replicate 6 0, id⟩ }, .null⟩
  refine no_id_from_stack independent .action locals fun id other => ?_
  let req := (locals id).actionRequest.filled (s.wire.rxBuf.getD 2 0) (change (locals id).actionRequest.method)
    (keep (locals id).actionRequest.data)
  have notPass3 : ¬req.isPass3 = true := by
    have : req.method.id = id := kept _
    simp [ActionRequest.isPass3, this, other]
  obtain ⟨result, t, handled, grown, -⟩ := handleAction_returns
    ⟨hal, behaviour.recorded, stack.holding (locals id)⟩ req (s.probe_open reader).toDirect rfl rfl
  obtain ⟨more, seen⟩ := shownSince_of_grown grown
  refine ⟨req.method, more, t.objects.hidden.2, kept _, ?_⟩
  rw [shown_action isAction (decoded _), if_neg notPass3, handled]
  exact congrArg some seen

/-- A parameter that is announced and missing comes from the stack. -/
theorem action_parameter (whole : 13 ≤ len) : s.wire.rxBuf.getD 12 0 = 0 ∨ 14 ≤ len := by
  by_contra missing
  rw [not_or] at missing
  obtain ⟨method, read⟩ := descriptorRead_whole s.wire.rxBuf s.objects.pool (show 3 + 9 ≤ len by omega) bounded
  obtain ⟨keep, reader, parameter, -, stale⟩ :=
    actionParameter_at s.wire.rxBuf s.objects.pool (show 12 + 1 ≤ len from whole) bounded
  let iid := s.wire.rxBuf.getD 2 0
  have decoded (old : ActionRequest) : actionRequestDecode old ⟨s.rx len, s.objects.pool⟩ =
      .ok (old.filled iid method old.data) reader := by
    have kept := stale missing.1 (show 12 + 1 = len by omega) old.data
    rw [← congrArg (old.filled iid method) kept]
    exact actionRequestDecode_of_parts s.objects.pool isAction normal (by omega) bounded read parameter old
  let locals (data value : Value) : Locals := ⟨.zero, { ActionRequest.zero with data := data }, value⟩
  cases pass3 : (ActionRequest.zero.filled iid method .null).isPass3 with
  | true =>
    have isPass3 (old : ActionRequest) (data : Value) : (old.filled iid method data).isPass3 = true := pass3
    obtain ⟨result, t, plain, handled, seen⟩ := pass3_shows (s := s) reader
      ⟨hal, behaviour.recorded, stack.holding (locals (.octetString [0]) .null)⟩
      ((locals (.octetString [0]) .null).actionRequest.filled iid method (.octetString [0])) rfl
    have same := independent s.probe false (locals (.octetString [0]) .null) (locals .null .null) s.probe_same
    rw [shown_action isAction (decoded _), shown_action isAction (decoded _), if_pos (isPass3 _ _),
      if_pos (isPass3 _ _)] at same
    have same := (congrArg (Option.map _) handled).symm.trans same
    have silent : handleHlsPass3 ⟨hal, behaviour.recorded, stack.holding (locals .null .null)⟩
        ((locals .null .null).actionRequest.filled iid method .null) (s.probe.decoded reader) =
          some (.invalid, s.probe.decoded reader) := rfl
    have same := same.trans (congrArg (Option.map _) silent)
    simp only [Option.map_some, Option.some.injEq] at same
    have shownNone : (shownSince s.probe (s.probe.decoded reader)).1 = [] := by simp [shownSince, Server.decoded]
    rw [same, shownNone] at seen
    cases seen
  | false =>
    have notPass3 (old : ActionRequest) (data : Value) : ¬(old.filled iid method data).isPass3 = true := by
      rw [show (old.filled iid method data).isPass3 = false from pass3]
      exact Bool.false_ne_true
    have same := independent s.probe false (locals .null .null) (locals someValue someValue) s.probe_same
    rcases dispatcherAction_recorded behaviour s.requireAcl s.aa.association method
        { s.objects with pool := reader.pool } with ⟨inst, records⟩ | ⟨err, refuses⟩
    · -- the class is called with different arguments
      have calls (value : Value) : ∃ events, shown hal behaviour stack false len s.probe (locals value value) =
          some (events, s.objects.hidden.2 ++ [⟨.action, inst, method.id, value⟩]) := by
        obtain ⟨⟨⟨err, result, push⟩, after⟩, calls⟩ : ∃ outcome, dispatcherAction behaviour.recorded
            s.requireAcl s.aa.association method value value { s.objects with pool := reader.pool } = outcome :=
          ⟨_, rfl⟩
        obtain ⟨result, t, handled, -, objects⟩ := handleAction_returns
          ⟨hal, behaviour.recorded, stack.holding (locals value value)⟩
          ((locals value value).actionRequest.filled iid method value) (s.probe_open reader).toDirect rfl calls
        have recorded := records value value
        rw [calls] at recorded
        refine ⟨(shownSince s.probe t).1, ?_⟩
        rw [shown_action isAction (decoded _), if_neg (notPass3 _ _)]
        refine (congrArg (Option.map _) handled).trans (congrArg some (Prod.ext rfl ?_))
        exact (congrArg (·.hidden.2) objects).trans recorded
      obtain ⟨events, seen⟩ := calls .null
      obtain ⟨events', seen'⟩ := calls someValue
      have equal := seen.symm.trans (same.trans seen')
      simp [someValue] at equal
    · exact action_leaks isAction (decoded _) (decoded _) pass3 (refuses _ _) (refuses _ _) rfl rfl same

/-- A method that stores nothing is answered from the stack. -/
theorem action_stores (conforms : behaviour.Conforms) (whole : 13 ≤ len)
    (stored : s.wire.rxBuf.getD 12 0 = 0 ∨ 14 ≤ len) {req : ActionRequest}
    (decoded : actionRequestDecode .zero ⟨s.rx len, s.objects.pool⟩ = .ok req reader) (other : req.isPass3 = false)
    (old old' : Value) : dispatcherAction behaviour.recorded s.requireAcl s.aa.association req.method req.data old
        { s.objects with pool := reader.pool } =
      dispatcherAction behaviour.recorded s.requireAcl s.aa.association req.method req.data old'
        { s.objects with pool := reader.pool } := by
  obtain ⟨method, read⟩ := descriptorRead_whole s.wire.rxBuf s.objects.pool (show 3 + 9 ≤ len by omega) bounded
  obtain ⟨keep, reader', parameter, constant, -⟩ :=
    actionParameter_at s.wire.rxBuf s.objects.pool (show 12 + 1 ≤ len from whole) bounded
  have decodes (old : ActionRequest) : actionRequestDecode old ⟨s.rx len, s.objects.pool⟩ =
      .ok (old.filled (s.wire.rxBuf.getD 2 0) method (keep .null)) reader' := by
    rw [constant stored .null old.data]
    exact actionRequestDecode_of_parts s.objects.pool isAction normal (by omega) bounded read parameter old
  obtain ⟨rfl, rfl⟩ : ActionRequest.zero.filled (s.wire.rxBuf.getD 2 0) method (keep .null) = req ∧
      reader' = reader := by
    simpa using (decodes .zero).symm.trans decoded
  obtain ⟨err, push, after, ⟨value, stores⟩ | leaves⟩ := dispatcherAction_whole conforms.recorded s.requireAcl
    s.aa.association { s.objects with pool := reader'.pool } method (keep .null)
  · exact (stores old).trans (stores old').symm
  · have same := independent s.probe false ⟨.zero, .zero, .null⟩ ⟨.zero, .zero, someValue⟩ s.probe_same
    exact absurd same (action_leaks isAction (decodes _) (decodes _) other (leaves _) (leaves _) rfl rfl)

end Needs

/-- Responses and calls are the same for all contents of the structures exactly when everything is stored. -/
theorem responses_independent_iff (hal : Hal) {behaviour : Behaviour σ} (conforms : behaviour.Conforms) (stack : Stack)
    (s : Server (σ × List ClassCall)) {len : ℕ} (two : 2 ≤ len) (received : len ≤ 1024)
    (normal : s.wire.rxBuf.getD 1 0 = 1) (request : s.rxTag = 0xC0 ∨ s.rxTag = 0xC3) :
    Independent hal behaviour stack s len ↔ (s.rxTag = 0xC0 → GetStored behaviour.recorded s len) ∧
        (s.rxTag = 0xC3 → ActionStored behaviour.recorded s len) := by
  have bounded : len < 2 ^ 32 := received.trans_lt (by decide)
  constructor
  · intro independent
    refine ⟨fun isGet => ?_, fun isAction => ?_⟩
    · by_cases short : len = 2
      · exact .inl short
      · have whole := get_whole independent normal bounded isGet (by omega)
        exact .inr ⟨whole, fun req reader value after decoded two got =>
          get_unchanged independent normal bounded conforms isGet whole decoded two got⟩
    · by_cases refused : len ≤ 3 ∨ len = 5 ∨ len = 11 ∨ len = 12
      · rcases refused with short | five | eleven | twelve
        · exact .inl short
        · exact .inr (.inl five)
        · exact .inr (.inr (.inl eleven))
        · exact .inr (.inr (.inr (.inl twelve)))
      · simp only [not_or] at refused
        obtain ⟨short, five, eleven, twelve⟩ := refused
        have whole := action_whole independent normal bounded isAction (by omega) five eleven twelve
        have stored := action_parameter independent normal bounded isAction whole
        exact .inr (.inr (.inr (.inr ⟨whole, stored, fun req reader decoded other old old' =>
          action_stores independent normal bounded isAction conforms whole stored decoded other old old'⟩)))
  · rintro ⟨getStored, actionStored⟩ t arrived locals locals' same
    have tag : t.rxTag = s.rxTag := by rw [Server.rxTag, same.rxBuf]; rfl
    rcases request with isGet | isAction
    · have isGet' : t.rxTag = 0xC0 := tag.trans isGet
      refine congrArg (Option.map _) (acceptPlain_congr (.inl isGet') ?_ ?_)
      · have other : ¬t.rxTag = 0xC3 := by rw [isGet']; decide
        simp only [acceptUnassociated, get_bind_apply, other, and_false, if_false]
        rfl
      · exact get_independent conforms.recorded isGet' (same.rxBuf ▸ normal) bounded
          (same.getStored (getStored isGet)) locals locals'
    · have isAction' : t.rxTag = 0xC3 := tag.trans isAction
      have normal' : t.wire.rxBuf.getD 1 0 = 1 := same.rxBuf ▸ normal
      have stored := same.actionStored (actionStored isAction)
      refine congrArg (Option.map _) (acceptPlain_congr (.inr isAction') ?_ ?_)
      · exact (action_independent isAction' normal' two bounded stored locals locals').2
      · exact (action_independent isAction' normal' two bounded stored locals locals').1

/-! ## A request that is answered from the objects, and one that is answered from the stack -/

theorem sampleBehaviour_conforms : sampleBehaviour.Conforms where
  get _ _ objects := ⟨.ok, .scalar .unsigned 42, objects, fun _ => ⟨_, rfl, fun _ => rfl⟩⟩
  invoke _ _ _ objects := ⟨.ok, none, objects, .inl ⟨.null, fun _ => rfl⟩⟩
  select _ _ _ _ := rfl
  view _ _ _ _ := .inl fun _ _ => rfl

/-- The sample objects behind an association, with a request in the receive buffer. -/
def residueServer (request : List UInt8) : Server (Unit × List ClassCall) :=
  let s := serverInit .none 1 16 { rx := [] } (sampleObjects.withHidden ((), []))
  { s with
    aa.associated := true
    aa.association := some 0
    wire.rxBuf := overwrite s.wire.rxBuf request }

def residueGet : List UInt8 := [0xC0, 1, 0xC1, 0, 1, 1, 0, 0, 0, 0, 255, 2, 0]

theorem responses_independent_iff_read :
    Independent sampleHal sampleBehaviour sampleStack (residueServer residueGet) 13 ∧
      GetStored sampleBehaviour.recorded (residueServer residueGet) 13 := by
  have stored : GetStored sampleBehaviour.recorded (residueServer residueGet) 13 := by
    refine .inr ⟨by decide, fun req reader value after _ _ got => ?_⟩
    have scalar : value = .scalar .unsigned 42 := by
      unfold dispatcherGet at got
      split at got
      · cases got
      · split_ifs at got
        · exact absurd (congrArg (·.1.1) got) (by simp)
        · exact absurd (congrArg (·.1.1) got) (by simp)
        · exact (congrArg (·.1.2) got).symm
    rw [scalar]
    exact id
  have iff := responses_independent_iff sampleHal sampleBehaviour_conforms sampleStack (residueServer residueGet)
    (show 2 ≤ 13 by decide) (by decide) (by decide +kernel) (.inl (by decide +kernel))
  exact ⟨iff.mpr ⟨fun _ => stored, fun action => absurd action (by decide +kernel)⟩, stored⟩

/-- An ACTION on an object that is not registered. -/
def unknownAction : List UInt8 := [0xC3, 1, 0xC1, 0, 70, 0, 0, 96, 3, 10, 255, 1, 0]

/-- The octet string in the response is what the stack held. -/
theorem action_answered_from_stack :
    let method : Descriptor := ⟨70, #v[0, 0, 96, 3, 10, 255], 1⟩
    let answer (value : Value) := shown sampleHal sampleBehaviour sampleStack false 13 (residueServer unknownAction)
      ⟨.zero, .zero, value⟩
    answer .null = some ([.dispatched .action method (some 0),
        .emitted [0xC7, 1, 0xC1, 4, 0] [0xC7, 1, 0xC1, 4, 0]], []) ∧
      answer (.octetString [0xAB, 0xCD]) = some ([.dispatched .action method (some 0),
        .emitted [0xC7, 1, 0xC1, 4, 1, 0, 9, 2, 0xAB, 0xCD] [0xC7, 1, 0xC1, 4, 1, 0, 9, 2, 0xAB, 0xCD]], []) := by
  decide +kernel

end OpenSpodes
