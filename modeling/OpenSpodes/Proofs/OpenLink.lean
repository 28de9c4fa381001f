import OpenSpodes.Proofs.ServiceFrame

/-! # Sending over an open link

A server whose messages leave unprotected, whole and outside a session sends everything it encodes. `Server.Open`
is such a server on a transport that takes every frame, and `Server.emitting` is what one message leaves behind.
-/

namespace OpenSpodes

open Bytes Machine

variable {σ : Type}

/-- No session, and a transport that takes every frame. -/
structure Wire.Open (w : Wire) : Prop where
  framing : w.framing ≠ .hdlc
  sends : w.world.sends = []
  links : w.links = []
  room : w.txBuf.length = 1024

def Wire.framed (w : Wire) (apdu : List UInt8) : List UInt8 :=
  match w.framing with
  | .wrapper =>
      [0x00, 0x01] ++ beBytes 2 w.wrapperSource ++ beBytes 2 w.wrapperDest ++ beBytes 2 apdu.length ++ apdu
  | _ => apdu

def Wire.delivered (w : Wire) (apdu : List UInt8) : Wire :=
  w.setWorld { w.world with sent := w.world.sent ++ [w.framed apdu] }

/-- The server neither protects nor cuts its messages, and sends them outside a session. -/
structure Server.Direct (s : Server σ) : Prop where
  plain : s.aa.cipheringEnabled = false
  gbtEnabled : s.gbtEnabled = false
  hdlcActive : s.hdlcActive = false

/-- Such a server over such a link. -/
structure Server.Open (s : Server σ) : Prop extends Server.Direct s where
  wire : s.wire.Open

def Server.emitting (s : Server σ) (bytes : List UInt8) : Server σ :=
  { s with wire := s.wire.delivered bytes, log := s.log ++ [.emitted bytes bytes] }

def Server.filling (s : Server σ) (bytes : List UInt8) : Server σ :=
  { s with wire := s.wire.fillTx bytes }

section Link

variable {w : Wire} {apdu : List UInt8}

theorem frameApdu_open (isOpen : w.Open) (small : apdu.length ≤ 1024) : frameApdu w apdu = .ok (w.framed apdu) := by
  have fits : ¬apdu.length > framedSize := by simp only [framedSize, hdlcMaxFrameSize]; omega
  have framed : ¬apdu.length + 8 > framedSize := by simp only [framedSize, hdlcMaxFrameSize]; omega
  cases framing : w.framing with
  | none => simp [frameApdu, Wire.framed, framing, fits]
  | hdlc => exact absurd framing isOpen.framing
  | wrapper => simp [frameApdu, Wire.framed, framing, wrapperEncode, framed]

theorem transportSendApdu_open (isOpen : w.Open) (small : apdu.length ≤ 1024) :
    transportSendApdu apdu w = some (.ok, w.delivered apdu) := by
  rw [transportSendApdu, get_bind_apply, frameApdu_open isOpen small]
  have sends := isOpen.sends
  simp only [transportSend, get_bind_apply, modify_bind_apply, pure_apply, sends, List.headD_nil, List.tail_nil,
    if_true, Wire.delivered]

theorem Wire.Open.delivered (isOpen : w.Open) : (w.delivered apdu).Open :=
  ⟨isOpen.framing, isOpen.sends, isOpen.links, isOpen.room⟩

theorem Wire.Open.fillTx (isOpen : w.Open) (small : apdu.length ≤ 1024) : (w.fillTx apdu).Open := by
  refine ⟨isOpen.framing, isOpen.sends, isOpen.links, ?_⟩
  have := isOpen.room
  simp only [Wire.fillTx, overwrite, List.length_append, List.length_drop]
  omega

/-- Outside a session the transport never waits. -/
theorem transportSendApdu_returns (apdu : List UInt8) (w : Wire) :
    ∃ result after, transportSendApdu apdu w = some (result, after) := by
  rw [transportSendApdu, get_bind_apply]
  cases frameApdu w apdu with
  | error err => exact ⟨err, w, rfl⟩
  | ok framed => exact ⟨_, _, rfl⟩

end Link

section Server

variable {s : Server σ} {bytes : List UInt8}

theorem Server.Open.emitting (isOpen : s.Open) : (s.emitting bytes).Open :=
  ⟨⟨isOpen.plain, isOpen.gbtEnabled, isOpen.hdlcActive⟩, isOpen.wire.delivered⟩

theorem Server.Open.filling (isOpen : s.Open) (small : bytes.length ≤ 1024) : (s.filling bytes).Open :=
  ⟨⟨isOpen.plain, isOpen.gbtEnabled, isOpen.hdlcActive⟩, isOpen.wire.fillTx small⟩

theorem onWire_of_some {α : Type} {program : Program Wire α} {a : α} {after : Wire}
    (links : s.wire.links = []) (kept : after.links = []) (returned : program s.wire = some (a, after)) :
    onWire program s = some (a, { s with wire := after }) := by
  have same : { s.wire with links := [] } = s.wire := by rw [← links]
  have same' : { after with links := [] } = after := by rw [← kept]
  simp only [onWire, zoom, same, returned, Option.map_some, kept, same', List.map_nil, List.append_nil]

theorem onWire_fillTx_open (isOpen : s.Open) (bytes : List UInt8) :
    onWire (modify (·.fillTx bytes)) s = some (⟨⟩, s.filling bytes) := by
  have filled : (modify (·.fillTx bytes) : Program Wire PUnit) s.wire = some (⟨⟩, s.wire.fillTx bytes) := rfl
  exact onWire_of_some isOpen.wire.links isOpen.wire.links filled

variable (env : Env σ)

theorem serverSend_open (isOpen : s.Open) {source : ApduSource} (small : (source.bytes s.wire).length ≤ 1024) :
    serverSend env source s = some (.ok, s.emitting (source.bytes s.wire)) := by
  simp only [serverSend, get_bind_apply, isOpen.plain, Bool.false_eq_true, false_and, if_false]
  simp only [Server.emitting, serverTransmit, note, get_bind_apply, modify_bind_apply, isOpen.gbtEnabled, isOpen.hdlcActive,
    Bool.false_eq_true, false_and, if_false]
  exact onWire_of_some isOpen.wire.links isOpen.wire.links (transportSendApdu_open isOpen.wire small)

/-- What is encoded within the transmit buffer leaves. -/
theorem sendEncoded_open (isOpen : s.Open) {encode : Write Unit} {buf : WBuf}
    (encoded : encode (WBuf.init 1024) = .ok () buf) (small : buf.out.length ≤ 1024) :
    sendEncoded env encode s = some (.ok, (s.filling buf.out).emitting buf.out) := by
  have filled : encodeTx encode s = some (some buf.out.length, s.filling buf.out) := by
    rw [encodeTx, get_bind_apply, isOpen.wire.room, encoded]
    exact bind_of_some (onWire_fillTx_open isOpen buf.out)
  have content : (ApduSource.txBuf buf.out.length).bytes (s.filling buf.out).wire = buf.out :=
    padTo_overwrite s.wire.txBuf buf.out
  rw [sendEncoded, bind_of_some filled]
  have sent := serverSend_open env (isOpen.filling small) (content.symm ▸ small)
  rwa [content] at sent

/-! ## Sending returns -/

/-- A message left, or was dropped. -/
structure Server.Sent (s t : Server σ) : Prop where
  aa : t.aa = s.aa
  gbtEnabled : t.gbtEnabled = s.gbtEnabled
  hdlcActive : t.hdlcActive = s.hdlcActive
  objects : t.objects = s.objects
  pendingPush : t.pendingPush = s.pendingPush
  log : s.log <+: t.log

theorem Server.Sent.trans {t u : Server σ} (first : s.Sent t) (second : t.Sent u) : s.Sent u :=
  ⟨second.aa.trans first.aa, second.gbtEnabled.trans first.gbtEnabled, second.hdlcActive.trans first.hdlcActive,
    second.objects.trans first.objects, second.pendingPush.trans first.pendingPush, first.log.trans second.log⟩

theorem Server.Sent.direct {t : Server σ} (sent : s.Sent t) (direct : s.Direct) : t.Direct :=
  ⟨sent.aa ▸ direct.plain, sent.gbtEnabled.trans direct.gbtEnabled, sent.hdlcActive.trans direct.hdlcActive⟩

theorem serverSend_returns (direct : s.Direct) (source : ApduSource) :
    ∃ result t, serverSend env source s = some (result, t) ∧ s.Sent t := by
  obtain ⟨result, after, sent⟩ := transportSendApdu_returns (source.bytes s.wire) { s.wire with links := [] }
  simp only [serverSend, serverTransmit, note, get_bind_apply, modify_bind_apply, direct.plain,
    direct.gbtEnabled, direct.hdlcActive, Bool.false_eq_true, false_and, if_false]
  simp only [onWire, zoom, sent, Option.map_some]
  exact ⟨_, _, rfl, rfl, direct.gbtEnabled.symm, direct.hdlcActive.symm, rfl, rfl, _, (List.append_assoc _ _ _).symm⟩

theorem sendEncoded_returns (direct : s.Direct) (encode : Write Unit) :
    ∃ result t, sendEncoded env encode s = some (result, t) ∧ s.Sent t := by
  have filled (bytes : List UInt8) :
      ∃ t, onWire (modify (·.fillTx bytes)) s = some (⟨⟩, t) ∧ s.Sent t :=
    ⟨_, rfl, rfl, rfl, rfl, rfl, rfl, _, rfl⟩
  rw [sendEncoded, encodeTx]
  cases encoded : encode (WBuf.init s.wire.txBuf.length) with
  | error e buf =>
    obtain ⟨t, fills, sent⟩ := filled buf.out
    refine ⟨.invalid, t, ?_, sent⟩
    simp only [bind_assoc, get_bind_apply, encoded]
    rw [bind_of_some fills]
    rfl
  | ok u buf =>
    obtain ⟨t, fills, before⟩ := filled buf.out
    obtain ⟨result, u, returned, sent⟩ := serverSend_returns env (before.direct direct) (.txBuf buf.out.length)
    refine ⟨result, u, ?_, before.trans sent⟩
    simp only [bind_assoc, get_bind_apply, encoded]
    rw [bind_of_some fills]
    exact returned

theorem serverFlushPendingPush_returns (direct : s.Direct) :
    ∃ result t, serverFlushPendingPush env s = some (result, t) ∧ s.log <+: t.log ∧ t.objects = s.objects := by
  rw [serverFlushPendingPush, get_bind_apply]
  by_cases pending : s.pendingPush.pending = true
  · rw [if_pos pending, set_bind_apply]
    obtain ⟨result, t, returned, sent⟩ := sendEncoded_returns env
      (s := { s with pendingPush := { s.pendingPush with pending := false, deferFlush := false } })
      ⟨direct.plain, direct.gbtEnabled, direct.hdlcActive⟩
      (dataNotificationEncode s.objects.pool s.pendingPush.notification)
    exact ⟨result, t, returned, sent.log, sent.objects⟩
  · rw [if_neg pending]
    exact ⟨.ok, s, rfl, List.prefix_refl _, rfl⟩

theorem serverFlushAction_returns (direct : s.Direct) (result : Err) :
    ∃ after t, serverFlushAction env result s = some (after, t) ∧ s.log <+: t.log ∧ t.objects = s.objects := by
  rw [serverFlushAction, get_bind_apply, direct.hdlcActive]
  by_cases failed : result ≠ .ok
  · exact ⟨result, s, by simp [failed], List.prefix_refl _, rfl⟩
  · simpa [failed] using serverFlushPendingPush_returns env direct

/-- Without a notification in the queue nothing follows a response. -/
theorem serverFlushDeferred_idle (idle : s.pendingPush.pending = false) (result : Err) :
    serverFlushDeferred env result s = some (result, s) := by
  rw [serverFlushDeferred, get_bind_apply, idle]
  cases result <;> simp

theorem sendGetResponse_returns (direct : s.Direct) (idle : s.pendingPush.pending = false)
    (invoke : UInt8) (resp : GetResponse) :
    ∃ result t, sendGetResponse env invoke resp s = some (result, t) ∧ s.log <+: t.log ∧ t.objects = s.objects := by
  obtain ⟨result, t, returned, sent⟩ := sendEncoded_returns env direct
    (getResponseEncode s.objects.pool invoke resp)
  refine ⟨result, t, ?_, sent.log, sent.objects⟩
  rw [sendGetResponse, get_bind_apply, bind_of_some returned]
  exact serverFlushDeferred_idle env (sent.pendingPush ▸ idle) result

/-! ## Responses -/

theorem Server.Direct.sendPayloadMax (direct : s.Direct) (positive : 0 < s.maxPdu) :
    s.sendPayloadMax = min s.maxPdu 256 := by
  simp [Server.sendPayloadMax, direct.hdlcActive, positive]

/-- A value whose response fits leaves in one message. -/
theorem sendGetData_open (isOpen : s.Open) (idle : s.pendingPush.pending = false) {invoke : UInt8}
    {value : Value} (puts : Puts (getResponseEncode s.objects.pool invoke (.data value)) bytes)
    (small : bytes.length ≤ s.sendPayloadMax) :
    sendGetData env invoke value s = some (.ok, (s.filling bytes).emitting bytes) := by
  have capped : s.sendPayloadMax ≤ 256 := min_le_right _ _
  obtain ⟨buf, encoded, rfl⟩ := puts.init (show bytes.length ≤ 1024 by omega)
  rw [sendGetData, get_bind_apply, encoded]
  simp only [if_neg (Nat.not_lt.mpr small)]
  rw [sendGetResponse, get_bind_apply, bind_of_some (sendEncoded_open env isOpen encoded (by omega))]
  have quiet : ((s.filling buf.out).emitting buf.out).pendingPush.pending = false := idle
  exact serverFlushDeferred_idle env quiet .ok

end Server

end OpenSpodes
