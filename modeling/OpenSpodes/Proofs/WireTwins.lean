import OpenSpodes.Machine.TwoRuns
import OpenSpodes.Model.Gbt
import OpenSpodes.Model.HdlcSession

/-! # Two links that differ in what lies in their buffers

What was sent before, the last frame, and old bytes in the buffers of a link are its residue. Two links
that are the same apart from their residue send and deliver alike from then on. Of the transmit and the
receive buffer a given number of bytes may be known to be the same; whatever is written to one is written
to the other.
-/

namespace OpenSpodes

open Bytes Machine

variable (size : ℕ)

/-- What earlier messages leave in a link. -/
structure WireResidue where
  sent : List (List UInt8)
  sessionRx : List UInt8
  lastSentInfo : List UInt8
  lastSentSeq : UInt8
  txBuf : List UInt8
  rxBuf : List UInt8

def Wire.graft (w : Wire) (r : WireResidue) : Wire :=
  { w with
    hdlc :=
      { w.hdlc with rxBuf := r.sessionRx, lastSentInfo := r.lastSentInfo, lastSentSeq := r.lastSentSeq }
    world := { w.world with sent := r.sent }
    txBuf := r.txBuf
    rxBuf := r.rxBuf }

/-- What two runs have in common that is not in the present states: what each had sent at the start, the
size of a frame and the room for a received APDU. -/
structure WireOrigin where
  sentLeft : List (List UInt8)
  sentRight : List (List UInt8)
  maxInfoTx : ℕ
  room : ℕ

/-- The residue goes with a link: both sent the same since the start, their buffers have the same sizes,
and agree in the first `tx` and the first `rx` bytes. -/
structure WireResidue.Fits (o : WireOrigin) (tx rx : ℕ) (w : Wire) (r : WireResidue) : Prop where
  sent : ∃ later, w.world.sent = o.sentLeft ++ later ∧ r.sent = o.sentRight ++ later
  maxInfoTx : w.hdlc.xid.maxInfoTx = o.maxInfoTx
  txLength : r.txBuf.length = w.txBuf.length
  rxLength : r.rxBuf.length = w.rxBuf.length
  rxRoom : o.room ≤ w.rxBuf.length
  rxShort : w.rxBuf.length < 2 ^ 32
  tx : r.txBuf.take tx = w.txBuf.take tx
  rx : r.rxBuf.take rx = w.rxBuf.take rx

/-- Two links that are the same apart from their residue. -/
def WireTwins (o : WireOrigin) (tx rx : ℕ) (w v : Wire) : Prop := ∃ r, v = w.graft r ∧ r.Fits o tx rx w

/-! ## Buffers -/

theorem take_overwrite_self (mem bytes : List UInt8) : (overwrite mem bytes).take bytes.length = bytes := by
  simp [overwrite]

/-- Writing the same bytes over two areas keeps what they have in common. -/
theorem take_overwrite {mem mem' : List UInt8} {n : ℕ} (same : mem'.take n = mem.take n) (bytes : List UInt8) :
    (overwrite mem' bytes).take (max n bytes.length) = (overwrite mem bytes).take (max n bytes.length) := by
  rcases Nat.le_total n bytes.length with shorter | longer
  · rw [Nat.max_eq_right shorter, take_overwrite_self, take_overwrite_self]
  · rw [Nat.max_eq_left longer, overwrite, overwrite, List.take_append, List.take_append, List.take_drop,
      List.take_drop, Nat.add_sub_cancel' longer, same]

theorem take_mono {mem mem' : List UInt8} {m n : ℕ} (same : mem'.take n = mem.take n) (less : m ≤ n) :
    mem'.take m = mem.take m := by
  rw [← Nat.min_eq_left less, ← List.take_take, ← List.take_take, same]

/-- The bytes of a source are among the first `tx` of the transmit buffer, or bytes of its own. -/
def ApduSource.Within (tx : ℕ) : ApduSource → Prop
  | own _ => True
  | txBuf len => len ≤ tx

namespace WireTwins

variable {o : WireOrigin} {tx rx : ℕ} {w v : Wire}

theorem weaken {tx' rx' : ℕ} (twins : WireTwins o tx rx w v) (lessTx : tx' ≤ tx) (lessRx : rx' ≤ rx) :
    WireTwins o tx' rx' w v := by
  obtain ⟨r, rfl, fits⟩ := twins
  exact ⟨r, rfl, { fits with tx := take_mono fits.tx lessTx, rx := take_mono fits.rx lessRx }⟩

theorem fillTx (twins : WireTwins o tx rx w v) (bytes : List UInt8) :
    WireTwins o (max tx bytes.length) rx (w.fillTx bytes) (v.fillTx bytes) := by
  obtain ⟨r, rfl, fits⟩ := twins
  refine ⟨{ r with txBuf := overwrite r.txBuf bytes }, rfl, { fits with txLength := ?_, tx := ?_ }⟩
  · simp only [Wire.fillTx, length_overwrite, fits.txLength]
  · exact take_overwrite fits.tx bytes

theorem fillRx (twins : WireTwins o tx rx w v) {bytes : List UInt8} (short : bytes.length < 2 ^ 32) :
    WireTwins o tx (max rx bytes.length) (w.fillRx bytes) (v.fillRx bytes) := by
  obtain ⟨r, rfl, fits⟩ := twins
  refine ⟨{ r with rxBuf := overwrite r.rxBuf bytes }, rfl,
    { fits with rxLength := ?_, rxRoom := ?_, rxShort := ?_, rx := ?_ }⟩
  · simp only [Wire.fillRx, length_overwrite, fits.rxLength]
  · simp only [Wire.fillRx, length_overwrite]
    exact fits.rxRoom.trans (le_max_left _ _)
  · simp only [Wire.fillRx, length_overwrite]
    exact max_lt fits.rxShort short
  · exact take_overwrite fits.rx bytes

theorem bytes {source : ApduSource} (twins : WireTwins o tx rx w v) (inside : source.Within tx) :
    source.bytes v = source.bytes w := by
  obtain ⟨r, rfl, fits⟩ := twins
  cases source with
  | own apdu => rfl
  | txBuf len =>
    change padTo len r.txBuf = padTo len w.txBuf
    have less : len ≤ tx := inside
    rw [padTo, padTo, fits.txLength, take_mono fits.tx less]

end WireTwins

/-! ## Transport -/

section Transport

variable {o : WireOrigin} {tx rx : ℕ} (room : ℕ) (apdu : List UInt8)

theorem transportSend_twin (bytes : List UInt8) : Twin (WireTwins o tx rx) (transportSend bytes) := by
  rintro w _ ⟨r, rfl, fits⟩
  refine .get_bind (.modify_bind (.pure _ ?_))
  refine ⟨{ r with sent := if w.world.sends.headD .ok = .ok then r.sent ++ [bytes] else r.sent }, rfl, ?_⟩
  obtain ⟨later, left, right⟩ := fits.sent
  refine { fits with sent := ⟨if w.world.sends.headD .ok = .ok then later ++ [bytes] else later, ?_, ?_⟩ }
  · simp only [Wire.setWorld, left]
    split <;> simp
  · simp only [right]
    split <;> simp

theorem randomFill_twin (n : ℕ) : Twin (WireTwins o tx rx) (randomFill n) := by
  rintro w _ ⟨r, rfl, fits⟩
  exact .get_bind (.modify_bind (.pure _ ⟨r, rfl, { fits with }⟩))

theorem nextRx_twin : Twin (WireTwins o tx rx) (nextRx room) := by
  rintro w _ ⟨r, rfl, fits⟩
  refine .get_bind ?_
  dsimp only
  rw [show (w.graft r).world.rx = w.world.rx from rfl]
  cases w.world.rx with
  | nil => exact .blocked
  | cons event rest =>
    refine .modify_bind ?_
    have kept : WireTwins o tx rx (w.setWorld { w.world with rx := rest })
        ((w.graft r).setWorld { (w.graft r).world with rx := rest }) := ⟨r, rfl, { fits with }⟩
    cases event with
    | expired => exact .pure _ kept
    | failed err => exact .pure _ kept
    | bytes data => exact .pure _ kept

theorem transportRecv_twin : Twin (WireTwins o tx rx) (transportRecv room) := by
  intro w v twins
  refine (nextRx_twin room w v twins).bind fun event s t twins => ?_
  cases event with
  | bytes | expired => exact .pure _ twins
  | failed err => cases err <;> exact .pure _ twins

theorem transportSendApdu_twin : Twin (WireTwins o tx rx) (transportSendApdu apdu) := by
  rintro w _ ⟨r, rfl, fits⟩
  refine .get_bind ?_
  rw [show frameApdu (w.graft r) apdu = frameApdu w apdu from rfl]
  cases frameApdu w apdu with
  | error err => exact .pure _ ⟨r, rfl, fits⟩
  | ok framed => exact transportSend_twin framed w _ ⟨r, rfl, fits⟩

theorem transportRecvApdu_twin : Twin (WireTwins o tx rx) (transportRecvApdu size) := by
  intro w v twins
  refine (transportRecv_twin _ w v twins).bind fun received s t twins => ?_
  cases received with
  | error err => exact .pure _ twins
  | ok raw =>
    obtain ⟨r, rfl, fits⟩ := twins
    exact .get_bind (.pure _ ⟨r, rfl, fits⟩)

/-- A received APDU fits the room it was received for. -/
theorem transportRecvApdu_length (w : Wire) :
    wp (transportRecvApdu size) (fun received _ => ∀ apdu, received = .ok apdu → apdu.length ≤ size) w := by
  have checked (apdu : List UInt8) : ∀ got, (if apdu.length > size then .error Err.nomem else .ok apdu) = Except.ok got →
      got.length ≤ size := by
    intro got
    split
    · intro failed
      cases failed
    · next fits =>
        rintro ⟨⟩
        exact Nat.not_lt.mp fits
  unfold transportRecvApdu
  rw [wp_bind]
  intro received v _
  cases received with
  | error err => simp
  | ok raw =>
    simp only [wp_bind, wp_get, wp_pure, unframeApdu]
    cases v.framing with
    | none => exact checked raw
    | wrapper =>
      dsimp only
      cases wrapperDecode raw with
      | error err => simp
      | ok apdu => exact checked apdu
    | hdlc =>
      dsimp only
      cases hdlcDeframe raw raw.length with
      | mk err frame => cases err <;> first | exact checked frame.info | simp

/-! ## Sessions -/

theorem sessionSendFrame_twin (frame : HdlcFrame) : Twin (WireTwins o tx rx) (sessionSendFrame frame) := by
  intro w v twins
  unfold sessionSendFrame
  cases hdlcFrame frame sessionBufSize with
  | error err => exact .pure _ twins
  | ok bytes => exact transportSend_twin bytes w v twins

theorem hdlcSessionSendApdu_twin : Twin (WireTwins o tx rx) (hdlcSessionSendApdu apdu) := by
  rintro w _ ⟨r, rfl, fits⟩
  refine .get_bind (.ite (fun _ => .pure _ ⟨r, rfl, fits⟩) fun _ => ?_)
  refine .ite (fun _ => .pure _ ⟨r, rfl, fits⟩) fun _ => ?_
  refine (sessionSendFrame_twin _ w _ ⟨r, rfl, fits⟩).bind fun result s t twins => ?_
  refine .ite (fun _ => ?_) fun _ => .pure _ twins
  obtain ⟨r, rfl, fits⟩ := twins
  refine .modify_bind (.pure _ ⟨{ r with lastSentInfo := _, lastSentSeq := _ }, rfl, { fits with }⟩)

end Transport

/-! ## General block transfer -/

section Blocks

variable {o : WireOrigin} {tx rx : ℕ} (stale : List UInt8)

theorem gbtSendBlock_twin (gbt : GeneralBlock) : Twin (WireTwins o tx rx) (gbtSendBlock gbt) := by
  intro w v twins
  have length : v.txBuf.length = w.txBuf.length := by
    obtain ⟨r, rfl, fits⟩ := twins
    exact fits.txLength
  refine .get_bind ?_
  rw [length]
  cases gbtEncode gbt (WBuf.init w.txBuf.length) with
  | error e buf => exact .pure _ twins
  | ok u buf =>
    refine .modify_bind ?_
    exact transportSendApdu_twin buf.out _ _ ((twins.fillTx buf.out).weaken (le_max_left _ _) le_rfl)

theorem gbtRecvBlock_twin : Twin (WireTwins o tx rx) (gbtRecvBlock stale) := by
  intro w v twins
  have length : v.rxBuf.length = w.rxBuf.length ∧ w.rxBuf.length < 2 ^ 32 := by
    obtain ⟨r, rfl, fits⟩ := twins
    exact ⟨fits.rxLength, fits.rxShort⟩
  refine .get_bind ?_
  rw [length.1]
  refine (transportRecvApdu_twin _ w v twins).bind_of_wp _ (transportRecvApdu_length _ w)
    fun received s t twins bounded => ?_
  cases received with
  | error err => exact .pure _ twins
  | ok apdu =>
    have short : apdu.length < 2 ^ 32 := lt_of_le_of_lt (bounded apdu rfl) length.2
    exact .modify_bind (.pure _ ((twins.fillRx short).weaken le_rfl (le_max_left _ _)))

theorem gbtWaitForAck_twin (number : ℕ) : Twin (WireTwins o tx rx) (gbtWaitForAck stale number) := by
  intro w v twins
  refine (gbtRecvBlock_twin stale w v twins).bind fun received s t twins => ?_
  cases received with
  | error err => exact .pure _ twins
  | ok ack =>
    exact .ite (fun _ => .pure _ twins) fun _ => .ite (fun _ => .pure _ twins) fun _ => .pure _ twins

theorem gbtSendLoop_twin (send : GbtSend) (inside : send.source.Within tx) (fuel : ℕ) (pos : GbtPos) :
    Twin (WireTwins o tx rx) (gbtSendLoop stale send fuel pos) := by
  induction fuel generalizing pos with
  | zero => exact fun _ _ _ => .blocked
  | succ fuel ih =>
    intro w v twins
    refine .ite (fun _ => .get_bind ?_) fun _ => .pure _ twins
    -- the blocks are cut out of bytes that are the same on both sides
    rw [twins.bytes inside]
    refine (gbtSendBlock_twin _ w v twins).bind fun result s t twins => ?_
    refine .ite (fun _ => .pure _ twins) fun _ => .ite (fun _ => ?_) fun _ => ih _ s t twins
    refine (gbtWaitForAck_twin stale _ s t twins).bind fun acked s t twins => ?_
    cases acked with
    | error err => exact .pure _ twins
    | ok acked => exact ih _ s t twins

theorem gbtTransportSend_twin {send : GbtSend} (inside : send.source.Within tx) :
    Twin (WireTwins o tx rx) (gbtTransportSend stale send) := by
  intro w v twins
  refine .ite (fun _ => .pure _ twins) fun _ => .get_bind ?_
  have script : v.world.rx = w.world.rx := by
    obtain ⟨r, rfl, fits⟩ := twins
    rfl
  rw [script]
  exact gbtSendLoop_twin stale { send with window := send.window % 64 } inside _ _ w v twins

theorem gbtAckThen_twin (window number : ℕ) (next : GbtRecv) :
    Twin (WireTwins o tx rx) (gbtAckThen window number next) :=
  fun w v twins => (gbtSendBlock_twin _ w v twins).bind fun _ _ _ twins => .pure _ twins

theorem gbtRecvStep_twin (position : GbtRecv) (gbt : GeneralBlock) :
    Twin (WireTwins o tx rx) (gbtRecvStep size position gbt) := by
  intro w v twins
  have ack (window number : ℕ) (next : GbtRecv) := gbtAckThen_twin window number next w v twins
  refine .ite (fun _ => ack _ _ _) fun _ => .ite (fun _ => ?_) fun _ => ?_
  · exact .ite (fun _ => ack _ _ _) fun _ => .pure _ twins
  · refine .ite (fun _ => .pure _ twins) fun _ => .ite (fun _ => .pure _ twins) fun _ => ?_
    exact .ite (fun _ => ack _ _ _) fun _ => .pure _ twins

theorem gbtRecvLoop_twin (size fuel : ℕ) (position : GbtRecv) :
    Twin (WireTwins o tx rx) (gbtRecvLoop stale size fuel position) := by
  induction fuel generalizing position with
  | zero => exact fun _ _ _ => .blocked
  | succ fuel ih =>
    intro w v twins
    refine (gbtRecvBlock_twin stale w v twins).bind fun received s t twins => ?_
    cases received with
    | error err => exact .pure _ twins
    | ok gbt =>
      refine (gbtRecvStep_twin size position gbt s t twins).bind fun outcome s t twins => ?_
      cases outcome with
      | inl result => exact .pure _ twins
      | inr next => exact ih next s t twins

theorem gbtTransportRecv_twin (size : ℕ) (first : List UInt8) :
    Twin (WireTwins o tx rx) (gbtTransportRecv stale size first) := by
  intro w v twins
  unfold gbtTransportRecv
  cases gbtDecodeApdu stale first with
  | error err => exact .pure _ twins
  | ok gbt =>
    refine (gbtRecvStep_twin size {} gbt w v twins).bind fun outcome s t twins => ?_
    cases outcome with
    | inl result => exact .pure _ twins
    | inr next =>
      refine .get_bind ?_
      have script : t.world.rx = s.world.rx := by
        obtain ⟨r, rfl, fits⟩ := twins
        rfl
      rw [script]
      exact gbtRecvLoop_twin stale size _ _ s t twins

end Blocks

end OpenSpodes
