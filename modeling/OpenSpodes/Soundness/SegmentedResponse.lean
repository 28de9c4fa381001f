import OpenSpodes.Model.Client
import OpenSpodes.Proofs.Unprotect
import OpenSpodes.Soundness.InfoLength

/-! # Segmented responses at a client

A reception acknowledges a segment and returns a timeout, so that its caller waits for the next one. The server's
loop does that; a client's reception is a single call, and the timeout ends it. So a response reaches the client
exactly when it came in one frame.
-/

namespace OpenSpodes

open Machine

/-- An information frame with its place in a sequence and an acknowledgement. -/
structure HdlcFrame.Numbered (f : HdlcFrame) (ack seq : UInt8) : Prop where
  valid : f.Valid
  type : f.control.type = .i
  sendSeq : f.control.sendSeq &&& 7 = seq
  recvSeq : f.control.recvSeq &&& 7 = ack

/-- The frames carry a unit: numbered from `seq` on, with the segmentation bit on all but the last. -/
inductive Carries (ack : UInt8) : UInt8 → List HdlcFrame → List UInt8 → Prop
  | last {f : HdlcFrame} {seq : UInt8} : f.Numbered ack seq → f.segmented = false → Carries ack seq [f] f.info
  | more {f : HdlcFrame} {seq : UInt8} {rest : List HdlcFrame} {info : List UInt8} : f.Numbered ack seq →
      f.segmented = true → Carries ack ((seq + 1) &&& 7) rest info → Carries ack seq (f :: rest) (f.info ++ info)

/-- A received APDU is handed on as it is: no block of a general block transfer and not ciphered. -/
def Client.Passes (c : Client) (apdu : List UInt8) : Prop :=
  ¬(c.gbtEnabled ∧ apdu.head? = some 0xE0) ∧
    ¬(c.cipheringEnabled ∧ apdu.length > 0 ∧ svcIsCipheredTag (apdu.getD 0 0))

instance (c : Client) (apdu : List UInt8) : Decidable (c.Passes apdu) := inferInstanceAs (Decidable (_ ∧ _))

variable {c : Client} {size : ℕ}

/-- An APDU for a buffer of `size` bytes. -/
def within (size : ℕ) (apdu : List UInt8) : Except Err (List UInt8) :=
  if apdu.length > size then .error .nomem else .ok apdu

theorem within_eq_ok {apdu other : List UInt8} : within size apdu = .ok other ↔ apdu.length ≤ size ∧ apdu = other := by
  unfold within
  split_ifs with big
  · simp [Nat.not_le.mpr big]
  · simp [not_lt.mp big]

/-- What a client with a session makes of a reception. -/
theorem clientRecvApdu_session (hal : Hal) (stale : List UInt8) (size : ℕ) {result : Except Err (List UInt8)} {wire : Wire} (active : c.hdlcActive = true)
    (received : hdlcSessionRecvApdu false c.wire.rxBuf.length c.wire = some (result, wire))
    (passes : ∀ apdu, result = .ok apdu → c.Passes apdu) :
    ∃ after, clientRecvApdu hal stale size c = some (result.bind (within size), after) := by
  have linked : clientWire (if c.hdlcActive then hdlcSessionRecvApdu false c.wire.rxBuf.length
      else transportRecvApdu c.wire.rxBuf.length) c = some (result, { c with wire := wire }) := by
    rw [if_pos active, clientWire, zoom, received]
    rfl
  cases result with
  | error err =>
    have ended : clientReceive stale size c = some (.error err, { c with wire := wire }) := by
      rw [clientReceive, get_bind_apply]
      exact bind_of_some linked
    exact ⟨_, bind_of_some ended⟩
  | ok apdu =>
    obtain ⟨unblocked, unciphered⟩ := passes apdu rfl
    have ended : clientReceive stale size c =
        some (within size apdu, { c with wire := wire.fillRx apdu }) := by
      rw [clientReceive, get_bind_apply]
      refine (bind_of_some linked).trans ?_
      change (if c.gbtEnabled ∧ apdu.head? = some 0xE0 then _ else _ : Program Client _) _ = _
      rw [if_neg unblocked, within]
      split <;> rfl
    refine ⟨{ c with wire := wire.fillRx apdu }, (bind_of_some ended).trans ?_⟩
    change _ = some (within size apdu, _)
    by_cases big : apdu.length > size
    · rw [within, if_pos big]
      rfl
    · rw [within, if_neg big]
      change (if c.cipheringEnabled ∧ apdu.length > 0 ∧ svcIsCipheredTag (apdu.getD 0 0) then _
        else _ : Program Client _) _ = _
      rw [if_neg unciphered]
      rfl

theorem Carries.first {ack seq : UInt8} {frames : List HdlcFrame} {unit : List UInt8}
    (carried : Carries ack seq frames unit) : ∃ f rest, frames = f :: rest ∧ f.Numbered ack seq ∧
      f.info.length ≤ unit.length ∧ (f.segmented = true ↔ rest ≠ []) ∧ (rest = [] → f.info = unit) := by
  cases carried with
  | @last f _ numbered unsegmented => exact ⟨f, [], rfl, numbered, le_refl _, by simp [unsegmented], fun _ => rfl⟩
  | @more f _ rest info numbered segmented carried =>
    have some : rest ≠ [] := by
      cases carried with
      | last => exact List.cons_ne_nil _ _
      | more => exact List.cons_ne_nil _ _
    exact ⟨f, rest, rfl, numbered, by simp, by simp [segmented, some], fun none => absurd none some⟩

/-- A response of at most 1021 bytes whose frames all arrive is returned by one reception of a client exactly when
there is a single frame, its length is within the negotiated one and no segments were collected before it. -/
theorem response_in_one_frame {hal : Hal} {stale : List UInt8} {frames : List HdlcFrame} {llc apdu noise behind : List UInt8}
    (active : c.hdlcActive = true) (connected : c.wire.hdlc.state = .connected) (header : IsLlc llc)
    (short : apdu.length ≤ 1021) (room : apdu.length ≤ size) (held : apdu.length ≤ c.wire.rxBuf.length)
    (carried : Carries c.wire.hdlc.sendSeq c.wire.hdlc.recvSeq frames (llc ++ apdu))
    (passes : c.Passes (stripLlc (c.wire.hdlc.reassembly ++ (llc ++ apdu)))) (clean : 0x7E ∉ noise)
    (arriving : c.wire.Arriving (noise ++ (frames.flatMap HdlcFrame.encoding ++ behind))) :
    (∃ after, clientRecvApdu hal stale size c = some (.ok apdu, after)) ↔
      frames.length = 1 ∧ (llc ++ apdu).length ≤ infoLimit c.wire.hdlc.xid.maxInfoRx ∧ c.wire.hdlc.reassembly = [] := by
  obtain ⟨f, rest, rfl, numbered, part, segmented, single⟩ := carried.first
  have unit : (llc ++ apdu).length = apdu.length + 3 := by
    rw [List.length_append, header.length]
    omega
  have limit : hdlcMaxFrameSize = 1024 := rfl
  rw [List.flatMap_cons, List.append_assoc] at arriving
  obtain ⟨result, hdlc, world, bytes, stale', rx, received, outcome, -⟩ := hdlcSessionRecvApdu_outcome false
    c.wire.rxBuf.length numbered.valid (numbered.valid.small (by omega)) clean connected numbered.type arriving
  -- only an unsegmented frame is returned, and it is the whole unit
  have whole (none : rest = []) : f.received.info = llc ++ apdu := by
    rw [← single none]
    exact List.take_of_length_le (by omega)
  have ends {returned : List UInt8} (same : result = .ok returned) :
      rest = [] ∧ stripLlc (c.wire.hdlc.reassembly ++ (llc ++ apdu)) = returned := by
    subst same
    obtain ⟨-, -, unsegmented, complete, -⟩ := outcome.of_ok
    have none : rest = [] := by
      by_contra some
      exact absurd (unsegmented.symm.trans (segmented.mpr some)) (by decide)
    rw [whole none] at complete
    exact ⟨none, (assembled_eq_ok.mp complete).2.2⟩
  obtain ⟨after, returned⟩ := clientRecvApdu_session hal stale size active received fun _ same => by
    rw [← (ends same).2]
    exact passes
  rw [returned]
  constructor
  · rintro ⟨_, delivered⟩
    obtain ⟨delivered, -⟩ : result.bind (within size) = .ok apdu ∧ _ := by simpa using delivered
    cases result with
    | error err => cases delivered
    | ok raw =>
      obtain ⟨-, rfl⟩ := within_eq_ok.mp delivered
      have none := (ends rfl).1
      have fresh := (short_of_returned numbered.valid numbered.type header (single none) connected clean arriving
        received).2
      have allowed : f.received.info.length ≤ infoLimit c.wire.hdlc.xid.maxInfoRx := outcome.of_ok.1.limit
      rw [whole none] at allowed
      exact ⟨by rw [none]; rfl, allowed, fresh⟩
  · rintro ⟨one, allowed, fresh⟩
    have none : rest = [] := List.length_eq_zero_iff.mp (by simpa using one)
    have expected : (c.wire.buffering bytes stale' rx).hdlc.Expects f.received :=
      HdlcSession.expects_received numbered.type ⟨numbered.sendSeq, numbered.recvSeq⟩ (by rwa [single none])
    have unsegmented : f.segmented = false := by simpa using fun bit => segmented.mp bit none
    have collected : (c.wire.buffering bytes stale' rx).hdlc.reassembly ++ f.received.info = llc ++ apdu := by
      rw [whole none]
      exact (congrArg (· ++ (llc ++ apdu)) fresh).trans (List.nil_append _)
    have delivered := outcome.returns expected unsegmented header collected (by omega) held
    rw [delivered]
    exact ⟨after, congrArg (fun kept => some (kept, after)) (within_eq_ok.mpr ⟨room, rfl⟩)⟩

/-- A client with a connected session that is about to receive. -/
def segmentedClient (rx : List RxEvent) : Client where
  wire := { linkOf connectedClient rx with rxBuf := List.replicate 1024 0 }
  hdlcActive := true
  gbtEnabled := false
  cipheringEnabled := false
  cipherRx := secContextInit .suite0 .lowest (Vector.replicate 8 1)

theorem response_in_one_frame_short :
    ∃ after, clientRecvApdu sampleHal [] 4096 (segmentedClient [.bytes (response [0xC4, 0x01]).encoding]) =
      some (.ok [0xC4, 0x01], after) := by
  have valid := response_valid (show [0xC4, 0x01].length ≤ 1064 by decide)
  have carried : Carries 0 0 [response [0xC4, 0x01]] ([0xE6, 0xE7, 0x00] ++ [0xC4, 0x01]) :=
    .last ⟨valid.1, rfl, by decide, by decide⟩ rfl
  have arriving := (linkOf_arriving (show connectedClient.rxPendingLen = 0 from rfl) (response_some _) valid.2).congr
    (show (segmentedClient [.bytes (response [0xC4, 0x01]).encoding]).wire.hdlc.rxBuf = _ from rfl) rfl rfl
  have held : [0xC4, 0x01].length ≤ (List.replicate 1024 (0 : UInt8)).length := by
    rw [List.length_replicate]
    decide
  exact (response_in_one_frame rfl rfl (.inr rfl) (by decide) (by decide) held carried (by decide)
    List.not_mem_nil arriving).mpr (by decide)

def responseSegments : List HdlcFrame :=
  [{ frameToClient { type := .i } [0xE6, 0xE7, 0x00, 0xC4] with segmented := true },
    frameToClient { type := .i, sendSeq := 1 } [0x01]]

/-- Of the same response in two frames the client sees a timeout. -/
theorem segmented_response_lost : Carries 0 0 responseSegments ([0xE6, 0xE7, 0x00] ++ [0xC4, 0x01]) ∧
      (clientRecvApdu sampleHal [] 4096 (segmentedClient (responseSegments.map (.bytes ·.encoding)))).map Prod.fst =
        some (.error .timeout) := by
  constructor
  · exact .more ⟨⟨hdlcAddressInit_valid 16, hdlcAddressInit_valid 1, by decide, by decide⟩, rfl, by decide, by decide⟩ rfl
      (.last ⟨⟨hdlcAddressInit_valid 16, hdlcAddressInit_valid 1, by decide, by decide⟩, rfl, by decide, by decide⟩ rfl)
  · decide +kernel

end OpenSpodes
