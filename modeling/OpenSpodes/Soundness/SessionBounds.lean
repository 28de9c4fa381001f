import OpenSpodes.Proofs.SessionMoves
import OpenSpodes.Soundness.FrameExtraction

/-! # The bounds of a session's buffers

Whatever the peer sends and however the transport cuts it, the lengths that a session keeps stay within its
arrays and the sequence numbers stay below eight. The moves of a session keep the bounds one by one; an APDU that
is returned was checked against the caller's buffer. The time it waits is bounded as asked unless the clock wraps.
-/

namespace OpenSpodes

open Machine

variable {size : ℕ}

/-- The lengths are within the arrays, and the sequence numbers are numbers modulo eight. -/
structure HdlcSession.Bounded (s : HdlcSession) : Prop where
  pending : s.rxPendingLen ≤ sessionBufSize
  reassembly : s.reassembly.length ≤ hdlcMaxFrameSize
  lastSent : s.lastSentInfo.length ≤ hdlcMaxFrameSize
  sendSeq : s.sendSeq < 8
  recvSeq : s.recvSeq < 8

theorem seq_lt (seq : UInt8) : seq &&& 7 < 8 := by
  obtain ⟨n, masked⟩ := seq_cases seq
  rw [masked]
  clear masked
  revert n
  decide

theorem SessionMove.bounded {s t : HdlcSession} (move : SessionMove s t) (bounded : s.Bounded) : t.Bounded := by
  obtain ⟨pending, reassembly, lastSent, sendSeq, recvSeq⟩ := bounded
  have zero : (0 : UInt8) < 8 := by decide
  cases move with
  | buffer fits => exact ⟨by simp only; omega, reassembly, lastSent, sendSeq, recvSeq⟩
  | state | settled | adopted => exact ⟨pending, reassembly, lastSent, sendSeq, recvSeq⟩
  | sent fits => exact ⟨pending, reassembly, fits, seq_lt _, recvSeq⟩
  | restarted | established | answered => exact ⟨pending, Nat.zero_le _, lastSent, zero, zero⟩
  | closed => exact ⟨Nat.zero_le _, Nat.zero_le _, lastSent, zero, zero⟩
  | taken fits => exact ⟨pending, by simpa using fits, lastSent, sendSeq, seq_lt _⟩
  | dropped => exact ⟨pending, Nat.zero_le _, lastSent, sendSeq, recvSeq⟩

/-! ## The APDU that is returned -/

theorem stripLlc_length (msdu : List UInt8) : (stripLlc msdu).length ≤ msdu.length := by
  unfold stripLlc
  split
  · simp
  · exact Nat.le_refl _

/-- A returned APDU fits the reassembly buffer and the caller's. -/
def Fits (size : ℕ) (received : Except Err (List UInt8)) : Prop :=
  ∀ apdu, received = .ok apdu → apdu.length ≤ hdlcMaxFrameSize ∧ apdu.length ≤ size

theorem Fits.error (err : Err) : Fits size (.error err) := nofun

theorem sessionHandleInfo_fits (frame : HdlcFrame) (size : ℕ) (w : Wire) :
    wp (sessionHandleInfo frame size) (fun received _ => Fits size received) w := by
  have error (program : Program Wire Err) (err : Err) (w : Wire) :
      wp (do let _ ← program; return .error err) (fun received _ => Fits size received) w := by
    simp only [wp_bind, wp_pure]
    exact fun _ _ _ => .error err
  change wp (if _ then _ else _) _ w
  refine (wp_ite _ _ _ _ _).mpr ⟨fun _ => error _ _ w, fun _ => ?_⟩
  refine (wp_ite _ _ _ _ _).mpr ⟨fun _ => error _ _ w, fun _ => ?_⟩
  refine (wp_ite _ _ _ _ _).mpr ⟨fun _ => error _ _ w, fun _ => ?_⟩
  refine (wp_ite _ _ _ _ _).mpr ⟨fun _ => ?_, fun fits => ?_⟩
  · simp only [wp_bind, wp_pure, modifySession, wp_modify]
    exact fun _ _ _ => .error _
  · simp only [wp_bind, modifySession, wp_modify, wp_ite, wp_pure]
    refine ⟨fun _ _ _ _ => .error _, fun _ => ⟨fun _ => .error _, fun _ => ⟨fun _ => .error _, fun small => ?_⟩⟩⟩
    rintro _ ⟨⟩
    have stripped := stripLlc_length (w.hdlc.reassembly ++ frame.info)
    simp only [List.length_append] at stripped
    exact ⟨by omega, by omega⟩

theorem hdlcSessionRecvApdu_fits (forever : Bool) (size : ℕ) (w : Wire) :
    wp (hdlcSessionRecvApdu forever size) (fun received _ => Fits size received) w := by
  unfold hdlcSessionRecvApdu
  simp only [wp_bind, wp_ite, wp_pure, wp_get]
  intro s w _
  refine ⟨fun _ => .error _, fun _ received after _ => ⟨fun _ => .error _, fun _ => ⟨fun _ _ _ _ => .error _, fun _ => ?_⟩⟩⟩
  exact ⟨fun _ => sessionHandleInfo_fits _ size _, fun _ _ _ _ => .error _⟩

/-! ## Histories -/

theorem returned_fits {origin w : Wire} {calls : List (SessionCall × Err × Option (List UInt8))}
    (history : SessionHistory origin calls w) {forever : Bool} {apdu : List UInt8}
    (member : (.recvApdu forever size, .ok, some apdu) ∈ calls) :
    apdu.length ≤ hdlcMaxFrameSize ∧ apdu.length ≤ size := by
  induction history with
  | start => cases member
  | @extend seen now next label past returned ih =>
    rcases List.mem_append.mp member with earlier | last
    · exact ih earlier
    · obtain rfl : (.recvApdu forever size, .ok, some apdu) = label := by simpa using last
      obtain ⟨received, middle, first, second⟩ := bind_eq_some.mp returned
      cases received with
      | ok apdu =>
        cases second
        exact hdlcSessionRecvApdu_fits forever size now _ _ first apdu rfl
      | error err => cases second

/-- In every state that calls lead to from a session's initialisation, whatever the transport delivers, the
bounds hold, and every APDU that was returned fits. -/
theorem session_bounded {origin w : Wire} {isClient : Bool} {clientAddr serverAddr maxInfo maxRetransmits : ℕ}
    {xid : XidParams} {calls : List (SessionCall × Err × Option (List UInt8))} (initial : origin.hdlc =
      (hdlcSessionInit isClient clientAddr serverAddr maxInfo).configured xid maxRetransmits)
    (history : SessionHistory origin calls w) :
    w.hdlc.Bounded ∧ ∀ forever size apdu, (.recvApdu forever size, .ok, some apdu) ∈ calls →
      apdu.length ≤ hdlcMaxFrameSize ∧ apdu.length ≤ size := by
  have zero : (0 : UInt8) < 8 := by decide
  have start : origin.hdlc.Bounded := by
    rw [initial]
    exact ⟨Nat.zero_le _, Nat.zero_le _, Nat.zero_le _, zero, zero⟩
  exact ⟨history.moves.invariant (fun _ _ => SessionMove.bounded) start,
    fun _ _ _ member => returned_fits history member⟩

/-- A frame from the server to the client of the examples. -/
def frameToClient (control : Control) (info : List UInt8) : HdlcFrame :=
  { destination := [0x21], source := [0x03], control := control, info := info }

/-- A client's link with a server that accepts it and sends one answer. -/
def answeredLink : Wire :=
  linkOf ((hdlcSessionInit true 16 1 1280).configured ⟨1280, 1280, 1, 1⟩ 3)
    [.bytes (frameToClient { type := .ua } []).encoding,
      .bytes (frameToClient { type := .i } [0xE6, 0xE7, 0x00, 0xC4]).encoding]

theorem session_bounded_answer :
    ∃ w calls, SessionHistory answeredLink calls w ∧ (.recvApdu false 16, .ok, some [0xC4]) ∈ calls ∧
      w.hdlc.Bounded ∧ ∀ forever size apdu, (.recvApdu forever size, .ok, some apdu) ∈ calls →
        apdu.length ≤ hdlcMaxFrameSize ∧ apdu.length ≤ size := by
  have runs : ((do
      let connected ← (SessionCall.connect false).run
      let received ← (SessionCall.recvApdu false 16).run
      return (connected, received)) answeredLink).map Prod.fst = some ((.ok, none), (.ok, some [0xC4])) := by
    decide +kernel
  obtain ⟨⟨results, w⟩, both, rfl⟩ := Option.map_eq_some_iff.mp runs
  obtain ⟨connected, middle, first, rest⟩ := bind_eq_some.mp both
  obtain ⟨received, final, second, last⟩ := bind_eq_some.mp rest
  cases last
  have one : SessionHistory answeredLink [(.connect false, .ok, none)] middle := History.start.extend first
  have two : SessionHistory answeredLink
      [(.connect false, .ok, none), (.recvApdu false 16, .ok, some [0xC4])] w := one.extend second
  exact ⟨w, _, two, by simp, session_bounded rfl two⟩

/-! ## The receive deadline -/

/-- The time left of a wait of `timeout` that began when the clock showed `start`, after `elapsed`. -/
def remainingAfter (start timeout : UInt32) (elapsed : ℕ) : ℕ :=
  (sessionRemainingMs (start + UInt32.ofNat elapsed) (sessionDeadlineMs start timeout)).toNat

theorem remainingAfter_eq {start timeout : UInt32} {elapsed : ℕ} (finite : 1 ≤ timeout.toNat) :
    remainingAfter start timeout elapsed = let deadline := (start.toNat + timeout.toNat) % 2 ^ 32
      if deadline = 2 ^ 32 - 1 then 2 ^ 32 - 1 else deadline - (start.toNat + elapsed) % 2 ^ 32 := by
  have some : timeout ≠ hdlcWaitForeverMs := by
    rintro rfl
    cases finite
  have now : (start + UInt32.ofNat elapsed).toNat = (start.toNat + elapsed) % 2 ^ 32 := by simp
  rw [remainingAfter, sessionRemainingMs, sessionDeadlineMs, if_neg some, ← UInt32.toNat_add, ← now]
  by_cases last : start + timeout = 0xFFFFFFFF
  · rw [if_pos last, last]
    rfl
  · have other : (start + timeout).toNat ≠ 2 ^ 32 - 1 := fun same => last (UInt32.toNat_inj.mp same)
    rw [if_neg last]
    dsimp only
    rw [if_neg other]
    split
    · next past => exact (Nat.sub_eq_zero_of_le (UInt32.le_iff_toNat_le.mp past)).symm
    · next left => exact UInt32.toNat_sub_of_le _ _ (UInt32.le_of_lt (UInt32.not_le.mp left))

/-- The remaining time is right exactly if the deadline does not fall on the value that stands for none, and the
clock has wrapped since the start exactly if the deadline lies behind the wrap. -/
theorem receive_deadline_iff (start timeout : UInt32) (elapsed : ℕ) (finite : 1 ≤ timeout.toNat)
    (short : timeout.toNat ≤ 120000) (early : elapsed < 2 ^ 31) :
    remainingAfter start timeout elapsed = timeout.toNat - elapsed ↔
      start.toNat + timeout.toNat ≠ 2 ^ 32 - 1 ∧
        (start.toNat + timeout.toNat < 2 ^ 32 ↔ start.toNat + elapsed < 2 ^ 32) := by
  have bound := start.toNat_lt
  rw [remainingAfter_eq finite]
  dsimp only
  -- where the deadline lies, and where the clock is
  by_cases ahead : start.toNat + timeout.toNat < 2 ^ 32 <;> by_cases here : start.toNat + elapsed < 2 ^ 32
  all_goals
    simp only [ahead, here, iff_self, and_true, iff_false, iff_true, not_true_eq_false, and_false]
    split_ifs <;> omega

theorem receive_deadline_iff_sample : remainingAfter 0 60000 1000 = 59000 := by
  apply (receive_deadline_iff 0 60000 1000 (by decide) (by decide) (by decide)).mpr
  decide

/-- Half a minute before the wrap, a wait of a minute is over at once. -/
theorem receive_deadline_wrap : ¬∀ (start timeout : UInt32) (elapsed : ℕ), 1 ≤ timeout.toNat →
    timeout.toNat ≤ 120000 → elapsed < 2 ^ 31 → remainingAfter start timeout elapsed = timeout.toNat - elapsed := by
  intro holds
  have wrong := holds 0xFFFF8AD0 60000 0 (by decide) (by decide) (by decide)
  revert wrong
  decide

end OpenSpodes
