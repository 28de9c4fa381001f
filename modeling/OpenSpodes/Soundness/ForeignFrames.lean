import OpenSpodes.Proofs.InfoFrames
import OpenSpodes.Soundness.FrameExtraction

/-! # Frames for other stations

Several stations may share a line, and a server sees the frames of all of them. The two functions that wait for frames
compare the destination of a set-up frame with their own address, and of no other frame. What a server does with a
foreign frame is therefore what it does with its own: it disconnects, rejects, acknowledges and retransmits on the
word of a client that talks to somebody else.
-/

namespace OpenSpodes

open Machine

variable {after : Wire}

theorem HdlcSession.Sized.buffering {w : Wire} (sized : w.hdlc.Sized) (bytes stale : List UInt8) (rx : List RxEvent) :
    (w.buffering bytes stale rx).hdlc.Sized :=
  ⟨sized.clientAddr, sized.serverAddr, sized.lastSentInfo⟩

/-- Between two moments of a link nothing was handed to the transport, and the session stands where it stood. -/
structure Ignored (w after : Wire) : Prop where
  sends : after.world.sends = w.world.sends
  sent : after.world.sent = w.world.sent
  state : after.hdlc.state = w.hdlc.state
  sendSeq : after.hdlc.sendSeq = w.hdlc.sendSeq
  recvSeq : after.hdlc.recvSeq = w.hdlc.recvSeq
  xid : after.hdlc.xid = w.hdlc.xid
  clientAddr : after.hdlc.clientAddr = w.hdlc.clientAddr
  reassembly : after.hdlc.reassembly = w.hdlc.reassembly

theorem Ignored.refl (w : Wire) : Ignored w w := ⟨rfl, rfl, rfl, rfl, rfl, rfl, rfl, rfl⟩

/-- Taking a frame out of the receive buffer changes nothing that counts. -/
theorem ignored_buffering {w : Wire} {bytes stale : List UInt8} {rx : List RxEvent} :
    Ignored (w.buffering bytes stale rx) after ↔ Ignored w after := by
  constructor
  · intro same
    exact ⟨same.sends, same.sent, same.state, same.sendSeq, same.recvSeq, same.xid, same.clientAddr, same.reassembly⟩
  · intro same
    exact ⟨same.sends, same.sent, same.state, same.sendSeq, same.recvSeq, same.xid, same.clientAddr, same.reassembly⟩

/-- The frames that a connected server passes over, whatever their destination; a set-up frame for another station is
among them. -/
def HdlcSession.passesOver (s : HdlcSession) (frame : HdlcFrame) : Bool :=
  match frame.control.type with
  | .i | .disc => false
  | .ui => frame.info.length ≤ infoLimit s.xid.maxInfoRx
  | .rr | .rnr => frame.info.length = 0 ∧ frame.control.recvSeq = s.sendSeq
  | .rej => frame.info.length = 0 ∧ ¬(s.hasPendingRetransmit ∧ s.maxRetransmits > 0)
  | .sabm => frame.info.length = 0
  | .snrm | .dm | .ua | .frmr | .xid => true

/-! ## Sending is noticed -/

section Replies

variable {w : Wire}

theorem World.Spoken.not_ignored (spoken : w.world.Spoken after.world) : ¬Ignored w after :=
  fun same => spoken ⟨same.sends, same.sent⟩

variable {dst : HdlcAddress} (sized : w.hdlc.Sized) (short : dst.length ≤ 4)

include sized short

/-- A disconnection is answered in every state. -/
theorem disc_spoken : ∃ result after, sessionHandleDisc dst w = some (result, after) ∧ w.world.Spoken after.world := by
  rw [sessionHandleDisc, session_bind_apply]
  split
  · obtain ⟨result, world, returned, spoken⟩ : ∃ result world,
        sessionSendUaXid dst w = some (result, w.setWorld world) ∧ w.world.Spoken world := by
      rw [sessionSendUaXid, session_bind_apply]
      exact sessionSendFrame_spoken short sized.serverAddr (by simp [encodeXidParams, hdlcMaxFrameSize]) w
    rw [bind_of_some returned]
    split
    · exact ⟨_, _, rfl, spoken⟩
    · exact ⟨_, _, rfl, spoken⟩
  · obtain ⟨result, world, returned, spoken⟩ : ∃ result world,
        sessionSendDm dst w = some (result, w.setWorld world) ∧ w.world.Spoken world := by
      rw [sessionSendDm, session_bind_apply]
      exact sessionSendFrame_spoken short sized.serverAddr (Nat.zero_le _) w
    exact ⟨result, _, returned, spoken⟩

end Replies

/-! ## Frames of a connected server -/

/-- A call returned, and it has ignored what it was given or not. -/
def Passes {α : Type} (w : Wire) (passed : Bool) (returned : Option (α × Wire)) : Prop :=
  ∃ a after, returned = some (a, after) ∧ (Ignored w after ↔ passed = true)

section Frames

variable {α : Type} {w : Wire} {frame : HdlcFrame} {size : ℕ}

theorem Passes.ignored {a : α} (same : Ignored w after) : Passes w true (some (a, after)) :=
  ⟨_, _, rfl, fun _ => rfl, fun _ => same⟩

theorem Passes.noticed {a : α} (changed : ¬Ignored w after) : Passes w false (some (a, after)) :=
  ⟨_, _, rfl, fun same => absurd same changed, by simp⟩

theorem next_seq_ne (seq : UInt8) : (seq + 1) &&& 7 ≠ seq := by
  intro same
  have low : (seq.toNat + 1) % 256 &&& 7 = (seq.toNat + 1) % 256 % 8 := Nat.and_two_pow_sub_one_eq_mod _ 3
  have value := congrArg UInt8.toNat same
  simp only [UInt8.toNat_and, UInt8.toNat_add] at value
  have bound := seq.toNat_lt
  change (seq.toNat + 1) % 256 &&& 7 = seq.toNat at value
  omega

variable (sized : w.hdlc.Sized) (short : frame.source.length ≤ 4)

include sized short

/-- An information frame is rejected, answered or taken. -/
theorem info_noticed : Passes w false (sessionHandleInfo frame size w) := by
  obtain ⟨result, hdlc, world, returned, -, -, noticed⟩ := sessionHandleInfo_outcome frame size w
  rw [returned]
  rcases noticed sized short with spoken | counted
  · exact .noticed (World.Spoken.not_ignored spoken)
  · exact .noticed fun same => next_seq_ne w.hdlc.recvSeq (counted.symm.trans same.recvSeq)

theorem frmr_noticed (reasons : UInt8) : Passes w false ((do
    let _ ← sessionSendFrmr frame.source frame.controlRaw reasons
    return .timeout : Program Wire Err) w) := by
  obtain ⟨world, returned, -, spoken⟩ := frmr_then w frame.source frame.controlRaw reasons (return Err.timeout)
  rw [returned]
  exact .noticed (spoken sized short).not_ignored

/-- Supervisory and unnumbered frames whose information field is in order. -/
theorem control_passes (other : frame.control.type ≠ .i) (foreign : w.hdlc.addressed frame = false)
    (allowed : frameAllowsInfo frame.control.type = true ∨ frame.info.length = 0) :
    Passes w (w.hdlc.passesOver frame) (sessionHandleControl frame w) := by
  have empty (forbidden : frameAllowsInfo frame.control.type = false) : frame.info.length = 0 :=
    allowed.resolve_left (by simp [forbidden])
  rw [HdlcSession.passesOver, sessionHandleControl, session_bind_apply]
  cases type : frame.control.type with
  | i => exact absurd type other
  | ui =>
    dsimp only
    by_cases long : frame.info.length > infoLimit w.hdlc.xid.maxInfoRx
    · rw [if_pos long, decide_eq_false (by omega)]
      exact frmr_noticed sized short 0x04
    · rw [if_neg long, decide_eq_true (by omega)]
      exact .ignored (.refl w)
  | snrm =>
    dsimp only
    rw [if_neg (by simp [foreign])]
    exact .ignored (.refl w)
  | disc =>
    obtain ⟨result, after, returned, spoken⟩ := disc_spoken sized short
    dsimp only
    rw [returned]
    exact .noticed spoken.not_ignored
  | rr | rnr =>
    dsimp only
    by_cases behind : frame.control.recvSeq ≠ w.hdlc.sendSeq
    · rw [if_pos behind, decide_eq_false fun acknowledged => behind acknowledged.2]
      exact frmr_noticed sized short 0x08
    · rw [if_neg behind, decide_eq_true ⟨empty (by rw [type]; rfl), not_not.mp behind⟩]
      exact .ignored ⟨rfl, rfl, rfl, rfl, rfl, rfl, rfl, rfl⟩
  | rej =>
    dsimp only
    by_cases pending : w.hdlc.hasPendingRetransmit ∧ w.hdlc.maxRetransmits > 0
    · rw [decide_eq_false fun passed => passed.2 pending]
      obtain ⟨result, world, returned, spoken⟩ := @sessionSendFrame_spoken
        (w.hdlc.infoFrame w.hdlc.lastSentSeq w.hdlc.lastSentInfo) sized.peer sized.own sized.lastSentInfo w
      have sent : sessionRetransmit w =
          some ((), (w.setWorld world).setHdlc { w.hdlc with hasPendingRetransmit := false }) := by
        rw [sessionRetransmit, session_bind_apply, if_pos pending, bind_of_some returned]
        rfl
      rw [bind_of_some sent]
      exact .noticed (World.Spoken.not_ignored spoken)
    · rw [decide_eq_true ⟨empty (by rw [type]; rfl), pending⟩, sessionRetransmit, bind_assoc, session_bind_apply, if_neg pending]
      exact .ignored (.refl w)
  | sabm =>
    dsimp only
    rw [decide_eq_true (empty (by rw [type]; rfl))]
    exact .ignored (.refl w)
  | dm | ua | frmr | xid => exact .ignored (.refl w)

/-- What a connected server does with a foreign frame. -/
theorem frame_passes (foreign : w.hdlc.addressed frame = false) :
    ∃ result after, sessionHandleFrame frame size w = some (result, after) ∧
      ((Ignored w after ∧ ∀ apdu, result ≠ .ok apdu) ↔ w.hdlc.passesOver frame = true) := by
  rw [sessionHandleFrame]
  by_cases forbidden : frame.info.length > 0 ∧ !frameAllowsInfo frame.control.type
  · obtain ⟨world, returned, -, spoken⟩ := frmr_then w frame.source frame.controlRaw 0x03
      (return .error .timeout : Program Wire (Except Err (List UInt8)))
    have noticed : w.hdlc.passesOver frame = false := by
      have full : ¬frame.info.length = 0 := Nat.ne_of_gt forbidden.1
      have kind := forbidden.2
      rw [HdlcSession.passesOver]
      cases type : frame.control.type with
      | i | disc => rfl
      | rr | rnr | rej => exact decide_eq_false fun passed => full passed.1
      | sabm => exact decide_eq_false full
      | ui | snrm | dm | ua | frmr | xid =>
        rw [type] at kind
        cases kind
    rw [if_pos forbidden, returned, noticed]
    exact ⟨_, _, rfl, fun same => absurd same.1 (spoken sized short).not_ignored, by simp⟩
  rw [if_neg forbidden]
  by_cases info : frame.control.type = .i
  · obtain ⟨result, after, returned, noticed⟩ := @info_noticed w frame size sized short
    have never : w.hdlc.passesOver frame = false := by simp [HdlcSession.passesOver, info]
    rw [if_pos info, returned, never]
    exact ⟨_, _, rfl, fun same => noticed.mp same.1, by simp⟩
  · have allowed : frameAllowsInfo frame.control.type = true ∨ frame.info.length = 0 := by
      by_cases kind : frameAllowsInfo frame.control.type = true
      · exact .inl kind
      · exact .inr (Nat.eq_zero_of_not_pos fun some => forbidden ⟨some, by simp [kind]⟩)
    obtain ⟨err, after, returned, passes⟩ := control_passes sized short info foreign allowed
    rw [if_neg info, bind_of_some returned, ← passes]
    exact ⟨_, _, rfl, And.left, fun same => ⟨same, by simp⟩⟩

end Frames

/-! ## Whole calls -/

/-- What the server's loop of `osp_hdlc_session_connect` does with a frame: return, or wait for the next one. -/
def sessionConnectFrame (frame : HdlcFrame) : Program Wire (Option Err) := do
  if frame.control.type = .snrm ∧ (← session).addressed frame then return some (← sessionAcceptSnrm frame)
  else if frame.control.type = .disc then
    let result ← sessionHandleDisc frame.source
    return if result = .ok then none else some result
  else return none

def sessionConnectFrom (forever : Bool) (fuel : ℕ) (frame : HdlcFrame) : Program Wire Err := do
  let answer ← sessionConnectFrame frame
  answer.elim (sessionConnectLoop forever fuel) pure

theorem sessionConnectLoop_received {forever : Bool} {w v : Wire} {frame : HdlcFrame}
    (received : sessionRecvFrame forever w = some ((.ok, frame), v)) (fuel : ℕ) :
    sessionConnectLoop forever (fuel + 1) w = sessionConnectFrom forever fuel frame v := by
  rw [sessionConnectLoop, bind_of_some received, sessionConnectFrom, sessionConnectFrame]
  dsimp only
  rw [if_neg (by decide), if_neg (by decide), bind_assoc, session_bind_apply, session_bind_apply]
  split_ifs
  · rw [bind_assoc]
    exact (congrFun (bind_pure (sessionAcceptSnrm frame)) v).symm
  · rw [bind_assoc]
    refine congrFun (congrArg (sessionHandleDisc frame.source >>= ·) (funext fun result => ?_)) v
    split_ifs
    · rfl
    · rfl
  · rfl

section Calls

variable {w : Wire} {f : HdlcFrame} {skipped behind : List UInt8} (sized : w.hdlc.Sized) (valid : f.Valid)
  (foreign : w.hdlc.addressed f = false)

include sized valid foreign

theorem connect_passes : Passes w (f.control.type ≠ .disc) (sessionConnectFrame f.received w) := by
  have type : f.received.control.type = f.control.type := f.control.type_received
  rw [sessionConnectFrame, session_bind_apply, if_neg (fun own => Bool.false_ne_true (foreign.symm.trans own.2)), type]
  by_cases disc : f.control.type = .disc
  · obtain ⟨result, after, returned, spoken⟩ := disc_spoken sized valid.source.short
    rw [if_pos disc, decide_eq_false (not_not.mpr disc)]
    have answered : sessionHandleDisc f.received.source w = some (result, after) := returned
    rw [bind_of_some answered]
    exact .noticed spoken.not_ignored
  · rw [if_neg disc, decide_eq_true disc]
    exact .ignored (.refl w)

/-- A session passes over exactly these foreign frames: all but a disconnection while a server waits for a set-up, and
while it is connected those that it passes over for any destination, with the set-up frame. -/
theorem foreign_frame_ignored_iff (small : f.encoding.length ≤ sessionBufSize) (clean : 0x7E ∉ skipped)
    (arriving : w.Arriving (skipped ++ (f.encoding ++ behind))) (forever : Bool) (size : ℕ) :
    (∃ v answer after, (∀ fuel, sessionConnectLoop forever (fuel + 1) w = sessionConnectFrom forever fuel f.received v) ∧
      sessionConnectFrame f.received v = some (answer, after) ∧ (Ignored w after ↔ f.control.type ≠ .disc)) ∧
    (w.hdlc.state = .connected → ∃ result after, hdlcSessionRecvApdu forever size w = some (result, after) ∧
      ((Ignored w after ∧ ∀ apdu, result ≠ .ok apdu) ↔ w.hdlc.passesOver f.received = true)) ∧
    (w.hdlc.state ≠ .connected → hdlcSessionRecvApdu forever size w = some (.error .invalid, w)) := by
  refine ⟨?_, fun connected => ?_, fun closed => ?_⟩
  · obtain ⟨bytes, stale, rx, received, -⟩ := sessionRecvFrame_arriving valid small clean arriving
    obtain ⟨answer, after, taken, passes⟩ := connect_passes (sized.buffering bytes stale rx) valid foreign
    refine ⟨_, answer, after, sessionConnectLoop_received received, taken, ?_⟩
    rw [← ignored_buffering, passes, decide_eq_true_iff]
  · obtain ⟨bytes, stale, rx, received, -⟩ := hdlcSessionRecvApdu_arriving valid small clean connected arriving
    obtain ⟨result, after, taken, passes⟩ :=
      @frame_passes (w.buffering bytes stale rx) f.received size (sized.buffering bytes stale rx) valid.source.short foreign
    rw [ignored_buffering] at passes
    exact ⟨result, after, received.trans taken, passes⟩
  · rw [hdlcSessionRecvApdu, session_bind_apply, if_pos closed]
    rfl

end Calls

/-- A frame of a client to the station with the address 17. -/
def frameToOther (control : Control) (info : List UInt8) : HdlcFrame :=
  { destination := hdlcAddressInit 17, source := hdlcAddressInit 16, control := control, info := info }

/-- The server with the address 1, connected, on whose line a frame arrives. -/
def sharedLine (frame : HdlcFrame) : Wire :=
  linkOf { hdlcSessionInitServer 1 16 with state := .connected } [.bytes frame.encoding]

theorem foreign_frame_ignored_iff_ui :
    ∃ result after, hdlcSessionRecvApdu false 64 (sharedLine (frameToOther { type := .ui } [1, 2, 3])) =
        some (result, after) ∧
      Ignored (sharedLine (frameToOther { type := .ui } [1, 2, 3])) after ∧ ∀ apdu, result ≠ .ok apdu := by
  have valid : (frameToOther { type := .ui } [1, 2, 3]).Valid :=
    ⟨hdlcAddressInit_valid 17, hdlcAddressInit_valid 16, by decide, by decide⟩
  have arriving := @linkOf_arriving { hdlcSessionInitServer 1 16 with state := .connected } _ rfl
    (show (frameToOther { type := .ui } [1, 2, 3]).encoding ≠ [] by simp [HdlcFrame.encoding]) (by decide)
  obtain ⟨result, after, returned, passes⟩ := (foreign_frame_ignored_iff ⟨by decide, by decide, by decide⟩ valid
    (by decide) (by decide) (by decide) arriving false 64).2.1 rfl
  exact ⟨result, after, returned, passes.mpr (by decide)⟩

/-- A client that leaves another station disconnects this one. -/
theorem foreign_disc_obeyed : (sharedLine (frameToOther { type := .disc } [])).hdlc.addressed
      (frameToOther { type := .disc } []) = false ∧
    (hdlcSessionRecvApdu false 64 (sharedLine (frameToOther { type := .disc } []))).map
      (fun returned => (returned.1, returned.2.hdlc.state, returned.2.world.sent.length)) =
        some (.error .disconnected, .idle, 1) := by
  constructor
  · decide
  · decide +kernel

end OpenSpodes
