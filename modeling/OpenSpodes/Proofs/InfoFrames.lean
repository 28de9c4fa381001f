import OpenSpodes.Proofs.FrameStream

/-! # Information frames at a session

An information frame is refused, overflows the reassembly buffer, extends the message that is being collected or
ends it. `InfoOutcome` says once what each of the four does to the session and to the caller; on the way a receiver
sends at most one frame of its own, an acknowledgement or a frame reject.
-/

namespace OpenSpodes

open Machine

variable {α : Type}

/-! ## Replies -/

/-- The arrays of a session hold no more than the source gives them room for. -/
structure HdlcSession.Sized (s : HdlcSession) : Prop where
  clientAddr : s.clientAddr.length ≤ 4
  serverAddr : s.serverAddr.length ≤ 4
  lastSentInfo : s.lastSentInfo.length ≤ hdlcMaxFrameSize

def World.Spoken (before after : World) : Prop := ¬(after.sends = before.sends ∧ after.sent = before.sent)

theorem transportSend_spoken (bytes : List UInt8) (w : Wire) :
    ∃ result world, transportSend bytes w = some (result, w.setWorld world) ∧ w.world.Spoken world := by
  refine ⟨_, _, rfl, fun same => ?_⟩
  obtain ⟨script, sent⟩ := same
  cases sends : w.world.sends with
  | nil => simp [sends] at sent
  | cons first rest =>
    have length := congrArg List.length script
    simp [sends] at length

theorem sessionSendFrame_spoken {reply : HdlcFrame} (destination : reply.destination.length ≤ 4)
    (source : reply.source.length ≤ 4) (info : reply.info.length ≤ hdlcMaxFrameSize) (w : Wire) :
    ∃ result world, sessionSendFrame reply w = some (result, w.setWorld world) ∧ w.world.Spoken world := by
  have length := reply.makeFrameLength_le
  have fits : ¬1 + 2 + makeFrameLength reply + 1 > sessionBufSize := by
    simp only [sessionBufSize, hdlcMaxFrameSize] at info ⊢
    omega
  rw [sessionSendFrame, hdlcFrame, if_neg fits]
  exact transportSend_spoken _ w

variable {s : HdlcSession}

theorem HdlcSession.Sized.own (sized : s.Sized) : s.ownAddr.length ≤ 4 := by
  rw [HdlcSession.ownAddr]
  split
  · exact sized.clientAddr
  · exact sized.serverAddr

theorem HdlcSession.Sized.peer (sized : s.Sized) : s.peerAddr.length ≤ 4 := by
  rw [HdlcSession.peerAddr]
  split
  · exact sized.serverAddr
  · exact sized.clientAddr

/-- A frame that a receiver sends by itself. -/
structure HdlcFrame.IsReply (f : HdlcFrame) (destination source : HdlcAddress) : Prop where
  destination : f.destination = destination
  source : f.source = source
  type : f.control.type = .rr ∨ f.control.type = .frmr
  info : f.info.length ≤ 3

/-- The script behind a call that sent at most one reply. -/
structure Wire.Replied (w : Wire) (destination : HdlcAddress) (world : World) : Prop where
  rx : world.rx = w.world.rx
  sent : world.sent = w.world.sent ∨ ∃ reply bytes, reply.IsReply destination w.hdlc.ownAddr ∧
    hdlcFrame reply sessionBufSize = .ok bytes ∧ world.sent = w.world.sent ++ [bytes]

theorem Wire.Replied.silent (w : Wire) (destination : HdlcAddress) : w.Replied destination w.world := ⟨rfl, .inl rfl⟩

/-! ## Outcomes -/

/-- A session takes an information frame of the negotiated length that acknowledges what was sent and has the next
number. -/
structure HdlcSession.Expects (s : HdlcSession) (frame : HdlcFrame) : Prop where
  limit : frame.info.length ≤ infoLimit s.xid.maxInfoRx
  acknowledges : frame.control.recvSeq = s.sendSeq
  next : frame.control.sendSeq = s.recvSeq

def assembled (size : ℕ) (msdu : List UInt8) : Except Err (List UInt8) :=
  if msdu.length < 3 then .error .invalid
  else if (stripLlc msdu).length > size then .error .nomem
  else .ok (stripLlc msdu)

/-- What an information frame does to a session, and what the caller gets. -/
inductive InfoOutcome (s : HdlcSession) (frame : HdlcFrame) (size : ℕ) :
    Except Err (List UInt8) → HdlcSession → Prop
  | refused : ¬s.Expects frame → InfoOutcome s frame size (.error .timeout) s
  | overflown : s.Expects frame → s.reassembly.length + frame.info.length > hdlcMaxFrameSize →
      InfoOutcome s frame size (.error .timeout) { s with reassembly := [] }
  | segment : s.Expects frame → s.reassembly.length + frame.info.length ≤ hdlcMaxFrameSize → frame.segmented = true →
      InfoOutcome s frame size (.error .timeout)
        { s with reassembly := s.reassembly ++ frame.info, recvSeq := (frame.control.sendSeq + 1) &&& 7 }
  | completed : s.Expects frame → s.reassembly.length + frame.info.length ≤ hdlcMaxFrameSize →
      frame.segmented = false →
      InfoOutcome s frame size (assembled size (s.reassembly ++ frame.info))
        { s with reassembly := [], recvSeq := (frame.control.sendSeq + 1) &&& 7 }

variable {frame : HdlcFrame}

/-- An APDU is returned for a completed unit only. -/
theorem InfoOutcome.of_ok {hdlc : HdlcSession} {size : ℕ} {apdu : List UInt8}
    (outcome : InfoOutcome s frame size (.ok apdu) hdlc) :
    s.Expects frame ∧ s.reassembly.length + frame.info.length ≤ hdlcMaxFrameSize ∧ frame.segmented = false ∧
      assembled size (s.reassembly ++ frame.info) = .ok apdu ∧
      hdlc = { s with reassembly := [], recvSeq := (frame.control.sendSeq + 1) &&& 7 } := by
  generalize result : Except.ok apdu = returned at outcome
  cases outcome with
  | refused | overflown | segment => cases result
  | completed expected room unsegmented => exact ⟨expected, room, unsegmented, rfl, rfl⟩

variable {w : Wire}

/-- Behind a reply that the session builds, whatever follows. -/
theorem reply_then {reply : HdlcSession → HdlcFrame} {dst : HdlcAddress}
    (isReply : (reply w.hdlc).IsReply dst w.hdlc.ownAddr) (next : Program Wire α) :
    ∃ world, (do let _ ← session >>= fun s => sessionSendFrame (reply s); next) w = next (w.setWorld world) ∧
      w.Replied dst world ∧ (w.hdlc.Sized → dst.length ≤ 4 → w.world.Spoken world) := by
  obtain ⟨result, world, returned, rx, success, failure⟩ := sessionSendFrame_returns (reply w.hdlc) w
  refine ⟨world, bind_of_some returned, ⟨rx, ?_⟩, fun sized short => ?_⟩
  · by_cases sent : result = .ok
    · obtain ⟨bytes, framed, logged⟩ := success sent
      exact .inr ⟨_, bytes, isReply, framed, logged⟩
    · exact .inl (failure sent)
  · obtain ⟨result', world', returned', spoken⟩ := sessionSendFrame_spoken (isReply.destination ▸ short)
      (isReply.source ▸ sized.own) (isReply.info.trans (by decide)) w
    cases returned.symm.trans returned'
    exact spoken

theorem frmr_then (w : Wire) (dst : HdlcAddress) (rejected reasons : UInt8) (next : Program Wire α) :
    ∃ world, (do let _ ← sessionSendFrmr dst rejected reasons; next) w = next (w.setWorld world) ∧
      w.Replied dst world ∧ (w.hdlc.Sized → dst.length ≤ 4 → w.world.Spoken world) :=
  reply_then ⟨rfl, rfl, .inr rfl, Nat.le_refl _⟩ next

theorem rr_then (w : Wire) (dst : HdlcAddress) (next : Program Wire α) :
    ∃ world, (do let _ ← sessionSendRr dst; next) w = next (w.setWorld world) ∧
      w.Replied dst world ∧ (w.hdlc.Sized → dst.length ≤ 4 → w.world.Spoken world) :=
  reply_then ⟨rfl, rfl, .inl rfl, Nat.zero_le _⟩ next

/-- Every information frame has one of the outcomes, and is answered or counted. -/
theorem sessionHandleInfo_outcome (frame : HdlcFrame) (size : ℕ) (w : Wire) :
    ∃ result hdlc world, sessionHandleInfo frame size w = some (result, (w.setHdlc hdlc).setWorld world) ∧
      InfoOutcome w.hdlc frame size result hdlc ∧ w.Replied frame.source world ∧
      (w.hdlc.Sized → frame.source.length ≤ 4 → w.world.Spoken world ∨ hdlc.recvSeq = (w.hdlc.recvSeq + 1) &&& 7) := by
  let timeout : Program Wire (Except Err (List UInt8)) := return .error .timeout
  rw [sessionHandleInfo, session_bind_apply]
  by_cases limit : frame.info.length > infoLimit w.hdlc.xid.maxInfoRx
  · rw [if_pos limit]
    obtain ⟨world, returned, replied, spoken⟩ := frmr_then w frame.source frame.controlRaw 0x04 timeout
    exact ⟨_, _, world, returned, .refused fun expected => absurd expected.limit (by omega), replied,
      fun sized short => .inl (spoken sized short)⟩
  rw [if_neg limit]
  by_cases acknowledges : frame.control.recvSeq ≠ w.hdlc.sendSeq
  · rw [if_pos acknowledges]
    obtain ⟨world, returned, replied, spoken⟩ := frmr_then w frame.source frame.controlRaw 0x08 timeout
    exact ⟨_, _, world, returned, .refused fun expected => acknowledges expected.acknowledges, replied,
      fun sized short => .inl (spoken sized short)⟩
  rw [if_neg acknowledges]
  by_cases next : frame.control.sendSeq ≠ w.hdlc.recvSeq
  · rw [if_pos next]
    obtain ⟨world, returned, replied, spoken⟩ := rr_then w frame.source timeout
    exact ⟨_, _, world, returned, .refused fun expected => next expected.next, replied,
      fun sized short => .inl (spoken sized short)⟩
  rw [if_neg next]
  have expected : w.hdlc.Expects frame := ⟨not_lt.mp limit, not_not.mp acknowledges, not_not.mp next⟩
  by_cases room : w.hdlc.reassembly.length + frame.info.length > hdlcMaxFrameSize
  · rw [if_pos room]
    obtain ⟨world, returned, replied, spoken⟩ := frmr_then w frame.source frame.controlRaw 0x04 (do
      modifySession fun s => { s with reassembly := [] }
      timeout)
    exact ⟨_, _, world, returned, .overflown expected room, replied,
      fun sized short => .inl (spoken sized short)⟩
  rw [if_neg room]
  by_cases segmented : frame.segmented = true
  · obtain ⟨world, returned, replied, spoken⟩ := rr_then
      (w.setHdlc { w.hdlc with
        reassembly := w.hdlc.reassembly ++ frame.info, recvSeq := (frame.control.sendSeq + 1) &&& 7 })
      frame.source timeout
    refine ⟨_, _, world, ?_, .segment expected (not_lt.mp room) segmented, ⟨replied.rx, replied.sent⟩,
      fun _ _ => .inr (by rw [expected.next])⟩
    rw [modifySession_bind_apply, if_pos segmented]
    exact returned
  · refine ⟨_, _, w.world, ?_, .completed expected (not_lt.mp room) (by simpa using segmented), .silent _ _,
      fun _ _ => .inr (by rw [expected.next])⟩
    rw [modifySession_bind_apply, if_neg segmented, modifySession_bind_apply, assembled]
    split_ifs
    · rfl
    · rfl
    · rfl

theorem sessionHandleFrame_info (type : frame.control.type = .i) (size : ℕ) :
    sessionHandleFrame frame size = sessionHandleInfo frame size := by
  rw [sessionHandleFrame, if_neg (by simp [type, frameAllowsInfo]), if_pos type]

variable {f : HdlcFrame}

/-- The frame that a session expects, as it is received. -/
theorem HdlcSession.expects_received (type : f.control.type = .i)
    (numbered : f.control.sendSeq &&& 7 = s.recvSeq ∧ f.control.recvSeq &&& 7 = s.sendSeq)
    (allowed : f.info.length ≤ infoLimit s.xid.maxInfoRx) : s.Expects f.received := by
  have control : f.received.control = ⟨.i, f.control.pollFinal, f.control.sendSeq &&& 7, f.control.recvSeq &&& 7⟩ := by
    simp only [HdlcFrame.received, Control.received, type]
  constructor
  · exact (List.length_take_le' _ _).trans allowed
  · rw [control, numbered.2]
  · rw [control, numbered.1]

/-- An information frame that arrives on a connected link has one of the outcomes. -/
theorem hdlcSessionRecvApdu_outcome (forever : Bool) (size : ℕ) {skipped behind : List UInt8} (valid : f.Valid)
    (small : f.encoding.length ≤ sessionBufSize) (clean : 0x7E ∉ skipped) (connected : w.hdlc.state = .connected)
    (type : f.control.type = .i) (arriving : w.Arriving (skipped ++ (f.encoding ++ behind))) :
    ∃ result hdlc world bytes stale rx, hdlcSessionRecvApdu forever size w =
        some (result, ((w.buffering bytes stale rx).setHdlc hdlc).setWorld world) ∧
      InfoOutcome (w.buffering bytes stale rx).hdlc f.received size result hdlc ∧
      (w.buffering bytes stale rx).Replied f.source world ∧ (w.buffering bytes stale rx).Arriving behind := by
  obtain ⟨bytes, stale, rx, returned, rest⟩ := hdlcSessionRecvApdu_arriving valid small clean connected arriving
  have type' : f.received.control.type = .i := by simp [HdlcFrame.received, Control.received, type]
  rw [sessionHandleFrame_info type'] at returned
  obtain ⟨result, hdlc, world, handled, outcome, replied, -⟩ :=
    sessionHandleInfo_outcome f.received size (w.buffering bytes stale rx)
  exact ⟨result, hdlc, world, bytes, stale, rx, returned.trans handled, outcome, replied, rest⟩

/-! ## Sending -/

/-- An APDU behind the LLC header of its direction. -/
def HdlcSession.withLlc (s : HdlcSession) (apdu : List UInt8) : List UInt8 :=
  (if s.isClient then [0xE6, 0xE6, 0x00] else [0xE6, 0xE7, 0x00]) ++ apdu

/-- The session behind an information frame that was sent. -/
def HdlcSession.counting (s : HdlcSession) (info : List UInt8) : HdlcSession :=
  { s with
    lastSentInfo := info, lastSentSeq := s.sendSeq, hasPendingRetransmit := true, sendSeq := (s.sendSeq + 1) &&& 7 }

/-- An APDU is sent in one frame and counted, or nothing happens. -/
theorem hdlcSessionSendApdu_outcome (apdu : List UInt8) (w : Wire) :
    ∃ result hdlc world, hdlcSessionSendApdu apdu w = some (result, (w.setHdlc hdlc).setWorld world) ∧
      world.rx = w.world.rx ∧ (result ≠ .ok ∧ hdlc = w.hdlc ∧ world.sent = w.world.sent ∨
        result = .ok ∧ hdlc = w.hdlc.counting (w.hdlc.withLlc apdu) ∧ (w.hdlc.withLlc apdu).length ≤ hdlcMaxFrameSize ∧
          ∃ bytes, hdlcFrame (w.hdlc.infoFrame w.hdlc.sendSeq (w.hdlc.withLlc apdu)) sessionBufSize = .ok bytes ∧
            world.sent = w.world.sent ++ [bytes]) := by
  rw [hdlcSessionSendApdu, session_bind_apply]
  by_cases closed : w.hdlc.state ≠ .connected
  · rw [if_pos closed]
    exact ⟨_, w.hdlc, w.world, rfl, rfl, .inl ⟨by decide, rfl, rfl⟩⟩
  rw [if_neg closed]
  change ∃ result hdlc world, (if (w.hdlc.withLlc apdu).length > _ then _ else _ : Program Wire Err) w = _ ∧ _
  by_cases big : (w.hdlc.withLlc apdu).length > min (infoLimit w.hdlc.xid.maxInfoTx) hdlcMaxFrameSize
  · rw [if_pos big]
    exact ⟨_, w.hdlc, w.world, rfl, rfl, .inl ⟨by decide, rfl, rfl⟩⟩
  rw [if_neg big]
  obtain ⟨result, world, returned, rx, success, failure⟩ :=
    sessionSendFrame_returns (w.hdlc.infoFrame w.hdlc.sendSeq (w.hdlc.withLlc apdu)) w
  by_cases sent : result = .ok
  · refine ⟨result, _, world, (bind_of_some returned).trans ?_, rx, .inr ⟨sent, rfl, by omega, success sent⟩⟩
    rw [if_pos sent]
    rfl
  · refine ⟨result, w.hdlc, world, (bind_of_some returned).trans ?_, rx, .inl ⟨sent, rfl, failure sent⟩⟩
    rw [if_neg sent]
    rfl

end OpenSpodes
