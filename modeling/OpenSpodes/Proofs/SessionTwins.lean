import OpenSpodes.Machine.TwoRuns
import OpenSpodes.Proofs.ParserLocal

/-! # Two sessions that differ in what earlier links left

Old bytes behind the received ones, the last information frame while none waits for an acknowledgement, and the
address that a set-up frame named are left over from earlier links. Two sessions that are the same apart from them,
on the same events, send and deliver alike: every call returns the same in both and leaves them so.
-/

namespace OpenSpodes

open Machine

variable (bytes : List UInt8) (frame : HdlcFrame) (dst : HdlcAddress) (forever : Bool)

/-! ## Residues -/

/-- What earlier links leave in a session, and what was sent before. -/
structure SessionResidue where
  rxBuf : List UInt8
  lastSentInfo : List UInt8
  lastSentSeq : UInt8
  receivedClientAddr : HdlcAddress
  sent : List (List UInt8)

def HdlcSession.onto (s : HdlcSession) (r : SessionResidue) : HdlcSession :=
  { s with
    rxBuf := r.rxBuf, lastSentInfo := r.lastSentInfo, lastSentSeq := r.lastSentSeq
    receivedClientAddr := r.receivedClientAddr }

def Wire.onto (w : Wire) (r : SessionResidue) : Wire :=
  { w with hdlc := w.hdlc.onto r, world := { w.world with sent := r.sent } }

/-- The residue goes with a link: both sent the same from their beginnings on, hold the same received bytes, and
have the same frame to repeat if there is one. -/
structure SessionResidue.Fits (left right : List (List UInt8)) (w : Wire) (r : SessionResidue) : Prop where
  sent : ∃ later, w.world.sent = left ++ later ∧ r.sent = right ++ later
  buffer : ∃ bytes stale stale', w.hdlc.rxBuf = bytes ++ stale ∧ r.rxBuf = bytes ++ stale' ∧
    w.hdlc.rxPendingLen = bytes.length
  retransmit : w.hdlc.hasPendingRetransmit = true →
    r.lastSentInfo = w.hdlc.lastSentInfo ∧ r.lastSentSeq = w.hdlc.lastSentSeq

/-- Two links that are the same apart from their residue. -/
def SessionTwins (left right : List (List UInt8)) (w v : Wire) : Prop := ∃ r, v = w.onto r ∧ r.Fits left right w

/-- A call that returns the same on both links and leaves them so. -/
abbrev Alike (left right : List (List UInt8)) {α : Type} (call : Program Wire α) : Prop :=
  Twin (SessionTwins left right) call

variable {left right : List (List UInt8)}

theorem transportSend_alike : Alike left right (transportSend bytes) := by
  rintro w _ ⟨r, rfl, fits⟩
  refine .get_bind (.modify_bind (.pure _ ?_))
  refine ⟨{ r with sent := if w.world.sends.headD .ok = .ok then r.sent ++ [bytes] else r.sent }, rfl, ?_⟩
  obtain ⟨later, first, second⟩ := fits.sent
  refine { fits with sent := ⟨if w.world.sends.headD .ok = .ok then later ++ [bytes] else later, ?_, ?_⟩ }
  · simp only [Wire.setWorld, first]
    split <;> simp
  · simp only [second]
    split <;> simp

theorem transportOpen_alike : Alike left right transportOpen := by
  rintro w _ ⟨r, rfl, fits⟩
  exact .get_bind (.modify_bind (.pure _ ⟨r, rfl, { fits with }⟩))

theorem note_alike (event : LinkEvent) : Alike left right (modify (·.note event)) := by
  rintro w _ ⟨r, rfl, fits⟩
  exact .modify ⟨r, rfl, { fits with }⟩

theorem sessionSendFrame_alike : Alike left right (sessionSendFrame frame) := by
  intro w v twins
  unfold sessionSendFrame
  cases hdlcFrame frame sessionBufSize with
  | error err => exact .pure _ twins
  | ok bytes => exact transportSend_alike bytes w v twins

/-- A frame built from the session, where its residue has no part in it. -/
theorem sessionSend_alike {build : HdlcSession → HdlcFrame} (same : ∀ s r, build (HdlcSession.onto s r) = build s) :
    Alike left right (do sessionSendFrame (build (← session))) := by
  rintro w _ ⟨r, rfl, fits⟩
  refine .get_bind ?_
  rw [show build (w.onto r).hdlc = build w.hdlc from same _ _]
  exact sessionSendFrame_alike _ w _ ⟨r, rfl, fits⟩

theorem sessionSendFrmr_alike (rejected reasons : UInt8) :
    Alike left right (sessionSendFrmr dst rejected reasons) :=
  sessionSend_alike fun _ _ => rfl

theorem sessionSendRr_alike : Alike left right (sessionSendRr dst) :=
  sessionSend_alike fun _ _ => rfl

theorem sessionSendDm_alike : Alike left right (sessionSendDm dst) :=
  sessionSend_alike fun _ _ => rfl

theorem sessionSendUaXid_alike : Alike left right (sessionSendUaXid dst) :=
  sessionSend_alike fun _ _ => rfl

/-- A change of the session that does not look at the residue and starts no wait for an acknowledgement. -/
structure PlainChange (change : HdlcSession → HdlcSession) : Prop where
  residue : ∀ s r, ∃ addr, change (s.onto r) = (change s).onto { r with receivedClientAddr := addr } := by
    exact fun s r => ⟨r.receivedClientAddr, rfl⟩
  buffer : ∀ s, (change s).rxBuf = s.rxBuf := by
    exact fun s => rfl
  pending : ∀ s, (change s).rxPendingLen = s.rxPendingLen ∨ (change s).rxPendingLen = 0 := by
    exact fun s => .inl rfl
  retransmit : ∀ s, (change s).hasPendingRetransmit = true → s.hasPendingRetransmit = true ∧
      (change s).lastSentInfo = s.lastSentInfo ∧ (change s).lastSentSeq = s.lastSentSeq := by
    exact fun s waits => ⟨waits, rfl, rfl⟩

theorem modifySession_alike {change : HdlcSession → HdlcSession} (plain : PlainChange change) :
    Alike left right (modifySession change) := by
  rintro w _ ⟨r, rfl, fits⟩
  obtain ⟨addr, same⟩ := plain.residue w.hdlc r
  refine .modify ⟨{ r with receivedClientAddr := addr }, ?_, { fits with buffer := ?_, retransmit := ?_ }⟩
  · simp only [Wire.setHdlc, Wire.onto, same]
  · obtain ⟨bytes, stale, stale', first, second, pending⟩ := fits.buffer
    rcases plain.pending w.hdlc with kept | cleared
    · exact ⟨bytes, stale, stale', (plain.buffer _).trans first, second, kept.trans pending⟩
    · exact ⟨[], bytes ++ stale, bytes ++ stale', (plain.buffer _).trans first, second, cleared⟩
  · intro waits
    obtain ⟨before, info, seq⟩ := plain.retransmit w.hdlc waits
    obtain ⟨sameInfo, sameSeq⟩ := fits.retransmit before
    exact ⟨sameInfo.trans info.symm, sameSeq.trans seq.symm⟩

/-! ## Receiving -/

/-- The received bytes are stored over different old ones. -/
theorem storeRx_alike (stale stale' : List UInt8) {w v : Wire} (twins : SessionTwins left right w v) :
    TwinAt (SessionTwins left right) w v (storeRx (bytes ++ stale) bytes.length)
      (storeRx (bytes ++ stale') bytes.length) := by
  obtain ⟨r, rfl, fits⟩ := twins
  refine .inr ⟨⟨⟩, _, _, rfl, rfl, { r with rxBuf := bytes ++ stale' }, rfl, ?_⟩
  exact { fits with buffer := ⟨bytes, stale, stale', rfl, rfl, rfl⟩ }

theorem nextRx_alike (room : ℕ) : Alike left right (nextRx room) := by
  rintro w _ ⟨r, rfl, fits⟩
  refine .get_bind ?_
  dsimp only
  rw [show (w.onto r).world.rx = w.world.rx from rfl]
  cases w.world.rx with
  | nil => exact .blocked
  | cons event rx =>
    have next : SessionTwins left right (w.setWorld { w.world with rx := rx })
        ((w.setWorld { w.world with rx := rx }).onto r) := ⟨r, rfl, { fits with }⟩
    refine .modify_bind ?_
    cases event with
    | expired => exact .pure _ next
    | failed err => exact .pure _ next
    | bytes data => exact .pure _ next

theorem sessionRecvLoop_alike (fuel : ℕ) : Alike left right (sessionRecvLoop forever fuel) := by
  induction fuel with
  | zero => exact fun w v _ => .blocked
  | succ fuel ih =>
    rintro w _ ⟨r, rfl, fits⟩
    rw [sessionRecvLoop]
    refine .get_bind ?_
    obtain ⟨bytes, stale, stale', first, second, pending⟩ := fits.buffer
    have same := sessionParse_local bytes (bytes.length + 1) stale stale'
    rw [← pending, ← first, ← second] at same
    rw [show (w.onto r).hdlc.rxPendingLen = w.hdlc.rxPendingLen from rfl,
      show (w.onto r).hdlc.rxBuf = r.rxBuf from rfl, show (w.onto r).hdlc.state = w.hdlc.state from rfl]
    have here : SessionTwins left right w (w.onto r) := ⟨r, rfl, fits⟩
    generalize sessionParse (w.hdlc.rxPendingLen + 1) w.hdlc.rxBuf w.hdlc.rxPendingLen = found at same ⊢
    generalize sessionParse (w.hdlc.rxPendingLen + 1) r.rxBuf w.hdlc.rxPendingLen = found' at same ⊢
    cases same with
    | @frame err f rest mem mem' =>
      refine (storeRx_alike rest mem mem' here).bind fun _ => Twin.ite ?_ (.pure _)
      exact .ite ((sessionSendFrmr_alike _ _ _).bind fun _ => .pure _) (.pure _)
    | @more part mem mem' =>
      refine (storeRx_alike part mem mem' here).bind fun _ w v twins => .ite (fun _ => .pure _ twins) fun _ => ?_
      refine (nextRx_alike _ w v twins).bind fun event w v twins => ?_
      cases event with
      | expired => exact Twin.ite ih (.pure _) w v twins
      | failed err =>
        cases err with
        | timeout => exact (storeRx_alike [] (part ++ mem) (part ++ mem') twins).bind fun _ => Twin.ite ih (.pure _)
        | _ => exact .pure _ twins
      | bytes data =>
        refine .ite (fun _ => .pure _ twins) fun _ => ?_
        have filled (mem : List UInt8) : (part ++ mem).take part.length ++
            overwrite ((part ++ mem).drop part.length) data = part ++ data ++ mem.drop data.length := by
          rw [List.take_left, List.drop_left, overwrite, List.append_assoc]
        rw [filled, filled, ← List.length_append]
        exact (storeRx_alike _ _ _ twins).bind fun _ => ih

theorem sessionRecvFrame_alike : Alike left right (sessionRecvFrame forever) := by
  rintro w _ ⟨r, rfl, fits⟩
  exact .get_bind (sessionRecvLoop_alike forever _ w _ ⟨r, rfl, fits⟩)

theorem sessionRecvIntact_alike (fuel : ℕ) : Alike left right (sessionRecvIntact forever fuel) := by
  induction fuel with
  | zero => exact fun w v _ => .blocked
  | succ fuel ih =>
    rw [sessionRecvIntact]
    exact (sessionRecvFrame_alike forever).bind fun _ => .ite ih (.pure _)

/-! ## Set-up and disconnection -/

theorem plain_enterNdm : PlainChange HdlcSession.enterNdm :=
  { pending := fun _ => .inr rfl, retransmit := fun _ waits => by simp [HdlcSession.enterNdm] at waits }

theorem plain_adopt : PlainChange (·.adopt frame) :=
  { residue := fun _ _ => ⟨frame.source, rfl⟩ }

theorem plain_restart : PlainChange HdlcSession.restart :=
  { retransmit := fun _ waits => by simp [HdlcSession.restart] at waits }

theorem plain_connected : PlainChange fun s => { s.restart with state := .connected } :=
  { retransmit := fun _ waits => by simp [HdlcSession.restart] at waits }

theorem plain_state (state : HdlcState) : PlainChange fun s => { s with state := state } := {}

theorem sessionHandleDisc_alike (src : HdlcAddress) : Alike left right (sessionHandleDisc src) := by
  rintro w _ ⟨r, rfl, fits⟩
  refine .get_bind (.ite (fun _ => ?_) fun _ => sessionSendDm_alike src w _ ⟨r, rfl, fits⟩)
  refine (sessionSendUaXid_alike src w _ ⟨r, rfl, fits⟩).bind fun result => ?_
  refine Twin.ite ?_ (.pure _)
  exact (modifySession_alike plain_enterNdm).bind fun _ => (note_alike .disc).bind fun _ => .pure _

theorem sessionAcceptSnrm_alike : Alike left right (sessionAcceptSnrm frame) := by
  refine (modifySession_alike (plain_adopt frame)).bind fun _ => ?_
  refine (sessionSendUaXid_alike frame.source).bind fun result => ?_
  refine .ite ?_ (.pure _)
  exact (modifySession_alike plain_connected).bind fun _ => (note_alike .setUp).bind fun _ => .pure _

theorem sessionConnectLoop_alike (fuel : ℕ) : Alike left right (sessionConnectLoop forever fuel) := by
  induction fuel with
  | zero => exact fun w v _ => .blocked
  | succ fuel ih =>
    rw [sessionConnectLoop]
    refine (sessionRecvFrame_alike forever).bind fun received => ?_
    refine .ite ih (.ite (.pure _) ?_)
    have answered : Alike left right (do
        let result ← sessionHandleDisc received.2.source
        if result = .ok then sessionConnectLoop forever fuel else return result) :=
      (sessionHandleDisc_alike _).bind fun _ => .ite ih (.pure _)
    rintro w _ ⟨r, rfl, fits⟩
    refine .get_bind (.ite (fun _ => ?_) fun _ => ?_)
    · exact sessionAcceptSnrm_alike received.2 w _ ⟨r, rfl, fits⟩
    · exact Twin.ite answered ih w _ ⟨r, rfl, fits⟩

theorem sessionConnectClient_alike : Alike left right (sessionConnectClient forever) := by
  refine (modifySession_alike (plain_state .connecting)).bind fun _ => ?_
  rintro w _ ⟨r, rfl, fits⟩
  refine .get_bind ((sessionSendFrame_alike _ w _ ⟨r, rfl, fits⟩).bind fun result => ?_)
  refine Twin.ite (.pure _) ((sessionRecvFrame_alike forever).bind fun received => ?_)
  have idle : Alike left right (modifySession fun s => { s with state := .idle }) :=
    modifySession_alike (plain_state .idle)
  refine .ite (idle.bind fun _ => .pure _) (.ite (idle.bind fun _ => .pure _) ?_)
  exact (modifySession_alike {}).bind fun _ => .pure _

theorem hdlcSessionConnect_alike : Alike left right (hdlcSessionConnect forever) := by
  refine transportOpen_alike.bind fun opened => .ite (.pure _) ?_
  rintro w _ ⟨r, rfl, fits⟩
  refine .get_bind (.ite (fun _ => sessionConnectClient_alike forever w _ ⟨r, rfl, fits⟩) fun _ => ?_)
  refine (modifySession_alike (plain_state .idle) w _ ⟨r, rfl, fits⟩).bind fun _ => ?_
  rintro w _ ⟨r, rfl, fits⟩
  exact .get_bind (sessionConnectLoop_alike forever _ w _ ⟨r, rfl, fits⟩)

theorem hdlcSessionDisconnect_alike : Alike left right (hdlcSessionDisconnect forever) := by
  rintro w _ ⟨r, rfl, fits⟩
  refine .get_bind (.ite (fun _ => .pure _ ⟨r, rfl, fits⟩) fun _ => ?_)
  refine (modifySession_alike (plain_state .disconnecting) w _ ⟨r, rfl, fits⟩).bind fun _ w v twins => ?_
  refine (sessionSendFrame_alike _ w v twins).bind fun result => ?_
  have idle : Alike left right (modifySession fun s => { s with state := .idle }) :=
    modifySession_alike (plain_state .idle)
  refine Twin.ite (idle.bind fun _ => .pure _) ((sessionRecvFrame_alike forever).bind fun received => ?_)
  exact idle.bind fun _ => .ite (.pure _) (.ite (.pure _) (.pure _))

/-! ## Information frames -/

theorem hdlcSessionSendApdu_alike (apdu : List UInt8) : Alike left right (hdlcSessionSendApdu apdu) := by
  rintro w _ ⟨r, rfl, fits⟩
  refine .get_bind (.ite (fun _ => .pure _ ⟨r, rfl, fits⟩) fun _ => ?_)
  refine .ite (fun _ => .pure _ ⟨r, rfl, fits⟩) fun _ => ?_
  refine (sessionSendFrame_alike _ w _ ⟨r, rfl, fits⟩).bind fun result => ?_
  refine Twin.ite (.bind ?_ fun _ => .pure _) (.pure _)
  -- the frame that waits for its acknowledgement is now the same in both
  rintro w _ ⟨r, rfl, fits⟩
  exact .modify ⟨{ r with lastSentInfo := _, lastSentSeq := w.hdlc.sendSeq }, rfl,
    { fits with retransmit := fun _ => ⟨rfl, rfl⟩ }⟩

theorem sessionRetransmit_alike : Alike left right sessionRetransmit := by
  rintro w _ ⟨r, rfl, fits⟩
  refine .get_bind (.ite (fun waits => ?_) fun _ => .pure _ ⟨r, rfl, fits⟩)
  obtain ⟨info, seq⟩ := fits.retransmit waits.1
  have same : (w.onto r).hdlc.infoFrame (w.onto r).hdlc.lastSentSeq (w.onto r).hdlc.lastSentInfo =
      w.hdlc.infoFrame w.hdlc.lastSentSeq w.hdlc.lastSentInfo := by
    simp only [Wire.onto, HdlcSession.onto, info, seq]
    rfl
  rw [same]
  refine (sessionSendFrame_alike _ w _ ⟨r, rfl, fits⟩).bind fun _ => ?_
  exact modifySession_alike { retransmit := fun _ waits => by simp at waits }

theorem sessionHandleControl_alike : Alike left right (sessionHandleControl frame) := by
  have rejects (reasons : UInt8) : Alike left right (do
      let _ ← sessionSendFrmr frame.source frame.controlRaw reasons
      return Err.timeout) := (sessionSendFrmr_alike _ _ _).bind fun _ => .pure _
  rintro w _ ⟨r, rfl, fits⟩
  have here : SessionTwins left right w (w.onto r) := ⟨r, rfl, fits⟩
  unfold sessionHandleControl
  refine .get_bind ?_
  cases frame.control.type with
  | ui => exact .ite (fun _ => rejects 0x04 w _ here) fun _ => .pure _ here
  | snrm =>
    refine .ite (fun _ => ?_) fun _ => .pure _ here
    refine (modifySession_alike (plain_adopt frame) w _ here).bind fun _ => ?_
    refine (sessionSendUaXid_alike frame.source).bind fun _ => ?_
    exact (modifySession_alike plain_restart).bind fun _ => (note_alike .restart).bind fun _ => .pure _
  | disc => exact sessionHandleDisc_alike frame.source w _ here
  | rr =>
    refine .ite (fun _ => rejects 0x08 w _ here) fun _ => ?_
    refine (modifySession_alike ?_ w _ here).bind fun _ => Twin.pure _
    exact { retransmit := fun _ waits => by simp at waits }
  | rnr => exact .ite (fun _ => rejects 0x08 w _ here) fun _ => .pure _ here
  | rej => exact (sessionRetransmit_alike w _ here).bind fun _ => Twin.pure _
  | _ => exact .pure _ here

theorem sessionHandleInfo_alike (size : ℕ) : Alike left right (sessionHandleInfo frame size) := by
  have rejects (reasons : UInt8) : Alike left right (do
      let _ ← sessionSendFrmr frame.source frame.controlRaw reasons
      return (.error .timeout : Except Err (List UInt8))) := (sessionSendFrmr_alike _ _ _).bind fun _ => .pure _
  have acknowledges : Alike left right (do
      let _ ← sessionSendRr frame.source
      return (.error .timeout : Except Err (List UInt8))) := (sessionSendRr_alike _).bind fun _ => .pure _
  rintro w _ ⟨r, rfl, fits⟩
  have here : SessionTwins left right w (w.onto r) := ⟨r, rfl, fits⟩
  refine .get_bind (.ite (fun _ => rejects 0x04 w _ here) fun _ => ?_)
  refine .ite (fun _ => rejects 0x08 w _ here) fun _ => ?_
  refine .ite (fun _ => acknowledges w _ here) fun _ => .ite (fun _ => ?_) fun _ => ?_
  · refine (sessionSendFrmr_alike _ _ _ w _ here).bind fun _ => ?_
    exact (modifySession_alike {}).bind fun _ => .pure _
  · refine (modifySession_alike {} w _ here).bind fun _ => ?_
    refine Twin.ite acknowledges ((modifySession_alike {}).bind fun _ => ?_)
    exact .ite (.pure _) (.ite (.pure _) (.pure _))

theorem hdlcSessionRecvApdu_alike (size : ℕ) : Alike left right (hdlcSessionRecvApdu forever size) := by
  rintro w _ ⟨r, rfl, fits⟩
  refine .get_bind (.ite (fun _ => .pure _ ⟨r, rfl, fits⟩) fun _ => .get_bind ?_)
  refine (sessionRecvIntact_alike forever _ w _ ⟨r, rfl, fits⟩).bind fun received => ?_
  refine Twin.ite (.pure _) (.ite ?_ (.ite (sessionHandleInfo_alike received.2 size) ?_))
  · exact (sessionSendFrmr_alike _ _ _).bind fun _ => .pure _
  · exact (sessionHandleControl_alike received.2).bind fun _ => .pure _

/-! ## Calls -/

theorem SessionCall.run_alike (call : SessionCall) : Alike left right call.run := by
  cases call with
  | connect forever => exact (hdlcSessionConnect_alike forever).bind fun _ => .pure _
  | sendApdu apdu => exact (hdlcSessionSendApdu_alike apdu).bind fun _ => .pure _
  | recvApdu forever size =>
    refine (hdlcSessionRecvApdu_alike forever size).bind fun received => ?_
    cases received with
    | ok apdu => exact .pure _
    | error err => exact .pure _
  | disconnect forever => exact (hdlcSessionDisconnect_alike forever).bind fun _ => .pure _

/-- Whatever is called on the one link can be called on the other, with the same results. -/
theorem SessionTwins.history {w v final : Wire} {calls : List (SessionCall × Err × Option (List UInt8))}
    (twins : SessionTwins left right w v) (history : SessionHistory w calls final) :
    ∃ final', SessionHistory v calls final' ∧ SessionTwins left right final final' := by
  induction history with
  | start => exact ⟨v, .start, twins⟩
  | @extend calls now next call _ happened ih =>
    obtain ⟨now', before, twins⟩ := ih
    rcases SessionCall.run_alike call.1 now now' twins with ⟨waits, _⟩ | ⟨result, s, t, ran, ran', twins⟩
    · rw [waits] at happened
      simp at happened
    · rw [ran] at happened
      obtain ⟨rfl, rfl⟩ : result = call.2 ∧ s = next := by simpa using happened
      exact ⟨t, before.extend ran', twins⟩

end OpenSpodes
