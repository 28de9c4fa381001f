import OpenSpodes.Model.Gbt
import OpenSpodes.Model.HdlcSession

/-! # Relations that the link layer keeps

Sending and receiving go through a few elementary changes of the link: the script moves on, a buffer is
filled, the session takes note of something. A relation that composes and that these changes keep is kept by
everything built from them, up to the reception of one information frame. Setting up, restarting and
disconnecting the link are not of this kind.
-/

namespace OpenSpodes

open Machine

/-- One change of a session, under the condition that its function has checked. -/
inductive SessionMove (s : HdlcSession) : HdlcSession → Prop
  | buffer {mem : List UInt8} {total : ℕ} : total ≤ max s.rxPendingLen sessionBufSize →
      SessionMove s { s with rxBuf := mem, rxPendingLen := total }
  | state (state : HdlcState) : SessionMove s { s with state := state }
  | sent {info : List UInt8} : info.length ≤ hdlcMaxFrameSize →
      SessionMove s
        { s with
          lastSentInfo := info, lastSentSeq := s.sendSeq, hasPendingRetransmit := true
          sendSeq := (s.sendSeq + 1) &&& 7 }
  | settled : SessionMove s { s with hasPendingRetransmit := false }
  | adopted (frame : HdlcFrame) : SessionMove s (s.adopt frame)
  | restarted : SessionMove s s.restart
  | established : SessionMove s { s.restart with state := .connected }
  | answered (info : List UInt8) :
      SessionMove s
        { s with
          xid := negotiateXid s.xid info, state := .connected, sendSeq := 0, recvSeq := 0, reassembly := [] }
  | closed : SessionMove s s.enterNdm
  | taken {info : List UInt8} {seq : UInt8} : s.reassembly.length + info.length ≤ hdlcMaxFrameSize →
      SessionMove s { s with reassembly := s.reassembly ++ info, recvSeq := (seq + 1) &&& 7 }
  | dropped : SessionMove s { s with reassembly := [] }

/-- The elementary changes keep the relation; those of a session leave its state and its negotiated
parameters alone. -/
structure LinkRelation (R : Wire → Wire → Prop) : Prop where
  setWorld : ∀ (w : Wire) (world : World), R w (w.setWorld world)
  fillTx : ∀ (w : Wire) (bytes : List UInt8), R w (w.fillTx bytes)
  fillRx : ∀ (w : Wire) (bytes : List UInt8), R w (w.fillRx bytes)
  session : ∀ (w : Wire) (t : HdlcSession), SessionMove w.hdlc t → t.state = w.hdlc.state ∧ t.xid = w.hdlc.xid →
    R w (w.setHdlc t)

def Parsed.total : Parsed → ℕ
  | .frame _ _ _ total => total
  | .more _ total => total

theorem sessionParse_total (fuel : ℕ) (mem : List UInt8) (total : ℕ) : (sessionParse fuel mem total).total ≤ total := by
  induction fuel generalizing mem total with
  | zero => exact Nat.le_refl total
  | succ fuel ih =>
    rw [sessionParse]
    dsimp only
    split_ifs with few other unfinished unmarked more
    · exact Nat.sub_le _ _
    · exact (ih _ _).trans (by omega)
    · exact Nat.sub_le _ _
    · exact (ih _ _).trans (by omega)
    · exact (Nat.sub_le _ _).trans (Nat.sub_le _ _)
    · exact Nat.zero_le _

variable {R : Wire → Wire → Prop}

/-! ## Elementary changes -/

section Elementary

variable (link : LinkRelation R)

include link

theorem keeps_setWorld {f : Wire → World} : Keeps R (modify fun w => w.setWorld (f w)) :=
  .modify fun w => link.setWorld w (f w)

theorem keeps_fillTx (bytes : List UInt8) : Keeps R (modify (·.fillTx bytes)) :=
  .modify fun w => link.fillTx w bytes

theorem keeps_fillRx (bytes : List UInt8) : Keeps R (modify (·.fillRx bytes)) :=
  .modify fun w => link.fillRx w bytes

theorem keeps_modifySession {change : HdlcSession → HdlcSession} {w : Wire} (move : SessionMove w.hdlc (change w.hdlc))
    (kept : (change w.hdlc).state = w.hdlc.state ∧ (change w.hdlc).xid = w.hdlc.xid) :
    KeepsAt R w (modifySession change) := by
  simpa [KeepsAt, modifySession] using link.session w _ move kept

theorem keeps_storeRx {w : Wire} {mem : List UInt8} {total : ℕ} (bound : total ≤ max w.hdlc.rxPendingLen sessionBufSize) :
    KeepsAt R w (storeRx mem total) :=
  keeps_modifySession link (.buffer bound) ⟨rfl, rfl⟩

theorem keeps_settled : Keeps R (modifySession fun s => { s with hasPendingRetransmit := false }) :=
  fun _ => keeps_modifySession link .settled ⟨rfl, rfl⟩

/-- What is received fits the room for it. -/
theorem nextRx_keeps (room : ℕ) (w : Wire) :
    wp (nextRx room) (fun event after => R w after ∧ ∀ data, event = .bytes data → data.length ≤ room) w := by
  unfold nextRx
  simp only [wp_bind, wp_get]
  cases w.world.rx with
  | nil => exact wp_blocked _ _
  | cons event rest =>
    cases event with
    | bytes data =>
      simp only [wp_bind, wp_modify, wp_pure]
      refine ⟨link.setWorld _ _, ?_⟩
      rintro _ ⟨⟩
      exact List.length_take_le _ _
    | expired | failed =>
      simp only [wp_bind, wp_modify, wp_pure]
      exact ⟨link.setWorld _ _, by simp⟩

theorem keeps_nextRx (room : ℕ) : Keeps R (nextRx room) :=
  fun w => (nextRx_keeps link room w).mono fun _ _ kept => kept.1

end Elementary

/-- Behind a look at the session, the session is still the one that was seen. -/
theorem keeps_session_bind {α : Type} {next : HdlcSession → Program Wire α}
    (kept : ∀ w : Wire, KeepsAt R w (next w.hdlc)) : Keeps R (session >>= next) :=
  fun w => kept w

variable [IsPreorder Wire R]

theorem keeps_session : Keeps R session := .bind .get fun _ => .pure _

variable (link : LinkRelation R)

include link

/-! ## Transport -/

theorem keeps_transportSend (bytes : List UInt8) : Keeps R (transportSend bytes) :=
  .bind .get fun _ => .bind (keeps_setWorld link) fun _ => .pure _

theorem keeps_transportOpen : Keeps R transportOpen :=
  .bind .get fun _ => .bind (keeps_setWorld link) fun _ => .pure _

theorem keeps_randomFill (n : ℕ) : Keeps R (randomFill n) :=
  .bind .get fun _ => .bind (keeps_setWorld link) fun _ => .pure _

theorem keeps_transportRecv (room : ℕ) : Keeps R (transportRecv room) := by
  refine .bind (keeps_nextRx link room) fun event => ?_
  cases event with
  | bytes | expired => exact .pure _
  | failed err => cases err <;> exact .pure _

theorem keeps_transportSendApdu (apdu : List UInt8) : Keeps R (transportSendApdu apdu) := by
  refine .bind .get fun w => ?_
  cases frameApdu w apdu with
  | error err => exact .pure _
  | ok framed => exact keeps_transportSend link framed

theorem keeps_transportRecvApdu (size : ℕ) : Keeps R (transportRecvApdu size) := by
  refine .bind (keeps_transportRecv link _) fun received => ?_
  cases received with
  | error err => exact .pure _
  | ok raw => exact .bind .get fun _ => .pure _

/-! ## General block transfer -/

theorem keeps_gbtSendBlock (gbt : GeneralBlock) : Keeps R (gbtSendBlock gbt) := by
  refine .bind .get fun w => ?_
  cases gbtEncode gbt (WBuf.init w.txBuf.length) with
  | error e buf => exact .pure _
  | ok u buf => exact .bind (keeps_fillTx link _) fun _ => keeps_transportSendApdu link _

theorem keeps_gbtRecvBlock (stale : List UInt8) : Keeps R (gbtRecvBlock stale) := by
  refine .bind .get fun w => .bind (keeps_transportRecvApdu link _) fun received => ?_
  cases received with
  | error err => exact .pure _
  | ok apdu => exact .bind (keeps_fillRx link _) fun _ => .pure _

theorem keeps_gbtWaitForAck (stale : List UInt8) (number : ℕ) : Keeps R (gbtWaitForAck stale number) := by
  refine .bind (keeps_gbtRecvBlock link stale) fun received => ?_
  cases received with
  | error err => exact .pure _
  | ok ack => exact .ite (.pure _) (.ite (.pure _) (.pure _))

theorem keeps_gbtSendLoop (stale : List UInt8) (send : GbtSend) (fuel : ℕ) (pos : GbtPos) :
    Keeps R (gbtSendLoop stale send fuel pos) := by
  induction fuel generalizing pos with
  | zero => exact .blocked
  | succ fuel ih =>
    unfold gbtSendLoop
    refine .ite (.bind .get fun w => .bind (keeps_gbtSendBlock link _) fun result => ?_) (.pure _)
    refine .ite (.pure _) (.ite (.bind (keeps_gbtWaitForAck link stale _) fun acked => ?_) (ih _))
    cases acked with
    | error err => exact .pure _
    | ok acked => exact ih _

theorem keeps_gbtTransportSend (stale : List UInt8) (send : GbtSend) : Keeps R (gbtTransportSend stale send) := by
  unfold gbtTransportSend
  exact .ite (.pure _) (.bind .get fun _ => keeps_gbtSendLoop link stale _ _ _)

theorem keeps_gbtAckThen (window number : ℕ) (next : GbtRecv) : Keeps R (gbtAckThen window number next) :=
  .bind (keeps_gbtSendBlock link _) fun _ => .pure _

theorem keeps_gbtRecvStep (size : ℕ) (position : GbtRecv) (gbt : GeneralBlock) :
    Keeps R (gbtRecvStep size position gbt) := by
  unfold gbtRecvStep
  refine .ite (keeps_gbtAckThen link _ _ _) (.ite (.ite (keeps_gbtAckThen link _ _ _) (.pure _)) ?_)
  exact .ite (.pure _) (.ite (.pure _) (.ite (keeps_gbtAckThen link _ _ _) (.pure _)))

theorem keeps_gbtRecvLoop (stale : List UInt8) (size fuel : ℕ) (position : GbtRecv) :
    Keeps R (gbtRecvLoop stale size fuel position) := by
  induction fuel generalizing position with
  | zero => exact .blocked
  | succ fuel ih =>
    refine .bind (keeps_gbtRecvBlock link stale) fun received => ?_
    cases received with
    | error err => exact .pure _
    | ok gbt =>
      refine .bind (keeps_gbtRecvStep link size position gbt) fun outcome => ?_
      cases outcome with
      | inl result => exact .pure _
      | inr next => exact ih next

theorem keeps_gbtTransportRecv (stale : List UInt8) (size : ℕ) (first : List UInt8) :
    Keeps R (gbtTransportRecv stale size first) := by
  unfold gbtTransportRecv
  cases gbtDecodeApdu stale first with
  | error err => exact .pure _
  | ok gbt =>
    refine .bind (keeps_gbtRecvStep link size {} gbt) fun outcome => ?_
    cases outcome with
    | inl result => exact .pure _
    | inr next => exact .bind .get fun _ => keeps_gbtRecvLoop link stale size _ _

/-! ## Frames of a session -/

theorem keeps_sessionSendFrame (frame : HdlcFrame) : Keeps R (sessionSendFrame frame) := by
  unfold sessionSendFrame
  cases hdlcFrame frame sessionBufSize with
  | error err => exact .pure _
  | ok bytes => exact keeps_transportSend link bytes

theorem keeps_sessionSendFrmr (dst : HdlcAddress) (rejected reasons : UInt8) :
    Keeps R (sessionSendFrmr dst rejected reasons) :=
  .bind keeps_session fun _ => keeps_sessionSendFrame link _

theorem keeps_sessionSendRr (dst : HdlcAddress) : Keeps R (sessionSendRr dst) :=
  .bind keeps_session fun _ => keeps_sessionSendFrame link _

theorem keeps_sessionSendDm (dst : HdlcAddress) : Keeps R (sessionSendDm dst) :=
  .bind keeps_session fun _ => keeps_sessionSendFrame link _

theorem keeps_sessionSendUaXid (dst : HdlcAddress) : Keeps R (sessionSendUaXid dst) :=
  .bind keeps_session fun _ => keeps_sessionSendFrame link _

theorem keeps_sessionRecvLoop (forever : Bool) (fuel : ℕ) : Keeps R (sessionRecvLoop forever fuel) := by
  induction fuel with
  | zero => exact .blocked
  | succ fuel ih =>
    refine keeps_session_bind fun w => ?_
    have bound := sessionParse_total (w.hdlc.rxPendingLen + 1) w.hdlc.rxBuf w.hdlc.rxPendingLen
    cases parsed : sessionParse (w.hdlc.rxPendingLen + 1) w.hdlc.rxBuf w.hdlc.rxPendingLen with
    | frame err frame mem total =>
      rw [parsed] at bound
      refine .bind (keeps_storeRx link (le_max_of_le_left bound)) fun _ => .ite ?_ (.pure _)
      exact .ite (.bind (keeps_sessionSendFrmr link _ _ _) fun _ => .pure _) (.pure _)
    | more mem total =>
      rw [parsed] at bound
      refine .bind (keeps_storeRx link (le_max_of_le_left bound)) fun _ w => .ite (fun _ => .pure _) fun room => ?_
      refine .bind_of_wp _ (nextRx_keeps link _ w) fun event fits => ?_
      cases event with
      | expired => exact .ite ih (.pure _)
      | failed err =>
        cases err with
        | timeout => exact .bind (fun w => keeps_storeRx link (Nat.zero_le _)) fun _ => .ite ih (.pure _)
        | _ => exact .pure _
      | bytes data =>
        have fits := fits data rfl
        exact .ite (.pure _) (.bind (fun w => keeps_storeRx link (by omega)) fun _ => ih)

theorem keeps_sessionRecvFrame (forever : Bool) : Keeps R (sessionRecvFrame forever) :=
  .bind .get fun _ => keeps_sessionRecvLoop link forever _

theorem keeps_sessionRecvIntact (forever : Bool) (fuel : ℕ) : Keeps R (sessionRecvIntact forever fuel) := by
  induction fuel with
  | zero => exact .blocked
  | succ fuel ih => exact .bind (keeps_sessionRecvFrame link forever) fun _ => .ite ih (.pure _)

theorem keeps_hdlcSessionSendApdu (apdu : List UInt8) : Keeps R (hdlcSessionSendApdu apdu) := by
  refine .bind keeps_session fun s => .ite (.pure _) fun w => .ite (fun _ => .pure _) fun fits => ?_
  refine .bind (keeps_sessionSendFrame link _ w) fun result => .ite ?_ (.pure _)
  exact .bind (fun w => keeps_modifySession link (.sent (by omega)) ⟨rfl, rfl⟩) fun _ => .pure _

theorem keeps_sessionRetransmit : Keeps R sessionRetransmit := by
  refine .bind keeps_session fun s => .ite ?_ (.pure _)
  exact .bind (keeps_sessionSendFrame link _) fun _ => keeps_settled link

theorem keeps_sessionHandleInfo (frame : HdlcFrame) (size : ℕ) : Keeps R (sessionHandleInfo frame size) := by
  have refused (reasons : UInt8) (rest : Program Wire (Except Err (List UInt8))) (kept : Keeps R rest) :
      Keeps R (do let _ ← sessionSendFrmr frame.source frame.controlRaw reasons; rest) :=
    .bind (keeps_sessionSendFrmr link _ _ _) fun _ => kept
  have dropped : Keeps R (modifySession fun s => { s with reassembly := [] }) :=
    fun _ => keeps_modifySession link .dropped ⟨rfl, rfl⟩
  refine keeps_session_bind fun w => .ite (fun _ => refused _ _ (.pure _) w) fun _ => ?_
  refine .ite (fun _ => refused _ _ (.pure _) w) fun _ => ?_
  refine .ite (fun _ => Keeps.bind (keeps_sessionSendRr link _) (fun _ => .pure _) w) fun _ => ?_
  refine .ite (fun _ => refused _ _ (.bind dropped fun _ => .pure _) w) fun fits => ?_
  refine .bind (keeps_modifySession link (.taken (by omega)) ⟨rfl, rfl⟩) fun _ => ?_
  refine .ite (.bind (keeps_sessionSendRr link _) fun _ => .pure _) (.bind dropped fun _ => ?_)
  exact .ite (.pure _) (.ite (.pure _) (.pure _))

end OpenSpodes
