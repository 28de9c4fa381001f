import Mathlib.Logic.Relation
import OpenSpodes.Proofs.LinkFrame

/-! # What the calls do to a session

Every function of the session is built from the changes of its record that `SessionMove` lists. That a call makes
nothing but moves is proved here once, so an invariant of sessions only has to be kept by every move.
-/

namespace OpenSpodes

open Machine

variable (frame : HdlcFrame) (forever : Bool)

/-- A session makes moves from one state of the link to the other. -/
def Moves (w after : Wire) : Prop := Relation.ReflTransGen SessionMove w.hdlc after.hdlc

instance : IsPreorder Wire Moves where
  refl _ := .refl
  trans _ _ _ := .trans

/-- What a property of sessions needs to hold along moves. -/
theorem Moves.invariant {P : HdlcSession → Prop} (kept : ∀ s t, SessionMove s t → P s → P t) {w after : Wire}
    (moves : Moves w after) (holds : P w.hdlc) : P after.hdlc := by
  unfold Moves at moves
  generalize after.hdlc = reached at moves
  induction moves with
  | refl => exact holds
  | tail _ move ih => exact kept _ _ move ih

theorem moves_modify {change : Wire → Wire} (same : ∀ w, (change w).hdlc = w.hdlc) :
    Keeps Moves (modify change : Program Wire Unit) :=
  .modify fun w => by rw [Moves, same]

theorem movesLink : LinkRelation Moves where
  setWorld _ _ := .refl
  fillTx _ _ := .refl
  fillRx _ _ := .refl
  session _ _ move _ := .single move

/-! ## The calls -/

theorem moves_move {change : HdlcSession → HdlcSession} (move : ∀ s, SessionMove s (change s)) :
    Keeps Moves (modifySession change) :=
  .modify fun w => .single (move w.hdlc)

theorem moves_sessionHandleDisc (src : HdlcAddress) : Keeps Moves (sessionHandleDisc src) := by
  refine .bind keeps_session fun s => .ite ?_ (keeps_sessionSendDm movesLink _)
  refine .bind (keeps_sessionSendUaXid movesLink _) fun result => .ite ?_ (.pure _)
  exact .bind (moves_move fun _ => .closed) fun _ => .bind (moves_modify fun _ => rfl) fun _ => .pure _

theorem moves_sessionAcceptSnrm : Keeps Moves (sessionAcceptSnrm frame) := by
  refine .bind (moves_move fun _ => .adopted frame) fun _ => ?_
  refine .bind (keeps_sessionSendUaXid movesLink _) fun result => .ite ?_ (.pure _)
  exact .bind (moves_move fun _ => .established) fun _ => .bind (moves_modify fun _ => rfl) fun _ => .pure _

theorem moves_sessionConnectLoop (fuel : ℕ) : Keeps Moves (sessionConnectLoop forever fuel) := by
  induction fuel with
  | zero => exact .blocked
  | succ fuel ih =>
    refine .bind (keeps_sessionRecvFrame movesLink forever) fun received => .ite ih (.ite (.pure _) ?_)
    refine .bind keeps_session fun s => .ite (moves_sessionAcceptSnrm _) (.ite ?_ ih)
    exact .bind (moves_sessionHandleDisc _) fun _ => .ite ih (.pure _)

theorem moves_sessionConnectClient : Keeps Moves (sessionConnectClient forever) := by
  refine .bind (moves_move fun _ => .state _) fun _ => .bind keeps_session fun s => ?_
  refine .bind (keeps_sessionSendFrame movesLink _) fun result => .ite (.pure _) ?_
  refine .bind (keeps_sessionRecvFrame movesLink forever) fun received => ?_
  refine .ite (.bind (moves_move fun _ => .state _) fun _ => .pure _) ?_
  refine .ite (.bind (moves_move fun _ => .state _) fun _ => .pure _) ?_
  exact .bind (moves_move fun _ => .answered _) fun _ => .pure _

theorem moves_hdlcSessionConnect : Keeps Moves (hdlcSessionConnect forever) := by
  refine .bind (keeps_transportOpen movesLink) fun opened => .ite (.pure _) ?_
  refine .bind keeps_session fun s => .ite (moves_sessionConnectClient forever) ?_
  exact .bind (moves_move fun _ => .state _) fun _ => .bind .get fun _ => moves_sessionConnectLoop forever _

theorem moves_hdlcSessionDisconnect : Keeps Moves (hdlcSessionDisconnect forever) := by
  refine .bind keeps_session fun s => .ite (.pure _) ?_
  refine .bind (moves_move fun _ => .state _) fun _ => .bind (keeps_sessionSendFrame movesLink _) fun result => ?_
  refine .ite (.bind (moves_move fun _ => .state _) fun _ => .pure _) ?_
  refine .bind (keeps_sessionRecvFrame movesLink forever) fun received => ?_
  exact .bind (moves_move fun _ => .state _) fun _ => .ite (.pure _) (.ite (.pure _) (.pure _))

theorem moves_sessionHandleControl : Keeps Moves (sessionHandleControl frame) := by
  refine .bind keeps_session fun s => ?_
  have refused (reasons : UInt8) (rest : Program Wire Err) (kept : Keeps Moves rest) :
      Keeps Moves (do let _ ← sessionSendFrmr frame.source frame.controlRaw reasons; rest) :=
    .bind (keeps_sessionSendFrmr movesLink _ _ _) fun _ => kept
  cases frame.control.type with
  | ui | rnr => exact .ite (refused _ _ (.pure _)) (.pure _)
  | snrm =>
    refine .ite ?_ (.pure _)
    refine .bind (moves_move fun _ => .adopted frame) fun _ => .bind (keeps_sessionSendUaXid movesLink _) fun _ => ?_
    exact .bind (moves_move fun _ => .restarted) fun _ => .bind (moves_modify fun _ => rfl) fun _ => .pure _
  | disc => exact moves_sessionHandleDisc _
  | rr => exact .ite (refused _ _ (.pure _)) (.bind (keeps_settled movesLink) fun _ => .pure _)
  | rej => exact .bind (keeps_sessionRetransmit movesLink) fun _ => .pure _
  | i | sabm | dm | ua | frmr | xid => exact .pure _

theorem moves_hdlcSessionRecvApdu (size : ℕ) : Keeps Moves (hdlcSessionRecvApdu forever size) := by
  refine .bind keeps_session fun s => .ite (.pure _) (.bind .get fun w => ?_)
  refine .bind (keeps_sessionRecvIntact movesLink forever _) fun received => .ite (.pure _) ?_
  refine .ite (.bind (keeps_sessionSendFrmr movesLink _ _ _) fun _ => .pure _) ?_
  exact .ite (keeps_sessionHandleInfo movesLink _ size) (.bind (moves_sessionHandleControl _) fun _ => .pure _)

theorem SessionCall.moves_run (call : SessionCall) : Keeps Moves call.run := by
  cases call with
  | connect forever => exact .bind (moves_hdlcSessionConnect forever) fun _ => .pure _
  | sendApdu apdu => exact .bind (keeps_hdlcSessionSendApdu movesLink apdu) fun _ => .pure _
  | recvApdu forever size =>
    refine .bind (moves_hdlcSessionRecvApdu forever size) fun received => ?_
    cases received with
    | ok apdu => exact .pure _
    | error err => exact .pure _
  | disconnect forever => exact .bind (moves_hdlcSessionDisconnect forever) fun _ => .pure _

/-- A history of calls consists of moves. -/
theorem SessionHistory.moves {origin w : Wire} {calls : List (SessionCall × Err × Option (List UInt8))}
    (history : SessionHistory origin calls w) : Moves origin w := by
  induction history with
  | start => exact .refl
  | extend _ returned ih => exact trans_of Moves ih (SessionCall.moves_run _ _ _ _ returned)

end OpenSpodes
