import OpenSpodes.Proofs.LinkFrame

/-! # What the link layer can do to the link

Most of the link layer is quiet: it leaves framing and connection as they are and resets nothing.
The exceptions are the set-up of a connection and, while an APDU is awaited, a set-up or a
disconnection that the peer sends on the open link. `Connects` and `Receives` say what those leave.
-/

namespace OpenSpodes

open Machine

/-- Framing, connection and the record of resets are unchanged. -/
def Quiet (w after : Wire) : Prop :=
  after.framing = w.framing ∧ after.hdlc.state = w.hdlc.state ∧ after.links = w.links

instance : IsPreorder Wire Quiet where
  refl _ := ⟨rfl, rfl, rfl⟩
  trans := by
    rintro _ _ _ ⟨framing, state, links⟩ ⟨framing', state', links'⟩
    exact ⟨framing'.trans framing, state'.trans state, links'.trans links⟩

theorem quietLink : LinkRelation Quiet where
  setWorld _ _ := ⟨rfl, rfl, rfl⟩
  fillTx _ _ := ⟨rfl, rfl, rfl⟩
  fillRx _ _ := ⟨rfl, rfl, rfl⟩
  session _ _ _ kept := ⟨rfl, kept.1, rfl⟩

/-! ## Resets of the link -/

/-- Awaiting an APDU is quiet, unless the link was restarted or disconnected in its place. -/
inductive Receives (w : Wire) : Except Err (List UInt8) → Wire → Prop
  | quiet {received : Except Err (List UInt8)} {after : Wire} : Quiet w after → Receives w received after
  | restarted {err : Err} {after : Wire} :
      after.framing = w.framing → after.hdlc.state = w.hdlc.state →
      after.links = w.links ++ [.restart] → Receives w (.error err) after
  | disconnected {after : Wire} :
      after.framing = w.framing → after.links = w.links ++ [.disc] → Receives w (.error .disconnected) after

/-- Setting a link up is quiet for the framing and resets the link at most once. -/
def Connects (w after : Wire) : Prop :=
  after.framing = w.framing ∧ (after.links = w.links ∨ after.links = w.links ++ [.setUp])

theorem Receives.after_quiet {w middle after : Wire} {received : Except Err (List UInt8)}
    (quiet : Quiet w middle) (rest : Receives middle received after) : Receives w received after := by
  obtain ⟨framing, state, links⟩ := quiet
  cases rest with
  | quiet later => exact .quiet (trans_of Quiet ⟨framing, state, links⟩ later)
  | restarted framing' state' links' =>
    exact .restarted (framing'.trans framing) (state'.trans state) (links'.trans (by rw [links]))
  | disconnected framing' links' =>
    exact .disconnected (framing'.trans framing) (links'.trans (by rw [links]))

theorem Connects.after_quiet {w middle after : Wire} (quiet : Quiet w middle)
    (rest : Connects middle after) : Connects w after := by
  obtain ⟨framing, -, links⟩ := quiet
  exact ⟨rest.1.trans framing, links ▸ rest.2⟩

/-- A disconnection that is carried out is reported to the caller. -/
theorem sessionHandleDisc_spec (src : HdlcAddress) (w : Wire) :
    wp (sessionHandleDisc src) (fun err after => Receives w (.error err) after) w := by
  unfold sessionHandleDisc
  simp only [session, bind_assoc, pure_bind, wp_bind, wp_get, wp_ite]
  constructor
  · intro _
    refine (keeps_sessionSendUaXid quietLink src w).mono fun result middle quiet => ⟨fun _ => ?_, fun _ => ?_⟩
    · simp only [modifySession, wp_modify, wp_pure]
      exact .disconnected quiet.1 (by simp [Wire.note, Wire.setHdlc, quiet.2.2])
    · simpa using .quiet quiet
  · intro _
    exact (keeps_sessionSendDm quietLink src w).mono fun _ _ quiet => .quiet quiet

/-- Only a set-up or a disconnection among the control frames is not quiet. -/
theorem sessionHandleControl_spec (frame : HdlcFrame) (w : Wire) :
    wp (sessionHandleControl frame) (fun err after => Receives w (.error err) after) w := by
  have quietly {program : Program Wire Err} (quiet : Keeps Quiet program) :
      wp program (fun err after => Receives w (.error err) after) w :=
    (quiet w).mono fun _ _ kept => .quiet kept
  unfold sessionHandleControl
  simp only [session, bind_assoc, pure_bind, wp_bind, wp_get]
  cases frame.control.type with
  | snrm =>
    simp only [wp_ite, wp_bind, wp_pure, modifySession, wp_modify]
    refine ⟨fun _ => ?_, fun _ => .quiet (refl_of Quiet w)⟩
    refine (keeps_sessionSendUaXid quietLink _ _).mono fun _ middle quiet => ?_
    exact .restarted quiet.1 quiet.2.1 (congrArg (· ++ [LinkEvent.restart]) quiet.2.2)
  | disc => exact sessionHandleDisc_spec _ w
  | ui | rnr => exact quietly (.ite (.bind (keeps_sessionSendFrmr quietLink _ _ _) fun _ => .pure _) (.pure _))
  | rr =>
    refine quietly (.ite (.bind (keeps_sessionSendFrmr quietLink _ _ _) fun _ => .pure _) ?_)
    exact .bind (keeps_settled quietLink) fun _ => .pure _
  | rej => exact quietly (.bind (keeps_sessionRetransmit quietLink) fun _ => .pure _)
  | _ => exact quietly (.pure _)

/-- What awaiting an APDU on a session can do to the link. -/
theorem hdlcSessionRecvApdu_spec (forever : Bool) (size : ℕ) (w : Wire) :
    wp (hdlcSessionRecvApdu forever size) (Receives w) w := by
  unfold hdlcSessionRecvApdu
  simp only [session, bind_assoc, pure_bind, wp_bind, wp_get, wp_ite, wp_pure]
  refine ⟨fun _ => .quiet (refl_of Quiet w), fun _ => ?_⟩
  refine (keeps_sessionRecvIntact quietLink forever _ w).mono fun received middle quiet => ?_
  refine ⟨fun _ => .quiet quiet, fun _ => ⟨fun _ => ?_, fun _ => ⟨fun _ => ?_, fun _ => ?_⟩⟩⟩
  · exact (keeps_sessionSendFrmr quietLink _ _ _ middle).mono fun _ _ later => .quiet (trans_of Quiet quiet later)
  · exact (keeps_sessionHandleInfo quietLink _ size middle).mono fun _ _ later => .quiet (trans_of Quiet quiet later)
  · exact (sessionHandleControl_spec _ middle).mono fun _ _ rest => rest.after_quiet quiet

theorem sessionAcceptSnrm_spec (frame : HdlcFrame) (w : Wire) :
    wp (sessionAcceptSnrm frame) (fun _ after => Connects w after) w := by
  unfold sessionAcceptSnrm
  simp only [wp_bind, modifySession, wp_modify]
  refine (keeps_sessionSendUaXid quietLink _ _).mono fun result middle quiet => ?_
  simp only [wp_ite, wp_bind, wp_modify, wp_pure]
  constructor
  · intro _
    exact ⟨quiet.1, .inr (congrArg (· ++ [LinkEvent.setUp]) quiet.2.2)⟩
  · intro _
    exact ⟨quiet.1, .inl quiet.2.2⟩

/-- The set-up loop of an unconnected link; a disconnection is refused there. -/
theorem sessionConnectLoop_spec (forever : Bool) (fuel : ℕ) (w : Wire) (unconnected : w.hdlc.state ≠ .connected) :
    wp (sessionConnectLoop forever fuel) (fun _ after => Connects w after) w := by
  induction fuel generalizing w with
  | zero => exact wp_blocked _ w
  | succ fuel ih =>
    unfold sessionConnectLoop
    rw [wp_bind]
    refine (keeps_sessionRecvFrame quietLink forever w).mono fun received middle quiet => ?_
    have still : middle.hdlc.state ≠ .connected := by rwa [quiet.2.1]
    have again : wp (sessionConnectLoop forever fuel) (fun _ after => Connects w after) middle :=
      (ih middle still).mono fun _ _ rest => rest.after_quiet quiet
    simp only [session, bind_assoc, pure_bind, wp_bind, wp_get, wp_ite, wp_pure]
    refine ⟨fun _ => again, fun _ => ⟨fun _ => ⟨quiet.1, .inl quiet.2.2⟩, fun _ => ⟨fun _ => ?_, fun _ => ?_⟩⟩⟩
    · exact (sessionAcceptSnrm_spec _ middle).mono fun _ _ rest => rest.after_quiet quiet
    · refine ⟨fun _ => ?_, fun _ => again⟩
      have refused : wp (sessionHandleDisc received.2.source) (fun _ after => Quiet middle after) middle := by
        unfold sessionHandleDisc
        simp only [session, bind_assoc, pure_bind, wp_bind, wp_get, wp_ite]
        exact ⟨fun connected => absurd connected still, fun _ => keeps_sessionSendDm quietLink _ middle⟩
      refine refused.mono fun result after later => ?_
      have both : Quiet w after := trans_of Quiet quiet later
      refine ⟨fun _ => (ih after ?_).mono fun _ _ rest => rest.after_quiet both, fun _ => ?_⟩
      · rwa [later.2.1]
      · exact ⟨both.1, .inl both.2.2⟩

theorem sessionConnectClient_spec (forever : Bool) (w : Wire) :
    wp (sessionConnectClient forever) (fun _ after => Connects w after) w := by
  unfold sessionConnectClient
  simp only [session, modifySession, bind_assoc, pure_bind, wp_bind, wp_get, wp_modify]
  refine (keeps_sessionSendFrame quietLink _ _).mono fun result middle sent => ?_
  simp only [wp_ite, wp_bind, wp_pure]
  refine ⟨fun _ => ⟨sent.1, .inl sent.2.2⟩, fun _ => ?_⟩
  refine (keeps_sessionRecvFrame quietLink forever middle).mono fun received after heard => ?_
  have framing : after.framing = w.framing := heard.1.trans sent.1
  have links : after.links = w.links := heard.2.2.trans sent.2.2
  simp only [wp_modify]
  exact ⟨fun _ => ⟨framing, .inl links⟩, fun _ => ⟨fun _ => ⟨framing, .inl links⟩, fun _ => ⟨framing, .inl links⟩⟩⟩

/-- What setting up an HDLC link can do to it. -/
theorem hdlcSessionConnect_spec (forever : Bool) (w : Wire) :
    wp (hdlcSessionConnect forever) (fun _ after => Connects w after) w := by
  unfold hdlcSessionConnect
  rw [wp_bind]
  refine (keeps_transportOpen quietLink w).mono fun opened middle quiet => ?_
  simp only [session, modifySession, bind_assoc, pure_bind, wp_bind, wp_get, wp_ite, wp_pure, wp_modify]
  refine ⟨fun _ => ⟨quiet.1, .inl quiet.2.2⟩, fun _ => ⟨fun _ => ?_, fun _ => ?_⟩⟩
  · exact (sessionConnectClient_spec forever middle).mono fun _ _ rest => rest.after_quiet quiet
  · refine (sessionConnectLoop_spec forever _ _ (by simp [Wire.setHdlc])).mono fun _ after rest => ?_
    exact ⟨rest.1.trans quiet.1, quiet.2.2 ▸ rest.2⟩

end OpenSpodes
