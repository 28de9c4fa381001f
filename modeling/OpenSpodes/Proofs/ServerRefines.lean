import OpenSpodes.Proofs.AarqDecision
import OpenSpodes.Proofs.ServiceRelation

/-! # The server refines the life of its associations

Whatever a server does while it handles one APDU or sends one notification is a history of the
abstract transitions. Three relations carry this along the program text: `Unrecorded` for steps that
leave no trace, `Answers` for sending, which keeps the association as it is, and `Serves` for the
services, which need an association to begin with.
-/

namespace OpenSpodes

open Machine

variable {σ : Type} {s t : Server σ}

/-- What was recorded between two states is a history of the abstract system, on the same link. -/
structure Advances (hal : Hal) (s t : Server σ) : Prop where
  history : ∃ new, t.log = s.log ++ new ∧ History (AssocStep hal) s.aa new t.aa
  framing : t.wire.framing = s.wire.framing
  state : t.wire.hdlc.state = s.wire.hdlc.state

/-- A history that keeps the association. -/
structure Answers (hal : Hal) (s t : Server σ) : Prop extends Advances hal s t where
  associated : t.aa.associated = s.aa.associated

/-- A history of a server that is associated, and stays so. -/
def Serves (hal : Hal) (s t : Server σ) : Prop :=
  s.aa.associated = true → Advances hal s t ∧ t.aa.associated = true

theorem Advances.trans {hal : Hal} {u : Server σ} (first : Advances hal s t) (second : Advances hal t u) :
    Advances hal s u := by
  obtain ⟨new, log, history⟩ := first.history
  obtain ⟨more, log', history'⟩ := second.history
  refine ⟨⟨new ++ more, ?_, history.trans history'⟩, second.framing.trans first.framing,
    second.state.trans first.state⟩
  rw [log', log, List.append_assoc]

theorem Unrecorded.advances {hal : Hal} (same : Unrecorded s t) : Advances hal s t where
  history := ⟨[], by simp [same.log], same.aa ▸ .start⟩
  framing := same.framing
  state := same.state

theorem Unrecorded.answers {hal : Hal} (same : Unrecorded s t) : Answers hal s t :=
  ⟨same.advances, by rw [same.aa]⟩

instance (hal : Hal) : IsPreorder (Server σ) (Advances hal) where
  refl s := (refl_of Unrecorded s).advances
  trans _ _ _ := Advances.trans

instance (hal : Hal) : IsPreorder (Server σ) (Answers hal) where
  refl s := (refl_of Unrecorded s).answers
  trans _ _ _ first second :=
    ⟨first.toAdvances.trans second.toAdvances, second.associated.trans first.associated⟩

instance (hal : Hal) : IsPreorder (Server σ) (Serves hal) where
  refl s associated := ⟨refl_of (Advances hal) s, associated⟩
  trans := by
    intro s t u first second associated
    obtain ⟨toMiddle, middle⟩ := first associated
    obtain ⟨toEnd, final⟩ := second middle
    exact ⟨toMiddle.trans toEnd, final⟩

theorem Answers.serves {hal : Hal} (answers : Answers hal s t) : Serves hal s t :=
  fun associated => ⟨answers.toAdvances, answers.associated.trans associated⟩

theorem Unrecorded.serves {hal : Hal} (same : Unrecorded s t) : Serves hal s t :=
  same.answers.serves

section Programs

variable {α : Type} {hal : Hal} {program : Program (Server σ) α}

theorem advances_transition {event : Event} (change : AssocState → AssocState)
    (step : AssocStep hal s.aa event (change s.aa)) :
    Advances hal s { s with aa := change s.aa, log := s.log ++ [event] } :=
  ⟨⟨[event], rfl, History.start.extend step⟩, rfl, rfl⟩

theorem keeps_answers (kept : Keeps Unrecorded program) : Keeps (Answers hal) program :=
  kept.mono fun _ _ same => same.answers

theorem keeps_serves (kept : Keeps (Answers hal) program) : Keeps (Serves hal) program :=
  kept.mono fun _ _ answers => answers.serves

theorem keeps_advances (kept : Keeps (Answers hal) program) : Keeps (Advances hal) program :=
  kept.mono fun _ _ answers => answers.toAdvances

end Programs

/-! ## Sending -/

theorem unrecorded_encodeTx (encode : Write Unit) :
    Keeps (Unrecorded : Server σ → Server σ → Prop) (encodeTx encode) := by
  refine .bind .get fun s => ?_
  cases encode (WBuf.init s.wire.txBuf.length) with
  | ok | error => exact .bind (unrecorded_onWire (keeps_fillTx quietLink _)) fun _ => .pure _

theorem unrecorded_serverMirror (inst : Option ℕ) :
    Keeps (Unrecorded : Server σ → Server σ → Prop) (serverMirror inst) := by
  cases inst with
  | none => exact .pure _
  | some inst => exact .modify fun _ => ⟨rfl, rfl, rfl, rfl⟩

section Sending

variable (env : Env σ)

/-- Transmitting is quiet behind its own record. -/
theorem serverTransmit_answers {plain : List UInt8} {source : ApduSource}
    (protects : Protects env.hal s.aa plain (source.bytes s.wire)) :
    KeepsAt (Answers env.hal) s (serverTransmit env plain source) := by
  have emitted : Answers env.hal s
      { s with log := s.log ++ [.emitted plain (source.bytes s.wire)] } :=
    ⟨advances_transition id (.emitted protects), rfl⟩
  rw [KeepsAt, serverTransmit, wp_bind, wp_get, wp_bind, note, wp_modify]
  refine KeepsAt.after emitted ?_
  refine keeps_answers (.ite (unrecorded_onWire (keeps_gbtTransportSend quietLink _ _)) (.ite ?_ ?_)) _
  · exact unrecorded_onWire (keeps_hdlcSessionSendApdu quietLink _)
  · exact unrecorded_onWire (keeps_transportSendApdu quietLink _)

/-- Sending keeps the association and protects what has to be protected. -/
theorem serverSend_answers (source : ApduSource) : Keeps (Answers env.hal) (serverSend env source) := by
  refine .get_bind fun s => .ite (fun ciphered => ?_) fun plainly => ?_
  · cases sealing : gloProtect env.hal s.aa.cipherTx
        (svcCipherTagForPlain s.aa.cipherTx ((source.bytes s.wire).getD 0 0)) (source.bytes s.wire) with
    | none => exact .pure _
    | some sealed =>
      let next : Server σ :=
        { s with
          aa := { s.aa with cipherTx := s.aa.cipherTx.advance }
          log := s.log ++ [.sealed (gloNonce s.aa.cipherTx)] }
      have counted : Answers env.hal s next :=
        ⟨advances_transition (fun a => { a with cipherTx := a.cipherTx.advance })
          (.sealed ciphered.1), rfl⟩
      have protects : Protects env.hal next.aa (source.bytes s.wire) sealed := by
        intro _ _
        refine ⟨s.aa.cipherTx, ?_, ?_, sealing⟩ <;> simp only [next, SecContext.advance] <;> split <;> rfl
      rw [KeepsAt, wp_bind, transition, wp_modify]
      refine KeepsAt.after counted ?_
      exact .ite (fun _ => .pure _) fun _ => serverTransmit_answers env protects
  · exact serverTransmit_answers env fun enabled applies => absurd ⟨enabled, applies⟩ plainly

theorem sendEncoded_answers (encode : Write Unit) : Keeps (Answers env.hal) (sendEncoded env encode) := by
  refine .bind (keeps_answers (unrecorded_encodeTx encode)) fun encoded => ?_
  cases encoded with
  | none => exact .pure _
  | some len => exact serverSend_answers env _

theorem serverSendException_answers (stateError serviceError : UInt8) :
    Keeps (Answers env.hal) (serverSendException env stateError serviceError) :=
  sendEncoded_answers env _

/-- Responses and what is sent behind them keep the association. -/
theorem answers_send : SendRelation env (Answers env.hal) where
  aside _ _ _ := Unrecorded.answers ⟨rfl, rfl, rfl, rfl⟩
  notification _ _ := sendEncoded_answers env _
  setResponse _ _ := sendEncoded_answers env _
  actionResponse _ _ _ := sendEncoded_answers env _

theorem sendGetResponse_answers (invoke : UInt8) (resp : GetResponse) :
    Keeps (Answers env.hal) (sendGetResponse env invoke resp) :=
  .bind .get fun _ => .bind (sendEncoded_answers env _) fun _ => (answers_send env).serverFlushDeferred _

end Sending

/-! ## Services -/

section Services

variable (env : Env σ)

/-- A call of the dispatcher needs an association. -/
theorem serves_service : ServiceRelation env (Serves env.hal) where
  toSendRelation := (answers_send env).mono fun _ _ => Answers.serves
  objects _ _ := Unrecorded.serves ⟨rfl, rfl, rfl, rfl⟩
  pendingSet _ _ := Unrecorded.serves ⟨rfl, rfl, rfl, rfl⟩
  pendingActionIn _ _ := Unrecorded.serves ⟨rfl, rfl, rfl, rfl⟩
  queued _ _ := Unrecorded.serves ⟨rfl, rfl, rfl, rfl⟩
  dispatched _ _ _ associated := ⟨advances_transition id (.dispatched associated), associated⟩

theorem encodeList_serves {α : Type} {encode : α → Program (Server σ) (Write Unit)}
    (served : ∀ entry, Keeps (Serves env.hal) (encode entry)) (items : List α) (buf : WBuf) :
    Keeps (Serves env.hal) (encodeList encode items buf) := by
  induction items generalizing buf with
  | nil => exact .pure _
  | cons entry rest ih =>
    refine .bind (served entry) fun write => ?_
    cases write buf with
    | error e left => exact .pure _
    | ok u left => exact ih left

theorem sendList_serves {α : Type} {encode : α → Program (Server σ) (Write Unit)}
    (served : ∀ entry, Keeps (Serves env.hal) (encode entry)) (tag invoke : UInt8)
    (items : List α) : Keeps (Serves env.hal) (sendList env tag invoke encode items) := by
  refine .bind .get fun s => ?_
  cases listResponseHeader tag invoke items.length (WBuf.init s.wire.txBuf.length) with
  | error e buf => exact .pure _
  | ok u buf =>
    refine .bind (encodeList_serves env served items buf) fun encoded => ?_
    cases encoded with
    | none => exact .pure _
    | some buf =>
      refine .bind (keeps_serves (keeps_answers (unrecorded_onWire (keeps_fillTx quietLink _)))) fun _ => ?_
      exact keeps_serves (serverSend_answers env _)

theorem handleGetNext_answers (invoke : UInt8) (ackedBlock : ℕ) :
    Keeps (Answers env.hal) (handleGetNext env invoke ackedBlock) := by
  unfold handleGetNext
  refine .get_bind fun s => .ite (fun _ => sendGetResponse_answers env _ _ s) fun _ => ?_
  refine .ite (fun _ => sendGetResponse_answers env _ _ s) fun _ => ?_
  exact .set_bind (Unrecorded.answers ⟨rfl, rfl, rfl, rfl⟩) (sendGetResponse_answers env _ _)

theorem sendGetData_answers (invoke : UInt8) (value : Value) :
    Keeps (Answers env.hal) (sendGetData env invoke value) := by
  refine .get_bind fun s => ?_
  have kept (pending : BlockOut) : Answers env.hal s { s with pendingGet := pending } :=
    Unrecorded.answers ⟨rfl, rfl, rfl, rfl⟩
  dsimp only
  cases valueWrite s.objects.pool value (WBuf.init serverPendingMax) with
  | error e out =>
    cases getResponseEncode s.objects.pool invoke (.data value) (WBuf.init 1024) with
    | error e buf => exact .set_bind (kept _) (sendGetResponse_answers env _ _)
    | ok u buf =>
      refine .ite (fun _ => ?_) fun _ => sendGetResponse_answers env _ _ s
      refine .ite (fun _ => serverSend_answers env _ s) fun _ => ?_
      exact .set_bind (kept _) (sendGetResponse_answers env _ _)
  | ok u out =>
    cases getResponseEncode s.objects.pool invoke (.data value) (WBuf.init 1024) with
    | error e buf => exact .set_bind (kept _) (handleGetNext_answers env _ _)
    | ok u buf =>
      refine .ite (fun _ => ?_) fun _ => sendGetResponse_answers env _ _ s
      refine .ite (fun _ => serverSend_answers env _ s) fun _ => ?_
      exact .set_bind (kept _) (handleGetNext_answers env _ _)

theorem handleGet_serves (req : GetRequest) : Keeps (Serves env.hal) (handleGet env req) := by
  have service := serves_service env
  unfold handleGet
  cases req.kind with
  | withBlock => exact keeps_serves (handleGetNext_answers env _ _)
  | withList =>
    refine .bind (sendList_serves env (fun attr => ?_) _ _ _) fun result => service.serverFlushDeferred result
    exact .bind (service.dispatchGetAttr attr) fun _ => .bind .get fun _ => .pure _
  | normal =>
    refine .bind (service.dispatchGetAttr _) fun result => ?_
    cases result with
    | accessResult result => exact keeps_serves (sendGetResponse_answers env _ _)
    | data value => exact .bind (service.selectValue _ _ _) fun _ => keeps_serves (sendGetData_answers env _ _)

theorem handleAction_serves (req : ActionRequest) : Keeps (Serves env.hal) (handleAction env req) := by
  refine (serves_service env).handleAction req (sendList_serves env (fun item => ?_) _ _ _)
  exact .bind ((serves_service env).dispatchAction _ _ _) fun _ => .bind .get fun _ => .pure _

end Services

end OpenSpodes
