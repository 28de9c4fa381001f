import OpenSpodes.Model.ServerServices

/-! # Relations that the services keep

Answering a request is made of a few kinds of steps: a message is encoded and sent, a transfer in blocks moves on, the
objects change, the dispatcher is called. A relation between states of a server that allows these steps is kept by the
handlers that are made of them, so this is shown once, for any such relation. `SendRelation` is about responses and what
is sent behind them; `ServiceRelation` is about whole services.
-/

namespace OpenSpodes

open Machine

variable {σ : Type} (invoke : UInt8)

/-- Messages may be sent, and a transfer to the client and the notification in the queue may change. -/
structure SendRelation (env : Env σ) (R : Server σ → Server σ → Prop) : Prop where
  aside : ∀ s out push, R s { s with pendingActionOut := out, pendingPush := push }
  notification : ∀ pool dn, Keeps R (sendEncoded env (dataNotificationEncode pool dn))
  setResponse : ∀ invokeIdPriority resp, Keeps R (sendEncoded env (setResponseEncode invokeIdPriority resp))
  actionResponse : ∀ pool invokeIdPriority resp,
    Keeps R (sendEncoded env (actionResponseEncode pool invokeIdPriority resp))

/-- Besides, the objects and the transfers from the client may change, and the dispatcher may be called. -/
structure ServiceRelation (env : Env σ) (R : Server σ → Server σ → Prop) : Prop extends SendRelation env R where
  objects : ∀ s objects, R s { s with objects := objects }
  pendingSet : ∀ s pending, R s { s with pendingSet := pending }
  pendingActionIn : ∀ s pending, R s { s with pendingActionIn := pending }
  queued : ∀ s push, R s (s.queuePendingPush push)
  dispatched : ∀ s service target, R s { s with log := s.log ++ [.dispatched service target s.aa.association] }

variable {env : Env σ} {R S : Server σ → Server σ → Prop}

theorem SendRelation.mono (send : SendRelation env R) (implied : ∀ s t, R s t → S s t) : SendRelation env S where
  aside s out push := implied _ _ (send.aside s out push)
  notification pool dn := (send.notification pool dn).mono implied
  setResponse invoke resp := (send.setResponse invoke resp).mono implied
  actionResponse pool invoke resp := (send.actionResponse pool invoke resp).mono implied

variable [IsPreorder (Server σ) R]

/-! ## Responses -/

section Responses

variable (send : SendRelation env R) (result : Err)

include send

theorem SendRelation.serverFlushPendingPush : Keeps R (serverFlushPendingPush env) := by
  refine .get_bind fun s => .ite (fun _ => ?_) fun _ => .pure _
  exact .set_bind (send.aside _ _ _) (send.notification _ _)

theorem SendRelation.serverFlushDeferred : Keeps R (serverFlushDeferred env result) := by
  refine .get_bind fun s => .ite (fun _ => .pure _) fun _ => .ite (fun _ => ?_) fun _ => .pure _
  exact .set_bind (send.aside _ _ _) send.serverFlushPendingPush

theorem SendRelation.serverFlushAction : Keeps R (serverFlushAction env result) := by
  refine .get_bind fun s => .ite (fun _ => .pure _) fun _ => .ite (fun _ => ?_) fun _ => ?_
  · exact .set_bind (send.aside _ _ _) (.pure _)
  · exact send.serverFlushPendingPush s

theorem SendRelation.sendSetResponse (resp : SetResponse) : Keeps R (sendSetResponse env invoke resp) :=
  .bind (send.setResponse _ _) fun _ => send.serverFlushDeferred _

theorem SendRelation.sendActionResponse (resp : ActionResponse) :
    Keeps R (sendActionResponse env invoke resp) :=
  .bind .get fun _ => send.actionResponse _ _ _

/-- A block of a long result; only the transfer to the client moves on. -/
theorem SendRelation.handleActionRespNext (ackedBlock : ℕ) :
    Keeps R (handleActionRespNext env invoke ackedBlock) := by
  refine .get_bind fun s => .ite (fun _ => send.sendActionResponse _ _ s) fun _ => .ite (fun _ => ?_) fun _ => ?_
  · exact .set_bind (send.aside _ _ _) (send.sendActionResponse _ _)
  · exact .set_bind (send.aside _ _ _) (send.sendActionResponse _ _)

theorem SendRelation.sendActionInvokeResult (dar : Dar) (result : Value) :
    Keeps R (sendActionInvokeResult env invoke dar result) := by
  refine .get_bind fun s => .ite (fun _ => send.sendActionResponse _ _ s) fun _ => ?_
  cases valueWrite s.objects.pool result (WBuf.init serverPendingMax) with
  | error e buf => exact .set_bind (send.aside _ _ _) (.pure _)
  | ok u buf =>
    refine .ite (fun _ => ?_) fun _ => ?_
    · exact .set_bind (send.aside _ _ _) (send.handleActionRespNext _ _)
    · exact .set_bind (send.aside _ _ _) (send.sendActionResponse _ _)

end Responses

/-! ## Services -/

section Services

variable (service : ServiceRelation env R) (attr : Descriptor)

include service

theorem ServiceRelation.dispatchGet : Keeps R (dispatchGet env attr) := by
  refine .get_bind fun s => KeepsAt.bind ?_ fun _ => .get_bind fun s => ?_
  · rw [KeepsAt, note, wp_modify]
    exact service.dispatched s _ _
  · exact .set_bind (service.objects _ _) (.pure _)

theorem ServiceRelation.dispatchSet (value : Value) : Keeps R (dispatchSet env attr value) := by
  refine .get_bind fun s => KeepsAt.bind ?_ fun _ => .get_bind fun s => ?_
  · rw [KeepsAt, note, wp_modify]
    exact service.dispatched s _ _
  · exact .set_bind (service.objects _ _) (.pure _)

/-- A method may also queue a notification. -/
theorem ServiceRelation.dispatchAction (method : Descriptor) (param old : Value) :
    Keeps R (dispatchAction env method param old) := by
  refine .get_bind fun s => KeepsAt.bind ?_ fun _ => .get_bind fun s => ?_
  · rw [KeepsAt, note, wp_modify]
    exact service.dispatched s _ _
  · dsimp only
    obtain ⟨⟨err, value, push⟩, objects⟩ :=
      dispatcherAction env.behaviour s.requireAcl s.aa.association method param old s.objects
    refine .set_bind ?_ (.pure _)
    cases push with
    | none => exact service.objects s objects
    | some push => exact trans_of R (service.objects s objects) (service.queued _ push)

theorem ServiceRelation.dispatchGetAttr : Keeps R (dispatchGetAttr env attr) :=
  .bind (service.dispatchGet attr) fun _ => .pure _

theorem ServiceRelation.selectValue (selection : SelectiveAccess) (attrId : UInt8) (value : Value) :
    Keeps R (selectValue env selection attrId value) := by
  refine .ite (.get_bind fun s => ?_) (.pure _)
  cases value with
  | array | owned => exact .set_bind (service.objects _ _) (.pure _)
  | _ => exact .pure _

theorem ServiceRelation.readBuffered (buffer : List UInt8) : Keeps R (readBuffered env buffer) :=
  .get_bind fun _ => .set_bind (service.objects _ _) (.pure _)

theorem ServiceRelation.accumulateSetBlock (block : DataBlock) :
    Keeps R (accumulateSetBlock env invoke block) := by
  have respond (resp : SetResponse) := service.sendSetResponse invoke resp
  refine .get_bind fun s => .ite (fun _ => respond _ s) fun _ => .ite (fun _ => ?_) fun _ => .ite (fun _ => ?_) fun _ => ?_
  · exact .set_bind (service.pendingSet _ _) (respond _)
  · exact .set_bind (service.pendingSet _ _) (respond _)
  · refine .set_bind (service.pendingSet _ _) (.bind (service.readBuffered _) fun read => ?_)
    obtain ⟨err, value⟩ := read
    cases err with
    | ok => exact .bind (service.dispatchSet _ _) fun _ => respond _
    | _ => exact respond _

theorem ServiceRelation.setEntries (items : List (Descriptor × Value)) : Keeps R (setEntries env items) := by
  induction items with
  | nil => exact .pure _
  | cons item rest ih => exact .bind (service.dispatchSet _ _) fun _ => .bind ih fun _ => .pure _

theorem ServiceRelation.handleSet (req : SetRequest) : Keeps R (handleSet env req) := by
  unfold OpenSpodes.handleSet
  cases req.kind with
  | withFirstDatablock =>
    exact .bind (.modify fun _ => service.pendingSet _ _) fun _ => service.accumulateSetBlock _ _
  | withDatablock => exact service.accumulateSetBlock _ _
  | withList => exact .bind (service.setEntries _) fun _ => service.sendSetResponse _ _
  | normal => exact .bind (service.dispatchSet _ _) fun _ => service.sendSetResponse _ _

theorem ServiceRelation.accumulateActionParamBlock (block : DataBlock) :
    Keeps R (accumulateActionParamBlock env invoke block) := by
  have respond (resp : ActionResponse) := service.sendActionResponse invoke resp
  refine .get_bind fun s => .ite (fun _ => respond _ s) fun _ => .ite (fun _ => ?_) fun _ => .ite (fun _ => ?_) fun _ => ?_
  · exact .set_bind (service.pendingActionIn _ _) (respond _)
  · exact .set_bind (service.pendingActionIn _ _) (respond _)
  · refine .set_bind (service.pendingActionIn _ _) (.bind (service.readBuffered _) fun read => ?_)
    obtain ⟨err, value⟩ := read
    cases err with
    | ok => exact .bind (service.dispatchAction _ _ _) fun _ => service.sendActionInvokeResult _ _ _
    | _ => exact service.sendActionInvokeResult _ _ _

/-- The response to a list is encoded entry by entry, so it is left to the relation. -/
theorem ServiceRelation.handleAction (req : ActionRequest)
    (list : Keeps R (sendList env 0xC7 req.invokeIdPriority
      (fun item => do
        let (result, value) ← OpenSpodes.dispatchAction env item.1 item.2 .null
        return actionResultEncode (← get).objects.pool (darOfErr result) value)
      req.items)) :
    Keeps R (handleAction env req) := by
  unfold OpenSpodes.handleAction
  cases req.kind with
  | nextParamBlock => exact service.handleActionRespNext _ _
  | withFirstParamBlock =>
    exact .bind (.modify fun _ => service.pendingActionIn _ _) fun _ => service.accumulateActionParamBlock _ _
  | withParamBlock => exact service.accumulateActionParamBlock _ _
  | withList => exact .bind list fun _ => service.serverFlushAction _
  | normal =>
    refine .bind (service.dispatchAction _ _ _) fun _ => .bind (service.sendActionResponse _ _) fun _ => ?_
    exact service.serverFlushAction _

end Services

end OpenSpodes
