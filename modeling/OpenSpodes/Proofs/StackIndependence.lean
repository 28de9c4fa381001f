import OpenSpodes.Model.Classes
import OpenSpodes.Model.ServerAccept
import OpenSpodes.Proofs.RequestResidue

/-! # Requests that are answered without reading the stack

The handlers of a normal GET and of a normal ACTION read structures that nobody initialised: the request, of
which the decoder may store only a part, and the result of the call. `Locals` is what these structures hold when
the request arrives, and `GetStored` and `ActionStored` say that everything the handler reads was stored before.
Then the server does the same whatever they held.
-/

namespace OpenSpodes

open Machine Machine.Fallible

variable {σ : Type}

/-! ## Calls of the classes -/

/-- What the classes keep to: a getter that succeeds stores its result, a method stores a whole result or none,
and narrowing a buffer view that has entries to a range without any leaves an empty array. -/
structure Behaviour.Conforms (behaviour : Behaviour σ) : Prop where
  get : ∀ inst id objects, ∃ err value after, ∀ old, ∃ left,
    behaviour.get inst id old objects = ((err, left), after) ∧ (err = .ok → left = value)
  invoke : ∀ inst id param objects, ∃ err push after,
    (∃ value, ∀ old, behaviour.invoke inst id param old objects = ((err, value, push), after)) ∨
      ∀ old, behaviour.invoke inst id param old objects = ((err, old, push), after)
  select : ∀ entryFrom entryTo value objects, (behaviour.select entryFrom entryTo value objects).2 = objects
  view : ∀ tag pieces outcome objects,
    (∀ entryFrom entryTo, (behaviour.select entryFrom entryTo (.owned tag pieces outcome) objects).1 =
      .owned tag pieces outcome) ∨
    (∃ count failure failure' rows, pieces = ([1], failure) :: ([count], failure') :: rows ∧ count ≠ 0) ∧
      ∃ entryFrom entryTo tag' failure failure',
        (behaviour.select entryFrom entryTo (.owned tag pieces outcome) objects).1 =
          .owned tag' [([1], failure), ([0], failure')] .ok

theorem Behaviour.Conforms.recorded {behaviour : Behaviour σ} (conforms : behaviour.Conforms) :
    behaviour.recorded.Conforms where
  get inst id objects := by
    obtain ⟨err, value, after, gets⟩ := conforms.get inst id (objects.withHidden objects.hidden.1)
    refine ⟨err, value, after.withHidden (after.hidden, objects.hidden.2 ++ [⟨.get, inst, id, .null⟩]), fun old => ?_⟩
    obtain ⟨left, got, stored⟩ := gets old
    exact ⟨left, by simp only [Behaviour.recorded, got], stored⟩
  invoke inst id param objects := by
    obtain ⟨err, push, after, invokes⟩ := conforms.invoke inst id param (objects.withHidden objects.hidden.1)
    refine ⟨err, push, after.withHidden (after.hidden, objects.hidden.2 ++ [⟨.action, inst, id, param⟩]), ?_⟩
    rcases invokes with ⟨value, stores⟩ | leaves
    · exact .inl ⟨value, fun old => by simp only [Behaviour.recorded, stores]⟩
    · exact .inr fun old => by simp only [Behaviour.recorded, leaves]
  select entryFrom entryTo value objects := by
    simp only [Behaviour.recorded, conforms.select]
    rfl
  view tag pieces outcome objects := conforms.view tag pieces outcome (objects.withHidden objects.hidden.1)

/-! ## What can be observed -/

/-- The structures on the stack that a normal GET or ACTION reads. -/
structure Locals where
  getRequest : GetRequest
  actionRequest : ActionRequest
  value : Value

def Stack.holding (stack : Stack) (locals : Locals) : Stack :=
  { stack with
    getRequest := locals.getRequest
    actionRequest := locals.actionRequest
    value := locals.value }

/-- The event is a response or a call of the dispatcher. -/
def Event.shown : Event → Bool
  | .emitted _ _ => true
  | .dispatched _ _ _ => true
  | _ => false

/-- The responses and calls of the dispatcher since `s`, and the calls of the classes. -/
def shownSince (s t : Server (σ × List ClassCall)) : List Event × List ClassCall :=
  ((t.log.drop s.log.length).filter Event.shown, t.objects.hidden.2)

/-- What handling a received request shows; nothing while the server waits. -/
def shown (hal : Hal) (behaviour : Behaviour σ) (stack : Stack) (arrived : Bool) (len : ℕ)
    (s : Server (σ × List ClassCall)) (locals : Locals) : Option (List Event × List ClassCall) :=
  (acceptPlain ⟨hal, behaviour.recorded, stack.holding locals⟩ arrived len s).map fun returned =>
    shownSince s returned.2

/-! ## The condition -/

/-- A range of entries changes the value: an array or a buffer view with entries. -/
def Value.Narrows (behaviour : Behaviour σ) (objects : Objects σ) : Value → Prop
  | .array _ count => count ≠ 0
  | .owned tag pieces outcome => ∃ entryFrom entryTo,
      (behaviour.select entryFrom entryTo (.owned tag pieces outcome) objects).1 ≠ .owned tag pieces outcome
  | _ => False

/-- The received GET is refused, or its descriptor is whole and a range does not change the value. -/
def GetStored (behaviour : Behaviour σ) (s : Server σ) (len : ℕ) : Prop :=
  len = 2 ∨ 12 ≤ len ∧ ∀ req reader value after,
    getRequestDecode .zero ⟨s.rx len, s.objects.pool⟩ = .ok req reader → req.attr.id = 2 →
    dispatcherGet behaviour s.requireAcl s.aa.association req.attr .null { s.objects with pool := reader.pool } =
      ((.ok, value), after) →
    ¬value.Narrows behaviour after

/-- The received ACTION is refused, or its descriptor and parameter are whole and the call stores a result. The
lengths that are refused leave no byte behind what is stored of the descriptor. -/
def ActionStored (behaviour : Behaviour σ) (s : Server σ) (len : ℕ) : Prop :=
  len ≤ 3 ∨ len = 5 ∨ len = 11 ∨ len = 12 ∨
    13 ≤ len ∧ (s.wire.rxBuf.getD 12 0 = 0 ∨ 14 ≤ len) ∧ ∀ req reader,
      actionRequestDecode .zero ⟨s.rx len, s.objects.pool⟩ = .ok req reader → req.isPass3 = false →
      ∀ old old',
        dispatcherAction behaviour s.requireAcl s.aa.association req.method req.data old
            { s.objects with pool := reader.pool } =
          dispatcherAction behaviour s.requireAcl s.aa.association req.method req.data old'
            { s.objects with pool := reader.pool }

/-! ## Calls over an old result -/

section Dispatch

variable {behaviour : Behaviour σ} (conforms : behaviour.Conforms) (requireAcl : Bool) (association : Option ℕ)
  (objects : Objects σ)

include conforms

theorem dispatcherGet_stored (attr : Descriptor) : ∃ err value after, ∀ old, ∃ left,
      dispatcherGet behaviour requireAcl association attr old objects = ((err, left), after) ∧
        (err = .ok → left = value) := by
  unfold dispatcherGet
  cases objects.find attr.classId attr.instanceId with
  | none => exact ⟨.notFound, .null, objects, fun old => ⟨old, rfl, nofun⟩⟩
  | some e =>
    by_cases readable : (!e.hasGet) = true
    · exact ⟨.notFound, .null, objects, fun old => ⟨old, by simp [readable], nofun⟩⟩
    · by_cases refused :
        (!granted requireAcl association objects (·.canRead attr.classId attr.instanceId attr.id)) = true
      · exact ⟨.security, .null, objects, fun old => ⟨old, by simp [readable, refused], nofun⟩⟩
      · simp only [readable, refused]
        exact conforms.get e.inst attr.id objects

theorem dispatcherAction_whole (method : Descriptor) (param : Value) : ∃ err push after,
      (∃ value, ∀ old, dispatcherAction behaviour requireAcl association method param old objects =
        ((err, value, push), after)) ∨
      ∀ old, dispatcherAction behaviour requireAcl association method param old objects =
        ((err, old, push), after) := by
  unfold dispatcherAction
  cases objects.find method.classId method.instanceId with
  | none => exact ⟨.notFound, none, objects, .inr fun old => rfl⟩
  | some e =>
    by_cases callable : (!e.hasInvoke) = true
    · exact ⟨.notFound, none, objects, .inr fun old => by simp [callable]⟩
    · by_cases refused :
        (!granted requireAcl association objects (·.canInvoke method.classId method.instanceId method.id)) = true
      · exact ⟨.security, none, objects, .inr fun old => by simp [callable, refused]⟩
      · simp only [callable, refused]
        exact conforms.invoke e.inst method.id param objects

end Dispatch

/-! ## Handling that does not read the stack -/

section Independent

variable {behaviour : Behaviour σ} {hal : Hal} {stack : Stack} {s : Server σ} {α : Type} {decode : Decode α} {e : Err}

theorem dispatchGetAttr_stored (conforms : behaviour.Conforms) (hal : Hal) (stack : Stack) (attr : Descriptor)
    (s : Server σ) :
    ∃ item t, (∀ locals, dispatchGetAttr ⟨hal, behaviour, stack.holding locals⟩ attr s = some (item, t)) ∧
      ∀ value, item = .data value →
        dispatcherGet behaviour s.requireAcl s.aa.association attr .null s.objects = ((.ok, value), t.objects) := by
  obtain ⟨err, value, after, gets⟩ :=
    dispatcherGet_stored conforms s.requireAcl s.aa.association s.objects attr
  let t : Server σ := { s with objects := after, log := s.log ++ [.dispatched .get attr s.aa.association] }
  have called (locals : Locals) : ∃ left, dispatchGet ⟨hal, behaviour, stack.holding locals⟩ attr s =
      some ((err, left), t) ∧ (err = .ok → left = value) := by
    obtain ⟨left, got, stored⟩ := gets locals.value
    refine ⟨left, ?_, stored⟩
    simp only [dispatchGet, note, get_bind_apply, modify_bind_apply, Stack.holding, got]
    rfl
  obtain ⟨left, got, stored⟩ := gets .null
  cases err with
  | ok =>
    refine ⟨.data value, t, fun locals => ?_, ?_⟩
    · obtain ⟨left, called, stored⟩ := called locals
      rw [dispatchGetAttr, bind_of_some called, stored rfl]
      rfl
    · rintro _ ⟨⟩
      rw [got, stored rfl]
  | security =>
    refine ⟨.accessResult .readDenied, t, fun locals => ?_, nofun⟩
    obtain ⟨left, called, -⟩ := called locals
    rw [dispatchGetAttr, bind_of_some called]
    rfl
  | _ =>
    refine ⟨.accessResult .objectUndefined, t, fun locals => ?_, nofun⟩
    obtain ⟨left, called, -⟩ := called locals
    rw [dispatchGetAttr, bind_of_some called]
    rfl

/-- A value that no range changes is not touched by a selective access. -/
theorem selectValue_unchanged (conforms : behaviour.Conforms) (env : Env σ) (same : env.behaviour = behaviour)
    {id : UInt8} {value : Value} (unchanged : id = 2 → ¬value.Narrows behaviour s.objects)
    (selection : SelectiveAccess) : selectValue env selection id value s = some (value, s) := by
  subst same
  unfold selectValue
  split
  case isFalse => rfl
  case isTrue asked =>
    have unchanged := unchanged asked.1
    cases value with
    | array start count =>
      obtain rfl : count = 0 := by simpa [Value.Narrows] using unchanged
      rfl
    | owned tag pieces outcome =>
      have kept := conforms.select selection.entryFrom selection.entryTo (.owned tag pieces outcome) s.objects
      have value : (env.behaviour.select selection.entryFrom selection.entryTo (.owned tag pieces outcome)
          s.objects).1 = .owned tag pieces outcome := by
        simp only [Value.Narrows, not_exists, not_not] at unchanged
        exact unchanged _ _
      simp only [get_bind_apply, set_bind_apply, kept, value]
      rfl
    | _ => rfl

theorem decodeRequest_of_ok {len : ℕ} {req : α} {reader : Reader}
    (decoded : decode ⟨s.rx len, s.objects.pool⟩ = .ok req reader) :
    decodeRequest decode len s = some (some req, { s with objects := { s.objects with pool := reader.pool } }) := by
  simp only [decodeRequest, get_bind_apply, decoded]
  rfl

theorem decodeRequest_of_error {len : ℕ} {reader : Reader}
    (failed : decode ⟨s.rx len, s.objects.pool⟩ = .error e reader) :
    decodeRequest decode len s = some (none, { s with objects := { s.objects with pool := reader.pool } }) := by
  simp only [decodeRequest, get_bind_apply, failed]
  rfl

/-- The part of the server's state that the condition looks at: objects, access rights and the request. -/
structure Server.SameRequest (s t : Server σ) : Prop where
  objects : t.objects = s.objects
  requireAcl : t.requireAcl = s.requireAcl
  association : t.aa.association = s.aa.association
  rxBuf : t.wire.rxBuf = s.wire.rxBuf

/-- A request passes the gate alike when it is served alike and, without an association, refused alike. -/
theorem acceptPlain_congr {arrived : Bool} {len : ℕ} (request : s.rxTag = 0xC0 ∨ s.rxTag = 0xC3)
    {locals locals' : Locals} (unassociated : acceptUnassociated ⟨hal, behaviour, stack.holding locals⟩ len s =
      acceptUnassociated ⟨hal, behaviour, stack.holding locals'⟩ len s)
    (served : acceptService ⟨hal, behaviour, stack.holding locals⟩ len s =
      acceptService ⟨hal, behaviour, stack.holding locals'⟩ len s) :
    acceptPlain ⟨hal, behaviour, stack.holding locals⟩ arrived len s =
      acceptPlain ⟨hal, behaviour, stack.holding locals'⟩ arrived len s := by
  have plain : svcIsCipheredTag s.rxTag = false := by rcases request with get | action <;> simp [*] <;> decide
  have single : s.rxTag ≠ 0xE0 := by rcases request with get | action <;> simp [*]
  simp only [acceptPlain, get_bind_apply, if_neg single]
  split
  · exact unassociated
  · simp only [acceptReassembled, get_bind_apply, plain, Bool.false_eq_true, and_false, if_false]
    split
    · rfl
    · exact served

def Server.decoded (s : Server σ) (reader : Reader) : Server σ :=
  { s with objects := { s.objects with pool := reader.pool } }

section Service

variable (env : Env σ) {len : ℕ} {reader : Reader}

theorem acceptService_get {req : GetRequest} (isGet : s.rxTag = 0xC0)
    (ok : getRequestDecode env.stack.getRequest ⟨s.rx len, s.objects.pool⟩ = .ok req reader) :
    acceptService env len s = handleGet env req (s.decoded reader) := by
  simp only [acceptService, get_bind_apply, isGet, if_true]
  exact bind_of_some (decodeRequest_of_ok ok)

theorem acceptService_action {req : ActionRequest} (isAction : s.rxTag = 0xC3)
    (ok : actionRequestDecode env.stack.actionRequest ⟨s.rx len, s.objects.pool⟩ = .ok req reader) :
    acceptService env len s =
      (if req.isPass3 then handleHlsPass3 env req else handleAction env req) (s.decoded reader) := by
  have notGet : ¬(0xC3 : UInt8) = 0xC0 := by decide
  have notSet : ¬(0xC3 : UInt8) = 0xC1 := by decide
  simp only [acceptService, get_bind_apply, isAction, if_neg notGet, if_neg notSet, if_true]
  exact bind_of_some (decodeRequest_of_ok ok)

theorem acceptService_refused (isAction : s.rxTag = 0xC3)
    (failed : actionRequestDecode env.stack.actionRequest ⟨s.rx len, s.objects.pool⟩ = .error e reader) :
    acceptService env len s = some (.invalid, s.decoded reader) := by
  have notGet : ¬(0xC3 : UInt8) = 0xC0 := by decide
  have notSet : ¬(0xC3 : UInt8) = 0xC1 := by decide
  simp only [acceptService, get_bind_apply, isAction, if_neg notGet, if_neg notSet, if_true]
  exact bind_of_some (decodeRequest_of_error failed)

end Service

variable {len : ℕ}

theorem get_independent (conforms : behaviour.Conforms) (isGet : s.rxTag = 0xC0)
    (normal : s.wire.rxBuf.getD 1 0 = 1) (bounded : len < 2 ^ 32) (stored : GetStored behaviour s len)
    (locals locals' : Locals) : acceptService ⟨hal, behaviour, stack.holding locals⟩ len s =
      acceptService ⟨hal, behaviour, stack.holding locals'⟩ len s := by
  rcases stored with rfl | ⟨whole, unchanged⟩
  · have failed (old : GetRequest) : getRequestDecode old ⟨s.rx 2, s.objects.pool⟩ =
        .error .invalid (readerAt s.wire.rxBuf 2 2 s.objects.pool) :=
      bind_of_error (requestHeader_short s.objects.pool isGet)
    have answered (locals : Locals) :
        acceptService ⟨hal, behaviour, stack.holding locals⟩ 2 s =
          answerMalformed ⟨hal, behaviour, stack⟩ 2
            (getResponseEncode s.objects.pool · (.dataError .hardwareFault))
            (s.decoded (readerAt s.wire.rxBuf 2 2 s.objects.pool)) := by
      simp only [acceptService, get_bind_apply, isGet, if_true]
      exact bind_of_some (decodeRequest_of_error (failed _))
    rw [answered, answered]
  · obtain ⟨attr, read⟩ := descriptorRead_whole s.wire.rxBuf s.objects.pool (show 3 + 9 ≤ len from whole) bounded
    obtain ⟨reader, decoded⟩ := getRequestDecode_of_attr s.objects.pool isGet normal (by omega) bounded read
    rw [acceptService_get _ isGet (decoded _), acceptService_get _ isGet (decoded _)]
    obtain ⟨item, t, called, got⟩ := dispatchGetAttr_stored conforms hal stack attr (s.decoded reader)
    change (dispatchGetAttr _ attr >>= _) _ = (dispatchGetAttr _ attr >>= _) _
    rw [bind_of_some (called locals), bind_of_some (called locals')]
    cases item with
    | accessResult result => rfl
    | data value =>
      have kept (locals : Locals) := selectValue_unchanged conforms ⟨hal, behaviour, stack.holding locals⟩ rfl
        (fun two => unchanged _ reader value t.objects (decoded .zero) two (got value rfl)) locals.getRequest.accessSelection
      have sent (locals : Locals) :
          (selectValue ⟨hal, behaviour, stack.holding locals⟩ locals.getRequest.accessSelection attr.id value >>=
            sendGetData ⟨hal, behaviour, stack⟩ (s.wire.rxBuf.getD 2 0)) t = sendGetData ⟨hal, behaviour, stack⟩ _ value t :=
        bind_of_some (kept locals)
      exact (sent locals).trans (sent locals').symm

/-- A received ACTION is refused, or stores its descriptor and parameter, whatever was there. -/
theorem actionRequestDecode_stored (isAction : s.rxTag = 0xC3) (normal : s.wire.rxBuf.getD 1 0 = 1)
    (two : 2 ≤ len) (bounded : len < 2 ^ 32) (stored : ActionStored behaviour s len) :
    (∃ e reader, ∀ old, actionRequestDecode old ⟨s.rx len, s.objects.pool⟩ = .error e reader) ∨
      ∃ iid method data reader,
        (∀ old, actionRequestDecode old ⟨s.rx len, s.objects.pool⟩ = .ok (old.filled iid method data) reader) ∧
        ((ActionRequest.zero.filled iid method data).isPass3 = false → ∀ old old',
          dispatcherAction behaviour s.requireAcl s.aa.association method data old (s.decoded reader).objects =
            dispatcherAction behaviour s.requireAcl s.aa.association method data old' (s.decoded reader).objects) := by
  by_cases whole : 13 ≤ len
  · right
    obtain ⟨-, parameter, stores⟩ : 13 ≤ len ∧ (s.wire.rxBuf.getD 12 0 = 0 ∨ 14 ≤ len) ∧ _ := by
      rcases stored with short | five | eleven | twelve | all
      · omega
      · omega
      · omega
      · omega
      · exact all
    obtain ⟨method, read⟩ := descriptorRead_whole s.wire.rxBuf s.objects.pool (show 3 + 9 ≤ len by omega) bounded
    obtain ⟨keep, reader, parameterRead, constant, -⟩ :=
      actionParameter_at s.wire.rxBuf s.objects.pool (show 12 + 1 ≤ len from whole) bounded
    have decoded (old : ActionRequest) : actionRequestDecode old ⟨s.rx len, s.objects.pool⟩ =
        .ok (old.filled (s.wire.rxBuf.getD 2 0) method (keep .null)) reader := by
      rw [constant parameter .null old.data]
      exact actionRequestDecode_of_parts s.objects.pool isAction normal (by omega) bounded read parameterRead old
    exact ⟨_, method, keep .null, reader, decoded, stores _ reader (decoded .zero)⟩
  · left
    by_cases header : len = 2
    · subst header
      exact ⟨_, _, fun old => bind_of_error (requestHeader_short s.objects.pool isAction)⟩
    · by_cases descriptor : len = 12
      · subst descriptor
        obtain ⟨method, read⟩ := descriptorRead_whole s.wire.rxBuf s.objects.pool (show 3 + 9 ≤ 12 by omega) bounded
        exact ⟨_, _, actionRequestDecode_of_refused s.objects.pool isAction normal (by omega) bounded read⟩
      · obtain ⟨change, -, read⟩ := descriptorRead_cut s.wire.rxBuf s.objects.pool (show 3 ≤ len by omega)
          (by
            rcases stored with short | five | eleven | twelve | all <;> omega) bounded
        have ends : 3 + storedOf (len - 3) = len := by
          rcases stored with short | rfl | rfl | twelve | all
          · obtain rfl : len = 3 := by omega
            rfl
          · rfl
          · rfl
          · exact absurd twelve descriptor
          · exact absurd all.1 whole
        rw [ends] at read
        exact ⟨_, _, actionRequestDecode_of_refused s.objects.pool isAction normal (by omega) bounded read⟩

theorem action_independent (isAction : s.rxTag = 0xC3) (normal : s.wire.rxBuf.getD 1 0 = 1) (two : 2 ≤ len)
    (bounded : len < 2 ^ 32) (stored : ActionStored behaviour s len) (locals locals' : Locals) :
    acceptService ⟨hal, behaviour, stack.holding locals⟩ len s =
        acceptService ⟨hal, behaviour, stack.holding locals'⟩ len s ∧
      acceptUnassociated ⟨hal, behaviour, stack.holding locals⟩ len s =
        acceptUnassociated ⟨hal, behaviour, stack.holding locals'⟩ len s := by
  rcases actionRequestDecode_stored isAction normal two bounded stored with
    ⟨e, reader, failed⟩ | ⟨iid, method, data, reader, decoded, stores⟩
  · refine ⟨?_, ?_⟩
    · rw [acceptService_refused _ isAction (failed _), acceptService_refused _ isAction (failed _)]
    · have refused (locals : Locals) : decodeRequest
          (actionRequestDecode (stack.holding locals).actionRequest) len s = some (none, s.decoded reader) :=
        decodeRequest_of_error (failed _)
      simp only [acceptUnassociated, get_bind_apply]
      split
      · rw [bind_of_some (refused locals), bind_of_some (refused locals')]
        rfl
      · rfl
  · refine ⟨?_, ?_⟩
    · rw [acceptService_action _ isAction (decoded _), acceptService_action _ isAction (decoded _)]
      cases pass3 : (ActionRequest.zero.filled iid method data).isPass3 with
      | true =>
        have pass3 (old : ActionRequest) : (old.filled iid method data).isPass3 = true := pass3
        rw [if_pos (pass3 _), if_pos (pass3 _)]
        rfl
      | false =>
        have other (old : ActionRequest) : ¬(old.filled iid method data).isPass3 = true := by
          rw [show (old.filled iid method data).isPass3 = false from pass3]
          exact Bool.false_ne_true
        rw [if_neg (other _), if_neg (other _)]
        have same : dispatchAction ⟨hal, behaviour, stack.holding locals⟩ method data locals.value (s.decoded reader) =
            dispatchAction ⟨hal, behaviour, stack.holding locals'⟩ method data locals'.value (s.decoded reader) := by
          have stored : dispatcherAction behaviour (s.decoded reader).requireAcl (s.decoded reader).aa.association _ _ _ _ = _ :=
            stores pass3 locals.value locals'.value
          simp only [dispatchAction, note, get_bind_apply, modify_bind_apply, stored]
          rfl
        obtain ⟨result, t, called⟩ : ∃ result t, dispatchAction ⟨hal, behaviour, stack.holding locals'⟩ method data
          locals'.value (s.decoded reader) = some (result, t) := ⟨_, _, rfl⟩
        change (dispatchAction _ method data locals.value >>= _) _ = (dispatchAction _ method data locals'.value >>= _) _
        rw [bind_of_some (same.trans called), bind_of_some called]
        rfl
    · have received (locals : Locals) : decodeRequest
          (actionRequestDecode (stack.holding locals).actionRequest) len s =
          some (some (locals.actionRequest.filled iid method data), s.decoded reader) :=
        decodeRequest_of_ok (decoded _)
      simp only [acceptUnassociated, get_bind_apply]
      split
      · rw [bind_of_some (received locals), bind_of_some (received locals')]
        rfl
      · rfl

end Independent

end OpenSpodes
