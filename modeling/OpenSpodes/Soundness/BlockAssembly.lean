import OpenSpodes.Machine.Reassembly
import OpenSpodes.Proofs.SampleServer
import OpenSpodes.Proofs.ServiceFrame

/-! # Long SET and ACTION parameters

The values of a long SET and the parameters of a long ACTION arrive in numbered blocks. Both
accumulators refine `Machine.Reassembly`: the buffer of a transfer holds the payloads since the block
that opened it, and the last block hands exactly these to the decoder. The block numbers are only
echoed in the responses. A repeated or reordered block therefore enters the value, and what is
dispatched comes from the blocks `1, …, n` exactly when the client sent them so.
-/

namespace OpenSpodes

open Machine Machine.Reassembly

variable {σ : Type} {hal : Hal} {behaviour : Behaviour σ}

/-- A SET or ACTION request with a first or a further block. -/
inductive BlockRequest
  | set (req : SetRequest) (isBlock : req.kind = .withFirstDatablock ∨ req.kind = .withDatablock)
  | action (req : ActionRequest)
      (isBlock : req.kind = .withFirstParamBlock ∨ req.kind = .withParamBlock)

namespace BlockRequest

def service : BlockRequest → Service
  | .set _ _ => .set
  | .action _ _ => .action

/-- The block, with the attribute or method when it is a first one. -/
def piece : BlockRequest → Piece Descriptor UInt8
  | .set req _ =>
      { opens := if req.kind = .withFirstDatablock then some req.attr else none
        number := req.datablock.blockNumber
        last := req.datablock.lastBlock
        payload := req.datablock.rawData.val }
  | .action req _ =>
      { opens := if req.kind = .withFirstParamBlock then some req.method else none
        number := req.paramBlock.blockNumber
        last := req.paramBlock.lastBlock
        payload := req.paramBlock.rawData.val }

def handle (env : Env σ) : BlockRequest → Program (Server σ) Err
  | .set req _ => handleSet env req
  | .action req _ => handleAction env req

def transfer (s : Server σ) : BlockRequest → BlockIn
  | .set _ _ => s.pendingSet
  | .action _ _ => s.pendingActionIn

/-- The server with another transfer in its place. -/
def put (s : Server σ) (pending : BlockIn) : BlockRequest → Server σ
  | .set _ _ => { s with pendingSet := pending }
  | .action _ _ => { s with pendingActionIn := pending }

/-- What the handler does with the bytes of a whole transfer: decode them and, if they are a value,
call the dispatcher. -/
def complete (env : Env σ) (target : Descriptor) (bytes : List UInt8) :
    BlockRequest → Program (Server σ) Err
  | .set req _ => do
      match ← readBuffered env bytes with
      | (.ok, value) =>
          let result ← dispatchSet env target value
          sendSetResponse env req.invokeIdPriority
            (.lastDatablock (darOfErr result) req.datablock.blockNumber)
      | _ =>
          sendSetResponse env req.invokeIdPriority (.lastDatablock .typeMismatch req.datablock.blockNumber)
  | .action req _ => do
      match ← readBuffered env bytes with
      | (.ok, param) =>
          let (result, value) ← dispatchAction env target param .null
          sendActionInvokeResult env req.invokeIdPriority (darOfErr result) value
      | _ => sendActionInvokeResult env req.invokeIdPriority .typeMismatch .null

/-- Why a block is answered at once: no transfer is open, it does not fit, or more blocks follow. -/
inductive Answer
  | idle
  | full
  | next

def answer (env : Env σ) : BlockRequest → Answer → Program (Server σ) Err
  | .set req _, .idle => sendSetResponse env req.invokeIdPriority (.normal .typeMismatch)
  | .set req _, .full => sendSetResponse env req.invokeIdPriority (.normal .longBlockTransfer)
  | .set req _, .next => sendSetResponse env req.invokeIdPriority (.datablock req.datablock.blockNumber)
  | .action req _, .idle => sendActionResponse env req.invokeIdPriority (.normal .typeMismatch .null)
  | .action req _, .full => sendActionResponse env req.invokeIdPriority (.normal .longBlockTransfer .null)
  | .action req _, .next => sendActionResponse env req.invokeIdPriority (.nextParamBlock req.paramBlock.blockNumber)

/-- The transfer that the block goes into, which a first block opens. -/
def joined (s : Server σ) (r : BlockRequest) : BlockIn :=
  match r.piece.opens with
  | some target => ⟨true, target, []⟩
  | none => r.transfer s

/-- Both handlers do the same with a block. -/
theorem handle_eq (env : Env σ) (r : BlockRequest) (s : Server σ) : r.handle env s = let pending := r.joined s
      let buffer := pending.buffer ++ r.piece.payload
      if !pending.active then r.answer env .idle (r.put s pending)
      else if buffer.length > serverPendingMax then r.answer env .full (r.put s ⟨false, pending.target, []⟩)
      else if !r.piece.last then r.answer env .next (r.put s ⟨pending.active, pending.target, buffer⟩)
      else r.complete env pending.target buffer (r.put s ⟨false, pending.target, []⟩) := by
  cases r with
  | set req isBlock =>
    rcases isBlock with kind | kind
    all_goals
      simp only [handle, handleSet, kind, accumulateSetBlock, modify_bind_apply, get_bind_apply]
      dsimp only [joined, piece]
      simp only [kind, if_true, if_false, reduceCtorEq, transfer]
      split_ifs <;> rfl
  | action req isBlock =>
    rcases isBlock with kind | kind
    all_goals
      simp only [handle, handleAction, kind, accumulateActionParamBlock, modify_bind_apply, get_bind_apply]
      dsimp only [joined, piece]
      simp only [kind, if_true, if_false, reduceCtorEq, transfer]
      split_ifs <;> rfl

end BlockRequest

/-- A transfer holds the bytes of the message that is open, if one is. -/
structure Tracks (pending : BlockIn) (current : Option (Message Descriptor UInt8)) : Prop where
  active : pending.active = current.isSome
  holds : ∀ message ∈ current, pending.target = message.1 ∧ pending.buffer = contents message.2

theorem tracks_none {pending : BlockIn} (closed : pending.active = false) : Tracks pending none :=
  ⟨closed, by simp⟩

theorem tracks_some (message : Message Descriptor UInt8) :
    Tracks ⟨true, message.1, contents message.2⟩ (some message) :=
  ⟨rfl, by simp⟩

/-- What a handler can do with a block, given the message that is open. -/
inductive Outcome (env : Env σ) (r : BlockRequest) (s : Server σ)
    (current : Option (Message Descriptor UInt8)) : Prop
  /-- The block is refused or kept; a response leaves and nothing is called. -/
  | answered (pending : BlockIn) (answer : Program (Server σ) Err) :
      completed serverPendingMax current r.piece = none →
      Tracks pending (after serverPendingMax current r.piece) → Keeps (Replies fun _ => True) answer →
      r.handle env s = answer (r.put s pending) → Outcome env r s current
  /-- The block completes a message. -/
  | completed (message : Message Descriptor UInt8) :
      completed serverPendingMax current r.piece = some message →
      after serverPendingMax current r.piece = none →
      r.handle env s = r.complete env message.1 (contents message.2) (r.put s ⟨false, message.1, []⟩) →
      Outcome env r s current

/-- A first block opens a message, a further one goes on with the one that is open. -/
theorem join_cases {current : Option (Message Descriptor UInt8)} (r : BlockRequest) {s : Server σ}
    (tracks : Tracks (r.transfer s) current) :
    (join current r.piece = none ∧ r.piece.opens = none ∧ (r.transfer s).active = false) ∨
      ∃ message earlier, join current r.piece = some message ∧ contents message.2 = earlier ++ r.piece.payload ∧
        (r.piece.opens = some message.1 ∧ earlier = [] ∨
          r.piece.opens = none ∧ r.transfer s = ⟨true, message.1, earlier⟩) := by
  cases opens : r.piece.opens with
  | some target =>
    refine .inr ⟨(target, [r.piece]), [], ?_, ?_, .inl ⟨rfl, rfl⟩⟩
    · simp [join, opens]
    · simp [contents]
  | none =>
    cases current with
    | none => exact .inl ⟨by simp [join, opens], rfl, tracks.active⟩
    | some message =>
      obtain ⟨target, buffer⟩ := tracks.holds message rfl
      refine .inr ⟨(message.1, message.2 ++ [r.piece]), contents message.2, ?_, ?_, .inr ⟨rfl, ?_⟩⟩
      · simp [join, opens]
      · simp [contents]
      · rw [← target, ← buffer, show true = (r.transfer s).active from tracks.active.symm]

variable {r : BlockRequest}

section Blocks

variable {env : Env σ} {current : Option (Message Descriptor UInt8)} {message : Message Descriptor UInt8}
  {P : List UInt8 → Prop}

theorem outcome_of_joined {s : Server σ} (joined : join current r.piece = some message)
    (full next : Program (Server σ) Err) (fullReplies : Keeps (Replies fun _ => True) full)
    (nextReplies : Keeps (Replies fun _ => True) next) (handled : r.handle env s =
      if (contents message.2).length > serverPendingMax then full (r.put s ⟨false, message.1, []⟩)
      else if !r.piece.last then next (r.put s ⟨true, message.1, contents message.2⟩)
      else r.complete env message.1 (contents message.2) (r.put s ⟨false, message.1, []⟩)) :
    Outcome env r s current := by
  by_cases fits : Fits serverPendingMax message
  · rw [if_neg (Nat.not_lt.mpr fits)] at handled
    cases last : r.piece.last with
    | false =>
      rw [last] at handled
      refine .answered _ next ?_ ?_ nextReplies handled
      · rw [completed_of_joined joined, if_neg (by simp [last])]
      · rw [after_of_joined joined, if_pos ⟨fits, last⟩]
        exact tracks_some message
    | true =>
      rw [last] at handled
      refine .completed message ?_ ?_ handled
      · rw [completed_of_joined joined, if_pos ⟨fits, last⟩]
      · rw [after_of_joined joined, if_neg (by simp [last])]
  · rw [if_pos (Nat.lt_of_not_le fits)] at handled
    refine .answered ⟨false, message.1, []⟩ full ?_ ?_ fullReplies handled
    · rw [completed_of_joined joined, if_neg fun both => fits both.1]
    · rw [after_of_joined joined, if_neg fun both => fits both.1]
      exact tracks_none rfl

theorem answer_replies (r : BlockRequest) (why : BlockRequest.Answer) :
    Keeps (Replies fun _ => True) (r.answer env why) := by
  cases r with
  | set req isBlock => cases why <;> exact (replies_send env allows_any).sendSetResponse _ _
  | action req isBlock => cases why <;> exact (replies_send env allows_any).sendActionResponse _ _

theorem handle_outcome (r : BlockRequest) {s : Server σ} (tracks : Tracks (r.transfer s) current) :
    Outcome env r s current := by
  have handled := r.handle_eq env s
  rcases join_cases r tracks with ⟨unjoined, further, idle⟩ | ⟨message, earlier, joined, holds, how⟩
  · have pending : r.joined s = r.transfer s := by rw [BlockRequest.joined, further]
    simp only [pending, idle] at handled
    refine .answered (r.transfer s) _ (completed_of_unjoined unjoined) ?_ (answer_replies r .idle) handled
    rw [after_of_unjoined unjoined]
    exact tracks_none idle
  · have pending : r.joined s = ⟨true, message.1, earlier⟩ := by
      rcases how with ⟨first, rfl⟩ | ⟨further, transfer⟩
      · rw [BlockRequest.joined, first]
      · rw [BlockRequest.joined, further, transfer]
    simp only [pending, ← holds] at handled
    exact outcome_of_joined joined _ _ (answer_replies r .full) (answer_replies r .next) handled

/-- The bytes of a transfer are a value, for a server with the given pool. -/
def Decodes (stack : Stack) (pool : Pool) (bytes : List UInt8) : Prop :=
  (valueRead stack.value ⟨Buf.ofBytes bytes, pool⟩).1.1 = .ok

instance (stack : Stack) (pool : Pool) (bytes : List UInt8) : Decidable (Decodes stack pool bytes) :=
  inferInstanceAs (Decidable (_ = _))

/-- The transfers from the client are as they were, and these are the calls. -/
structure Served (calls : List (Service × Descriptor)) (s t : Server σ) : Prop where
  pendingSet : t.pendingSet = s.pendingSet
  pendingActionIn : t.pendingActionIn = s.pendingActionIn
  calls : callsSince s t = calls

theorem Replies.served {s t : Server σ} (replies : Replies P s t) : Served [] s t :=
  ⟨replies.pendingSet, replies.pendingActionIn, replies.callsSince⟩

theorem Called.served {service : Service} {target : Descriptor} {s t u : Server σ}
    (called : Called service target s t) (replies : Replies P t u) : Served [(service, target)] s u :=
  ⟨replies.pendingSet.trans called.pendingSet, replies.pendingActionIn.trans called.pendingActionIn,
    replies.callsSince_eq called.log⟩

/-- A whole transfer is dispatched when its bytes are a value, and only then. -/
theorem complete_served (r : BlockRequest) (target : Descriptor) (bytes : List UInt8) (s : Server σ) :
    wp (r.complete env target bytes)
      (fun _ t => Served (if Decodes env.stack s.objects.pool bytes then [(r.service, target)] else []) s t) s := by
  intro result t returned
  obtain ⟨⟨⟨err, value⟩, reader⟩, read⟩ :
    ∃ outcome, valueRead env.stack.value ⟨Buf.ofBytes bytes, s.objects.pool⟩ = outcome := ⟨_, rfl⟩
  have decodes : Decodes env.stack s.objects.pool bytes ↔ err = .ok := by rw [Decodes, read]
  suffices served : Served _ { s with objects := { s.objects with pool := reader.pool } } t from
    ⟨served.pendingSet, served.pendingActionIn, served.calls⟩
  cases r with
  | set req isBlock =>
    rw [BlockRequest.complete, bind_of_some (readBuffered_of_read env read)] at returned
    cases err with
    | ok =>
      rw [if_pos (decodes.mpr rfl)]
      obtain ⟨_, called, dispatched, sent⟩ := bind_eq_some.mp returned
      exact (dispatchSet_called env target value _ _ _ dispatched).served
        ((replies_send env allows_any).sendSetResponse _ _ _ _ _ sent)
    | _ =>
      rw [if_neg (by simp [decodes])]
      exact ((replies_send env allows_any).sendSetResponse _ _ _ _ _ returned).served
  | action req isBlock =>
    rw [BlockRequest.complete, bind_of_some (readBuffered_of_read env read)] at returned
    cases err with
    | ok =>
      rw [if_pos (decodes.mpr rfl)]
      obtain ⟨_, called, dispatched, sent⟩ := bind_eq_some.mp returned
      exact (dispatchAction_called env target value .null _ _ _ dispatched).served
        ((replies_send env allows_any).sendActionInvokeResult _ _ _ _ _ _ sent)
    | _ =>
      rw [if_neg (by simp [decodes])]
      exact ((replies_send env allows_any).sendActionInvokeResult _ _ _ _ _ _ returned).served

/-- The calls that follow from a completed message: one if its bytes are a value. -/
def BlockRequest.callsFor (r : BlockRequest) (stack : Stack) (pool : Pool) :
    Option (Message Descriptor UInt8) → List (Service × Descriptor)
  | some message => if Decodes stack pool (contents message.2) then [(r.service, message.1)] else []
  | none => []

/-- What a block leaves: the transfer holds what is then open, and a message that was completed and is
a value was dispatched. -/
theorem Outcome.served {s t : Server σ} {result : Err} (outcome : Outcome env r s current)
    (returned : r.handle env s = some (result, t)) :
    ∃ pending, Tracks pending (after serverPendingMax current r.piece) ∧
      Served (r.callsFor env.stack s.objects.pool (Reassembly.completed serverPendingMax current r.piece))
        (r.put s pending) t := by
  cases outcome with
  | answered pending answer incomplete tracks replies handled =>
    rw [incomplete]
    rw [handled] at returned
    exact ⟨pending, tracks, (replies _ _ _ returned).served⟩
  | completed message completes closed handled =>
    rw [completes, closed]
    rw [handled] at returned
    refine ⟨⟨false, message.1, []⟩, tracks_none rfl, ?_⟩
    have served := complete_served r message.1 (contents message.2) _ _ _ returned
    cases r with
    | set req isBlock => exact served
    | action req isBlock => exact served

end Blocks

/-! ## Runs -/

/-- One block request is served, with whatever the stack holds at that call. -/
def BlockStep (hal : Hal) (behaviour : Behaviour σ) (s : Server σ) (r : BlockRequest) (t : Server σ) :
    Prop :=
  ∃ stack result, r.handle ⟨hal, behaviour, stack⟩ s = some (result, t)

/-- The blocks of one service among the requests that were served. -/
def blocksOf (service : Service) (requests : List BlockRequest) : List (Piece Descriptor UInt8) :=
  (requests.filter (·.service = service)).map BlockRequest.piece

/-- What a service has open behind the requests that were served. -/
def openTransfer (service : Service) (requests : List BlockRequest) : Option (Message Descriptor UInt8) :=
  Reassembly.run serverPendingMax (blocksOf service requests)

/-- No long SET or ACTION has begun. -/
structure Server.NoTransfer (s : Server σ) : Prop where
  set : s.pendingSet.active = false
  action : s.pendingActionIn.active = false

/-- Both transfers hold what is open. -/
structure TracksAll (done : List BlockRequest) (s : Server σ) : Prop where
  set : Tracks s.pendingSet (openTransfer .set done)
  action : Tracks s.pendingActionIn (openTransfer .action done)

variable {done : List BlockRequest}

theorem TracksAll.transfer {s : Server σ} (tracks : TracksAll done s) (r : BlockRequest) :
    Tracks (r.transfer s) (openTransfer r.service done) := by
  cases r with
  | set req isBlock => exact tracks.set
  | action req isBlock => exact tracks.action

theorem openTransfer_concat (service : Service) (done : List BlockRequest) (r : BlockRequest) :
    openTransfer service (done ++ [r]) =
      if r.service = service then after serverPendingMax (openTransfer service done) r.piece
      else openTransfer service done := by
  by_cases same : r.service = service
  · simp [openTransfer, blocksOf, same, run_concat]
  · simp [openTransfer, blocksOf, same]

/-- Behind a request its own transfer holds what is then open. -/
theorem TracksAll.step {s t : Server σ} (tracks : TracksAll done s) (step : BlockStep hal behaviour s r t) :
    TracksAll (done ++ [r]) t := by
  obtain ⟨stack, result, returned⟩ := step
  obtain ⟨pending, tracks', served⟩ := (handle_outcome r (tracks.transfer r)).served returned
  cases r with
  | set req isBlock =>
    refine ⟨?_, ?_⟩
    · rw [openTransfer_concat, if_pos (by rfl), served.pendingSet]
      exact tracks'
    · rw [openTransfer_concat, if_neg (by simp [BlockRequest.service]), served.pendingActionIn]
      exact tracks.action
  | action req isBlock =>
    refine ⟨?_, ?_⟩
    · rw [openTransfer_concat, if_neg (by simp [BlockRequest.service]), served.pendingSet]
      exact tracks.set
    · rw [openTransfer_concat, if_pos (by rfl), served.pendingActionIn]
      exact tracks'

variable {origin : Server σ}

/-- The blocks of a service so far, the current one included, end in the message that a handler completes. -/
theorem completed_recent_blocks {message : Message Descriptor UInt8}
    (completes : Reassembly.completed serverPendingMax (openTransfer r.service done) r.piece = some message) :
    Recent (blocksOf r.service (done ++ [r])) message := by
  have recent := join_recent (run_recent serverPendingMax (blocksOf r.service done)) message
    (Option.mem_filter_iff.mp completes).1
  rwa [show blocksOf r.service (done ++ [r]) = blocksOf r.service done ++ [r.piece] by simp [blocksOf]]

/-- A request dispatches the bytes of the latest blocks of its service, from a first block on, and these
are numbered `1, …, n`; or it dispatches nothing. -/
def DispatchesInOrder (env : Env σ) (done : List BlockRequest) (r : BlockRequest) (s t : Server σ) : Prop :=
  callsSince s t = [] ∨
    ∃ message, callsSince s t = [(r.service, message.1)] ∧ InOrder message.2 ∧
      Recent (blocksOf r.service (done ++ [r])) message ∧
      r.handle env s = r.complete env message.1 (contents message.2) (r.put s ⟨false, message.1, []⟩)

/-- Whatever block requests an idle server was sent before, the next one dispatches the blocks `1, …, n`
in order or nothing, exactly when the transfer that it completes, if it does and its bytes are a value,
consists of the blocks `1, …, n` in order. -/
theorem long_parameters_in_order_iff {hal : Hal} {behaviour : Behaviour σ} {origin s t : Server σ}
    {done : List BlockRequest} {r : BlockRequest} {stack : Stack} {result : Err} (idle : origin.NoTransfer)
    (history : History (BlockStep hal behaviour) origin done s)
    (returned : r.handle ⟨hal, behaviour, stack⟩ s = some (result, t)) :
    DispatchesInOrder ⟨hal, behaviour, stack⟩ done r s t ↔ ∀ message,
        Reassembly.completed serverPendingMax (openTransfer r.service done) r.piece = some message →
        Decodes stack s.objects.pool (contents message.2) → InOrder message.2 := by
  have outcome : Outcome ⟨hal, behaviour, stack⟩ r s (openTransfer r.service done) :=
    have tracks : TracksAll done s :=
      history.invariant ⟨tracks_none idle.set, tracks_none idle.action⟩ fun _ _ _ _ => TracksAll.step
    handle_outcome r (tracks.transfer r)
  obtain ⟨pending, -, served⟩ := outcome.served returned
  have calls : callsSince s t = callsSince (r.put s pending) t := by cases r <;> rfl
  rw [served.calls] at calls
  cases outcome with
  | answered _ _ incomplete _ _ _ =>
    rw [incomplete] at calls ⊢
    exact iff_of_true (.inl calls) (by simp)
  | completed message completes _ handled =>
    rw [completes] at calls ⊢
    constructor
    · rintro inOrder _ ⟨⟩ decodes
      rw [BlockRequest.callsFor, if_pos decodes] at calls
      rcases inOrder with none | ⟨other, -, inOrder, recent, -⟩
      · simp [none] at calls
      · rwa [(completed_recent_blocks completes).unique recent]
    · intro numbered
      by_cases decodes : Decodes stack s.objects.pool (contents message.2)
      · rw [BlockRequest.callsFor, if_pos decodes] at calls
        exact .inr ⟨message, calls, numbered message rfl decodes, completed_recent_blocks completes, handled⟩
      · rw [BlockRequest.callsFor, if_neg decodes] at calls
        exact .inl calls

/-! ## A block that arrives twice -/

def handleBlocks (env : Env σ) : List BlockRequest → Server σ → Option (Server σ)
  | [], s => some s
  | r :: rest, s => (r.handle env s).bind fun returned => handleBlocks env rest returned.2

theorem History.of_handleBlocks {env : Env σ} {requests : List BlockRequest} {t : Server σ}
    (served : handleBlocks env requests origin = some t) :
    History (BlockStep env.hal env.behaviour) origin requests t := by
  have extended {done : List BlockRequest} {s : Server σ}
      (before : History (BlockStep env.hal env.behaviour) origin done s)
      (rest : handleBlocks env requests s = some t) :
      History (BlockStep env.hal env.behaviour) origin (done ++ requests) t := by
    clear served
    induction requests generalizing done s with
    | nil =>
      cases rest
      simpa using before
    | cons r requests ih =>
      obtain ⟨⟨result, next⟩, handled, rest⟩ := Option.bind_eq_some_iff.mp rest
      have := ih (before.extend ⟨env.stack, result, handled⟩) rest
      simpa using this
  exact extended .start served

def recordingBehaviour : Behaviour (List Value) where
  get _ _ _ objects := ((.ok, .null), objects)
  set _ _ value objects := (.ok, { objects with hidden := objects.hidden ++ [value] })
  invoke _ _ _ _ objects := ((.ok, .null, none), objects)
  select _ _ value objects := (value, objects)

/-- A server in an association, whose data object keeps what is written to it. -/
def recordingServer : Server (List Value) :=
  let s := serverInit .none 1 16 { rx := [] }
    { entries := sampleObjects.entries, instances := sampleObjects.instances, pool := Pool.empty, hidden := [] }
  { s with aa.associated := true, aa.association := some 0 }

def recordingEnv : Env (List Value) := ⟨sampleHal, recordingBehaviour, sampleStack⟩

def setBlock (kind : SetKind) (isBlock : kind = .withFirstDatablock ∨ kind = .withDatablock) (number : ℕ)
    (last : Bool) (payload : BytesUpTo 256) : BlockRequest :=
  .set ⟨kind, 0xC1, sampleAttr, .null, ⟨last, number, payload⟩, []⟩ isBlock

/-- The first block of an octet string of four bytes. -/
def firstBlock : BlockRequest :=
  setBlock .withFirstDatablock (.inl rfl) 1 false ⟨[0x09, 0x04, 0xAA], by decide⟩

def secondBlock : BlockRequest := setBlock .withDatablock (.inr rfl) 2 false ⟨[0xBB], by decide⟩

def lastBlock : BlockRequest := setBlock .withDatablock (.inr rfl) 3 true ⟨[0xCC, 0xDD], by decide⟩

theorem long_parameters_in_order_iff_orderly :
    ∃ s t result, handleBlocks recordingEnv [firstBlock, secondBlock] recordingServer = some s ∧
      lastBlock.handle recordingEnv s = some (result, t) ∧
      (DispatchesInOrder recordingEnv [firstBlock, secondBlock] lastBlock s t ↔ ∀ message,
          Reassembly.completed serverPendingMax (openTransfer .set [firstBlock, secondBlock])
            lastBlock.piece = some message →
          Decodes sampleStack s.objects.pool (contents message.2) → InOrder message.2) := by
  have returns : ((handleBlocks recordingEnv [firstBlock, secondBlock] recordingServer).bind
      (lastBlock.handle recordingEnv)).isSome = true := by decide +kernel
  obtain ⟨⟨result, t⟩, both⟩ := Option.isSome_iff_exists.mp returns
  obtain ⟨s, served, returned⟩ := Option.bind_eq_some_iff.mp both
  have history : History (BlockStep recordingEnv.hal recordingEnv.behaviour) recordingServer
      [firstBlock, secondBlock] s := History.of_handleBlocks served
  refine ⟨s, t, result, served, returned, ?_⟩
  exact long_parameters_in_order_iff ⟨rfl, rfl⟩ history returned

/-- The second block arrives twice, and the data object is set to a value with its byte repeated. -/
theorem repeated_block_dispatched :
    let blocks := [firstBlock, secondBlock, secondBlock, lastBlock]
    (handleBlocks recordingEnv blocks recordingServer).map
        (fun t => (callsSince recordingServer t, t.objects.hidden)) =
      some ([(.set, sampleAttr)], [.octetString [0xAA, 0xBB, 0xBB, 0xCC]]) ∧
    ¬InOrder (blocks.map BlockRequest.piece) := by
  decide +kernel

end OpenSpodes
