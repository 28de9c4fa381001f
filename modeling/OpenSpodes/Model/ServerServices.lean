import OpenSpodes.Model.Hls
import OpenSpodes.Model.Server

/-! # The services of an association

GET, SET and ACTION in their normal, list and block forms, and the third pass of the handshake,
which arrives as an ACTION. List responses are encoded entry by entry while the objects are called;
long results are kept in the pending buffers and leave block by block.
-/

namespace OpenSpodes

open Machine

variable {σ : Type}

/-- `OSP_SERVER_PENDING_MAX`. -/
def serverPendingMax : ℕ := 32768

section Services

variable (env : Env σ)

/-! ## Calls of the dispatcher -/

/-- A call of `osp_dispatcher_get`. -/
def dispatchGet (attr : Descriptor) : Program (Server σ) (Err × Value) := do
  note (.dispatched .get attr (← get).aa.association)
  let s ← get
  let (result, objects) :=
    dispatcherGet env.behaviour s.requireAcl s.aa.association attr env.stack.value s.objects
  set { s with objects := objects }
  return result

/-- A call of `osp_dispatcher_set`. -/
def dispatchSet (attr : Descriptor) (value : Value) : Program (Server σ) Err := do
  note (.dispatched .set attr (← get).aa.association)
  let s ← get
  let (result, objects) := dispatcherSet env.behaviour s.requireAcl s.aa.association attr value s.objects
  set { s with objects := objects }
  return result

/-- A call of `osp_dispatcher_action`; the method may queue a notification. -/
def dispatchAction (method : Descriptor) (param old : Value) : Program (Server σ) (Err × Value) := do
  note (.dispatched .action method (← get).aa.association)
  let s ← get
  let ((result, value, push), objects) :=
    dispatcherAction env.behaviour s.requireAcl s.aa.association method param old s.objects
  let called := { s with objects := objects }
  set ((push.map called.queuePendingPush).getD called)
  return (result, value)

/-- The result code of a SET or an ACTION. -/
def darOfErr (result : Err) : Dar :=
  match result with
  | .ok => .success
  | .security => .scopeOfAccess
  | _ => .objectUndefined

/-- Encode each result of a list as it comes, behind what was written; `none` when one did not fit. -/
def encodeList {α : Type} (encode : α → Program (Server σ) (Write Unit)) :
    List α → WBuf → Program (Server σ) (Option WBuf)
  | [], buf => return some buf
  | entry :: rest, buf => do
      match (← encode entry) buf with
      | .error _ _ => return none
      | .ok _ buf => encodeList encode rest buf

/-- A response with list in the transmit buffer, given its tag and how entries are encoded. -/
def sendList {α : Type} (tag invokeIdPriority : UInt8) (encode : α → Program (Server σ) (Write Unit))
    (items : List α) : Program (Server σ) Err := do
  match listResponseHeader tag invokeIdPriority items.length (WBuf.init (← get).wire.txBuf.length) with
  | .error _ _ => return .invalid
  | .ok _ buf =>
      match ← encodeList encode items buf with
      | none => return .invalid
      | some buf =>
          onWire (modify (·.fillTx buf.out))
          serverSend env (.txBuf buf.out.length)

/-- Read a value out of a reassembly buffer. -/
def readBuffered (buffer : List UInt8) : Program (Server σ) (Err × Value) := do
  let s ← get
  let (result, reader) := valueRead env.stack.value ⟨Buf.ofBytes buffer, s.objects.pool⟩
  set { s with objects := { s.objects with pool := reader.pool } }
  return result

/-- Bytes of one outgoing block of at most `size`, and whether it is the last; 32-bit positions. -/
def BlockOut.block (out : BlockOut) (size : ℕ) : List UInt8 × Bool :=
  let first := (out.nextBlock + 2 ^ 32 - 1) % 2 ^ 32 * size % 2 ^ 32
  let stop := min ((first + size) % 2 ^ 32) out.dataLen
  ((out.data.drop first).take ((stop + 2 ^ 32 - first) % 2 ^ 32), stop ≥ out.dataLen)

/-- The transfer behind a block that was taken. -/
def BlockOut.advance (out : BlockOut) (last : Bool) : BlockOut :=
  { out with nextBlock := (out.nextBlock + 1) % 2 ^ 32, active := out.active && !last }

/-! ## GET -/

/-- `dispatch_get_attr`. -/
def dispatchGetAttr (attr : Descriptor) : Program (Server σ) GetResult := do
  let (result, value) ← dispatchGet env attr
  return match result with
    | .ok => .data value
    | .security => .accessResult .readDenied
    | _ => .accessResult .objectUndefined

/-- `send_get_response`. -/
def sendGetResponse (invokeIdPriority : UInt8) (resp : GetResponse) : Program (Server σ) Err := do
  let result ← sendEncoded env (getResponseEncode (← get).objects.pool invokeIdPriority resp)
  serverFlushDeferred env result

/-- `handle_get_next`. -/
def handleGetNext (invokeIdPriority : UInt8) (ackedBlock : ℕ) : Program (Server σ) Err := do
  let s ← get
  let out := s.pendingGet
  if !out.active then sendGetResponse env invokeIdPriority (.dataError .noLongGetInProgress)
  else if ackedBlock ≠ 0 ∧ (ackedBlock + 1) % 2 ^ 32 ≠ out.nextBlock then
    sendGetResponse env invokeIdPriority (.dataError .longGetAborted)
  else
    let (bytes, last) := out.block s.sendPayloadMax
    set { s with pendingGet := out.advance last }
    sendGetResponse env invokeIdPriority (.block last out.nextBlock bytes)

/-- The loop of `handle_get` that keeps the entries of a range, at the front of the array. -/
def keepEntries (entryFrom entryTo start count : ℕ) (pool : Pool) : Pool × ℕ :=
  (List.range count).foldl
    (fun kept i =>
      if entryFrom ≤ i + 1 ∧ (entryTo = 0 ∨ i + 1 ≤ entryTo) then
        (kept.1.put (start + kept.2) (kept.1.slots (start + i)), kept.2 + 1)
      else kept)
    (pool, 0)

/-- The selective access of `handle_get` on an attribute value. -/
def selectValue (selection : SelectiveAccess) (attrId : UInt8) (value : Value) :
    Program (Server σ) Value := do
  if attrId = 2 ∧ (selection.type = .byEntry ∨ selection.type = .byRange) then
    let s ← get
    match value with
    | .array start count =>
        let (pool, kept) := keepEntries selection.entryFrom selection.entryTo start count s.objects.pool
        set { s with objects := { s.objects with pool := pool } }
        return .array start kept
    | .owned tag pieces outcome =>
        let (value, objects) :=
          env.behaviour.select selection.entryFrom selection.entryTo (.owned tag pieces outcome) s.objects
        set { s with objects := objects }
        return value
    | value => return value
  else return value

/-- Send a value that was read: in one response, by general block transfer, or in data blocks. -/
def sendGetData (invokeIdPriority : UInt8) (value : Value) : Program (Server σ) Err := do
  let s ← get
  let blocks : Program (Server σ) Err := do
    match valueWrite s.objects.pool value (WBuf.init serverPendingMax) with
    | .error _ buf =>
        set { s with pendingGet := { s.pendingGet with data := overwrite s.pendingGet.data buf.out } }
        sendGetResponse env invokeIdPriority (.dataError .temporaryFailure)
    | .ok _ buf =>
        set { s with pendingGet := ⟨true, overwrite s.pendingGet.data buf.out, buf.out.length, 1⟩ }
        handleGetNext env invokeIdPriority 0
  match getResponseEncode s.objects.pool invokeIdPriority (.data value) (WBuf.init 1024) with
  | .error _ _ => blocks
  | .ok _ buf =>
      if buf.out.length > s.sendPayloadMax then
        if s.gbtEnabled ∧ buf.out.length > s.gbtPayloadMax then serverSend env (.own buf.out)
        else blocks
      else sendGetResponse env invokeIdPriority (.data value)

/-- `handle_get`. -/
def handleGet (req : GetRequest) : Program (Server σ) Err := do
  match req.kind with
  | .withBlock => handleGetNext env req.invokeIdPriority req.blockNumber
  | .withList =>
      let result ← sendList env 0xC4 req.invokeIdPriority
        (fun attr => do
          let item ← dispatchGetAttr env attr
          return getResultItemEncode (← get).objects.pool item)
        req.items
      serverFlushDeferred env result
  | .normal =>
      match ← dispatchGetAttr env req.attr with
      | .accessResult result => sendGetResponse env req.invokeIdPriority (.dataError result)
      | .data value =>
          let value ← selectValue env req.accessSelection req.attr.id value
          sendGetData env req.invokeIdPriority value

/-! ## SET -/

/-- `send_set_response`. -/
def sendSetResponse (invokeIdPriority : UInt8) (resp : SetResponse) : Program (Server σ) Err := do
  let result ← sendEncoded env (setResponseEncode invokeIdPriority resp)
  serverFlushDeferred env result

/-- `accumulate_set_block`. -/
def accumulateSetBlock (invokeIdPriority : UInt8) (block : DataBlock) : Program (Server σ) Err := do
  let s ← get
  let pending := s.pendingSet
  let buffer := pending.buffer ++ block.rawData.val
  if !pending.active then sendSetResponse env invokeIdPriority (.normal .typeMismatch)
  else if buffer.length > serverPendingMax then
    set { s with pendingSet := { pending with active := false, buffer := [] } }
    sendSetResponse env invokeIdPriority (.normal .longBlockTransfer)
  else if !block.lastBlock then
    set { s with pendingSet := { pending with buffer := buffer } }
    sendSetResponse env invokeIdPriority (.datablock block.blockNumber)
  else
    set { s with pendingSet := { pending with active := false, buffer := [] } }
    match ← readBuffered env buffer with
    | (.ok, value) =>
        let result ← dispatchSet env pending.target value
        sendSetResponse env invokeIdPriority (.lastDatablock (darOfErr result) block.blockNumber)
    | _ => sendSetResponse env invokeIdPriority (.lastDatablock .typeMismatch block.blockNumber)

/-- Set the entries of a list one after the other. -/
def setEntries : List (Descriptor × Value) → Program (Server σ) (List Dar)
  | [] => return []
  | (attr, value) :: rest => do
      let result ← dispatchSet env attr value
      return darOfErr result :: (← setEntries rest)

/-- `handle_set`. -/
def handleSet (req : SetRequest) : Program (Server σ) Err := do
  match req.kind with
  | .withFirstDatablock =>
      modify fun s => { s with pendingSet := ⟨true, req.attr, []⟩ }
      accumulateSetBlock env req.invokeIdPriority req.datablock
  | .withDatablock => accumulateSetBlock env req.invokeIdPriority req.datablock
  | .withList =>
      let results ← setEntries env req.items
      sendSetResponse env req.invokeIdPriority (.withList results)
  | .normal =>
      let result ← dispatchSet env req.attr req.data
      sendSetResponse env req.invokeIdPriority (.normal (darOfErr result))

/-! ## ACTION -/

/-- `send_action_response`. -/
def sendActionResponse (invokeIdPriority : UInt8) (resp : ActionResponse) : Program (Server σ) Err := do
  sendEncoded env (actionResponseEncode (← get).objects.pool invokeIdPriority resp)

/-- `handle_action_resp_next`. -/
def handleActionRespNext (invokeIdPriority : UInt8) (ackedBlock : ℕ) : Program (Server σ) Err := do
  let s ← get
  let out := s.pendingActionOut
  if !out.active then sendActionResponse env invokeIdPriority (.normal .typeMismatch .null)
  else if ackedBlock ≠ 0 ∧ (ackedBlock + 1) % 2 ^ 32 ≠ out.nextBlock then
    set { s with pendingActionOut := { out with active := false } }
    sendActionResponse env invokeIdPriority (.normal .longBlockTransfer .null)
  else
    -- unlike GET, the block size does not look at the link or at the size of a block
    let (bytes, last) := out.block (if s.maxPdu > 0 then s.maxPdu else 1024)
    set { s with pendingActionOut := out.advance last }
    sendActionResponse env invokeIdPriority (.withParamBlock last out.nextBlock bytes)

/-- `send_action_invoke_result`; without a result the value is null. -/
def sendActionInvokeResult (invokeIdPriority : UInt8) (dar : Dar) (result : Value) :
    Program (Server σ) Err := do
  let s ← get
  if dar ≠ .success ∨ result.tag = 0 then
    sendActionResponse env invokeIdPriority (.normal dar result)
  else
    match valueWrite s.objects.pool result (WBuf.init serverPendingMax) with
    | .error _ buf =>
        set { s with
          pendingActionOut :=
            { s.pendingActionOut with data := overwrite s.pendingActionOut.data buf.out } }
        return .invalid
    | .ok _ buf =>
        let data := overwrite s.pendingActionOut.data buf.out
        if buf.out.length > s.maxPdu then
          set { s with pendingActionOut := ⟨true, data, buf.out.length, 1⟩ }
          handleActionRespNext env invokeIdPriority 0
        else
          set { s with pendingActionOut := { s.pendingActionOut with data := data } }
          sendActionResponse env invokeIdPriority (.normal dar result)

/-- `accumulate_action_param_block`. -/
def accumulateActionParamBlock (invokeIdPriority : UInt8) (block : DataBlock) :
    Program (Server σ) Err := do
  let s ← get
  let pending := s.pendingActionIn
  let buffer := pending.buffer ++ block.rawData.val
  if !pending.active then sendActionResponse env invokeIdPriority (.normal .typeMismatch .null)
  else if buffer.length > serverPendingMax then
    set { s with pendingActionIn := { pending with active := false, buffer := [] } }
    sendActionResponse env invokeIdPriority (.normal .longBlockTransfer .null)
  else if !block.lastBlock then
    set { s with pendingActionIn := { pending with buffer := buffer } }
    sendActionResponse env invokeIdPriority (.nextParamBlock block.blockNumber)
  else
    set { s with pendingActionIn := { pending with active := false, buffer := [] } }
    match ← readBuffered env buffer with
    | (.ok, param) =>
        let (result, value) ← dispatchAction env pending.target param .null
        sendActionInvokeResult env invokeIdPriority (darOfErr result) value
    | _ => sendActionInvokeResult env invokeIdPriority .typeMismatch .null

/-- `handle_action`. -/
def handleAction (req : ActionRequest) : Program (Server σ) Err := do
  match req.kind with
  | .nextParamBlock => handleActionRespNext env req.invokeIdPriority req.blockNumber
  | .withFirstParamBlock =>
      modify fun s => { s with pendingActionIn := ⟨true, req.method, []⟩ }
      accumulateActionParamBlock env req.invokeIdPriority req.paramBlock
  | .withParamBlock => accumulateActionParamBlock env req.invokeIdPriority req.paramBlock
  | .withList =>
      let result ← sendList env 0xC7 req.invokeIdPriority
        (fun item => do
          let (result, value) ← dispatchAction env item.1 item.2 .null
          return actionResultEncode (← get).objects.pool (darOfErr result) value)
        req.items
      serverFlushAction env result
  | .normal =>
      let (result, value) ← dispatchAction env req.method req.data env.stack.value
      let sent ← sendActionResponse env req.invokeIdPriority (.normal (darOfErr result) value)
      serverFlushAction env sent

/-! ## The third pass of the handshake -/

/-- Key and vector of the GMAC in pass 4, when the mechanism uses one. -/
def pass4Nonce (ctx : SecContext) : Option Nonce :=
  if ctx.mechanism = .hlsGmac then
    some (ctx.guek.toList.take 16, buildIv ctx.systemTitle ctx.invocationCounter)
  else none

/-- `osp_hls_pass4_build` on the server's context. -/
def serverPass4 : Program (Server σ) (Option (List UInt8)) := do
  let sec := (← get).aa.security
  match hlsPass4Build env.hal 96 sec with
  | .error _ ctx =>
      transition (.pass4 none) fun a => { a with security := ctx }
      return none
  | .ok value ctx =>
      transition (.pass4 (pass4Nonce sec)) fun a => { a with security := ctx }
      return some value

/-- `handle_hls_pass3`. -/
def handleHlsPass3 (req : ActionRequest) : Program (Server σ) Err := do
  match req.data with
  | .octetString fStoc =>
      if fStoc.length = 0 then return .invalid
      else
        match hlsPass3Verify env.hal fStoc (← get).aa.security with
        | .error _ ctx =>
            transition (.pass3 false) fun a => { a with security := ctx }
            sendActionResponse env req.invokeIdPriority (.normal .authorizationFailure .null)
        | .ok _ ctx =>
            transition (.pass3 true) fun a =>
              { a with security := ctx, associated := true, hlsPending := false }
            serverMirror (← get).aa.association
            match ← serverPass4 env with
            | none => return .invalid
            | some fCtos =>
                sendActionResponse env req.invokeIdPriority (.normal .success (.octetString fCtos))
  | _ => return .invalid

end Services

end OpenSpodes
