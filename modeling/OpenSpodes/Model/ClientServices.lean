import OpenSpodes.Model.Client
import OpenSpodes.Model.XdmsClient

/-! # The services of a client

A call of a service sends a request, waits for the response and, for long values, goes on block by
block. The client is one part of a system here: a `Port` says where it is found in the system's
state, and what the rest of the system does while the client waits in the transport's `recv`.

A block loop ends when the peer stops it, so the number of rounds is a parameter: a loop that needs
more rounds has not returned yet.
-/

namespace OpenSpodes

open Machine

/-- The place of a client in a system, with what its code runs on. -/
structure Port (τ : Type) where
  hal : Hal
  /-- What a block of the general block transfer holds on the stack. -/
  stale : List UInt8
  client : τ → Client
  put : τ → Client → τ
  /-- What happens elsewhere before the client receives. -/
  wait : Program τ Unit

/-- A client whose peer is only known through what the transport delivers. -/
def Port.alone (hal : Hal) (stale : List UInt8) : Port Client where
  hal := hal
  stale := stale
  client := id
  put := fun _ c => c
  wait := pure ()

/-- `OSP_CLIENT_REASSEMBLE_MAX`. -/
def clientReassembleMax : ℕ := 4096

/-- `OSP_CLIENT_BLOCK_SIZE`. -/
def clientBlockSize : ℕ := 64

/-- Encode a request into the transmit buffer and send it. -/
def clientSendRequest (hal : Hal) (stale : List UInt8) (encode : Write Unit) : Program Client Err := do
  match encode (WBuf.init (← get).wire.txBuf.length) with
  | .error _ buf =>
      clientWire (modify (·.fillTx buf.out))
      return .invalid
  | .ok _ buf =>
      clientWire (modify (·.fillTx buf.out))
      modify fun c => { c with exchanged := c.exchanged ++ [Exchange.request buf.out] }
      clientSendApdu hal stale (.txBuf buf.out.length)

/-- `client_recv_get_response`, `client_recv_set_response` and `client_recv_action_response`, given
the decoder. -/
def clientRecvResponse {α : Type} (hal : Hal) (stale : List UInt8) (decode : Decode α) :
    Program Client (Except Err α) := do
  match ← clientRecvApdu hal stale clientReassembleMax with
  -- a success without an APDU: nothing is there to decode
  | .error .ok => return .error .invalid
  | .error err => return .error err
  | .ok apdu =>
      let c ← get
      match decode ⟨Buf.ofBytes apdu, c.pool⟩ with
      | .ok reply reader =>
          set { c with exchanged := c.exchanged ++ [Exchange.response apdu], pool := reader.pool }
          return .ok reply
      | .error _ reader =>
          set { c with exchanged := c.exchanged ++ [Exchange.response apdu], pool := reader.pool }
          return .error .invalid

/-- Read a value out of a reassembled response. -/
def clientReadValue (old : Value) (bytes : List UInt8) : Program Client (Err × Value) := do
  let c ← get
  let (result, reader) := valueRead old ⟨Buf.ofBytes bytes, c.pool⟩
  set { c with pool := reader.pool }
  return (if result.1 = .ok then .ok else .invalid, result.2)

/-- `OSP_IIDP(++c->invoke_id, 0)`. -/
def clientNextInvokeId : Program Client UInt8 := do
  let id := (← get).invokeId + 1
  modify fun c => { c with invokeId := id }
  return id &&& 0x0F

section Services

variable {τ : Type} (port : Port τ)

/-- A step of the client. -/
def Port.run {α : Type} (program : Program Client α) : Program τ α := zoom port.client port.put program

/-- Send a request and receive its response. -/
def Port.exchange {α : Type} (encode : Write Unit) (decode : Decode α) : Program τ (Except Err α) := do
  match ← port.run (clientSendRequest port.hal port.stale encode) with
  | .ok =>
      port.wait
      port.run (clientRecvResponse port.hal port.stale decode)
  | err => return .error err

/-! ## GET -/

/-- The block loop of `osp_client_get` on a response, with what was collected so far. -/
def clientGetBlocks (invokeIdPriority : UInt8) (old : Value) :
    ℕ → GetReply → List UInt8 → Program τ (Err × Value)
  | rounds, resp, acc =>
      if resp.kind = .block ∨ resp.kind = .blockLast then
        let acc' := acc ++ resp.raw
        if acc'.length > clientReassembleMax then return (.nomem, old)
        else if resp.lastBlock then
          -- the test behind the loop
          if resp.kind = .blockLast then port.run (clientReadValue old acc') else return (.invalid, old)
        else
          match rounds with
          | 0 => blocked
          | rounds + 1 => do
              let next := { GetRequest.zero with
                kind := .withBlock
                invokeIdPriority := invokeIdPriority
                blockNumber := resp.blockNumber }
              match ← port.exchange (getRequestEncode next) (getResponseDecode resp) with
              | .error err => return (err, old)
              | .ok resp => clientGetBlocks invokeIdPriority old rounds resp acc'
      else return (.invalid, old)

/-- `osp_client_get`, given what its response structure and the caller's result hold before. -/
def clientGet (stack : GetReply) (rounds : ℕ) (attr : Descriptor) (old : Value) : Program τ (Err × Value) := do
  if !(port.client (← get)).associated then return (.invalid, old)
  else
    let invokeIdPriority ← port.run clientNextInvokeId
    let req := { GetRequest.zero with kind := .normal, invokeIdPriority := invokeIdPriority, attr := attr }
    match ← port.exchange (getRequestEncode req) (getResponseDecode stack) with
    | .error err => return (err, old)
    | .ok resp =>
        match resp.kind with
        | .data => return (.ok, resp.data)
        | .dataError => return (.notFound, old)
        | _ =>
            if (port.client (← get)).gbtEnabled then return (.invalid, old)
            else clientGetBlocks port invokeIdPriority old rounds resp []

/-- `osp_client_get_with_selective_access`. -/
def clientGetWithSelectiveAccess (stack : GetReply) (attr : Descriptor) (selection : SelectiveAccess)
    (old : Value) : Program τ (Err × Value) := do
  if !(port.client (← get)).associated then return (.invalid, old)
  else
    let invokeIdPriority ← port.run clientNextInvokeId
    let req := { GetRequest.zero with
      kind := .normal
      invokeIdPriority := invokeIdPriority
      attr := attr
      accessSelection := selection }
    match ← port.exchange (getRequestEncode req) (getResponseDecode stack) with
    | .error err => return (err, old)
    | .ok resp =>
        match resp.kind with
        | .data => return (.ok, resp.data)
        | .dataError => return (.notFound, old)
        | _ => return (.invalid, old)

/-! ## SET -/

/-- `client_set_blocks` from an offset and a block number on; each round sends at least one byte,
which bounds the rounds. -/
def clientSetBlocks (stack : SetReply) (invokeIdPriority : UInt8) (attr : Descriptor)
    (bytes : List UInt8) : ℕ → ℕ → ℕ → Program τ Err
  | 0, _, _ => return .ok
  | left + 1, offset, number =>
      if offset < bytes.length then do
        let chunk := (bytes.drop offset).take clientBlockSize
        let last : Bool := offset + chunk.length ≥ bytes.length
        let req := { SetRequest.zero with
          kind := if offset = 0 then .withFirstDatablock else .withDatablock
          invokeIdPriority := invokeIdPriority
          attr := attr
          datablock := ⟨last, number, BytesUpTo.ofList 256 chunk⟩ }
        match ← port.exchange (setRequestEncode .empty req) (setResponseDecode stack) with
        | .error err => return err
        | .ok resp =>
            if last then
              if resp.kind ≠ .lastDatablock ∨ resp.result ≠ Dar.success.code then return .notFound
              else clientSetBlocks stack invokeIdPriority attr bytes left (offset + chunk.length) (number + 1)
            else if resp.kind ≠ .datablock then return .notFound
            else clientSetBlocks stack invokeIdPriority attr bytes left (offset + chunk.length) (number + 1)
      else return .ok

/-- `osp_client_set` of a value whose items lie in the given memory. -/
def clientSet (stack : SetReply) (attr : Descriptor) (memory : Pool) (value : Value) : Program τ Err := do
  if !(port.client (← get)).associated then return .invalid
  else
    match valueWrite memory value (WBuf.init clientReassembleMax) with
    | .error _ _ => return .invalid
    | .ok _ buf =>
        let invokeIdPriority ← port.run clientNextInvokeId
        if buf.out.length > clientBlockSize then
          clientSetBlocks port stack invokeIdPriority attr buf.out buf.out.length 0 1
        else
          let req := { SetRequest.zero with
            kind := .normal
            invokeIdPriority := invokeIdPriority
            attr := attr
            data := value }
          match ← port.exchange (setRequestEncode memory req) (setResponseDecode stack) with
          | .error err => return err
          | .ok resp =>
              if resp.kind = .normal ∧ resp.result = Dar.success.code then return .ok else return .notFound

/-! ## ACTION -/

/-- `client_action_param_blocks` from an offset and a block number on: the response to the last block. -/
def clientActionParamBlocks (invokeIdPriority : UInt8) (method : Descriptor) (bytes : List UInt8) :
    ℕ → ℕ → ℕ → ActionReply → Program τ (Except Err ActionReply)
  | 0, _, _, _ => return .error .invalid
  | left + 1, offset, number, resp =>
      if offset < bytes.length then do
        let chunk := (bytes.drop offset).take clientBlockSize
        let last : Bool := offset + chunk.length ≥ bytes.length
        let req := { ActionRequest.zero with
          kind := if offset = 0 then .withFirstParamBlock else .withParamBlock
          invokeIdPriority := invokeIdPriority
          method := method
          paramBlock := ⟨last, number, BytesUpTo.ofList 256 chunk⟩ }
        match ← port.exchange (actionRequestEncode .empty req) (actionResponseDecode resp) with
        | .error err => return .error err
        | .ok resp =>
            if last then return .ok resp
            else if resp.kind ≠ .nextParamBlock then return .error .notFound
            else
              clientActionParamBlocks invokeIdPriority method bytes left (offset + chunk.length)
                (number + 1) resp
      else return .error .invalid

/-- The block loop of `client_action_finish_response`; whatever ends it, what was collected is read. -/
def clientActionBlocks (invokeIdPriority : UInt8) (old : Value) :
    ℕ → ActionReply → List UInt8 → Program τ (Err × Value)
  | rounds, resp, acc =>
      if resp.kind = .withParamBlock then
        let acc' := acc ++ resp.paramBlock.rawData.val
        if acc'.length > clientReassembleMax then return (.nomem, old)
        else if resp.paramBlock.lastBlock then port.run (clientReadValue old acc')
        else
          match rounds with
          | 0 => blocked
          | rounds + 1 => do
              let next := { ActionRequest.zero with
                kind := .nextParamBlock
                invokeIdPriority := invokeIdPriority
                blockNumber := resp.paramBlock.blockNumber }
              match ← port.exchange (actionRequestEncode .empty next) (actionResponseDecode resp) with
              | .error err => return (err, old)
              | .ok resp => clientActionBlocks invokeIdPriority old rounds resp acc'
      else port.run (clientReadValue old acc)

/-- `client_action_finish_response`. -/
def clientActionFinishResponse (invokeIdPriority : UInt8) (rounds : ℕ) (resp : ActionReply) (old : Value) :
    Program τ (Err × Value) :=
  if resp.kind = .normal then
    return (if resp.result = Dar.success.code then .ok else .notFound,
      if resp.returnData.tag ≠ 0 then resp.returnData else .null)
  else clientActionBlocks port invokeIdPriority old rounds resp []

/-- `osp_client_action`; an absent parameter is null. -/
def clientAction (stack : ActionReply) (rounds : ℕ) (method : Descriptor) (memory : Pool)
    (param old : Value) : Program τ (Err × Value) := do
  if !(port.client (← get)).associated then return (.invalid, old)
  else
    let written : Option (List UInt8) :=
      if param.tag = 0 then some []
      else
        match valueWrite memory param (WBuf.init clientReassembleMax) with
        | .error _ _ => none
        | .ok _ buf => some buf.out
    match written with
    | none => return (.invalid, old)
    | some bytes =>
        let invokeIdPriority ← port.run clientNextInvokeId
        if bytes.length > clientBlockSize then
          match ← clientActionParamBlocks port invokeIdPriority method bytes bytes.length 0 1 stack with
          | .error err => return (err, old)
          | .ok resp => clientActionFinishResponse port invokeIdPriority rounds resp old
        else
          let req := { ActionRequest.zero with
            kind := .normal
            invokeIdPriority := invokeIdPriority
            method := method
            data := param }
          match ← port.exchange (actionRequestEncode memory req) (actionResponseDecode stack) with
          | .error err => return (err, old)
          | .ok resp => clientActionFinishResponse port invokeIdPriority rounds resp old

end Services

end OpenSpodes
