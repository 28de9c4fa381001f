import OpenSpodes.Model.Xdms

/-! # Requests as a client encodes them, responses as it decodes them

The encoders ignore every byte and every part that does not fit. The response decoders refuse a
missing header, choice, result or length, and otherwise keep what the structure held before: the
number of a block that is cut off, raw data that is missing, a value that does not decode.
-/

namespace OpenSpodes

open Bytes Machine.Fallible

/-! ## Requests -/

/-- `encode_attr_descriptor` and `encode_method_descriptor`. -/
def descriptorWrite (descriptor : Descriptor) : Write Unit := do
  axdrWriteU16 descriptor.classId
  writeBytes descriptor.instanceId.toList .invalid
  axdrWriteU8 descriptor.id

/-- A descriptor of an attribute without access selection. -/
def attributeWrite (attr : Descriptor) : Write Unit := do
  ignore (descriptorWrite attr)
  writeEach [0]

/-- A block of a request. -/
def dataBlockWrite (block : DataBlock) : Write Unit :=
  ignore (dataBlockSaEncode block.lastBlock block.blockNumber block.rawData.val)

/-- `osp_get_request_encode`; whatever selection the request holds, none is encoded. -/
def getRequestEncode (req : GetRequest) : Write Unit := do
  match req.kind with
  | .normal =>
      writeEach [0xC0, 1, req.invokeIdPriority]
      attributeWrite req.attr
  | .withBlock =>
      writeEach [0xC0, 2, req.invokeIdPriority]
      ignore (axdrWriteU32 req.blockNumber)
  | .withList =>
      writeEach [0xC0, 3, req.invokeIdPriority]
      ignore (dlmsWriteLen req.items.length)
      req.items.forM attributeWrite

/-- `osp_set_request_encode`, for values whose items lie in the given memory. -/
def setRequestEncode (memory : Pool) (req : SetRequest) : Write Unit := do
  match req.kind with
  | .normal =>
      writeEach [0xC1, 1, req.invokeIdPriority]
      attributeWrite req.attr
      ignore (valueWrite memory req.data)
  | .withFirstDatablock =>
      writeEach [0xC1, 2, req.invokeIdPriority]
      attributeWrite req.attr
      dataBlockWrite req.datablock
  | .withDatablock =>
      writeEach [0xC1, 3, req.invokeIdPriority]
      dataBlockWrite req.datablock
  | .withList =>
      writeEach [0xC1, 4, req.invokeIdPriority]
      ignore (dlmsWriteLen req.items.length)
      req.items.forM fun item => attributeWrite item.1
      ignore (dlmsWriteLen req.items.length)
      req.items.forM fun item => ignore (valueWrite memory item.2)

/-- A method with its parameter; a null parameter is left out. -/
def invocationWrite (memory : Pool) (method : Descriptor) (data : Value) : Write Unit := do
  ignore (descriptorWrite method)
  if data.tag = 0 then writeEach [0]
  else
    writeEach [1]
    ignore (valueWrite memory data)

/-- `osp_action_request_encode`. -/
def actionRequestEncode (memory : Pool) (req : ActionRequest) : Write Unit := do
  match req.kind with
  | .normal =>
      writeEach [0xC3, 1, req.invokeIdPriority]
      invocationWrite memory req.method req.data
  | .withList =>
      writeEach [0xC3, 3, req.invokeIdPriority]
      ignore (dlmsWriteLen req.items.length)
      req.items.forM fun item => invocationWrite memory item.1 item.2
  | .nextParamBlock =>
      writeEach [0xC3, 2, req.invokeIdPriority]
      ignore (axdrWriteU32 req.blockNumber)
  | .withFirstParamBlock =>
      writeEach [0xC3, 4, req.invokeIdPriority]
      ignore (descriptorWrite req.method)
      dataBlockWrite req.paramBlock
  | .withParamBlock =>
      writeEach [0xC3, 6, req.invokeIdPriority]
      dataBlockWrite req.paramBlock

/-! ## Responses -/

/-- `osp_get_response_type`. -/
inductive GetReplyKind
  | data | dataError | block | blockLast | withList
  deriving DecidableEq, Repr

/-- `osp_get_result_item_t` with all its members. -/
structure ReplyItem where
  isData : Bool
  data : Value
  accessResult : UInt8
  deriving DecidableEq

/-- `osp_get_response_t` in a client's memory. -/
structure GetReply where
  kind : GetReplyKind
  invokeIdPriority : UInt8
  data : Value
  dataAccessResult : UInt8
  blockNumber : ℕ
  lastBlock : Bool
  rawData : Vector UInt8 256
  rawDataLen : ℕ
  items : List ReplyItem
  deriving DecidableEq

/-- The valid part of the raw data. -/
def GetReply.raw (reply : GetReply) : List UInt8 := reply.rawData.toList.take reply.rawDataLen

/-- The loop that stores raw data byte by byte; a byte that is missing leaves the old one. -/
def rawDataRead : ℕ → ℕ → Vector UInt8 256 → Decode (Vector UInt8 256)
  | 0, _, memory => return memory
  | left + 1, i, memory => do
      match ← attempt (onBuf axdrReadU8) with
      | none => rawDataRead left (i + 1) memory
      | some byte => rawDataRead left (i + 1) (memory.setIfInBounds i byte)

/-- `decode_get_result`. -/
def getResultRead (old : ReplyItem) : Decode ReplyItem := do
  match ← attempt (onBuf axdrReadU8) with
  | some 0 => return { old with isData := true, data := ← readValue old.data }
  | some 1 =>
      match ← attempt (onBuf axdrReadU8) with
      | none => return { old with isData := false }
      | some code => return { old with isData := false, accessResult := code }
  | _ => return old

/-- `osp_get_response_decode`. -/
def getResponseDecode (old : GetReply) : Decode GetReply := do
  let (type, invokeIdPriority) ← requestHeader 0xC4
  let old := { old with invokeIdPriority := invokeIdPriority }
  if type = 1 then
    let choice ← onBuf axdrReadU8
    if choice = 0 then
      let data ← readValue old.data
      return { old with kind := .data, data := data }
    else
      let code ← onBuf axdrReadU8
      return { old with kind := .dataError, dataAccessResult := code }
  else if type = 2 then
    let last ← onBuf axdrReadU8
    let number ← attempt (onBuf axdrReadU32)
    let choice ← onBuf axdrReadU8
    failIf (choice ≠ 0) .invalid
    let len ← onBuf dlmsReadLen
    failIf (len > 256) .invalid
    let rawData ← rawDataRead len 0 old.rawData
    return { old with
      kind := if last ≠ 0 then .blockLast else .block
      blockNumber := number.getD old.blockNumber
      lastBlock := last ≠ 0
      rawData := rawData
      rawDataLen := len }
  else if type = 3 then
    let count ← listCount
    let items ← readEntries (fun i => getResultRead (old.items.getD i ⟨false, .null, 0⟩)) count 0
    return { old with kind := .withList, items := items }
  else throw .invalid

/-- `osp_set_response_type`. -/
inductive SetReplyKind
  | normal | datablock | lastDatablock | withList
  deriving DecidableEq, Repr

/-- `osp_set_response_t` in a client's memory. -/
structure SetReply where
  kind : SetReplyKind
  invokeIdPriority : UInt8
  result : UInt8
  blockNumber : ℕ
  results : List UInt8
  deriving DecidableEq

/-- `osp_set_response_decode`. -/
def setResponseDecode (old : SetReply) : Decode SetReply := do
  let (type, invokeIdPriority) ← requestHeader 0xC5
  let old := { old with invokeIdPriority := invokeIdPriority }
  if type = 1 then
    let result ← onBuf axdrReadU8
    return { old with kind := .normal, result := result }
  else if type = 2 then
    let number ← attempt (onBuf axdrReadU32)
    return { old with kind := .datablock, blockNumber := number.getD old.blockNumber }
  else if type = 3 then
    let result ← onBuf axdrReadU8
    let number ← attempt (onBuf axdrReadU32)
    return { old with
      kind := .lastDatablock
      result := result
      blockNumber := number.getD old.blockNumber }
  else if type = 5 then
    let count ← listCount
    let results ← readEntries (fun _ => onBuf axdrReadU8) count 0
    return { old with kind := .withList, results := results }
  else throw .invalid

/-- `osp_action_response_type`. -/
inductive ActionReplyKind
  | normal | withParamBlock | withList | nextParamBlock
  deriving DecidableEq, Repr

/-- `osp_action_response_t` in a client's memory. -/
structure ActionReply where
  kind : ActionReplyKind
  invokeIdPriority : UInt8
  result : UInt8
  returnData : Value
  paramBlock : DataBlock
  blockNumber : ℕ
  items : List (UInt8 × Value)
  deriving DecidableEq

/-- Result and return value of one method; the choice byte before the value is not looked at. -/
def actionResultRead (old : Value) : Decode (UInt8 × Value) := do
  let result ← onBuf axdrReadU8
  let haveReturn ← onBuf axdrReadU8
  if haveReturn ≠ 0 then
    let _ ← onBuf axdrReadU8
    return (result, ← readValue old)
  else return (result, .null)

/-- `osp_action_response_decode`. -/
def actionResponseDecode (old : ActionReply) : Decode ActionReply := do
  let (type, invokeIdPriority) ← requestHeader 0xC7
  let old := { old with invokeIdPriority := invokeIdPriority }
  if type = 1 then
    let (result, returnData) ← actionResultRead old.returnData
    return { old with kind := .normal, result := result, returnData := returnData }
  else if type = 3 then
    let count ← listCount
    let items ← readEntries (fun i => actionResultRead (old.items.getD i (0, .null)).2) count 0
    return { old with kind := .withList, items := items }
  else if type = 2 then
    let block ← dataBlockSaDecode old.paramBlock
    return { old with kind := .withParamBlock, paramBlock := block }
  else if type = 4 then
    let number ← attempt (onBuf axdrReadU32)
    return { old with kind := .nextParamBlock, blockNumber := number.getD old.blockNumber }
  else throw .invalid

/-! ## Responses as they are encoded

The encoders of the responses on the structure in memory, with every choice it can hold. -/

/-- `osp_get_result_item_encode`. -/
def replyItemEncode (memory : Pool) (item : ReplyItem) : Write Unit := do
  if item.isData then getResultItemEncode memory (.data item.data)
  else
    axdrWriteU8 1
    axdrWriteU8 item.accessResult

/-- `osp_get_response_encode`. -/
def getReplyEncode (memory : Pool) (reply : GetReply) : Write Unit := do
  match reply.kind with
  | .data => getResponseEncode memory reply.invokeIdPriority (.data reply.data)
  | .dataError => writeEach [0xC4, 1, reply.invokeIdPriority, 1, reply.dataAccessResult]
  | .block => getResponseEncode memory reply.invokeIdPriority (.block false reply.blockNumber reply.raw)
  | .blockLast => getResponseEncode memory reply.invokeIdPriority (.block true reply.blockNumber reply.raw)
  | .withList =>
      writeEach [0xC4, 3, reply.invokeIdPriority]
      ignore (dlmsWriteLen reply.items.length)
      reply.items.forM (replyItemEncode memory)

/-- `osp_set_response_encode`. -/
def setReplyEncode (reply : SetReply) : Write Unit := do
  match reply.kind with
  | .normal => writeEach [0xC5, 1, reply.invokeIdPriority, reply.result]
  | .datablock =>
      writeEach [0xC5, 2, reply.invokeIdPriority]
      ignore (axdrWriteU32 reply.blockNumber)
  | .lastDatablock =>
      writeEach [0xC5, 3, reply.invokeIdPriority, reply.result]
      ignore (axdrWriteU32 reply.blockNumber)
  | .withList =>
      writeEach [0xC5, 5, reply.invokeIdPriority]
      ignore (dlmsWriteLen reply.results.length)
      writeEach reply.results

/-- Result and return value of one method; a null value is left out. -/
def actionResultWrite (memory : Pool) (result : UInt8) (returnData : Value) : Write Unit := do
  writeEach [result]
  if returnData.tag ≠ 0 then
    writeEach [1, 0]
    ignore (valueWrite memory returnData)
  else writeEach [0]

/-- `osp_action_response_encode`. -/
def actionReplyEncode (memory : Pool) (reply : ActionReply) : Write Unit := do
  match reply.kind with
  | .normal =>
      writeEach [0xC7, 1, reply.invokeIdPriority]
      actionResultWrite memory reply.result reply.returnData
  | .withList =>
      writeEach [0xC7, 3, reply.invokeIdPriority]
      ignore (dlmsWriteLen reply.items.length)
      reply.items.forM fun item => actionResultWrite memory item.1 item.2
  | .withParamBlock =>
      writeEach [0xC7, 2, reply.invokeIdPriority]
      dataBlockWrite reply.paramBlock
  | .nextParamBlock =>
      writeEach [0xC7, 4, reply.invokeIdPriority]
      ignore (axdrWriteU32 reply.blockNumber)

end OpenSpodes
