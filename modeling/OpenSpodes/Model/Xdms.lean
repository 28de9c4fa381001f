import OpenSpodes.Model.Security
import OpenSpodes.Model.Value

/-! # Service requests, responses and notifications

The request decoders fill a structure on the caller's stack and ignore most inner errors, so a
request that decodes may still hold what the stack held before: every decoder takes that old content.
A union is a product of its members here, since only the members of the decoded variant are read.
Encoders ignore a byte that does not fit; only a value that cannot be written fails an encoding.
-/

namespace OpenSpodes

open Bytes Machine.Fallible

/-- `osp_obis_t`. -/
abbrev Obis := Vector UInt8 6

/-- `osp_attribute_descriptor_t` and `osp_method_descriptor_t`. -/
structure Descriptor where
  classId : ℕ
  instanceId : Obis
  id : UInt8
  deriving DecidableEq, Repr

def Descriptor.zero : Descriptor := ⟨0, Vector.replicate 6 0, 0⟩

/-- `osp_data_block_t`. -/
structure DataBlock where
  lastBlock : Bool
  blockNumber : ℕ
  rawData : BytesUpTo 256
  deriving DecidableEq

def DataBlock.zero : DataBlock := ⟨false, 0, .empty 256⟩

/-- `osp_dar_t`. -/
inductive Dar
  | success | hardwareFault | temporaryFailure | readDenied | objectUndefined | objectClassUnknown
  | objectUnavailable | typeMismatch | scopeOfAccess | dataBlockUnavailable | longGetAborted
  | noLongGetInProgress | longBlockTransfer | unexpectedAttribute | authorizationFailure
  | hardwareFault2
  deriving DecidableEq, Repr

def Dar.code : Dar → UInt8
  | success => 0
  | hardwareFault => 1
  | temporaryFailure => 2
  | readDenied => 3
  | objectUndefined => 4
  | objectClassUnknown => 5
  | objectUnavailable => 6
  | typeMismatch => 7
  | scopeOfAccess => 8
  | dataBlockUnavailable => 9
  | longGetAborted => 10
  | noLongGetInProgress => 11
  | longBlockTransfer => 12
  | unexpectedAttribute => 13
  | authorizationFailure => 14
  | hardwareFault2 => 15

/-! ## Parts of requests -/

/-- Request decoders; a failure stands for their return of -1. -/
abbrev Decode := EStateM Err Reader

def onBuf {α : Type} (step : Read α) : Decode α := fun r =>
  match step r.buf with
  | .ok a b => .ok a { r with buf := b }
  | .error e b => .error e { r with buf := b }

/-- Read a value over an old one, whatever the outcome. -/
def readValue (old : Value) : Decode Value := fun r =>
  let (result, after) := valueRead old r
  .ok result.2 after

/-- `osp_obis_read`. -/
def obisRead : Read Obis := do
  needUnread 6 .invalid
  let bytes ← takeBytes 6
  return Vector.ofFn fun i => bytes.getD i 0

/-- `decode_attr_descriptor` and `decode_method_descriptor`: fields are stored as they are read. -/
def descriptorRead (old : Descriptor) : Decode Descriptor := do
  match ← attempt (onBuf axdrReadU16) with
  | none => return old
  | some classId =>
      match ← attempt (onBuf obisRead) with
      | none => return { old with classId := classId }
      | some instanceId =>
          match ← attempt (onBuf axdrReadU8) with
          | none => return { old with classId := classId, instanceId := instanceId }
          | some id => return ⟨classId, instanceId, id⟩

/-- `skip_access_selection`. -/
def skipAccessSelection : Decode Unit := do
  let selection ← onBuf axdrReadU8
  if selection = 1 then
    let _ ← onBuf axdrReadU8
    let _ ← readValue .null

/-- The length and the bytes of a data block. -/
def dataBlockBytes : Read (BytesUpTo 256) := do
  let len ← dlmsReadLen
  failIf (len > 256 ∨ (← get).unread < len) .invalid
  return BytesUpTo.ofList 256 (← takeBytes len)

/-- `osp_data_block_sa_decode`. -/
def dataBlockSaDecode (old : DataBlock) : Decode DataBlock := do
  match ← attempt (onBuf axdrReadU8) with
  | none => return old
  | some last =>
      match ← attempt (onBuf axdrReadU32) with
      | none => return { old with lastBlock := last ≠ 0 }
      | some number =>
          match ← attempt (onBuf dataBlockBytes) with
          | none => return { old with lastBlock := last ≠ 0, blockNumber := number }
          | some bytes => return ⟨last ≠ 0, number, bytes⟩

/-- `OSP_XDLMS_MAX_LIST`. -/
def xdlmsMaxList : ℕ := 8

def listCount : Decode ℕ := do
  match ← attempt (onBuf dlmsReadLen) with
  | none => throw .invalid
  | some count =>
      failIf (count > xdlmsMaxList) .invalid
      return count

/-- Read one entry after the other, given the number of entries left and the next index. -/
def readEntries {α : Type} (read : ℕ → Decode α) : ℕ → ℕ → Decode (List α)
  | 0, _ => return []
  | left + 1, index => do
      let entry ← read index
      return entry :: (← readEntries read left (index + 1))

/-- Tag, type and invoke id of a request. -/
def requestHeader (expected : UInt8) : Decode (UInt8 × UInt8) := do
  let tag ← onBuf axdrReadU8
  failIf (tag ≠ expected) .invalid
  let type ← onBuf axdrReadU8
  let invokeIdPriority ← onBuf axdrReadU8
  return (type, invokeIdPriority)

/-- The have-data byte of an ACTION entry and the parameter it announces. -/
def actionParameter (old : Value) : Decode Value := do
  let haveData ← onBuf axdrReadU8
  if haveData ≠ 0 then readValue old else return .null

/-! ## Requests -/

/-- `osp_get_request_type` as far as it is decoded. -/
inductive GetKind
  | normal | withBlock | withList
  deriving DecidableEq, Repr

/-- `osp_sel_access_type`. -/
inductive SelAccess
  | none | byEntry | byDate | byRange | byPointer
  deriving DecidableEq, Repr

/-- `osp_selective_access_t` with its entry range. -/
structure SelectiveAccess where
  type : SelAccess
  entryFrom : ℕ
  entryTo : ℕ
  deriving DecidableEq, Repr

/-- `osp_get_request_t`. -/
structure GetRequest where
  kind : GetKind
  invokeIdPriority : UInt8
  attr : Descriptor
  accessSelection : SelectiveAccess
  blockNumber : ℕ
  items : List Descriptor
  deriving DecidableEq

/-- `osp_set_request_type`. -/
inductive SetKind
  | normal | withFirstDatablock | withDatablock | withList
  deriving DecidableEq, Repr

/-- `osp_set_request_t`. -/
structure SetRequest where
  kind : SetKind
  invokeIdPriority : UInt8
  attr : Descriptor
  data : Value
  datablock : DataBlock
  items : List (Descriptor × Value)
  deriving DecidableEq

/-- `osp_action_request_type`. -/
inductive ActionKind
  | normal | nextParamBlock | withList | withFirstParamBlock | withParamBlock
  deriving DecidableEq, Repr

/-- `osp_action_request_t`. -/
structure ActionRequest where
  kind : ActionKind
  invokeIdPriority : UInt8
  method : Descriptor
  data : Value
  paramBlock : DataBlock
  blockNumber : ℕ
  items : List (Descriptor × Value)
  deriving DecidableEq

def GetRequest.zero : GetRequest := ⟨.normal, 0, .zero, ⟨.none, 0, 0⟩, 0, []⟩

def SetRequest.zero : SetRequest := ⟨.normal, 0, .zero, .null, .zero, []⟩

def ActionRequest.zero : ActionRequest := ⟨.normal, 0, .zero, .null, .zero, 0, []⟩

/-- `osp_get_request_decode`; the access selection is skipped and never stored. -/
def getRequestDecode (old : GetRequest) : Decode GetRequest := do
  let (type, invokeIdPriority) ← requestHeader 0xC0
  let old := { old with invokeIdPriority := invokeIdPriority }
  if type = 1 then
    let attr ← descriptorRead old.attr
    ignore skipAccessSelection
    return { old with kind := .normal, attr := attr }
  else if type = 2 then
    match ← attempt (onBuf axdrReadU32) with
    | none => return { old with kind := .withBlock }
    | some number => return { old with kind := .withBlock, blockNumber := number }
  else if type = 3 then
    let count ← listCount
    let items ← readEntries (fun i => do
      let attr ← descriptorRead (old.items.getD i .zero)
      ignore skipAccessSelection
      return attr) count 0
    return { old with kind := .withList, items := items }
  else throw .invalid

/-- The entries of a SET list: all descriptors, then as many values. -/
def setListDecode (old : List (Descriptor × Value)) : Decode (List (Descriptor × Value)) := do
  let oldAt i := old.getD i (.zero, .null)
  let count ← listCount
  let attrs ← readEntries (fun i => do
    let attr ← descriptorRead (oldAt i).1
    ignore skipAccessSelection
    return attr) count 0
  let valueCount ← attempt (onBuf dlmsReadLen)
  failIf (valueCount ≠ some count) .invalid
  let values ← readEntries (fun i => readValue (oldAt i).2) count 0
  return attrs.zip values

/-- `osp_set_request_decode`. -/
def setRequestDecode (old : SetRequest) : Decode SetRequest := do
  let (type, invokeIdPriority) ← requestHeader 0xC1
  let old := { old with invokeIdPriority := invokeIdPriority }
  if type = 1 then
    let attr ← descriptorRead old.attr
    ignore skipAccessSelection
    let data ← readValue old.data
    return { old with kind := .normal, attr := attr, data := data }
  else if type = 2 then
    let attr ← descriptorRead old.attr
    ignore skipAccessSelection
    let block ← dataBlockSaDecode old.datablock
    return { old with kind := .withFirstDatablock, attr := attr, datablock := block }
  else if type = 3 then
    let block ← dataBlockSaDecode old.datablock
    return { old with kind := .withDatablock, datablock := block }
  else if type = 4 then
    let items ← setListDecode old.items
    return { old with kind := .withList, items := items }
  else throw .invalid

/-- `osp_action_request_decode`; only a missing have-data byte or a bad list count is refused. -/
def actionRequestDecode (old : ActionRequest) : Decode ActionRequest := do
  let (type, invokeIdPriority) ← requestHeader 0xC3
  let old := { old with invokeIdPriority := invokeIdPriority }
  if type = 1 then
    let method ← descriptorRead old.method
    let data ← actionParameter old.data
    return { old with kind := .normal, method := method, data := data }
  else if type = 3 then
    let count ← listCount
    let items ← readEntries (fun i => do
      let method ← descriptorRead (old.items.getD i (.zero, .null)).1
      let data ← actionParameter (old.items.getD i (.zero, .null)).2
      return (method, data)) count 0
    return { old with kind := .withList, items := items }
  else if type = 2 then
    match ← attempt (onBuf axdrReadU32) with
    | none => return { old with kind := .nextParamBlock }
    | some number => return { old with kind := .nextParamBlock, blockNumber := number }
  else if type = 4 then
    let method ← descriptorRead old.method
    let block ← dataBlockSaDecode old.paramBlock
    return { old with kind := .withFirstParamBlock, method := method, paramBlock := block }
  else if type = 6 then
    let block ← dataBlockSaDecode old.paramBlock
    return { old with kind := .withParamBlock, paramBlock := block }
  else throw .invalid

/-! ## Responses and notifications -/

/-- Write a value that has to fit. -/
def writeValue (pool : Pool) (value : Value) : Write Unit := do
  match ← attempt (valueWrite pool value) with
  | none => throw .invalid
  | some () => return ()

/-- `osp_get_response_t` as the server sends it, list responses apart. -/
inductive GetResponse
  | data (value : Value)
  | dataError (result : Dar)
  | block (last : Bool) (number : ℕ) (rawData : List UInt8)
  deriving DecidableEq

/-- `osp_get_response_encode`. -/
def getResponseEncode (pool : Pool) (invokeIdPriority : UInt8) : GetResponse → Write Unit
  | .data value => do
      writeEach [0xC4, 1, invokeIdPriority, 0]
      writeValue pool value
  | .dataError result => writeEach [0xC4, 1, invokeIdPriority, 1, result.code]
  | .block last number rawData => do
      writeEach [0xC4, 2, invokeIdPriority, if last then 1 else 0]
      ignore (axdrWriteU32 number)
      writeEach [0]
      ignore (dlmsWriteLen rawData.length)
      writeEach rawData

/-- `osp_get_result_item_t`. -/
inductive GetResult
  | data (value : Value)
  | accessResult (result : Dar)
  deriving DecidableEq

/-- `osp_get_result_item_encode`. -/
def getResultItemEncode (pool : Pool) : GetResult → Write Unit
  | .accessResult result => do
      axdrWriteU8 1
      axdrWriteU8 result.code
  | .data value => do
      axdrWriteU8 0
      writeValue pool value

/-- The checked start of a response with list. -/
def listResponseHeader (tag invokeIdPriority : UInt8) (count : ℕ) : Write Unit := do
  axdrWriteU8 tag
  axdrWriteU8 3
  axdrWriteU8 invokeIdPriority
  dlmsWriteLen count

/-- `osp_set_response_t`. -/
inductive SetResponse
  | normal (result : Dar)
  | datablock (blockNumber : ℕ)
  | lastDatablock (result : Dar) (blockNumber : ℕ)
  | withList (results : List Dar)
  deriving DecidableEq

/-- `osp_set_response_encode`. -/
def setResponseEncode (invokeIdPriority : UInt8) : SetResponse → Write Unit
  | .normal result => writeEach [0xC5, 1, invokeIdPriority, result.code]
  | .datablock number => do
      writeEach [0xC5, 2, invokeIdPriority]
      ignore (axdrWriteU32 number)
  | .lastDatablock result number => do
      writeEach [0xC5, 3, invokeIdPriority, result.code]
      ignore (axdrWriteU32 number)
  | .withList results => do
      writeEach [0xC5, 5, invokeIdPriority]
      ignore (dlmsWriteLen results.length)
      writeEach (results.map Dar.code)

/-- `osp_data_block_sa_encode`. -/
def dataBlockSaEncode (last : Bool) (number : ℕ) (rawData : List UInt8) : Write Unit := do
  axdrWriteU8 (if last then 1 else 0)
  axdrWriteU32 number
  dlmsWriteLen rawData.length
  writeEach rawData

/-- `osp_action_response_t` as the server sends it, list responses apart. -/
inductive ActionResponse
  | normal (result : Dar) (returnData : Value)
  | withParamBlock (last : Bool) (number : ℕ) (rawData : List UInt8)
  | nextParamBlock (blockNumber : ℕ)
  deriving DecidableEq

/-- `osp_action_response_encode`: even a value that does not fit is ignored. -/
def actionResponseEncode (pool : Pool) (invokeIdPriority : UInt8) : ActionResponse → Write Unit
  | .normal result returnData => do
      writeEach [0xC7, 1, invokeIdPriority, result.code]
      if returnData.tag ≠ 0 then
        writeEach [1, 0]
        ignore (valueWrite pool returnData)
      else writeEach [0]
  | .withParamBlock last number rawData => do
      writeEach [0xC7, 2, invokeIdPriority]
      ignore (dataBlockSaEncode last number rawData)
  | .nextParamBlock number => do
      writeEach [0xC7, 4, invokeIdPriority]
      ignore (axdrWriteU32 number)

/-- One entry of an ACTION response with list; here everything has to fit. -/
def actionResultEncode (pool : Pool) (result : Dar) (returnData : Value) : Write Unit := do
  axdrWriteU8 result.code
  if returnData.tag ≠ 0 then
    axdrWriteU8 1
    axdrWriteU8 0
    writeValue pool returnData
  else axdrWriteU8 0

/-- `osp_data_notification_t`. -/
structure DataNotification where
  longInvokeIdAndPriority : ℕ
  dateTime : BytesUpTo 12
  notificationBody : Value
  deriving DecidableEq

/-- `osp_data_notification_encode`. -/
def dataNotificationEncode (pool : Pool) (dn : DataNotification) : Write Unit := do
  axdrWriteU8 0x0F
  axdrWriteU32 dn.longInvokeIdAndPriority
  dlmsWriteLen dn.dateTime.val.length
  writeBytes dn.dateTime.val .invalid
  writeValue pool dn.notificationBody

/-- `osp_event_notification_t`. -/
structure EventNotification where
  time : Option (BytesUpTo 12)
  attr : Descriptor
  value : Value
  deriving DecidableEq

/-- `osp_event_notification_encode`. -/
def eventNotificationEncode (pool : Pool) (ev : EventNotification) : Write Unit := do
  axdrWriteU8 0xC2
  match ev.time with
  | none => axdrWriteU8 0
  | some time =>
      axdrWriteU8 1
      dlmsWriteLen time.val.length
      writeBytes time.val .invalid
  axdrWriteU16 ev.attr.classId
  writeBytes ev.attr.instanceId.toList .invalid
  axdrWriteU8 ev.attr.id
  writeValue pool ev.value

end OpenSpodes
