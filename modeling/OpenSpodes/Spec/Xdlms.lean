import OpenSpodes.Model.XdmsClient
import OpenSpodes.Spec.Data

/-! # The messages of the services

What a GET, SET or ACTION request or response says, apart from its invoke id: the choice with the members of that
choice, and the data that a value stands for in place of the value. Each message has its encoding behind the tag, the
choice and the invoke id, and the limits of the decoder. A structure in memory carries a message when its members of the
choice are those of the message; the members of other choices, which share the memory of a union, do not count.
-/

namespace OpenSpodes

open Bytes

/-! ## Parts -/

def Descriptor.encode (descriptor : Descriptor) : List UInt8 :=
  beBytes 2 descriptor.classId ++ (descriptor.instanceId.toList ++ [descriptor.id])

/-- The bytes of an attribute without access selection. -/
def Descriptor.encodeUnselected (attr : Descriptor) : List UInt8 := attr.encode ++ [0]

def Descriptor.Fits (descriptor : Descriptor) : Prop := descriptor.classId < 2 ^ 16

def DataBlock.encode (block : DataBlock) : List UInt8 :=
  (if block.lastBlock then 1 else 0) ::
    (beBytes 4 block.blockNumber ++ (dlmsLenBytes block.rawData.val.length ++ block.rawData.val))

def DataBlock.Fits (block : DataBlock) : Prop := block.blockNumber < 2 ^ 32

namespace Data

def Flat : Data → Prop
  | nest _ _ => False
  | _ => True


def FitsPool (data : Data) : Prop := data.Fits ∧ data.slots ≤ poolLen

def FitsList (data : Data) : Prop := data.Fits ∧ data.Flat

/-- The bytes of data that is left out when it is null, behind those that announce it. -/
def encodeOptional (announced : List UInt8) : Data → List UInt8
  | null => [0]
  | data => announced ++ data.encode

end Data

/-- The bytes of a list of entries with its length. -/
def encodeEntries {α : Type} (encode : α → List UInt8) (entries : List α) : List UInt8 :=
  dlmsLenBytes entries.length ++ entries.flatMap encode

/-! ## GET -/

inductive GetRequestMessage
  | normal (attr : Descriptor)
  | next (blockNumber : ℕ)
  | withList (attrs : List Descriptor)

namespace GetRequestMessage

def encode (invokeId : UInt8) : GetRequestMessage → List UInt8
  | normal attr => [0xC0, 1, invokeId] ++ attr.encodeUnselected
  | next blockNumber => [0xC0, 2, invokeId] ++ beBytes 4 blockNumber
  | withList attrs => [0xC0, 3, invokeId] ++ encodeEntries Descriptor.encodeUnselected attrs

def Fits : GetRequestMessage → Prop
  | normal attr => attr.Fits
  | next blockNumber => blockNumber < 2 ^ 32
  | withList attrs => attrs.length ≤ xdlmsMaxList ∧ ∀ attr ∈ attrs, attr.Fits

end GetRequestMessage

/-- The members of a request apart from its access selection. -/
def GetRequest.Names (req : GetRequest) (invokeId : UInt8) (message : GetRequestMessage) : Prop :=
  req.invokeIdPriority = invokeId ∧
    match message with
    | .normal attr => req.kind = .normal ∧ req.attr = attr
    | .next blockNumber => req.kind = .withBlock ∧ req.blockNumber = blockNumber
    | .withList attrs => req.kind = .withList ∧ req.items = attrs

/-- A normal request carries its access selection too, and there is none. -/
def GetRequest.Carries (req : GetRequest) (invokeId : UInt8) (message : GetRequestMessage) : Prop :=
  req.Names invokeId message ∧ ∀ attr, message = .normal attr → req.accessSelection.type = .none

/-- The result for one attribute of a list. -/
inductive GetResultMessage
  | data (data : Data)
  | accessResult (code : UInt8)

namespace GetResultMessage

def encode : GetResultMessage → List UInt8
  | data content => 0 :: content.encode
  | accessResult code => [1, code]

/-- The value of a result, null when there is none. -/
def content : GetResultMessage → Data
  | data content => content
  | accessResult _ => .null

def Fits : GetResultMessage → Prop
  | data content => content.FitsList
  | accessResult _ => True

end GetResultMessage

def ReplyItem.Carries (memory : Pool) (item : ReplyItem) : GetResultMessage → Prop
  | .data data => item.isData = true ∧ item.data.Denotes memory data
  | .accessResult code => item.isData = false ∧ item.accessResult = code

inductive GetResponseMessage
  | data (data : Data)
  | dataError (code : UInt8)
  | block (last : Bool) (blockNumber : ℕ) (rawData : BytesUpTo 256)
  | withList (results : List GetResultMessage)

namespace GetResponseMessage

def encode (invokeId : UInt8) : GetResponseMessage → List UInt8
  | data content => [0xC4, 1, invokeId, 0] ++ content.encode
  | dataError code => [0xC4, 1, invokeId, 1, code]
  | block last blockNumber rawData =>
      [0xC4, 2, invokeId, if last then 1 else 0] ++
        (beBytes 4 blockNumber ++ ([0] ++ (dlmsLenBytes rawData.val.length ++ rawData.val)))
  | withList results => [0xC4, 3, invokeId] ++ encodeEntries GetResultMessage.encode results

def Fits : GetResponseMessage → Prop
  | data content => content.FitsPool
  | dataError _ => True
  | block _ blockNumber _ => blockNumber < 2 ^ 32
  | withList results => results.length ≤ xdlmsMaxList ∧ ∀ result ∈ results, result.Fits

end GetResponseMessage

def GetReply.Carries (memory : Pool) (reply : GetReply) (invokeId : UInt8) (message : GetResponseMessage) : Prop :=
  reply.invokeIdPriority = invokeId ∧
    match message with
    | .data data => reply.kind = .data ∧ reply.data.Denotes memory data
    | .dataError code => reply.kind = .dataError ∧ reply.dataAccessResult = code
    | .block last blockNumber rawData =>
        reply.kind = (if last then .blockLast else .block) ∧ reply.lastBlock = last ∧
          reply.blockNumber = blockNumber ∧ reply.rawDataLen = rawData.val.length ∧ reply.raw = rawData.val
    | .withList results =>
        reply.kind = .withList ∧ List.Forall₂ (fun item result => ReplyItem.Carries memory item result) reply.items results

/-! ## SET -/

inductive SetRequestMessage
  | normal (attr : Descriptor) (data : Data)
  | firstDatablock (attr : Descriptor) (block : DataBlock)
  | datablock (block : DataBlock)
  | withList (items : List (Descriptor × Data))

namespace SetRequestMessage

def encode (invokeId : UInt8) : SetRequestMessage → List UInt8
  | normal attr data => [0xC1, 1, invokeId] ++ (attr.encodeUnselected ++ data.encode)
  | firstDatablock attr block => [0xC1, 2, invokeId] ++ (attr.encodeUnselected ++ block.encode)
  | datablock block => [0xC1, 3, invokeId] ++ block.encode
  | withList items =>
      [0xC1, 4, invokeId] ++ (encodeEntries (fun item => item.1.encodeUnselected) items ++
        encodeEntries (fun item => item.2.encode) items)

def Fits : SetRequestMessage → Prop
  | normal attr data => attr.Fits ∧ data.FitsPool
  | firstDatablock attr block => attr.Fits ∧ block.Fits
  | datablock block => block.Fits
  | withList items => items.length ≤ xdlmsMaxList ∧ ∀ item ∈ items, item.1.Fits ∧ item.2.FitsList

end SetRequestMessage

def CarriesItem {α : Type} (memory : Pool) (item : α × Value) (content : α × Data) : Prop :=
  item.1 = content.1 ∧ item.2.Denotes memory content.2

def SetRequest.Carries (memory : Pool) (req : SetRequest) (invokeId : UInt8) (message : SetRequestMessage) : Prop :=
  req.invokeIdPriority = invokeId ∧
    match message with
    | .normal attr data => req.kind = .normal ∧ req.attr = attr ∧ req.data.Denotes memory data
    | .firstDatablock attr block => req.kind = .withFirstDatablock ∧ req.attr = attr ∧ req.datablock = block
    | .datablock block => req.kind = .withDatablock ∧ req.datablock = block
    | .withList items => req.kind = .withList ∧ List.Forall₂ (CarriesItem memory) req.items items

inductive SetResponseMessage
  | normal (code : UInt8)
  | datablock (blockNumber : ℕ)
  | lastDatablock (code : UInt8) (blockNumber : ℕ)
  | withList (codes : List UInt8)

namespace SetResponseMessage

def encode (invokeId : UInt8) : SetResponseMessage → List UInt8
  | normal code => [0xC5, 1, invokeId, code]
  | datablock blockNumber => [0xC5, 2, invokeId] ++ beBytes 4 blockNumber
  | lastDatablock code blockNumber => [0xC5, 3, invokeId, code] ++ beBytes 4 blockNumber
  | withList codes => [0xC5, 5, invokeId] ++ encodeEntries (fun code => [code]) codes

def Fits : SetResponseMessage → Prop
  | normal _ => True
  | datablock blockNumber | lastDatablock _ blockNumber => blockNumber < 2 ^ 32
  | withList codes => codes.length ≤ xdlmsMaxList

end SetResponseMessage

def SetReply.Carries (reply : SetReply) (invokeId : UInt8) (message : SetResponseMessage) : Prop :=
  reply.invokeIdPriority = invokeId ∧
    match message with
    | .normal code => reply.kind = .normal ∧ reply.result = code
    | .datablock blockNumber => reply.kind = .datablock ∧ reply.blockNumber = blockNumber
    | .lastDatablock code blockNumber =>
        reply.kind = .lastDatablock ∧ reply.result = code ∧ reply.blockNumber = blockNumber
    | .withList codes => reply.kind = .withList ∧ reply.results = codes

/-! ## ACTION -/

inductive ActionRequestMessage
  | normal (method : Descriptor) (data : Data)
  | nextParamBlock (blockNumber : ℕ)
  | withList (items : List (Descriptor × Data))
  | firstParamBlock (method : Descriptor) (block : DataBlock)
  | paramBlock (block : DataBlock)

def encodeInvocation (item : Descriptor × Data) : List UInt8 := item.1.encode ++ item.2.encodeOptional [1]

namespace ActionRequestMessage

def encode (invokeId : UInt8) : ActionRequestMessage → List UInt8
  | normal method data => [0xC3, 1, invokeId] ++ encodeInvocation (method, data)
  | nextParamBlock blockNumber => [0xC3, 2, invokeId] ++ beBytes 4 blockNumber
  | withList items => [0xC3, 3, invokeId] ++ encodeEntries encodeInvocation items
  | firstParamBlock method block => [0xC3, 4, invokeId] ++ (method.encode ++ block.encode)
  | paramBlock block => [0xC3, 6, invokeId] ++ block.encode

def Fits : ActionRequestMessage → Prop
  | normal method data => method.Fits ∧ data.FitsPool
  | nextParamBlock blockNumber => blockNumber < 2 ^ 32
  | withList items => items.length ≤ xdlmsMaxList ∧ ∀ item ∈ items, item.1.Fits ∧ item.2.FitsList
  | firstParamBlock method block => method.Fits ∧ block.Fits
  | paramBlock block => block.Fits

end ActionRequestMessage

def ActionRequest.Carries (memory : Pool) (req : ActionRequest) (invokeId : UInt8) (message : ActionRequestMessage) :
    Prop :=
  req.invokeIdPriority = invokeId ∧
    match message with
    | .normal method data => req.kind = .normal ∧ req.method = method ∧ req.data.Denotes memory data
    | .nextParamBlock blockNumber => req.kind = .nextParamBlock ∧ req.blockNumber = blockNumber
    | .withList items => req.kind = .withList ∧ List.Forall₂ (CarriesItem memory) req.items items
    | .firstParamBlock method block =>
        req.kind = .withFirstParamBlock ∧ req.method = method ∧ req.paramBlock = block
    | .paramBlock block => req.kind = .withParamBlock ∧ req.paramBlock = block

inductive ActionResponseMessage
  | normal (code : UInt8) (data : Data)
  | paramBlock (block : DataBlock)
  | withList (items : List (UInt8 × Data))
  | nextParamBlock (blockNumber : ℕ)

def encodeActionResult (item : UInt8 × Data) : List UInt8 := item.1 :: item.2.encodeOptional [1, 0]

namespace ActionResponseMessage

def encode (invokeId : UInt8) : ActionResponseMessage → List UInt8
  | normal code data => [0xC7, 1, invokeId] ++ encodeActionResult (code, data)
  | paramBlock block => [0xC7, 2, invokeId] ++ block.encode
  | withList items => [0xC7, 3, invokeId] ++ encodeEntries encodeActionResult items
  | nextParamBlock blockNumber => [0xC7, 4, invokeId] ++ beBytes 4 blockNumber

def Fits : ActionResponseMessage → Prop
  | normal _ data => data.FitsPool
  | paramBlock block => block.Fits
  | withList items => items.length ≤ xdlmsMaxList ∧ ∀ item ∈ items, item.2.FitsList
  | nextParamBlock blockNumber => blockNumber < 2 ^ 32

end ActionResponseMessage

def ActionReply.Carries (memory : Pool) (reply : ActionReply) (invokeId : UInt8) (message : ActionResponseMessage) :
    Prop :=
  reply.invokeIdPriority = invokeId ∧
    match message with
    | .normal code data => reply.kind = .normal ∧ reply.result = code ∧ reply.returnData.Denotes memory data
    | .paramBlock block => reply.kind = .withParamBlock ∧ reply.paramBlock = block
    | .withList items => reply.kind = .withList ∧ List.Forall₂ (CarriesItem memory) reply.items items
    | .nextParamBlock blockNumber => reply.kind = .nextParamBlock ∧ reply.blockNumber = blockNumber

end OpenSpodes
