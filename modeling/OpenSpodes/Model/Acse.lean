import OpenSpodes.Model.Security

/-! # Association control messages

The association request and response are BER sequences of optional fields. Their decoders walk the
fields in any order, keep what they know and skip the rest. Most reads inside a field are checked
against the end of the data, the object identifier's are not. The two decoders close a field
differently: the request's refuses one that ends behind the data, the response's does not look.

A failing C return of `-1` is the error `invalid` here. Encoders ignore the result of each write.
-/

namespace OpenSpodes

open Bytes Machine.Fallible

/-- `osp_ber_tag_t`. -/
structure BerTag where
  tagClass : UInt8
  constructed : Bool
  number : UInt8
  deriving DecidableEq, Repr

/-- The continuation bytes of a long tag number, at most `fuel` of them. -/
def berReadLongTag : ℕ → UInt8 → Read UInt8
  | 0, _ => throw .invalid
  | fuel + 1, number => do
      needUnread 1 .invalid
      let byte ← nextByte
      let number := (number <<< 7) ||| (byte &&& 0x7F)
      if byte &&& 0x80 ≠ 0 then berReadLongTag fuel number else return number

/-- `osp_ber_read_tag`. -/
def berReadTag : Read BerTag := do
  needUnread 1 .invalid
  let first ← nextByte
  let number := first &&& 0x1F
  let number ← if number = 0x1F then berReadLongTag (← get).unread 0 else pure number
  return ⟨(first >>> 6) &&& 3, (first >>> 5) &&& 1 != 0, number⟩

/-- The bytes of a tag: numbers from 31 on are written in base 128 after the marker. -/
def berTagBytes (tagClass : UInt8) (constructed : Bool) (number : UInt8) : List UInt8 :=
  let first := ((tagClass &&& 3) <<< 6) ||| ((if constructed then (1 : UInt8) else 0) <<< 5)
  if number < 0x1F then [first ||| number]
  else if number < 0x80 then [first ||| 0x1F, number &&& 0x7F]
  else [first ||| 0x1F, (number >>> 7) ||| 0x80, number &&& 0x7F]

/-- `osp_ber_write_tag`. -/
def berWriteTag (tagClass : UInt8) (constructed : Bool) (number : UInt8) : Write Unit :=
  writeBytes (berTagBytes tagClass constructed number) .nomem

/-- `OID_PREFIX_APP`. -/
def oidPrefixApp : List UInt8 := [0x60, 0x85, 0x74, 0x05, 0x08, 0x01]

/-- `OID_PREFIX_MECH`. -/
def oidPrefixMech : List UInt8 := [0x60, 0x85, 0x74, 0x05, 0x08, 0x02]

/-- `ber_write_oid`. -/
def berWriteOid (leading : List UInt8) (lastArc : UInt8) : Write Unit := do
  ignore (berWriteTag 0 false 6)
  ignore (dlmsWriteLen (leading.length + 1))
  writeEach (leading ++ [lastArc])

/-- `ber_read_oid`: the seven content bytes are taken without looking for the end of the data. -/
def berReadOid : Read UInt8 := do
  let tag ← berReadTag
  failIf (tag.number ≠ 6) .invalid
  let len ← dlmsReadLen
  failIf (len < 7) .invalid
  modify (·.skip 6)
  nextByte

/-- Reserve the byte of a length that is not known yet; its position. -/
def berReserveLength : Write ℕ := do
  let pos := (← get).out.length
  writeBytes [0] .invalid
  return pos

/-- `ber_backpatch_length`: the content moves by one byte when its length needs the long form. -/
def berBackpatchLength (lenPos : ℕ) : Write Unit := do
  let b ← get
  let content := b.out.drop (lenPos + 1)
  if content.length < 0x80 then
    set (b.rewrite (b.out.take lenPos ++ [UInt8.ofNat content.length] ++ content))
  else
    failIf (b.out.length + 1 > b.size) .invalid
    set (b.rewrite (b.out.take lenPos ++ [0x81, UInt8.ofNat content.length] ++ content))

/-- An explicitly tagged string: outer tag, length, inner tag byte, inner length, bytes. -/
def berWriteWrapped (number inner : UInt8) (bytes : List UInt8) : Write Unit := do
  ignore (berWriteTag 2 true number)
  ignore (dlmsWriteLen (bytes.length + 2))
  writeEach ([inner, UInt8.ofNat bytes.length] ++ bytes)

/-- The implicit fields that announce authentication: requirements bit and mechanism name. -/
def berWriteAuthFields (requirements name mechanism : UInt8) : Write Unit := do
  ignore (berWriteTag 2 false requirements)
  ignore (dlmsWriteLen 2)
  writeEach [7, 0x80]
  ignore (berWriteTag 2 false name)
  ignore (dlmsWriteLen (oidPrefixMech.length + 1))
  writeEach (oidPrefixMech ++ [mechanism])

/-- `osp_aarq_t`; the title's length is the one on the wire, which may exceed the array. -/
structure Aarq where
  applicationContext : UInt8 := 0
  mechanism : UInt8 := 0
  protocolVersion : Option (UInt8 × UInt8) := none
  senderAcseRequirement : Option UInt8 := none
  hasMechanism : Bool := false
  hasCallingAuth : Bool := false
  callingApTitle : SystemTitle := Vector.replicate 8 0
  callingApTitleLen : UInt8 := 0
  callingAuthValue : BytesUpTo 64 := BytesUpTo.empty 64
  userInfo : BytesUpTo 128 := BytesUpTo.empty 128
  deriving DecidableEq

/-- `osp_aare_t`. -/
structure Aare where
  result : UInt8 := 0
  resultSourceDiagnostic : UInt8 := 0
  resultSourceIsProvider : Bool := false
  applicationContext : UInt8 := 0
  protocolVersion : Option (UInt8 × UInt8) := none
  mechanism : UInt8 := 0
  includeAuthentication : Bool := false
  respondingApTitle : BytesUpTo 8 := BytesUpTo.empty 8
  respondingAuthValue : BytesUpTo 64 := BytesUpTo.empty 64
  userInfo : BytesUpTo 128 := BytesUpTo.empty 128
  deriving DecidableEq

/-- The optional application context, an object identifier with its own length to fill in. -/
def berWriteContext (context : UInt8) : Write Unit := do
  ignore (berWriteTag 2 true 1)
  let pos ← berReserveLength
  berWriteOid oidPrefixApp context
  berBackpatchLength pos

/-- `osp_aarq_encode`, for titles within the array. -/
def aarqEncode (aarq : Aarq) : Write Unit := do
  ignore (berWriteTag 1 true 0)
  let pos ← berReserveLength
  berWriteContext aarq.applicationContext
  berWriteAuthFields 10 11 aarq.mechanism
  if aarq.callingApTitleLen > 0 then
    berWriteWrapped 6 4 (aarq.callingApTitle.toList.take aarq.callingApTitleLen.toNat)
  berWriteWrapped 12 0x80 aarq.callingAuthValue.val
  berWriteWrapped 30 4 aarq.userInfo.val
  berBackpatchLength pos

/-- `osp_aare_encode`. -/
def aareEncode (aare : Aare) : Write Unit := do
  ignore (berWriteTag 1 true 1)
  let pos ← berReserveLength
  if let some version := aare.protocolVersion then
    ignore (berWriteTag 2 false 0)
    ignore (dlmsWriteLen 2)
    writeEach [version.1, version.2]
  if aare.applicationContext ≠ 0 then berWriteContext aare.applicationContext
  ignore (berWriteTag 2 true 2)
  ignore (dlmsWriteLen 3)
  writeEach [2, 1, aare.result]
  ignore (berWriteTag 2 true 3)
  ignore (dlmsWriteLen 5)
  ignore (berWriteTag 2 true (if aare.resultSourceIsProvider then 2 else 1))
  ignore (dlmsWriteLen 3)
  writeEach [2, 1, aare.resultSourceDiagnostic]
  if aare.respondingApTitle.val.length > 0 then berWriteWrapped 4 4 aare.respondingApTitle.val
  if aare.includeAuthentication then
    berWriteAuthFields 8 9 aare.mechanism
    berWriteWrapped 10 0x80 aare.respondingAuthValue.val
  berWriteWrapped 30 4 aare.userInfo.val
  berBackpatchLength pos

/-- `n` checked single-byte reads. -/
def readEach : ℕ → Read (List UInt8)
  | 0 => return []
  | n + 1 => do
      let byte ← axdrReadU8
      return byte :: (← readEach n)

/-- A tagged string inside an explicit field, refused when longer than its array. -/
def berReadWrapped (capacity : ℕ) : Read (BytesUpTo capacity) := do
  let _ ← berReadTag
  let len ← dlmsReadLen
  failIf (len > capacity) .invalid
  return BytesUpTo.ofList capacity (← readEach len)

/-- An authentication value, taken only when its tag is the character string's. -/
def berReadAuthValue : Read (Option (BytesUpTo 64)) := do
  match ← attempt berReadTag with
  | none => return none
  | some tag =>
      if tag.number = 0 ∧ !tag.constructed then
        let len ← dlmsReadLen
        failIf (len > 64) .invalid
        return some (BytesUpTo.ofList 64 (← readEach len))
      else return none

/-- An implicit mechanism name: six bytes are skipped and the last arc is read. -/
def berReadMechanism (fieldLen : ℕ) : Read UInt8 := do
  failIf (fieldLen < 7) .invalid
  modify (·.skip 6)
  axdrReadU8

/-- One context-specific field of an AARQ. -/
def aarqField (number : UInt8) (fieldLen : ℕ) (aarq : Aarq) : Read Aarq :=
  match number with
  | 0 =>
      if fieldLen ≥ 2 then return { aarq with protocolVersion := some (← nextByte, ← nextByte) }
      else return aarq
  | 1 => return { aarq with applicationContext := ← berReadOid }
  | 6 => do
      let _ ← berReadTag
      let len ← dlmsReadLen
      let bytes ← readEach len
      -- bytes beyond the array are read and dropped, the rest of the array stays
      let title := bytes.take 8 ++ aarq.callingApTitle.toList.drop (bytes.take 8).length
      return { aarq with
        callingApTitleLen := UInt8.ofNat (min len 255)
        callingApTitle := Vector.ofFn fun i => title.getD i 0 }
  | 10 =>
      if fieldLen ≥ 2 then do
        modify (·.skip 1)
        return { aarq with senderAcseRequirement := some (← nextByte) }
      else return aarq
  | 11 => return { aarq with mechanism := ← berReadMechanism fieldLen, hasMechanism := true }
  | 12 => do
      match ← berReadAuthValue with
      | none => return aarq
      | some value => return { aarq with callingAuthValue := value, hasCallingAuth := true }
  | 30 => return { aarq with userInfo := ← berReadWrapped 128 }
  | _ => return aarq

/-- One context-specific field of an AARE; `unset` is a tag number that was never assigned. -/
def aareField (unset number : UInt8) (fieldLen : ℕ) (aare : Aare) : Read Aare :=
  match number with
  | 2 => do
      ignore berReadTag
      ignore dlmsReadLen
      return { aare with result := (← attempt axdrReadU8).getD aare.result }
  | 3 => do
      ignore berReadTag
      ignore dlmsReadLen
      let inner := ((← attempt berReadTag).map BerTag.number).getD unset
      ignore dlmsReadLen
      return { aare with
        resultSourceIsProvider := inner == 2
        resultSourceDiagnostic := (← attempt axdrReadU8).getD aare.resultSourceDiagnostic }
  | 4 => return { aare with respondingApTitle := ← berReadWrapped 8 }
  | 9 => return { aare with mechanism := ← berReadMechanism fieldLen }
  | 10 => do
      match ← berReadAuthValue with
      | none => return aare
      | some value => return { aare with respondingAuthValue := value }
  | 30 => return { aare with userInfo := ← berReadWrapped 128 }
  | _ => return aare

section Fields

variable {α : Type}

/-- The field loop up to `stop`: an unreadable header ends it, other failures are the decoder's. -/
def acseFields (field : UInt8 → ℕ → α → Read α) (close : ℕ → ℕ → Read Unit) (stop : ℕ) :
    ℕ → α → Read α
  | 0, decoded => return decoded
  | fuel + 1, decoded => do
      if (← get).rd < stop then
        match ← attempt berReadTag with
        | none => return decoded
        | some tag =>
            match ← attempt dlmsReadLen with
            | none => return decoded
            | some fieldLen =>
                let fieldStart := (← get).rd
                let decoded ← if tag.tagClass = 2 then field tag.number fieldLen decoded
                  else pure decoded
                close fieldStart fieldLen
                acseFields field close stop fuel decoded
      else return decoded

/-- The outer sequence; every field takes at least two bytes, so its length bounds the loop. -/
def acseDecode (number : UInt8) (field : UInt8 → ℕ → α → Read α) (close : ℕ → ℕ → Read Unit)
    (empty : α) : Read α := do
  let tag ← berReadTag
  failIf (tag.number ≠ number ∨ !tag.constructed) .invalid
  let len ← dlmsReadLen
  let stop := ((← get).rd + len) % 2 ^ 32
  acseFields field close stop len empty

end Fields

/-- Continue at the end of a field unless the reads inside went further. -/
def skipToField (fieldEnd : ℕ) : Read Unit :=
  modify fun b => if b.rd < fieldEnd then { b with rd := fieldEnd } else b

/-- `osp_aarq_decode`. -/
def aarqDecode : Read Aarq :=
  acseDecode 0 aarqField
    (fun fieldStart fieldLen => do
      let fieldEnd := (fieldStart + fieldLen) % 2 ^ 32
      failIf (fieldEnd < fieldStart ∨ fieldEnd > (← get).wr) .invalid
      skipToField fieldEnd) {}

/-- `osp_aare_decode`. -/
def aareDecode (unset : UInt8) : Read Aare :=
  acseDecode 1 (aareField unset)
    (fun fieldStart fieldLen => skipToField ((fieldStart + fieldLen) % 2 ^ 32)) {}

/-- `decode_release`; the reason of an RLRQ (number 2) or RLRE (number 3). -/
def decodeRelease (expected : UInt8) : Read UInt8 := do
  let tag ← berReadTag
  failIf (tag.tagClass ≠ 1 ∨ !tag.constructed ∨ tag.number ≠ expected) .invalid
  let len ← dlmsReadLen
  failIf (len < 1 ∨ (← get).unread < 1) .invalid
  axdrReadU8

/-- `encode_release`. -/
def encodeRelease (number reason : UInt8) : Write Unit := do
  berWriteTag 1 true number
  dlmsWriteLen 1
  axdrWriteU8 reason

/-- `osp_rlrq_decode`. -/
def rlrqDecode : Read UInt8 := decodeRelease 2

/-- `osp_rlre_encode`. -/
def rlreEncode (reason : UInt8) : Write Unit := encodeRelease 3 reason

/-- `osp_exception_response_encode_simple`: invoke id zero, state error, service error. -/
def exceptionResponseEncodeSimple (stateError serviceError : UInt8) : Write Unit :=
  writeEach [0xD8, 0, stateError, serviceError]

/-- `osp_confirmed_service_error_encode`. -/
def confirmedServiceErrorEncode (service category value : UInt8) : Write Unit :=
  writeEach [0x0E, service, category, value]

end OpenSpodes
