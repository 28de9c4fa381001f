import OpenSpodes.Model.Glo
import OpenSpodes.Model.Hls

/-! # General ciphering and general signing

Three envelopes around a service: general-glo/ded-ciphering carries the originator's title and a
ciphered APDU, general-ciphering adds a transaction identifier and a recipient, general-signing carries
a content with its signature. Each receiver stores the originator's title in its context as soon as it
has read it and goes on from there.

A failing return is `-1` throughout. An empty plaintext has no first byte: the tag that is reported for
it comes from what the caller's buffer held.
-/

namespace OpenSpodes

open Bytes Machine.Fallible

/-! ## Fields -/

/-- `write_octet_string`. -/
def writeOctetString (data : List UInt8) : Write Unit := axdrWriteOctetString data

/-- `read_octet_string`. -/
def readOctetString : Read (List UInt8) := do
  let len ← dlmsReadLen
  needUnread len .invalid
  takeBytes len

/-- A string that must fit an array of `n` bytes. -/
def readBounded (n : ℕ) : Read (BytesUpTo n) := do
  let bytes ← readOctetString
  failIf (bytes.length > n) .invalid
  return BytesUpTo.ofList n bytes

/-- The system title in a string of eight bytes. -/
def titleOf (bytes : List UInt8) : SystemTitle := Vector.ofFn fun i => bytes.getD i 0

/-- A string that must be a system title. -/
def readTitle : Read SystemTitle := do
  let bytes ← readOctetString
  failIf (bytes.length ≠ 8) .invalid
  return titleOf bytes

/-- A tag byte of the given kinds. -/
def readTag (tags : List UInt8) : Read Unit := do
  let tag ← axdrReadU8
  failIf (tag ∉ tags) .invalid

/-- Encode into an area of the given size; `none` is the failure return. -/
def encodeApdu (size : ℕ) (write : Write Unit) : Option (List UInt8) :=
  match write (WBuf.init size) with
  | .ok _ buf => some buf.out
  | .error _ _ => none

/-- A parsing step of an unprotect function. -/
def parse {α : Type} (read : Read α) (buf : Buf) : EStateM Int SecContext (α × Buf) :=
  match read buf with
  | .ok value rest => pure (value, rest)
  | .error _ _ => throw (-1)

/-- Store the originator's title. -/
def SecContext.adopt (ctx : SecContext) (title : SystemTitle) : SecContext :=
  { ctx with peerSystemTitle := title }

/-- The common end: remove the protection and report the plain tag; `stale` is the first byte that the
caller's buffer held before. -/
def openService (hal : Hal) (stale : UInt8) (ciphered : List UInt8) :
    EStateM Int SecContext (List UInt8 × UInt8) := do
  match gloUnprotect hal ciphered (← get) with
  | .error _ ctx =>
      set ctx
      throw (-1)
  | .ok plain ctx =>
      set ctx
      return (plain, gloPlainTagForCiphered (plain.headD stale))

/-! ## General-glo-ciphering and general-ded-ciphering -/

/-- `osp_gen_glo_ded_protect`. -/
def genGloDedProtect (hal : Hal) (ctx : SecContext) (dedicated : Bool) (plainTag : UInt8)
    (plaintext : List UInt8) : Option (List UInt8) :=
  match gloProtect hal ctx (gloTagForPlain plainTag) plaintext with
  | none => none
  | some body =>
      encodeApdu (1056 + 32) do
        axdrWriteU8 (if dedicated then 0xDC else 0xDB)
        writeOctetString ctx.systemTitle.toList
        writeOctetString body

/-- Tag and title of a general-glo- or general-ded-ciphered APDU. -/
def genGloDedHeader : Read (List UInt8) := do
  readTag [0xDB, 0xDC]
  readOctetString

/-- The ciphered service behind them, which may not be empty. -/
def genGloDedBody : Read (List UInt8) := do
  let ciphered ← readOctetString
  failIf (ciphered.length < 1) .invalid
  return ciphered

/-- `osp_gen_glo_ded_unprotect`; a title of another length is passed over. -/
def genGloDedUnprotect (hal : Hal) (stale : UInt8) (apdu : List UInt8) :
    EStateM Int SecContext (List UInt8 × UInt8) := do
  failIf (apdu.length < 3) (-1)
  let (title, rest) ← parse genGloDedHeader (Buf.ofBytes apdu)
  modify fun ctx => if title.length = 8 then ctx.adopt (titleOf title) else ctx
  let (ciphered, _) ← parse genGloDedBody rest
  openService hal stale ciphered

/-! ## General-ciphering -/

/-- `osp_gen_ciphering_protect`; date-time and other information stay empty, key info is absent. -/
def genCipheringProtect (hal : Hal) (ctx : SecContext) (transactionId recipient : List UInt8)
    (plainTag : UInt8) (plaintext : List UInt8) : Option (List UInt8) :=
  match gloProtect hal ctx (gloTagForPlain plainTag) plaintext with
  | none => none
  | some body =>
      encodeApdu (1056 + 64) do
        axdrWriteU8 0xDD
        writeOctetString transactionId
        writeOctetString ctx.systemTitle.toList
        writeOctetString recipient
        writeOctetString []
        writeOctetString []
        axdrWriteU8 0x00
        writeOctetString body

/-- Transaction identifier and originator of a general-ciphered APDU. -/
def genCipheringHeader : Read (List UInt8 × SystemTitle) := do
  readTag [0xDD]
  let transactionId ← readOctetString
  return (transactionId, ← readTitle)

/-- Recipient and ciphered service behind them. -/
def genCipheringBody : Read (List UInt8 × List UInt8) := do
  let recipient ← readOctetString
  let _ ← readOctetString
  let _ ← readOctetString
  readTag [0x00]
  return (recipient, ← readOctetString)

/-- `osp_gen_ciphering_unprotect`. -/
def genCipheringUnprotect (hal : Hal) (stale : UInt8) (apdu : List UInt8) :
    EStateM Int SecContext (List UInt8 × UInt8) := do
  failIf (apdu.length < 5) (-1)
  let ((_, title), rest) ← parse genCipheringHeader (Buf.ofBytes apdu)
  modify (·.adopt title)
  let ((_, ciphered), _) ← parse genCipheringBody rest
  openService hal stale ciphered

/-! ## General-signing -/

/-- `osp_gen_signing_t`. -/
structure GenSigning where
  transactionId : BytesUpTo 32
  originator : SystemTitle
  recipient : BytesUpTo 8
  dateTime : BytesUpTo 32
  otherInformation : BytesUpTo 64
  content : BytesUpTo 1024
  signature : BytesUpTo 96
  deriving DecidableEq

/-- `sec_sign_content`: what is signed is the content alone. -/
def secSignContent (hal : Hal) (ctx : SecContext) (content : List UInt8) : Except Int (List UInt8) :=
  hlsSigBuild hal ctx (some content) 96

/-- `sec_verify_content`. -/
def secVerifyContent (hal : Hal) (ctx : SecContext) (content signature : List UInt8) : Int :=
  hlsSigVerify hal ctx (some content) signature

/-- `osp_gen_signing_encode`. -/
def genSigningEncode (apdu : GenSigning) : Option (List UInt8) :=
  encodeApdu (1056 + 128) do
    axdrWriteU8 0xDF
    writeOctetString apdu.transactionId.val
    writeOctetString apdu.originator.toList
    writeOctetString apdu.recipient.val
    writeOctetString apdu.dateTime.val
    writeOctetString apdu.otherInformation.val
    writeOctetString apdu.content.val
    writeOctetString apdu.signature.val

/-- The fields of a general-signing APDU. -/
def genSigningFields : Read GenSigning := do
  readTag [0xDF]
  let transactionId ← readBounded 32
  let originator ← readTitle
  let recipient ← readBounded 8
  let dateTime ← readBounded 32
  let otherInformation ← readBounded 64
  let content ← readBounded 1024
  return ⟨transactionId, originator, recipient, dateTime, otherInformation, content, ← readBounded 96⟩

/-- `osp_gen_signing_decode`. -/
def genSigningDecode (apdu : List UInt8) : Option GenSigning :=
  if apdu.length < 2 then none
  else
    match genSigningFields (Buf.ofBytes apdu) with
    | .ok decoded _ => some decoded
    | .error _ _ => none

/-- `osp_gen_signing_protect`. -/
def genSigningProtect (hal : Hal) (ctx : SecContext) (transactionId recipient content : List UInt8) :
    Option (List UInt8) :=
  if content.length > 1024 ∨ transactionId.length > 32 ∨ recipient.length > 8 then none
  else
    match secSignContent hal ctx content with
    | .error _ => none
    | .ok signature =>
        genSigningEncode
          { transactionId := BytesUpTo.ofList 32 transactionId
            originator := ctx.systemTitle
            recipient := BytesUpTo.ofList 8 recipient
            dateTime := BytesUpTo.empty 32
            otherInformation := BytesUpTo.empty 64
            content := BytesUpTo.ofList 1024 content
            signature := BytesUpTo.ofList 96 signature }

/-- `osp_gen_signing_unprotect` into a buffer of `room` bytes. -/
def genSigningUnprotect (hal : Hal) (room : ℕ) (apdu : List UInt8) : EStateM Int SecContext (List UInt8) := do
  match genSigningDecode apdu with
  | none => throw (-1)
  | some decoded =>
      modify (·.adopt decoded.originator)
      failIf (secVerifyContent hal (← get) decoded.content.val decoded.signature.val ≠ 0) (-1)
      failIf (decoded.content.val.length > room) (-1)
      return decoded.content.val

end OpenSpodes
