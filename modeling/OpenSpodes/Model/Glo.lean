import OpenSpodes.Model.Kuznyechik
import OpenSpodes.Model.Security

/-! # Service-specific ciphering

A ciphered APDU is a ciphered tag, a length and a body: security control byte, invocation counter
and the protected part. The security control byte of the message, not the policy of the receiver,
selects between the eight ways of removing the protection; the suite of the receiver selects
between the AES and the GOST algorithms.
-/

namespace OpenSpodes

open Bytes Kuznyechik Machine.Fallible

/-- `osp_glo_is_ciphered_tag`. -/
def gloIsCipheredTag (tag : UInt8) : Bool :=
  tag ∈ [0x21, 0x28, 0xC8, 0xC9, 0xCB, 0xCC, 0xCD, 0xCF]

/-- `osp_ded_is_ciphered_tag`. -/
def dedIsCipheredTag (tag : UInt8) : Bool :=
  tag ∈ [0xD0, 0xD1, 0xD3, 0xD4, 0xD5, 0xD7]

/-- `osp_svc_is_ciphered_tag`. -/
def svcIsCipheredTag (tag : UInt8) : Bool := gloIsCipheredTag tag || dedIsCipheredTag tag

/-- `osp_glo_tag_for_plain`. -/
def gloTagForPlain (tag : UInt8) : UInt8 := if 0xC0 ≤ tag ∧ tag ≤ 0xC7 then tag + 0x08 else tag

/-- `osp_glo_plain_tag_for_ciphered`. -/
def gloPlainTagForCiphered (tag : UInt8) : UInt8 := if 0xC8 ≤ tag ∧ tag ≤ 0xCF then tag - 0x08 else tag

/-- `osp_ded_tag_for_plain`. -/
def dedTagForPlain (tag : UInt8) : UInt8 := if 0xC0 ≤ tag ∧ tag ≤ 0xC7 then tag + 0x10 else tag

/-- `osp_svc_cipher_tag_for_plain`. -/
def svcCipherTagForPlain (ctx : SecContext) (tag : UInt8) : UInt8 :=
  if ctx.useDedicatedKey then dedTagForPlain tag else gloTagForPlain tag

/-- `osp_sec_cipher_apply_dedicated_key`: ignored unless the key has 1 to 32 bytes. -/
def secCipherApplyDedicatedKey (ctx : SecContext) (key : List UInt8) : SecContext :=
  if fits : 0 < key.length ∧ key.length ≤ 32 then
    { ctx with dedicatedKey := ⟨key, fits.2⟩, useDedicatedKey := true }
  else ctx

/-- `sec_aes_encryption_key`. -/
def secAesEncryptionKey (ctx : SecContext) : List UInt8 :=
  if ctx.useDedicatedKey then ctx.dedicatedKey.val else ctx.guek.toList.take ctx.suite.aesKeyLen

/-- `sec_gost_k_em_for_cipher`: a dedicated key replaces the encrypting half. -/
def secGostKEmForCipher (ctx : SecContext) : Vector UInt8 64 :=
  if ctx.useDedicatedKey then
    ⟨(padTo 32 ctx.dedicatedKey.val ++ ctx.kEm.toList.drop 32).toArray, by simp⟩
  else ctx.kEm

/-- `glo_build_iv_tx`. -/
def gloBuildIvTx (ctx : SecContext) (ic : UInt32) : Vector UInt8 12 := buildIv ctx.systemTitle ic

/-- `glo_build_iv_rx`: the own title stands in for a peer title that is all zero. -/
def gloBuildIvRx (ctx : SecContext) (ic : UInt32) : Vector UInt8 12 :=
  buildIv (if titleIsZero ctx.peerSystemTitle then ctx.systemTitle else ctx.peerSystemTitle) ic

/-- The associated data that starts every authenticated AES message. -/
def gloAad (ctx : SecContext) (sc : UInt8) : List UInt8 := sc :: ctx.gak.toList.take 16

/-- `glo_write_ciphered_apdu`; `none` is its failure return. -/
def gloWriteCipheredApdu (tag : UInt8) (body : List UInt8) : Option (List UInt8) :=
  if body.length + 8 > 1056 then none
  else
    let written : Write Unit := do
      axdrWriteU8 tag
      dlmsWriteLen body.length
      writeBytes body .nomem
    match written (WBuf.init 1056) with
    | .ok _ buf => some buf.out
    | .error _ _ => none

/-- The protected part of an outgoing message: payload and, when authenticated, its tag. -/
def gloSeal (hal : Hal) (ctx : SecContext) (sc : UInt8) (iv : Vector UInt8 12)
    (plaintext : List UInt8) : Option (List UInt8) :=
  if ctx.suite.usesGostKem then
    (gostKuznAeadEncrypt (secGostKEmForCipher ctx) iv sc [] plaintext (scAuth sc) (scEncr sc)).map
      fun sealed => sealed.1 ++ sealed.2
  else
    match hal.gcmCrypt with
    | none => none
    | some gcm =>
        let key := secAesEncryptionKey ctx
        match scAuth sc, scEncr sc with
        | true, true =>
            let call : GcmCall := ⟨.encrypt, key, iv, gloAad ctx sc, plaintext, none, true⟩
            if (gcm call).rc ≠ 0 then none else some ((gcm call).out.toList ++ (gcm call).tagOut.toList)
        | true, false =>
            let call : GcmCall := ⟨.encrypt, key, iv, gloAad ctx sc ++ plaintext, [], none, true⟩
            if (gcm call).rc ≠ 0 then none else some (plaintext ++ (gcm call).tagOut.toList)
        | false, true =>
            let call : GcmCall := ⟨.encrypt, key, iv, [], plaintext, none, false⟩
            if (gcm call).rc ≠ 0 then none else some (gcm call).out.toList
        | false, false => some plaintext

/-- `osp_glo_protect`; `none` is its failure return. -/
def gloProtect (hal : Hal) (ctx : SecContext) (tag : UInt8) (plaintext : List UInt8) :
    Option (List UInt8) :=
  if plaintext.length > 1024 then none
  else
    let sc := secControlByte ctx.policy ctx.suite
    let ic := ctx.invocationCounter
    match gloSeal hal ctx sc (gloBuildIvTx ctx ic) plaintext with
    | none => none
    | some protectedPart => gloWriteCipheredApdu tag ([sc] ++ icBytes ic ++ protectedPart)

/-- The counter behind one protected message; the last value is never left. -/
def SecContext.advance (ctx : SecContext) : SecContext :=
  if ctx.invocationCounter = 0xFFFFFFFF then ctx
  else { ctx with invocationCounter := ctx.invocationCounter + 1 }

/-- The body of a ciphered APDU, when its tag, its length and its size are acceptable. -/
def gloBody (ciphered : List UInt8) : Option (List UInt8) :=
  if ciphered.length < 7 then none
  else if !svcIsCipheredTag (ciphered.getD 0 0) then none
  else
    let header : Read ℕ := do
      let _ ← axdrReadU8
      dlmsReadLen
    match header (Buf.ofBytes ciphered) with
    | .error _ _ => none
    | .ok bodyLen buf => if bodyLen < 5 ∨ buf.unread < bodyLen then none else some (buf.slice bodyLen)

def bodySc (body : List UInt8) : UInt8 := body.getD 0 0

def bodyIc (body : List UInt8) : UInt32 := icOfBytes ((body.drop 1).take 4)

def bodyProtected (body : List UInt8) : List UInt8 := body.drop 5

/-- Remove a GOST protection. A wrong tag is reported as `-3`. -/
def gloOpenGost (ctx : SecContext) (sc : UInt8) (iv : Vector UInt8 12) (protectedPart : List UInt8) :
    Except Int (List UInt8) :=
  let kEm := secGostKEmForCipher ctx
  if scAuth sc then
    if protectedPart.length < 12 then .error (-1)
    else
      let len := protectedPart.length - 12
      if len > 1024 then .error (-1)
      else
        match gostKuznAeadDecrypt kEm iv sc [] (protectedPart.take len) true (scEncr sc)
            (protectedPart.drop len) with
        | .ok plain => .ok plain
        | .error rc => if rc = -2 then .error (-3) else .error (-1)
  else if protectedPart.length > 1024 then .error (-1)
  else if scEncr sc then
    match gostKuznAeadDecrypt kEm iv sc [] protectedPart false true [] with
    | .ok plain => .ok plain
    | .error _ => .error (-3)
  else .ok protectedPart

/-- Remove an AES protection. A refusal of the HAL is reported as `-3`. -/
def gloOpenGcm (gcm : (call : GcmCall) → GcmResult call) (ctx : SecContext) (sc : UInt8)
    (iv : Vector UInt8 12) (protectedPart : List UInt8) : Except Int (List UInt8) :=
  let key := secAesEncryptionKey ctx
  if scAuth sc then
    if protectedPart.length < 12 then .error (-1)
    else
      let len := protectedPart.length - 12
      let payload := protectedPart.take len
      let tag := protectedPart.drop len
      if len > 1024 then .error (-1)
      else if scEncr sc then
        let call : GcmCall := ⟨.decrypt, key, iv, gloAad ctx sc, payload, some tag, false⟩
        if (gcm call).rc ≠ 0 then .error (-3) else .ok (gcm call).out.toList
      else
        let call : GcmCall := ⟨.decrypt, key, iv, gloAad ctx sc ++ payload, [], some tag, false⟩
        if (gcm call).rc ≠ 0 then .error (-3) else .ok payload
  else if protectedPart.length > 1024 then .error (-1)
  else if scEncr sc then
    let call : GcmCall := ⟨.decrypt, key, iv, [], protectedPart, none, false⟩
    if (gcm call).rc ≠ 0 then .error (-3) else .ok (gcm call).out.toList
  else .ok protectedPart

/-- Remove the protection that the security control byte announces. -/
def gloOpen (hal : Hal) (ctx : SecContext) (sc : UInt8) (ic : UInt32) (protectedPart : List UInt8) :
    Except Int (List UInt8) :=
  if ctx.suite.usesGostKem then gloOpenGost ctx sc (gloBuildIvRx ctx ic) protectedPart
  else
    match hal.gcmCrypt with
    | none => .error (-1)
    | some gcm => gloOpenGcm gcm ctx sc (gloBuildIvRx ctx ic) protectedPart

/-- `osp_glo_unprotect` on the receiver's context; an error is its non-zero return code. -/
def gloUnprotect (hal : Hal) (ciphered : List UInt8) : EStateM Int SecContext (List UInt8) := do
  let ctx ← get
  failIf (!ctx.suite.usesGostKem ∧ hal.gcmCrypt.isNone) (-1)
  match gloBody ciphered with
  | none => throw (-1)
  | some body =>
      let ic := bodyIc body
      failIf (ctx.icValid ∧ ic ≤ ctx.lastPeerIc) (-2)
      match gloOpen hal ctx (bodySc body) ic (bodyProtected body) with
      | .error rc => throw rc
      | .ok plain =>
          set { ctx with
            lastPeerIc := ic, icValid := true, policy := secControlToPolicy (bodySc body) }
          return plain

end OpenSpodes
