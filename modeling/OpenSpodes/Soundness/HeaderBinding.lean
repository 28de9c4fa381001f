import OpenSpodes.Proofs.GeneralCiphering
import OpenSpodes.Proofs.Protect
import OpenSpodes.Proofs.Unprotect

/-! # Which header fields a general envelope protects

The tag of a general-ciphered service covers the service, and its vector is built from the
originator's title: another originator means another vector, and the tag is refused. The signature of a
general-signing APDU covers the content and nothing else, so the receiver's verdict on a content and its
signature is the same under every header.
-/

namespace OpenSpodes

open Machine.Fallible

variable {apdu : List UInt8}

def gloOpenWith (hal : Hal) (ctx : SecContext) (sc : UInt8) (iv : Vector UInt8 12) (protectedPart : List UInt8) :
    Except Int (List UInt8) :=
  if ctx.suite.usesGostKem then gloOpenGost ctx sc iv protectedPart
  else
    match hal.gcmCrypt with
    | none => .error (-1)
    | some gcm => gloOpenGcm gcm ctx sc iv protectedPart

/-- The title that a receiver's vector is built from when it was sent this one. -/
def SecContext.originatorTitle (ctx : SecContext) (title : SystemTitle) : SystemTitle :=
  if titleIsZero title then ctx.systemTitle else title

/-- The tag of a message by `tx`, if it has one, is accepted by `rx` under the vector of `tx` only. -/
def AeadBindsNonce (hal : Hal) (tx rx : SecContext) (message : List UInt8) : Prop :=
  ∀ body, gloBody message = some body → scAuth (bodySc body) = true →
    ∀ iv opened, gloOpenWith hal rx (bodySc body) iv (bodyProtected body) = .ok opened →
      iv = gloBuildIvTx tx (bodyIc body)

/-! ## General-ciphering -/

section Ciphering

variable {hal : Hal} {tx rx : SecContext}

/-- Only the body and the originator's title reach the deciphering. -/
theorem genCipheringUnprotect_eq {fields : CipheredFields} (carried : fields.CarriedBy apdu) (stale : UInt8)
    (ctx : SecContext) :
    genCipheringUnprotect hal stale apdu ctx = openService hal stale fields.body (ctx.adopt fields.originator) := by
  obtain ⟨long, rest, behind, header, body⟩ := carried
  rw [genCipheringUnprotect, failIf_bind_of_not (by omega), parse, header, bind_of_ok (pure_apply _ _)]
  dsimp only
  rw [modify_bind, parse, body, bind_of_ok (pure_apply _ _)]

/-- A message of `tx` is not deciphered under the title of another originator. -/
theorem gloUnprotect_other_title {tag : UInt8} {plain message : List UInt8} {title : SystemTitle}
    (auth : tx.policy.auth = true) (sealed : gloProtect hal tx tag plain = some message)
    (binds : AeadBindsNonce hal tx rx message) (other : rx.originatorTitle title ≠ tx.systemTitle)
    (out : List UInt8) (next : SecContext) : gloUnprotect hal message (rx.adopt title) ≠ .ok out next := by
  intro accepted
  obtain ⟨body, accepts, -⟩ := gloUnprotect_ok accepted
  obtain ⟨-, ciphered⟩ := gloBody_tag accepts.parsed
  have tagged : message.getD 0 0 = tag := by
    obtain ⟨_, _, -, rfl, -⟩ := gloProtect_eq_some sealed
    rfl
  rw [tagged] at ciphered
  obtain ⟨protectedPart, parsed⟩ := gloProtect_body ciphered sealed
  have same : body = secControlByte tx.policy tx.suite :: (icBytes tx.invocationCounter ++ protectedPart) :=
    Option.some.inj (accepts.parsed.symm.trans parsed)
  have signed : scAuth (bodySc body) = true := by
    rw [same]
    exact (scAuth_secControlByte tx.policy tx.suite).trans auth
  -- The vector, and nothing else, depends on the title that was taken over.
  have opened : gloOpenWith hal rx (bodySc body) (buildIv (rx.originatorTitle title) (bodyIc body)) (body.drop 5) = _ :=
    accepts.opened
  exact other (buildIv_injective (binds body accepts.parsed signed _ _ opened)).1

end Ciphering

/-! ## General-signing -/

/-- Content and signature decide the outcome; the title that was taken over plays no part in it. -/
theorem outcome_genSigningUnprotect {hal : Hal} {room : ℕ} {fields : GenSigning}
    (decoded : genSigningDecode apdu = some fields) (ctx : SecContext) :
    outcome (genSigningUnprotect hal room apdu) ctx =
      if secVerifyContent hal ctx fields.content.val fields.signature.val = 0 ∧ fields.content.val.length ≤ room then
        some fields.content.val else none := by
  have verdict : secVerifyContent hal (ctx.adopt fields.originator) fields.content.val fields.signature.val =
      secVerifyContent hal ctx fields.content.val fields.signature.val := rfl
  simp only [genSigningUnprotect, decoded, outcome_modify_bind, outcome_get_bind, outcome_failIf_bind, outcome_pure]
  rw [verdict]
  by_cases verified : secVerifyContent hal ctx fields.content.val fields.signature.val = 0
  · by_cases fits : fields.content.val.length ≤ room
    · rw [if_neg (not_not.mpr verified), if_neg (Nat.not_lt.mpr fits), if_pos ⟨verified, fits⟩]
    · rw [if_neg (not_not.mpr verified), if_pos (Nat.lt_of_not_le fits), if_neg (fun accepted => fits accepted.2)]
  · rw [if_pos verified, if_neg (fun accepted => verified accepted.1)]

/-- The signed content in the APDU of `genSigningProtect`. -/
theorem genSigningProtect_decodes {hal : Hal} {tx : SecContext} {transactionId recipient content : List UInt8}
    (produced : genSigningProtect hal tx transactionId recipient content = some apdu) :
    ∃ fields, genSigningDecode apdu = some fields ∧ fields.transactionId.val = transactionId ∧
      fields.originator = tx.systemTitle ∧ fields.recipient.val = recipient ∧ fields.content.val = content ∧
      ∃ signature, secSignContent hal tx content = .ok signature ∧ fields.signature.val = signature.take 96 := by
  unfold genSigningProtect at produced
  split_ifs at produced with excess
  simp only [not_or, gt_iff_lt, not_lt] at excess
  obtain ⟨contentFits, idFits, recipientFits⟩ := excess
  cases signed : secSignContent hal tx content with
  | error rc => simp [signed] at produced
  | ok signature =>
    simp only [signed] at produced
    exact ⟨_, genSigningDecode_encode produced, List.take_of_length_le idFits, rfl,
      List.take_of_length_le recipientFits, List.take_of_length_le contentFits, signature, rfl, rfl⟩

/-! ## An ideal HAL -/

/-- No encryption, and the vector itself for a tag. -/
def nonceGcm (call : GcmCall) : GcmResult call :=
  ⟨if call.dir = .decrypt ∧ call.tagIn ≠ some call.iv.toList then -1 else 0, ⟨call.input.toArray, by simp⟩, call.iv⟩

/-- A HAL with that cipher, in which the signature of a message is the message. -/
def nonceHal : Hal :=
  { sampleHal with
    gcmCrypt := some nonceGcm
    ecdsaSign := some fun _ _ message => (0, message)
    ecdsaVerify := some fun _ _ message signature => if signature = message then 0 else -1 }

private theorem nonceHal_opens {rx : SecContext} {sc : UInt8} {iv : Vector UInt8 12} {part opened : List UInt8}
    (aes : rx.suite.usesGostKem = false) (auth : scAuth sc = true)
    (accepted : gloOpenWith nonceHal rx sc iv part = .ok opened) : part.drop (part.length - 12) = iv.toList := by
  have installed : nonceHal.gcmCrypt = some nonceGcm := rfl
  simp only [gloOpenWith, aes, Bool.false_eq_true, if_false, installed, gloOpenGcm, auth, if_true] at accepted
  by_contra different
  have refused (aad input : List UInt8) :
      (nonceGcm ⟨.decrypt, secAesEncryptionKey rx, iv, aad, input, some (part.drop (part.length - 12)), false⟩).rc ≠
        0 := by
    simp [nonceGcm, different]
  split_ifs at accepted with short long encr passed passed
  · exact passed (refused _ _)
  · exact passed (refused _ _)

def envelopeTx : SecContext :=
  { secContextInit .suite1 .hlsEcdsa (Vector.replicate 8 9) with
    policy := .authOnly, invocationCounter := 1, signingKey := ⟨[1], by decide⟩ }

def envelopeRx : SecContext :=
  { secContextInit .suite1 .hlsEcdsa (Vector.replicate 8 7) with peerPublicKey := ⟨[1], by decide⟩ }

/-! ## Both -/

/-- The ciphered body of an authenticated general-ciphering APDU is refused with another originator; a
signed content is accepted or refused with its signature, whatever the header around them says. -/
theorem general_header_binding (hal : Hal) (tx rx : SecContext) :
    (∀ transactionId recipient tag plain apdu, tx.policy.auth = true →
        genCipheringProtect hal tx transactionId recipient tag plain = some apdu →
        ∃ body, CipheredFields.CarriedBy ⟨transactionId, tx.systemTitle, recipient, body⟩ apdu ∧
          (AeadBindsNonce hal tx rx body → ∀ (fields : CipheredFields) other, fields.CarriedBy other → fields.body = body →
            rx.originatorTitle fields.originator ≠ tx.systemTitle →
            ∀ stale, ∃ next, genCipheringUnprotect hal stale other rx = .error (-1) next)) ∧
      ∀ transactionId recipient content apdu, genSigningProtect hal tx transactionId recipient content = some apdu →
        ∃ fields, genSigningDecode apdu = some fields ∧ fields.transactionId.val = transactionId ∧
          fields.originator = tx.systemTitle ∧ fields.recipient.val = recipient ∧ fields.content.val = content ∧
          ∀ others other, genSigningDecode other = some others → others.content = fields.content →
            others.signature = fields.signature → ∀ room,
            outcome (genSigningUnprotect hal room other) rx = outcome (genSigningUnprotect hal room apdu) rx := by
  constructor
  · intro transactionId recipient tag plain apdu auth produced
    obtain ⟨body, sealed, carried⟩ := genCipheringProtect_carries produced
    refine ⟨body, carried, ?_⟩
    rintro binds fields other carriedOther rfl different stale
    rw [genCipheringUnprotect_eq carriedOther]
    cases opened : gloUnprotect hal fields.body (rx.adopt fields.originator) with
    | ok plain next => exact absurd opened (gloUnprotect_other_title auth sealed binds different plain next)
    | error rc next =>
      refine ⟨next, ?_⟩
      simp only [openService, get_bind, opened, set_bind, throw_apply]
  · intro transactionId recipient content apdu produced
    obtain ⟨fields, decoded, identified, originated, addressed, filled, -⟩ := genSigningProtect_decodes produced
    refine ⟨fields, decoded, identified, originated, addressed, filled, ?_⟩
    intro others other decodedOther sameContent sameSignature room
    rw [outcome_genSigningUnprotect decoded, outcome_genSigningUnprotect decodedOther, sameContent, sameSignature]

/-- The ciphered service that the sender makes of a plaintext of two bytes. -/
def envelopeBody : List UInt8 := (gloProtect nonceHal envelopeTx 0xC8 [0xC0, 1]).getD []

/-- It in a general-ciphering APDU with the given transaction identifier, originator and recipient. -/
def envelope (transactionId originator recipient : List UInt8) : List UInt8 :=
  [0xDD] ++ octetString transactionId ++ octetString originator ++ octetString recipient ++ [0, 0, 0] ++
    octetString envelopeBody

private theorem envelope_bound : AeadBindsNonce nonceHal envelopeTx envelopeRx envelopeBody := by
  intro body parsed auth iv opened accepted
  have concrete : gloBody envelopeBody =
      some ([0x11, 0, 0, 0, 1, 0xC0, 1] ++ List.replicate 8 9 ++ [0, 0, 0, 1]) := by decide +kernel
  obtain rfl := Option.some.inj (parsed.symm.trans concrete)
  have tag := nonceHal_opens rfl auth accepted
  exact Vector.toList_inj.mp (tag.symm.trans (by decide +kernel))

/-- The service is refused under a third party's title. -/
theorem general_header_binding_third_party :
    genCipheringProtect nonceHal envelopeTx [5] (List.replicate 8 7) 0xC0 [0xC0, 1] =
        some (envelope [5] (List.replicate 8 9) (List.replicate 8 7)) ∧
      ∃ next, genCipheringUnprotect nonceHal 0 (envelope [5] (List.replicate 8 8) (List.replicate 8 7)) envelopeRx =
        .error (-1) next := by
  have produced : genCipheringProtect nonceHal envelopeTx [5] (List.replicate 8 7) 0xC0 [0xC0, 1] =
      some (envelope [5] (List.replicate 8 9) (List.replicate 8 7)) := by decide +kernel
  refine ⟨produced, ?_⟩
  obtain ⟨body, ⟨-, rest, behind, header, parsed⟩, refuses⟩ :=
    (general_header_binding nonceHal envelopeTx envelopeRx).1 [5] (List.replicate 8 7) 0xC0 [0xC0, 1] _ rfl produced
  have fields : outcome (genCipheringHeader >>= fun _ => genCipheringBody)
      (Buf.ofBytes (envelope [5] (List.replicate 8 9) (List.replicate 8 7))) =
        some (List.replicate 8 7, envelopeBody) := by decide +kernel
  simp only [outcome, bind_of_ok header, parsed, Option.some.injEq, Prod.mk.injEq, true_and] at fields
  subst fields
  exact refuses envelope_bound ⟨[5], Vector.replicate 8 8, List.replicate 8 7, envelopeBody⟩ _
    ⟨by decide +kernel, _, _, rfl, rfl⟩ rfl (by decide) 0

/-- A signed content is accepted under another transaction identifier, originator and recipient, and the
ciphered service under another transaction identifier and recipient. -/
theorem general_header_not_bound :
    let signed := genSigningProtect nonceHal envelopeTx [5] (List.replicate 8 7) [0xC4, 1]
    let altered := [0xDF] ++ octetString [6] ++ octetString (List.replicate 8 8) ++ octetString [] ++ [0, 0] ++
      octetString [0xC4, 1] ++ octetString [0xC4, 1]
    signed = some ([0xDF] ++ octetString [5] ++ octetString (List.replicate 8 9) ++ octetString (List.replicate 8 7) ++
        [0, 0] ++ octetString [0xC4, 1] ++ octetString [0xC4, 1]) ∧
      outcome (genSigningUnprotect nonceHal 1024 altered) envelopeRx = some [0xC4, 1] ∧
      genCipheringProtect nonceHal envelopeTx [5] (List.replicate 8 7) 0xC0 [0xC0, 1] =
        some (envelope [5] (List.replicate 8 9) (List.replicate 8 7)) ∧
      outcome (genCipheringUnprotect nonceHal 0 (envelope [6] (List.replicate 8 9) [])) envelopeRx =
        some ([0xC0, 1], 0xC0) := by
  refine ⟨?_, ?_, ?_, ?_⟩ <;> decide +kernel

end OpenSpodes
