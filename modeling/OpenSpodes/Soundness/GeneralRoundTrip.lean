import OpenSpodes.Soundness.HeaderBinding
import OpenSpodes.Soundness.ProtectRoundTrip

/-! # What was put into a general envelope is recovered

The receiver takes the originator's title from the envelope. From then on it stands to the sender as
`SecContext.Reaches` asks, and the service inside is opened like one that came without an envelope. A
signed content is handed out when the receiver's key verifies what the sender's key made.
-/

namespace OpenSpodes

open Bytes Machine.Fallible

variable {hal : Hal} {tx rx : SecContext} {apdu plain : List UInt8}

/-- The tags of GET, SET and ACTION requests and responses. -/
def serviceTags : List UInt8 := [0xC0, 0xC1, 0xC3, 0xC4, 0xC5, 0xC7]

/-- A receiver with the sender's keys that has not yet seen its counter. -/
structure SecContext.Mirrors (tx rx : SecContext) : Prop where
  shares : tx.SharesKeys rx
  nonzero : titleIsZero tx.systemTitle = false
  fresh : rx.icValid = true → rx.lastPeerIc < tx.invocationCounter

/-- What the sender's key signs verifies under the key that the receiver holds. -/
structure SecContext.SignsFor (hal : Hal) (tx rx : SecContext) : Prop where
  mechanism : rx.mechanism = tx.mechanism
  ecdsa : tx.mechanism = .hlsEcdsa → rx.peerPublicKey.val.length ≠ 0 ∧
    ∀ sign ∈ hal.ecdsaSign, ∃ verify ∈ hal.ecdsaVerify, ∀ msg,
      let signed := sign tx.suite tx.signingKey.val msg
      signed.1 = 0 → signed.2.length ≤ 96 ∧ verify rx.suite rx.peerPublicKey.val msg signed.2 = 0
  gost : tx.mechanism = .hlsGostSig → rx.peerPublicKey.val.length = 64 ∧
    ∀ msg, ∀ sig ∈ hal.gost3410Sign tx.signingKey.val msg, hal.gost3410Verify rx.peerPublicKey.val msg sig.toList = 0

/-! ## Ciphered services -/

/-- The service inside an envelope is opened once the title has been taken over. -/
theorem openService_protected {tag first : UInt8} {rest body : List UInt8} (works : hal.Ciphers tx.suite)
    (mirrors : tx.Mirrors rx) (service : tag ∈ serviceTags) (leads : first ∈ serviceTags) (fits : rest.length < 1024)
    (sealed : gloProtect hal tx (gloTagForPlain tag) (first :: rest) = some body) (stale : UInt8) :
    outcome (openService hal stale body) (rx.adopt tx.systemTitle) = some (first :: rest, first) := by
  have reaches : tx.Reaches (rx.adopt tx.systemTitle) :=
    ⟨{ mirrors.shares with }, rfl, mirrors.nonzero, mirrors.fresh⟩
  have ciphered : ∀ tag ∈ serviceTags, svcIsCipheredTag (gloTagForPlain tag) = true :=
    List.forall_iff_forall_mem.mp (by decide)
  have plainTag : ∀ tag ∈ serviceTags, gloPlainTagForCiphered tag = tag :=
    List.forall_iff_forall_mem.mp (by decide)
  obtain ⟨sent, inner, done, accepts, -⟩ :=
    gloProtect_accepted works reaches (ciphered tag service) (show 0 < (first :: rest).length by simp) fits
  obtain rfl : sent = body := Option.some.inj (done.symm.trans sealed)
  rw [openService, outcome_get_bind, gloUnprotect_of_accepts accepts]
  simp [outcome, plainTag first leads]

theorem genGloDedUnprotect_protect {dedicated : Bool} {tag : UInt8}
    (produced : genGloDedProtect hal tx dedicated tag plain = some apdu) :
    ∃ body, gloProtect hal tx (gloTagForPlain tag) plain = some body ∧ ∀ stale rx,
      genGloDedUnprotect hal stale apdu rx = openService hal stale body (rx.adopt tx.systemTitle) := by
  unfold genGloDedProtect at produced
  cases sealed : gloProtect hal tx (gloTagForPlain tag) plain with
  | none => simp [sealed] at produced
  | some body =>
    simp only [sealed] at produced
    obtain ⟨rfl, fits⟩ := encodeApdu_eq_some ((writeBytes_writes [if dedicated then 0xDC else 0xDB] .invalid).andThen
      ((writeOctetString_writes tx.systemTitle.toList).andThen (writeOctetString_writes body))) produced
    have nonempty : ¬body.length < 1 := by
      obtain ⟨_, _, -, rfl, -⟩ := gloProtect_eq_some sealed
      simp
    have bodyLength := le_length_octetString body
    have titleLength := le_length_octetString tx.systemTitle.toList
    simp only [List.length_append, List.length_singleton, Vector.length_toList] at fits titleLength
    have header : Takes genGloDedHeader ([if dedicated then 0xDC else 0xDB] ++ octetString tx.systemTitle.toList)
        tx.systemTitle.toList :=
      (readTag_takes (by cases dedicated <;> simp)).bind (readOctetString_takes (by simp))
    have inner : Takes genGloDedBody (octetString body) body :=
      (readOctetString_takes (by omega)).last (.check nonempty (.pure _))
    rw [← List.append_assoc]
    obtain ⟨behind, last, parsed, opened⟩ := header.thenOfBytes inner
      (by simp only [List.length_append, List.length_singleton]; omega)
    refine ⟨body, rfl, ?_⟩
    intro stale rx
    rw [genGloDedUnprotect, failIf_bind_of_not (by simp only [List.length_append, List.length_singleton]; omega), parse,
      parsed, bind_of_ok (pure_apply _ _)]
    dsimp only
    rw [modify_bind, parse, opened, bind_of_ok (pure_apply _ _), if_pos Vector.length_toList, titleOf_toList]

/-! ## Signed contents -/

/-- A signature of the sender fits the field and verifies. -/
theorem secVerifyContent_sign {content signature : List UInt8} (signs : tx.SignsFor hal rx)
    (signed : secSignContent hal tx content = .ok signature) :
    signature.length ≤ 96 ∧ secVerifyContent hal rx content signature = 0 := by
  unfold secSignContent hlsSigBuild at signed
  cases mechanism : tx.mechanism with
  | hlsEcdsa =>
    obtain ⟨present, verifies⟩ := signs.ecdsa mechanism
    cases installed : hal.ecdsaSign with
    | none => simp [mechanism, installed] at signed
    | some sign =>
      obtain ⟨verify, verifier, accepts⟩ := verifies sign installed
      simp only [mechanism, installed] at signed
      split_ifs at signed with unfit failed
      cases signed
      obtain ⟨short, verified⟩ := accepts content (not_not.mp failed)
      refine ⟨short, ?_⟩
      simp only [secVerifyContent, hlsSigVerify, signs.mechanism, mechanism, Option.mem_def.mp verifier, if_neg present,
        verified]
  | hlsGostSig =>
    obtain ⟨length, verifies⟩ := signs.gost mechanism
    simp only [mechanism] at signed
    split_ifs at signed
    cases made : hal.gost3410Sign tx.signingKey.val content with
    | none => simp [made] at signed
    | some sig =>
      simp only [made] at signed
      cases signed
      simp [secVerifyContent, hlsSigVerify, signs.mechanism, mechanism, length, verifies content sig made]
  | _ => simp [mechanism] at signed

/-! ## All three envelopes -/

/-- Whatever one of the protect functions returns is opened by the matching unprotect function: to the plaintext and its
first byte, or to the content. -/
theorem general_protection_round_trip (hal : Hal) (tx rx : SecContext) (works : hal.Ciphers tx.suite)
    (mirrors : tx.Mirrors rx) :
    (∀ tag ∈ serviceTags, ∀ first ∈ serviceTags, ∀ rest : List UInt8, rest.length < 1024 → ∀ apdu stale,
      (∀ dedicated, genGloDedProtect hal tx dedicated tag (first :: rest) = some apdu →
        outcome (genGloDedUnprotect hal stale apdu) rx = some (first :: rest, first)) ∧
      ∀ transactionId recipient, genCipheringProtect hal tx transactionId recipient tag (first :: rest) = some apdu →
        outcome (genCipheringUnprotect hal stale apdu) rx = some (first :: rest, first)) ∧
    (tx.SignsFor hal rx → ∀ transactionId recipient content apdu room,
      genSigningProtect hal tx transactionId recipient content = some apdu → content.length ≤ room →
        outcome (genSigningUnprotect hal room apdu) rx = some content) := by
  constructor
  · intro tag service first leads rest fits apdu stale
    constructor
    · intro dedicated produced
      obtain ⟨body, sealed, opens⟩ := genGloDedUnprotect_protect produced
      rw [outcome, opens]
      exact openService_protected works mirrors service leads fits sealed stale
    · intro transactionId recipient produced
      obtain ⟨body, sealed, carried⟩ := genCipheringProtect_carries produced
      rw [outcome, genCipheringUnprotect_eq carried]
      exact openService_protected works mirrors service leads fits sealed stale
  · intro signs transactionId recipient content apdu room produced fits
    obtain ⟨fields, decoded, -, -, -, rfl, signature, signed, carried⟩ := genSigningProtect_decodes produced
    obtain ⟨short, verified⟩ := secVerifyContent_sign signs signed
    rw [outcome_genSigningUnprotect decoded, carried, List.take_of_length_le short, if_pos ⟨verified, fits⟩]

/-- A HAL that signs with the front of the message. -/
def frontHal : Hal :=
  { sampleHal with
    ecdsaSign := some fun _ _ message => (0, message.take 96)
    ecdsaVerify := some fun _ _ message signature => if signature = message.take 96 then 0 else -1 }

theorem general_protection_round_trip_envelope :
    (∃ apdu, genGloDedProtect frontHal envelopeTx true 0xC0 [0xC0, 1] = some apdu ∧
      outcome (genGloDedUnprotect frontHal 0 apdu) envelopeRx = some ([0xC0, 1], 0xC0)) ∧
    ∃ apdu, genSigningProtect frontHal envelopeTx [5] [] [0xC4] = some apdu ∧
      outcome (genSigningUnprotect frontHal 1024 apdu) envelopeRx = some [0xC4] := by
  have signs : envelopeTx.SignsFor frontHal envelopeRx := by
    refine ⟨rfl, fun _ => ⟨by decide, ?_⟩, fun gost => absurd gost (by decide)⟩
    rintro sign ⟨rfl⟩
    exact ⟨_, rfl, fun msg _ => ⟨List.length_take_le 96 msg, if_pos rfl⟩⟩
  have mirrors : envelopeTx.Mirrors envelopeRx :=
    ⟨⟨rfl, rfl, rfl, rfl, rfl, rfl⟩, rfl, fun valid => absurd valid (by decide)⟩
  obtain ⟨ciphered, signed⟩ := general_protection_round_trip frontHal envelopeTx envelopeRx
    (fun _ => ⟨sampleGcm, rfl, sampleGcm_inverts⟩) mirrors
  constructor
  · obtain ⟨apdu, produced⟩ := Option.isSome_iff_exists.mp
      (show (genGloDedProtect frontHal envelopeTx true 0xC0 [0xC0, 1]).isSome = true by decide +kernel)
    exact ⟨apdu, produced, (ciphered 0xC0 (by decide) 0xC0 (by decide) [1] (by decide) apdu 0).1 true produced⟩
  · obtain ⟨apdu, produced⟩ := Option.isSome_iff_exists.mp
      (show (genSigningProtect frontHal envelopeTx [5] [] [0xC4]).isSome = true by decide +kernel)
    exact ⟨apdu, produced, signed signs [5] [] [0xC4] apdu 1024 produced (by decide)⟩

end OpenSpodes
