import OpenSpodes.Model.ClientConnect
import OpenSpodes.Proofs.HlsAgreement
import OpenSpodes.Proofs.HlsHighInjective
import OpenSpodes.Proofs.Unprotect

/-! # When a client accepts its own pass-3 value as pass 4

Nothing compares StoC with CtoS or the two titles, so an attacker who answers with the client's own
pass-3 value succeeds exactly when both passes feed the same input to the keyed function, or when
their two different inputs collide under it. Which choices of StoC and responding title give equal
inputs depends on the mechanism: the password function and the MD5, SHA-1 and GMAC ones see one
challenge, the others see both in the order of the pass.
-/

namespace OpenSpodes

open Bytes Kuznyechik HlsHigh Machine.Fallible

variable {value mac : List UInt8}

/-- The mechanisms whose authenticator is computed with a shared key. -/
def Mechanism.symmetric : Mechanism → Bool
  | .hls | .hlsMd5 | .hlsSha1 | .hlsGmac | .hlsSha256 | .hlsGostCmac | .hlsGostStreebog => true
  | _ => false

/-- Input of a keyed function: the initialisation vector, zero for the hashes, and the data. -/
structure PassInput where
  iv : Vector UInt8 12
  data : List UInt8
  deriving DecidableEq

/-- The input for an originator's title, the other title and the two challenges in pass order. -/
def passInput (ctx : SecContext) (title other : SystemTitle) (first second : List UInt8) : PassInput :=
  let noIv : Vector UInt8 12 := Vector.replicate 12 0
  match ctx.mechanism with
  | .hls => ⟨noIv, paddedChallenge first ctx.hlsSecret.val⟩
  | .hlsMd5 | .hlsSha1 => ⟨noIv, first ++ ctx.gak.toList.take 16⟩
  | .hlsGmac => ⟨buildIv title ctx.invocationCounter, hlsGmacAad ctx first⟩
  | .hlsGostCmac => ⟨buildIv title ctx.invocationCounter, [hlsSc ctx] ++ first ++ second⟩
  | .hlsSha256 | .hlsGostStreebog => ⟨noIv, hlsTitledInput ctx title other first second⟩
  | _ => ⟨noIv, []⟩

def pass3Input (ctx : SecContext) : PassInput :=
  passInput ctx ctx.systemTitle ctx.peerSystemTitle ctx.stoc.val ctx.ctos.val

/-- The input of pass 4 as the client expects it; GMAC falls back to its own title. -/
def pass4Input (ctx : SecContext) : PassInput :=
  passInput ctx (if ctx.mechanism = .hlsGmac then hlsGmacIvTitle ctx true else ctx.peerSystemTitle)
    ctx.systemTitle ctx.ctos.val ctx.stoc.val

def passFunction (hal : Hal) (ctx : SecContext) (input : PassInput) : Option (List UInt8) :=
  match ctx.mechanism with
  | .hls => some (encryptBlocks (blockOf ctx.hlsSecret.val) (input.data.length / 16) input.data)
  | .hlsMd5 => hal.md5.map fun digest => (digest input.data).toList
  | .hlsSha1 => hal.sha1.map fun digest => (digest input.data).toList
  | .hlsSha256 => hal.sha256.map fun digest => (digest input.data).toList
  | .hlsGostStreebog => some (hlsStreebog256 hal input.data)
  | .hlsGostCmac => some (gostKuznyechikCmac (keyMac ctx.kEm) (input.iv.toList ++ input.data)).toList
  | .hlsGmac => hlsGmacTag hal ctx input.iv input.data
  | _ => none

/-- The choices of StoC and responding title for which both passes have one input. -/
def SamePassInput (ctx : SecContext) : Prop :=
  match ctx.mechanism with
  | .hls =>
      paddedChallenge ctx.stoc.val ctx.hlsSecret.val = paddedChallenge ctx.ctos.val ctx.hlsSecret.val
  | .hlsMd5 | .hlsSha1 => ctx.stoc = ctx.ctos
  | .hlsGmac =>
      (titleIsZero ctx.peerSystemTitle = true ∨ ctx.peerSystemTitle = ctx.systemTitle) ∧
        ctx.stoc = ctx.ctos
  | .hlsSha256 | .hlsGostCmac | .hlsGostStreebog =>
      ctx.peerSystemTitle = ctx.systemTitle ∧
        ctx.stoc.val ++ ctx.ctos.val = ctx.ctos.val ++ ctx.stoc.val
  | _ => False

/-- The two passes' inputs differ and the keyed function maps them to one value; the password
function is injective and has no collision. -/
def PassCollision (hal : Hal) (ctx : SecContext) : Prop :=
  ctx.mechanism ≠ .hls ∧ pass3Input ctx ≠ pass4Input ctx ∧
    passFunction hal ctx (pass3Input ctx) = passFunction hal ctx (pass4Input ctx)

variable {hal : Hal} {ctx : SecContext}

/-! ## Equal inputs -/

private theorem hlsGmacAad_inj {first second : BytesUpTo 64} :
    hlsGmacAad ctx first.val = hlsGmacAad ctx second.val ↔ first = second := by
  have short (bytes : BytesUpTo 64) : bytes.val.take 256 = bytes.val :=
    List.take_of_length_le (by have := bytes.property; omega)
  simp only [hlsGmacAad, short, List.append_cancel_left_eq, Subtype.ext_iff]

private theorem hlsTitledInput_inj {first second : List UInt8} :
    hlsTitledInput ctx ctx.systemTitle ctx.peerSystemTitle first second =
        hlsTitledInput ctx ctx.peerSystemTitle ctx.systemTitle second first ↔
      ctx.peerSystemTitle = ctx.systemTitle ∧ first ++ second = second ++ first := by
  simp only [hlsTitledInput, List.append_assoc, List.append_cancel_left_eq]
  constructor
  · intro same
    obtain ⟨own, rest⟩ := List.append_inj same (by simp)
    obtain ⟨_, challenges⟩ := List.append_inj rest (by simp)
    exact ⟨(Vector.toList_inj.mp own).symm, challenges⟩
  · rintro ⟨titles, challenges⟩
    rw [titles, challenges]

private theorem buildIv_eq_iff {title title' : SystemTitle} {ic : UInt32} :
    buildIv title ic = buildIv title' ic ↔ title = title' :=
  ⟨fun same => (buildIv_injective same).1, fun same => by rw [same]⟩

/-- The inputs of the two passes are equal exactly for the listed choices. -/
theorem pass3Input_eq_pass4Input_iff (symmetric : ctx.mechanism.symmetric = true) :
    pass3Input ctx = pass4Input ctx ↔ SamePassInput ctx := by
  unfold pass3Input pass4Input passInput SamePassInput
  cases mechanism : ctx.mechanism with
  | hls => simp
  | hlsMd5 | hlsSha1 => simp [Subtype.ext_iff]
  | hlsGmac =>
    have own : hlsGmacIvTitle ctx true = ctx.systemTitle ↔
        titleIsZero ctx.peerSystemTitle = true ∨ ctx.peerSystemTitle = ctx.systemTitle := by
      cases zero : titleIsZero ctx.peerSystemTitle <;> simp [hlsGmacIvTitle, zero]
    simp only [PassInput.mk.injEq, buildIv_eq_iff, hlsGmacAad_inj, ← own, if_true]
    rw [eq_comm (a := ctx.systemTitle)]
  | hlsGostCmac =>
    simp only [PassInput.mk.injEq, buildIv_eq_iff, List.append_assoc, List.append_cancel_left_eq]
    rw [eq_comm (a := ctx.systemTitle)]
    simp
  | hlsSha256 | hlsGostStreebog => simpa using hlsTitledInput_inj
  | lowest | lls | hlsEcdsa | hlsGostSig | other => simp [mechanism, Mechanism.symmetric] at symmetric

/-! ## The authenticators as values of the keyed function -/

/-- The authenticator on the wire: the counter mechanisms put a header before the value. -/
def passWire (ctx : SecContext) (mac : List UInt8) : List UInt8 :=
  match ctx.mechanism with
  | .hlsGmac | .hlsGostCmac => hlsFrame (hlsSc ctx) ctx.invocationCounter mac
  | _ => mac

private theorem orFail_ok {result : Option (List UInt8)} : orFail result = .ok value ↔ result = some value := by
  cases result <;> simp [orFail]

private theorem hlsHashLegacy_of_fits (challenge : BytesUpTo 64) :
    hlsHashLegacy hal ctx challenge.val =
      match ctx.mechanism with
      | .hlsMd5 => hal.md5.map fun digest => (digest (challenge.val ++ ctx.gak.toList.take 16)).toList
      | .hlsSha1 => hal.sha1.map fun digest => (digest (challenge.val ++ ctx.gak.toList.take 16)).toList
      | _ => none := by
  have bound := challenge.property
  rw [hlsHashLegacy]
  exact if_neg (by omega)

private theorem hlsGostCmac_of_fits (kEm : Vector UInt8 64) (iv : Vector UInt8 12) (sc : UInt8)
    (first second : BytesUpTo 64) : hlsGostCmac kEm iv sc first.val second.val =
      some (gostKuznyechikCmac (keyMac kEm) (iv.toList ++ ([sc] ++ first.val ++ second.val))) := by
  have boundFirst := first.property
  have boundSecond := second.property
  rw [hlsGostCmac, if_neg (by omega)]
  simp only [List.append_assoc]

private theorem hlsPassHigh_of_fits {challenge : BytesUpTo 64} (nonempty : challenge.val ≠ [])
    (secret : ctx.hlsSecret.val ≠ []) : hlsPassHigh ctx challenge.val = some (encryptBlocks (blockOf ctx.hlsSecret.val)
        ((paddedChallenge challenge.val ctx.hlsSecret.val).length / 16)
        (paddedChallenge challenge.val ctx.hlsSecret.val)) := by
  have bounds := securedLen_bounds (List.length_pos_iff.mpr nonempty) challenge.property
    ctx.hlsSecret.property
  have fits : ¬securedLen challenge.val.length ctx.hlsSecret.val.length > 64 := by omega
  simp [hlsPassHigh, hlsHighSecure, nonempty, secret, fits, paddedChallenge]

private theorem hlsPassHigh_nonempty {challenge : List UInt8} (built : hlsPassHigh ctx challenge = some value) :
    challenge ≠ [] ∧ ctx.hlsSecret.val ≠ [] := by
  simp only [hlsPassHigh, hlsHighSecure] at built
  constructor <;> rintro empty <;> simp [empty] at built

/-- A pass-3 value is the keyed function of the pass-3 input. -/
theorem clientPass3_ok (symmetric : ctx.mechanism.symmetric = true) (built : clientPass3 hal ctx = .ok value) :
    ∃ mac, passFunction hal ctx (pass3Input ctx) = some mac ∧ value = passWire ctx mac := by
  unfold clientPass3 hlsPass3Build at built
  unfold passFunction pass3Input passInput passWire
  cases mechanism : ctx.mechanism with
  | hls =>
    simp only [mechanism, orFail_ok] at built
    obtain ⟨challenge, secret⟩ := hlsPassHigh_nonempty built
    rw [hlsPassHigh_of_fits challenge secret] at built
    exact ⟨value, built, rfl⟩
  | hlsMd5 | hlsSha1 =>
    simp only [mechanism, orFail_ok, hlsHashLegacy_of_fits] at built
    exact ⟨value, built, rfl⟩
  | hlsGmac =>
    simp only [mechanism, hlsPass3GmacBuild, hlsAuthMax, Nat.reduceLT, if_false, orFail_ok,
      Option.map_eq_some_iff] at built
    obtain ⟨mac, computed, framed⟩ := built
    exact ⟨mac, computed, framed.symm⟩
  | hlsGostCmac =>
    simp only [mechanism, hlsPass3GostCmacBuild, hlsAuthMax, Nat.reduceLT, if_false, orFail_ok,
      hlsGostCmac_of_fits, Option.map_some, Option.some.injEq] at built
    exact ⟨_, rfl, built.symm⟩
  | hlsSha256 | hlsGostStreebog =>
    simp only [mechanism, orFail_ok, hlsHashWithTitles] at built
    exact ⟨value, built, rfl⟩
  | lowest | lls | hlsEcdsa | hlsGostSig | other => simp [mechanism, Mechanism.symmetric] at symmetric

/-- A frame carrying a MAC of the expected length matches exactly when the MACs are equal. -/
private theorem hlsFrameMatches_iff {frameLen : ℕ} {expected : UInt32 → Option (List UInt8)} {sc : UInt8}
    {ic : UInt32} (long : frameLen = 5 + mac.length)
    (sameLength : ∀ value, expected ic = some value → value.length = mac.length) :
    hlsFrameMatches frameLen expected (hlsFrame sc ic mac) = true ↔ expected ic = some mac := by
  simp only [hlsFrameMatches, length_hlsFrame, hlsFrameIc_hlsFrame, drop_hlsFrame, long, le_refl,
    decide_true, Bool.true_and]
  cases computed : expected ic with
  | none => simp
  | some value =>
    simp only [sameLength value computed, List.take_length, beq_iff_eq, Option.some.injEq]
    exact eq_comm

private theorem hlsGmacTag_length {iv : Vector UInt8 12} {aad tag : List UInt8}
    (computed : hlsGmacTag hal ctx iv aad = some tag) : tag.length = 12 := by
  unfold hlsGmacTag at computed
  split at computed
  · simp only [ite_not, Option.ite_none_right_eq_some, Option.some.injEq] at computed
    rw [← computed.2]
    exact Vector.length_toList
  · cases computed
    exact Vector.length_toList
  · cases computed

/-- A value on the wire matches in pass 4 when it is the keyed function of the pass-4 input. -/
theorem hlsPass4Matches_passWire_iff (symmetric : ctx.mechanism.symmetric = true) (challenged : ctx.ctos.val ≠ [])
    (secret : ctx.mechanism = .hls → ctx.hlsSecret.val ≠ [])
    (computed : passFunction hal ctx (pass3Input ctx) = some mac) : hlsPass4Matches hal ctx (passWire ctx mac) = true ↔
      passFunction hal ctx (pass4Input ctx) = some mac := by
  unfold passFunction pass3Input passInput at computed
  unfold hlsPass4Matches passFunction pass4Input passInput passWire
  cases mechanism : ctx.mechanism with
  | hls =>
    simp only [hlsPassHigh_of_fits challenged (secret mechanism), beq_iff_eq]
  | hlsMd5 | hlsSha1 =>
    simp only [hlsHashLegacy_of_fits, mechanism, beq_iff_eq]
  | hlsGmac =>
    simp only [mechanism] at computed
    apply hlsFrameMatches_iff (by rw [hlsGmacTag_length computed])
    intro value other
    rw [hlsGmacTag_length other, hlsGmacTag_length computed]
  | hlsGostCmac =>
    simp only [mechanism, Option.some.injEq] at computed
    have length : mac.length = 16 := by rw [← computed]; exact Vector.length_toList
    refine (hlsFrameMatches_iff (by rw [length]) ?_).trans ?_
    · intro value other
      simp only [hlsExpectedCmac, hlsGostCmac_of_fits, Option.map_some, Option.some.injEq] at other
      rw [length, ← other]
      exact Vector.length_toList
    · simp only [hlsExpectedCmac, hlsFrame_getD_zero, hlsGostCmac_of_fits, Option.map_some]
      rfl
  | hlsSha256 | hlsGostStreebog =>
    simp only [hlsHashWithTitles, mechanism, beq_iff_eq]
    rfl
  | lowest | lls | hlsEcdsa | hlsGostSig | other => simp [mechanism, Mechanism.symmetric] at symmetric

/-! ## The reflected value -/

/-- Pass 4 accepts a non-empty value that matches, below the failure limit. -/
theorem hlsPass4Verify_ok_iff : (∃ next, hlsPass4Verify hal value ctx = .ok () next) ↔
      value ≠ [] ∧ ctx.hlsFailures < 5 ∧ hlsPass4Matches hal ctx value = true := by
  simp only [hlsPass4Verify, failIf_bind_ok_iff, get_bind, ge_iff_le, UInt8.not_le,
    List.length_eq_zero_iff, exists_and_left]
  cases carried : hlsPass4Matches hal ctx value with
  | true => simp
  | false => simp [hlsRefuse]

private theorem clientPass3_ne_nil (symmetric : ctx.mechanism.symmetric = true)
    (sent : clientPass3 hal ctx = .ok value) : value ≠ [] := by
  obtain ⟨mac, computed, rfl⟩ := clientPass3_ok symmetric sent
  unfold clientPass3 hlsPass3Build at sent
  unfold passFunction at computed
  unfold passWire
  cases mechanism : ctx.mechanism with
  | hls =>
    simp only [mechanism, passWire, orFail_ok] at sent
    obtain ⟨challenge, -⟩ := hlsPassHigh_nonempty sent
    simp only [mechanism, Option.some.injEq, pass3Input, passInput, paddedChallenge, length_padTo] at computed
    have bounds := securedLen_bounds (List.length_pos_iff.mpr challenge) ctx.stoc.property
      ctx.hlsSecret.property
    apply List.ne_nil_of_length_pos
    rw [← computed, length_encryptBlocks]
    omega
  | hlsMd5 | hlsSha1 | hlsSha256 =>
    simp only [mechanism] at computed
    obtain ⟨digest, _, rfl⟩ := Option.map_eq_some_iff.mp computed
    exact List.ne_nil_of_length_pos (by simp)
  | hlsGostStreebog =>
    simp only [mechanism, Option.some.injEq] at computed
    exact List.ne_nil_of_length_pos (by rw [← computed, length_hlsStreebog256]; omega)
  | hlsGmac | hlsGostCmac => exact List.ne_nil_of_length_pos (by rw [length_hlsFrame]; omega)
  | lowest | lls | hlsEcdsa | hlsGostSig | other => simp [mechanism, Mechanism.symmetric] at symmetric

/-- Equal images of the two inputs are equal inputs or a collision. -/
private theorem passFunction_eq_iff (symmetric : ctx.mechanism.symmetric = true) :
    passFunction hal ctx (pass4Input ctx) = passFunction hal ctx (pass3Input ctx) ↔
      SamePassInput ctx ∨ PassCollision hal ctx := by
  rw [← pass3Input_eq_pass4Input_iff symmetric]
  by_cases same : pass3Input ctx = pass4Input ctx
  · simp [same]
  · rw [eq_comm]
    by_cases mechanism : ctx.mechanism = .hls
    · have images : passFunction hal ctx (pass3Input ctx) ≠ passFunction hal ctx (pass4Input ctx) := by
        intro equal
        simp only [passFunction, pass3Input, pass4Input, passInput, mechanism, Option.some.injEq] at equal
        apply same
        simp only [pass3Input, pass4Input, passInput, mechanism, PassInput.mk.injEq, true_and]
        exact encryptBlocks_paddedChallenge_injective equal
      simp [same, PassCollision, mechanism, images]
    · simp [same, PassCollision, mechanism]

private theorem clientHandshakeContext_ctos_ne_nil (ctx : SecContext) (random : List UInt8) (aare : Aare) :
    (clientHandshakeContext ctx random aare).ctos.val ≠ [] := by
  apply List.ne_nil_of_length_pos
  simp only [clientHandshakeContext, clientStoreAare, clientDrawChallenge, BytesUpTo.ofList,
    List.length_take, length_padTo, clientChallengeLen]
  split <;> omega

/-- The client accepts its own pass-3 value as pass 4 exactly when it is below the failure limit and
the AARE made the inputs of both passes equal, or they collide under the keyed function. -/
theorem hls_reflection_accepted_iff (hal : Hal) (ctx : SecContext) (random : List UInt8) (aare : Aare)
    (value : List UInt8) (symmetric : ctx.mechanism.symmetric = true)
    (sent : clientPass3 hal (clientHandshakeContext ctx random aare) = .ok value) :
    (∃ next, hlsPass4Verify hal value (clientHandshakeContext ctx random aare) = .ok () next) ↔
      ctx.hlsFailures < 5 ∧ (SamePassInput (clientHandshakeContext ctx random aare) ∨
        PassCollision hal (clientHandshakeContext ctx random aare)) := by
  have challenged : (clientHandshakeContext ctx random aare).ctos.val ≠ [] :=
    clientHandshakeContext_ctos_ne_nil ctx random aare
  have failures : ctx.hlsFailures = (clientHandshakeContext ctx random aare).hlsFailures := rfl
  rw [failures]
  have symmetric' : (clientHandshakeContext ctx random aare).mechanism.symmetric = true := symmetric
  generalize clientHandshakeContext ctx random aare = client at *
  obtain ⟨mac, computed, wire⟩ := clientPass3_ok symmetric' sent
  have secret : client.mechanism = .hls → client.hlsSecret.val ≠ [] := by
    intro high
    simp only [clientPass3, hlsPass3Build, high, orFail_ok] at sent
    exact (hlsPassHigh_nonempty sent).2
  have nonempty := clientPass3_ne_nil symmetric' sent
  have matches_iff := hlsPass4Matches_passWire_iff symmetric' challenged secret computed
  rw [hlsPass4Verify_ok_iff, ← passFunction_eq_iff symmetric', computed, ← matches_iff, wire]
  simp [← wire, nonempty]

/-- An AARE without a responding title whose challenge is a given one. -/
def echoAare (ctos : List UInt8) : Aare := { respondingAuthValue := BytesUpTo.ofList 64 ctos }

/-- A client with the GMAC mechanism and its own title. -/
def reflectedClient : SecContext := secContextInit .suite0 .hlsGmac (Vector.replicate 8 1)

/-- The challenge that the client sends in the clear. -/
def sentChallenge : List UInt8 := [1, 2, 3, 4, 5, 6, 7, 8]

/-- Worked input: the equivalence for an echoed challenge. -/
theorem hls_reflection_accepted_iff_echo : ∃ value, clientPass3 sampleHal
        (clientHandshakeContext reflectedClient sentChallenge (echoAare sentChallenge)) = .ok value ∧
      ((∃ next, hlsPass4Verify sampleHal value
          (clientHandshakeContext reflectedClient sentChallenge (echoAare sentChallenge)) = .ok () next) ↔
        reflectedClient.hlsFailures < 5 ∧ (SamePassInput
              (clientHandshakeContext reflectedClient sentChallenge (echoAare sentChallenge)) ∨ PassCollision sampleHal
              (clientHandshakeContext reflectedClient sentChallenge (echoAare sentChallenge)))) :=
  ⟨_, rfl, hls_reflection_accepted_iff sampleHal reflectedClient sentChallenge
    (echoAare sentChallenge) _ rfl rfl⟩

set_option maxRecDepth 2000 in
/-- An echoed challenge without a title makes the client accept its own value. -/
theorem hls_reflection_not_refused :
    ¬∀ (hal : Hal) (ctx : SecContext) (random : List UInt8) (aare : Aare) (value : List UInt8),
      ctx.mechanism.symmetric = true → clientPass3 hal (clientHandshakeContext ctx random aare) = .ok value →
      ∀ next, hlsPass4Verify hal value (clientHandshakeContext ctx random aare) ≠ .ok () next := by
  intro claim
  exact claim sampleHal reflectedClient sentChallenge (echoAare sentChallenge) _ rfl rfl _ rfl

end OpenSpodes
