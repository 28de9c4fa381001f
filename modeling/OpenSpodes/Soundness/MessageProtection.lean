import OpenSpodes.Proofs.Unprotect

/-! # One security context against an arbitrary peer

The peer may send any bytes, and the HAL may answer differently at each call. A context that is
only written by `gloUnprotect` accepts strictly increasing counters and is untouched by refusals.
The protection it enforces is the one the message announces: the authentication bit of the message
always means a verified tag, while the policy of the context is adopted from the message rather
than compared with it.
-/

namespace OpenSpodes

open Bytes Kuznyechik

variable {hal : Hal} {ctx : SecContext} {input plain protectedPart : List UInt8} {iv : Vector UInt8 12} {sc : UInt8}
  {next : SecContext} {rest : List (Hal × List UInt8)}

/-- One call of `osp_glo_unprotect`: contexts around it, input and return code. -/
structure UnprotectCall where
  before : SecContext
  input : List UInt8
  rc : Int
  after : SecContext

/-- The calls made for a sequence of inputs, each with the HAL as it behaves then. -/
def unprotectCalls (ctx : SecContext) : List (Hal × List UInt8) → List UnprotectCall
  | [] => []
  | (hal, input) :: rest =>
      match gloUnprotect hal input ctx with
      | .ok _ next => ⟨ctx, input, 0, next⟩ :: unprotectCalls next rest
      | .error rc next => ⟨ctx, input, rc, next⟩ :: unprotectCalls next rest

/-- The invocation counter of a call that returned zero. -/
def UnprotectCall.counter? (call : UnprotectCall) : Option UInt32 :=
  if call.rc = 0 then (gloBody call.input).map bodyIc else none

private theorem calls_cons_ok (success : gloUnprotect hal input ctx = .ok plain next) :
    unprotectCalls ctx ((hal, input) :: rest) = ⟨ctx, input, 0, next⟩ :: unprotectCalls next rest := by
  simp only [unprotectCalls, success]

private theorem calls_cons_error {rc : Int} (failure : gloUnprotect hal input ctx = .error rc next) :
    unprotectCalls ctx ((hal, input) :: rest) = ⟨ctx, input, rc, next⟩ :: unprotectCalls next rest := by
  simp only [unprotectCalls, failure]

/-- Accepted counters lie above the recorded one, and each accepted one raises the record. -/
private theorem counters_increase (ctx : SecContext) (inputs : List (Hal × List UInt8)) :
    ((unprotectCalls ctx inputs).filterMap UnprotectCall.counter?).Pairwise (· < ·) ∧ (ctx.icValid = true →
        ∀ ic ∈ (unprotectCalls ctx inputs).filterMap UnprotectCall.counter?, ctx.lastPeerIc < ic) := by
  induction inputs generalizing ctx with
  | nil => simp [unprotectCalls]
  | cons call rest ih =>
    obtain ⟨hal, input⟩ := call
    cases outcome : gloUnprotect hal input ctx with
    | ok plain next =>
      obtain ⟨body, accepts, rfl⟩ := gloUnprotect_ok outcome
      have counter : UnprotectCall.counter? ⟨ctx, input, 0, ctx.accepted body⟩ = some (bodyIc body) := by
        simp [UnprotectCall.counter?, accepts.parsed]
      obtain ⟨increasing, above⟩ := ih (ctx.accepted body)
      have above : ∀ ic ∈ _, bodyIc body < ic := above rfl
      rw [calls_cons_ok outcome, List.filterMap_cons_some counter]
      refine ⟨List.pairwise_cons.mpr ⟨above, increasing⟩, ?_⟩
      intro valid ic member
      rcases List.mem_cons.mp member with rfl | later
      · exact accepts.fresh valid
      · exact UInt32.lt_trans (accepts.fresh valid) (above ic later)
    | error rc next =>
      obtain ⟨negative, rfl⟩ := gloUnprotect_error outcome
      have silent : UnprotectCall.counter? ⟨next, input, rc, next⟩ = none := by
        simp [UnprotectCall.counter?, show rc ≠ 0 by omega]
      rw [calls_cons_error outcome, List.filterMap_cons_none silent]
      exact ih next

/-- A call that returned a non-zero code left the whole context unchanged. -/
private theorem refused_call_unchanged (ctx : SecContext) (inputs : List (Hal × List UInt8)) :
    ∀ call ∈ unprotectCalls ctx inputs, call.rc ≠ 0 → call.after = call.before := by
  induction inputs generalizing ctx with
  | nil => simp [unprotectCalls]
  | cons call rest ih =>
    obtain ⟨hal, input⟩ := call
    cases outcome : gloUnprotect hal input ctx with
    | ok plain next =>
      rw [calls_cons_ok outcome]
      intro made member refused
      rcases List.mem_cons.mp member with rfl | later
      · exact absurd rfl refused
      · exact ih next made later refused
    | error rc next =>
      rw [calls_cons_error outcome]
      intro made member refused
      rcases List.mem_cons.mp member with rfl | later
      · exact (gloUnprotect_error outcome).2
      · exact ih next made later refused

/-- Replay protection of one context: accepted counters strictly increase from above the recorded
one, and refusals change nothing. -/
theorem unprotect_replay_protection (ctx : SecContext) (inputs : List (Hal × List UInt8)) :
    ((unprotectCalls ctx inputs).filterMap UnprotectCall.counter?).Pairwise (· < ·) ∧ (ctx.icValid = true →
        ∀ ic ∈ (unprotectCalls ctx inputs).filterMap UnprotectCall.counter?, ctx.lastPeerIc < ic) ∧
      ∀ call ∈ unprotectCalls ctx inputs, call.rc ≠ 0 → call.after = call.before :=
  ⟨(counters_increase ctx inputs).1, (counters_increase ctx inputs).2,
    refused_call_unchanged ctx inputs⟩

/-- The tag that ends an authenticated message was computed or verified for exactly its security
control byte, counter and payload. -/
def TagChecked (hal : Hal) (ctx : SecContext) (body : List UInt8) : Prop :=
  let sc := bodySc body
  let iv := gloBuildIvRx ctx (bodyIc body)
  let len := (bodyProtected body).length - 12
  let payload := (bodyProtected body).take len
  let tag := (bodyProtected body).drop len
  tag.length = 12 ∧
    if ctx.suite.usesGostKem then
      kuznBuildTag (keyMac (secGostKEmForCipher ctx)) iv sc [] payload = some tag
    else
      ∃ gcm, hal.gcmCrypt = some gcm ∧
        let key := secAesEncryptionKey ctx
        if scEncr sc then (gcm ⟨.decrypt, key, iv, gloAad ctx sc, payload, some tag, false⟩).rc = 0
        else (gcm ⟨.decrypt, key, iv, gloAad ctx sc ++ payload, [], some tag, false⟩).rc = 0

private theorem tag_length (long : ¬protectedPart.length < 12) :
    (protectedPart.drop (protectedPart.length - 12)).length = 12 := by
  rw [List.length_drop]
  omega

/-- An accepted message with the authentication bit had its tag verified. -/
private theorem tagChecked_of_accepts {ciphered body : List UInt8} (accepts : Accepts hal ctx ciphered body plain)
    (auth : scAuth (bodySc body) = true) : TagChecked hal ctx body := by
  have opened := accepts.opened
  simp only [gloOpen] at opened
  split_ifs at opened with gost
  · simp only [gloOpenGost, auth, if_true] at opened
    simp only [TagChecked, gost, if_true]
    split_ifs at opened with short long
    refine ⟨tag_length short, ?_⟩
    split at opened
    · next accepted =>
      simp only [gostKuznAeadDecrypt] at accepted
      split at accepted
      · cases accepted
      · next expected built =>
        split at accepted
        · cases accepted
        · next same => rw [built, not_not.mp same]
    · split_ifs at opened
  · cases installed : hal.gcmCrypt with
    | none => simp [installed] at opened
    | some gcm =>
      simp only [installed, gloOpenGcm, auth, if_true] at opened
      simp only [TagChecked, gost, Bool.false_eq_true, if_false]
      split_ifs at opened with short long encr refused refused
      · exact ⟨tag_length short, gcm, installed, by simpa [encr] using refused⟩
      · exact ⟨tag_length short, gcm, installed, by simpa [encr] using refused⟩

/-- What the policy of the receiver would demand of an accepted message. -/
def MeetsPolicy (hal : Hal) (ctx : SecContext) (body : List UInt8) : Prop :=
  (ctx.policy.auth = true → scAuth (bodySc body) = true ∧ TagChecked hal ctx body) ∧
    (ctx.policy.encr = true → scEncr (bodySc body) = true)

/-- The authentication bit of an accepted message always stands for a verified tag, and the
context takes over the protection that the message announced. -/
theorem unprotect_enforces_message_protection (hal : Hal) (ctx next : SecContext)
    (ciphered plain : List UInt8) (success : gloUnprotect hal ciphered ctx = .ok plain next) :
    ∃ body, gloBody ciphered = some body ∧ (scAuth (bodySc body) = true → TagChecked hal ctx body) ∧
      (next.policy.auth = scAuth (bodySc body) ∧ next.policy.encr = scEncr (bodySc body)) := by
  obtain ⟨body, accepts, rfl⟩ := gloUnprotect_ok success
  refine ⟨body, accepts.parsed, tagChecked_of_accepts accepts, ?_⟩
  simp only [SecContext.accepted, secControlToPolicy]
  cases scAuth (bodySc body) <;> cases scEncr (bodySc body) <;> exact ⟨rfl, rfl⟩

/-- A receiver whose policy demands authentication and encryption. -/
def strictContext : SecContext :=
  { secContextInit .suite0 .hlsGmac (Vector.replicate 8 1) with policy := .encrAuth }

set_option maxRecDepth 2000 in
/-- Worked input: a message with both protection bits passes its tag check. -/
theorem unprotect_enforces_message_protection_sealed :
    ∃ body, gloBody [0xC8, 20, 0x30, 0, 0, 0, 0, 192, 1, 2, 56, 57, 58, 59, 60, 61, 62, 63, 64, 65, 66, 67]
        = some body ∧ (scAuth (bodySc body) = true → TagChecked sampleHal strictContext body) ∧
      (Policy.encrAuth.auth = scAuth (bodySc body) ∧ Policy.encrAuth.encr = scEncr (bodySc body)) :=
  unprotect_enforces_message_protection sampleHal strictContext
    { strictContext with lastPeerIc := 0, icValid := true, policy := .encrAuth } _ [192, 1, 2] rfl

/-- The policy of the receiver is no gate: a message without any protection bit is accepted by a
context that demands both. -/
theorem unprotect_policy_not_enforced : ¬∀ (hal : Hal) (ctx next : SecContext) (ciphered plain body : List UInt8),
      gloUnprotect hal ciphered ctx = .ok plain next → gloBody ciphered = some body → MeetsPolicy hal ctx body := by
  intro claim
  have met := claim sampleHal strictContext
    { strictContext with lastPeerIc := 1, icValid := true, policy := .none }
    [0xC8, 6, 0, 0, 0, 0, 1, 0xC0] [0xC0] [0, 0, 0, 0, 1, 0xC0] rfl rfl
  exact absurd (met.2 rfl) (by decide)

end OpenSpodes
