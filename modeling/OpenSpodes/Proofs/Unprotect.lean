import OpenSpodes.Model.Glo

/-! # What deciphering accepts

`gloUnprotect` is inverted once: a return of zero names the body, passes the counter check, removes
the protection, and updates exactly three fields of the context; every other return leaves the
context alone. Replay protection over call sequences and the meaning of the authentication bit
follow from that inversion.
-/

namespace OpenSpodes

open Bytes Kuznyechik Machine.Fallible

variable {hal : Hal} {ciphered plain body : List UInt8}

/-- The context after a message with this body was accepted. -/
def SecContext.accepted (ctx : SecContext) (body : List UInt8) : SecContext :=
  { ctx with
    lastPeerIc := bodyIc body, icValid := true, policy := secControlToPolicy (bodySc body) }

/-- The conditions under which a message with this body is accepted. -/
structure Accepts (hal : Hal) (ctx : SecContext) (ciphered body plain : List UInt8) : Prop where
  parsed : gloBody ciphered = some body
  fresh : ctx.icValid = true → ctx.lastPeerIc < bodyIc body
  opened : gloOpen hal ctx (bodySc body) (bodyIc body) (bodyProtected body) = .ok plain

variable {ctx next : SecContext}

/-- A return of zero accepts the message and records its counter and protection. -/
theorem gloUnprotect_ok (success : gloUnprotect hal ciphered ctx = .ok plain next) :
    ∃ body, Accepts hal ctx ciphered body plain ∧ next = ctx.accepted body := by
  simp only [gloUnprotect, get_bind, failIf_bind_ok_iff] at success
  obtain ⟨-, rest⟩ := success
  cases parsed : gloBody ciphered with
  | none => simp [parsed] at rest
  | some body =>
    simp only [parsed, failIf_bind_ok_iff] at rest
    obtain ⟨fresh, rest⟩ := rest
    cases opened : gloOpen hal ctx (bodySc body) (bodyIc body) (bodyProtected body) with
    | error rc => simp [opened] at rest
    | ok out =>
      simp only [opened, set_bind, pure_apply, EStateM.Result.ok.injEq] at rest
      obtain ⟨rfl, rfl⟩ := rest
      refine ⟨body, ⟨parsed, ?_, opened⟩, rfl⟩
      intro valid
      simpa [valid] using fresh

/-- Only what carries a ciphered tag has a body. -/
theorem gloBody_tag (parsed : gloBody ciphered = some body) :
    0 < ciphered.length ∧ svcIsCipheredTag (ciphered.getD 0 0) = true := by
  unfold gloBody at parsed
  split_ifs at parsed with short tag
  exact ⟨by omega, by simpa using tag⟩

/-- Conversely, an acceptable message is accepted. -/
theorem gloUnprotect_of_accepts (accepts : Accepts hal ctx ciphered body plain) :
    gloUnprotect hal ciphered ctx = .ok plain (ctx.accepted body) := by
  have installed : ¬((!ctx.suite.usesGostKem) = true ∧ hal.gcmCrypt.isNone = true) := by
    rintro ⟨aes, absent⟩
    have opened := accepts.opened
    rw [gloOpen, if_neg (by simpa using aes), Option.isNone_iff_eq_none.mp absent] at opened
    cases opened
  have fresh : ¬(ctx.icValid = true ∧ bodyIc body ≤ ctx.lastPeerIc) := by
    rintro ⟨valid, stale⟩
    exact UInt32.not_lt.mpr stale (accepts.fresh valid)
  simp only [gloUnprotect, get_bind, accepts.parsed]
  rw [failIf_bind_of_not installed, failIf_bind_of_not fresh]
  simp only [accepts.opened, set_bind]
  rfl

/-- A non-zero return is negative and leaves the whole context as it was. -/
theorem gloUnprotect_error {rc : Int} (failure : gloUnprotect hal ciphered ctx = .error rc next) :
    rc < 0 ∧ next = ctx := by
  simp only [gloUnprotect, get_bind, failIf_bind_error_iff] at failure
  rcases failure with ⟨-, rfl, rfl⟩ | ⟨-, rest⟩
  · exact ⟨by decide, rfl⟩
  · cases parsed : gloBody ciphered with
    | none =>
      simp only [parsed, throw_apply, EStateM.Result.error.injEq] at rest
      obtain ⟨rfl, rfl⟩ := rest
      exact ⟨by decide, rfl⟩
    | some body =>
      simp only [parsed, failIf_bind_error_iff] at rest
      rcases rest with ⟨-, rfl, rfl⟩ | ⟨-, rest⟩
      · exact ⟨by decide, rfl⟩
      · cases opened : gloOpen hal ctx (bodySc body) (bodyIc body) (bodyProtected body) with
        | ok out => simp [opened, set_bind] at rest
        | error code =>
          simp only [opened, throw_apply, EStateM.Result.error.injEq] at rest
          obtain ⟨rfl, rfl⟩ := rest
          refine ⟨?_, rfl⟩
          simp only [gloOpen, gloOpenGost, gloOpenGcm] at opened
          split_ifs at opened <;> grind

/-- A one-byte stream cipher with a checksum tag: enough of an AEAD to work inputs by hand. -/
def sampleGcm (call : GcmCall) : GcmResult call :=
  let mask := call.key.headD 0 + call.iv.get 11
  let out := Vector.ofFn fun i => call.input.get i ^^^ mask
  let text := match call.dir with
    | .encrypt => out.toList
    | .decrypt => call.input
  let sum := (call.key ++ call.iv.toList ++ call.aad ++ text).foldl (fun sum byte => sum * 31 + byte) 7
  let tag : Vector UInt8 12 := Vector.ofFn fun i => sum + UInt8.ofNat i
  let refused := call.dir = .decrypt ∧ call.tagIn.isSome ∧ call.tagIn ≠ some tag.toList
  ⟨if refused then -1 else 0, out, tag⟩

/-- A HAL with `sampleGcm` and no other primitive installed. -/
def sampleHal : Hal where
  gcmCrypt := some sampleGcm
  gcmStream := none
  md5 := none
  sha1 := none
  sha256 := none
  streebog256 := none
  gostStreebog256 := fun _ => Vector.replicate 32 0
  ecdsaSign := none
  ecdsaVerify := none
  gost3410Sign := fun _ _ => none
  gost3410Verify := fun _ _ _ => -1

end OpenSpodes
