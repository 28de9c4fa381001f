import OpenSpodes.Model.GeneralCiphering
import OpenSpodes.Proofs.Unprotect

/-! # What a failed general unprotection leaves behind

`gloUnprotect` changes its context only when it accepts. The three general functions store the
originator's title before anything about the APDU has been verified, so a failure behind that point
leaves another peer's title in the context. The context survives a failure exactly when no title was
reached or the title is the one it already holds.
-/

namespace OpenSpodes

open Machine.Fallible

/-- The title that a general-glo- or general-ded-ciphered APDU brings before its service is read. -/
def gloDedTitle (apdu : List UInt8) : Option SystemTitle :=
  if apdu.length < 3 then none
  else
    match genGloDedHeader (Buf.ofBytes apdu) with
    | .ok title _ => if title.length = 8 then some (titleOf title) else none
    | .error _ _ => none

/-- The title that a general-ciphered APDU brings before its recipient is read. -/
def cipheringTitle (apdu : List UInt8) : Option SystemTitle :=
  if apdu.length < 5 then none
  else
    match genCipheringHeader (Buf.ofBytes apdu) with
    | .ok header _ => some header.2
    | .error _ _ => none

def signingTitle (apdu : List UInt8) : Option SystemTitle := (genSigningDecode apdu).map GenSigning.originator

/-- The context with the title an APDU brings, if it brings one. -/
def SecContext.adoptAny (ctx : SecContext) (title : Option SystemTitle) : SecContext :=
  match title with
  | none => ctx
  | some title => ctx.adopt title

/-- Taking over a title changes nothing exactly when it is the title already held. -/
theorem SecContext.adoptAny_eq_self_iff (ctx : SecContext) (title : Option SystemTitle) :
    ctx.adoptAny title = ctx ↔ ∀ t ∈ title, t = ctx.peerSystemTitle := by
  cases title with
  | none => simp [adoptAny]
  | some title =>
    simp only [adoptAny, Option.mem_some_iff, forall_eq']
    constructor
    · intro same
      rw [← congrArg SecContext.peerSystemTitle same]
      rfl
    · intro same
      rw [same]
      rfl

section Failures

variable {hal : Hal} {stale : UInt8} {room : ℕ} {ctx next : SecContext} {apdu : List UInt8} {rc : Int}

private theorem openService_error {ciphered : List UInt8}
    (failed : openService hal stale ciphered ctx = .error rc next) : next = ctx := by
  simp only [openService, get_bind] at failed
  cases opened : gloUnprotect hal ciphered ctx with
  | ok plain after => simp [opened] at failed
  | error code after =>
    simp only [opened, set_bind, throw_apply, EStateM.Result.error.injEq] at failed
    rw [← failed.2]
    exact (gloUnprotect_error opened).2

/-- A step that parses fails without a trace, or hands over what it read. -/
private theorem parse_bind_error {α β : Type} {read : Read α} {buf : Buf} {f : α × Buf → EStateM Int SecContext β}
    (failed : (parse read buf >>= f) ctx = .error rc next) : (∃ e b, read buf = .error e b ∧ next = ctx) ∨
      ∃ value rest, read buf = .ok value rest ∧ f (value, rest) ctx = .error rc next := by
  unfold parse at failed
  cases parsed : read buf with
  | error e b =>
    simp only [parsed] at failed
    rw [bind_of_error (throw_apply _ _)] at failed
    exact .inl ⟨e, b, rfl, (EStateM.Result.error.inj failed).2.symm⟩
  | ok value rest =>
    simp only [parsed] at failed
    rw [bind_of_ok (pure_apply _ _)] at failed
    exact .inr ⟨value, rest, rfl, failed⟩

theorem genGloDedUnprotect_error (failed : genGloDedUnprotect hal stale apdu ctx = .error rc next) :
    next = ctx.adoptAny (gloDedTitle apdu) := by
  simp only [genGloDedUnprotect, failIf_bind_error_iff] at failed
  rcases failed with ⟨short, -, rfl⟩ | ⟨long, failed⟩
  · rw [gloDedTitle, if_pos short]
    rfl
  · rw [gloDedTitle, if_neg long]
    rcases parse_bind_error failed with ⟨e, b, unread, rfl⟩ | ⟨title, rest, read, failed⟩
    · rw [unread]
      rfl
    · have adopted : ctx.adoptAny (if title.length = 8 then some (titleOf title) else none) =
          if title.length = 8 then ctx.adopt (titleOf title) else ctx := by
        split_ifs <;> rfl
      simp only [read, adopted]
      rw [modify_bind] at failed
      rcases parse_bind_error failed with ⟨e, b, -, same⟩ | ⟨ciphered, behind, -, failed⟩
      · exact same
      · exact openService_error failed

theorem genCipheringUnprotect_error (failed : genCipheringUnprotect hal stale apdu ctx = .error rc next) :
    next = ctx.adoptAny (cipheringTitle apdu) := by
  simp only [genCipheringUnprotect, failIf_bind_error_iff] at failed
  rcases failed with ⟨short, -, rfl⟩ | ⟨long, failed⟩
  · rw [cipheringTitle, if_pos short]
    rfl
  · rw [cipheringTitle, if_neg long]
    rcases parse_bind_error failed with ⟨e, b, unread, rfl⟩ | ⟨⟨transactionId, title⟩, rest, read, failed⟩
    · rw [unread]
      rfl
    · simp only [read, SecContext.adoptAny]
      rw [modify_bind] at failed
      rcases parse_bind_error failed with ⟨e, b, -, same⟩ | ⟨⟨recipient, ciphered⟩, behind, -, failed⟩
      · exact same
      · exact openService_error failed

theorem genSigningUnprotect_error (failed : genSigningUnprotect hal room apdu ctx = .error rc next) :
    next = ctx.adoptAny (signingTitle apdu) := by
  unfold genSigningUnprotect at failed
  unfold signingTitle
  cases decoded : genSigningDecode apdu with
  | none =>
    simp only [decoded, throw_apply, EStateM.Result.error.injEq] at failed
    exact failed.2.symm
  | some apdu =>
    simp only [decoded, modify_bind, get_bind, failIf_bind_error_iff] at failed
    rcases failed with ⟨-, -, same⟩ | ⟨-, ⟨-, -, same⟩ | ⟨-, impossible⟩⟩
    · exact same.symm
    · exact same.symm
    · simp at impossible

end Failures

/-- When one of the three general functions fails, the context is what it was exactly if the APDU
brought no title up to that point, or the one the context already held. -/
theorem failed_general_unprotect_unchanged_iff (hal : Hal) (ctx : SecContext) (apdu : List UInt8) :
    (∀ stale rc next, genGloDedUnprotect hal stale apdu ctx = .error rc next →
        (next = ctx ↔ ∀ title ∈ gloDedTitle apdu, title = ctx.peerSystemTitle)) ∧
      (∀ stale rc next, genCipheringUnprotect hal stale apdu ctx = .error rc next →
        (next = ctx ↔ ∀ title ∈ cipheringTitle apdu, title = ctx.peerSystemTitle)) ∧
      (∀ room rc next, genSigningUnprotect hal room apdu ctx = .error rc next →
        (next = ctx ↔ ∀ title ∈ signingTitle apdu, title = ctx.peerSystemTitle)) := by
  refine ⟨?_, ?_, ?_⟩
  · intro stale rc next failed
    rw [genGloDedUnprotect_error failed]
    exact ctx.adoptAny_eq_self_iff _
  · intro stale rc next failed
    rw [genCipheringUnprotect_error failed]
    exact ctx.adoptAny_eq_self_iff _
  · intro room rc next failed
    rw [genSigningUnprotect_error failed]
    exact ctx.adoptAny_eq_self_iff _

/-- A title with an empty service, a bare header, and a content under a signature of one byte: each is
refused, and each leaves its title behind. -/
theorem failed_general_unprotect_stores_title :
    let ctx := secContextInit .suite0 .hlsEcdsa (Vector.replicate 8 7)
    let title := List.replicate 8 (9 : UInt8)
    genGloDedUnprotect sampleHal 0 ([0xDB, 8] ++ title ++ [0]) ctx =
        .error (-1) { ctx with peerSystemTitle := Vector.replicate 8 9 } ∧
      genCipheringUnprotect sampleHal 0 ([0xDD, 0, 8] ++ title) ctx =
        .error (-1) { ctx with peerSystemTitle := Vector.replicate 8 9 } ∧
      genSigningUnprotect sampleHal 1024 ([0xDF, 0, 8] ++ title ++ [0, 0, 0, 1, 0xC4, 1, 0xAB]) ctx =
        .error (-1) { ctx with peerSystemTitle := Vector.replicate 8 9 } ∧
      ctx.peerSystemTitle ≠ Vector.replicate 8 9 := by
  refine ⟨rfl, rfl, rfl, by decide⟩

end OpenSpodes
