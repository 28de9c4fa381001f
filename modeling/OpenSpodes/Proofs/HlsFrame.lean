import OpenSpodes.Model.Hls

/-! # What the handshake changes in a context

Verifying pass 3 writes the record of the peer's counter and failures and nothing else. Building
pass 4 takes at most one counter value, and only one that has a successor.
-/

namespace OpenSpodes

open Machine.Fallible

variable {hal : Hal} {outSize : ℕ} {fStoc value : List UInt8} {rc : Int} {α : Type}

/-- Two contexts that differ at most in what they record of the peer. -/
def SecContext.SameButPeer (ctx next : SecContext) : Prop :=
  ∃ last valid failures, next = { ctx with lastPeerIc := last, icValid := valid, hlsFailures := failures }

variable {ctx next : SecContext}

theorem SecContext.SameButPeer.of_eq (same : next = ctx) : ctx.SameButPeer next :=
  ⟨_, _, _, same⟩

theorem SecContext.SameButPeer.policy (same : ctx.SameButPeer next) : next.policy = ctx.policy := by
  obtain ⟨_, _, _, rfl⟩ := same
  rfl

theorem SecContext.SameButPeer.invocationCounter (same : ctx.SameButPeer next) :
    next.invocationCounter = ctx.invocationCounter := by
  obtain ⟨_, _, _, rfl⟩ := same
  rfl

private theorem hlsCompare_unchanged (expected : Option (List UInt8)) (received : List UInt8) (ctx : SecContext) :
    finalState (hlsCompare expected received) ctx = ctx := by
  cases expected with
  | none => rfl
  | some expected => exact finalState_failIf _ _ _

private theorem hlsPass3CounterVerify_frame (frameLen : ℕ)
    (mac : SecContext → UInt32 → Option (List UInt8)) (fStoc : List UInt8) (ctx : SecContext) :
    ctx.SameButPeer (finalState (hlsPass3CounterVerify frameLen mac fStoc) ctx) := by
  simp only [hlsPass3CounterVerify, hlsRefuse, finalState_failIf_bind, finalState_get_bind]
  split_ifs
  · exact .of_eq rfl
  · exact .of_eq rfl
  · exact ⟨_, _, _, rfl⟩
  · cases mac ctx (hlsFrameIc fStoc) with
    | none => exact ⟨_, _, _, rfl⟩
    | some expected =>
      dsimp only
      split_ifs <;> exact ⟨_, _, _, rfl⟩

/-- Verifying pass 3 changes at most the record of the peer, whatever it returns. -/
theorem hlsPass3Verify_frame (hal : Hal) (fStoc : List UInt8) (ctx : SecContext) :
    ctx.SameButPeer (finalState (hlsPass3Verify hal fStoc) ctx) := by
  rw [hlsPass3Verify, finalState_failIf_bind]
  split_ifs
  · exact .of_eq rfl
  · rw [finalState_get_bind]
    cases ctx.mechanism with
    | hlsGmac | hlsGostCmac => exact hlsPass3CounterVerify_frame _ _ _ _
    | hlsEcdsa | hlsGostSig => exact .of_eq (finalState_failIf _ _ _)
    | hls | hlsSha256 | hlsGostStreebog | hlsMd5 | hlsSha1 => exact .of_eq (hlsCompare_unchanged _ _ _)
    | lowest | lls | other => exact .of_eq rfl

theorem hlsPass3Verify_ok (accepted : hlsPass3Verify hal fStoc ctx = .ok () next) : ctx.SameButPeer next :=
  finalState_of_ok accepted ▸ hlsPass3Verify_frame hal fStoc ctx

theorem hlsPass3Verify_error (refused : hlsPass3Verify hal fStoc ctx = .error rc next) : ctx.SameButPeer next :=
  finalState_of_error refused ▸ hlsPass3Verify_frame hal fStoc ctx

private theorem finalState_hlsTakeCounter_bind (f : UInt32 → EStateM Int SecContext α) (ctx : SecContext) :
    finalState (hlsTakeCounter >>= f) ctx = if ctx.invocationCounter = 0xFFFFFFFF then ctx
      else finalState (f ctx.invocationCounter) { ctx with invocationCounter := ctx.invocationCounter + 1 } := by
  by_cases last : ctx.invocationCounter = 0xFFFFFFFF
  · have refused : hlsTakeCounter ctx = .error (-1) ctx := by
      rw [hlsTakeCounter, get_bind, failIf_bind_error_iff]
      exact .inl ⟨last, rfl, rfl⟩
    rw [if_pos last, finalState, bind_of_error refused]
  · have taken : hlsTakeCounter ctx =
        .ok ctx.invocationCounter { ctx with invocationCounter := ctx.invocationCounter + 1 } := by
      rw [hlsTakeCounter, get_bind, failIf_bind_of_not last]
      rfl
    rw [if_neg last, finalState, bind_of_ok taken, finalState]

/-- Two contexts of which the second may have taken one counter value that has a successor. -/
def SecContext.TookCounter (ctx next : SecContext) : Prop :=
  next = ctx ∨ (ctx.invocationCounter ≠ 0xFFFFFFFF ∧
    next = { ctx with invocationCounter := ctx.invocationCounter + 1 })

theorem SecContext.TookCounter.policy (took : ctx.TookCounter next) : next.policy = ctx.policy := by
  rcases took with rfl | ⟨-, rfl⟩ <;> rfl

theorem SecContext.TookCounter.le (took : ctx.TookCounter next) :
    ctx.invocationCounter.toNat ≤ next.invocationCounter.toNat := by
  rcases took with rfl | ⟨more, rfl⟩
  · exact le_rfl
  · have next : (ctx.invocationCounter + 1).toNat = ctx.invocationCounter.toNat + 1 := Bytes.toNat_succ more
    exact next ▸ Nat.le_succ _

private theorem hlsTakeCounter_frame {f : UInt32 → EStateM Int SecContext α} {least : ℕ} (ctx : SecContext)
    (kept : ∀ ic next, finalState (f ic) next = next) :
    ctx.TookCounter (finalState (do failIf (outSize < least) (-1); let ic ← hlsTakeCounter; f ic) ctx) := by
  rw [finalState_failIf_bind, finalState_hlsTakeCounter_bind, kept]
  split_ifs with short last
  · exact .inl rfl
  · exact .inl rfl
  · exact .inr ⟨last, rfl⟩

private theorem ofExcept_unchanged (result : Except Int (List UInt8)) (ctx : SecContext) :
    finalState (ofExcept result) ctx = ctx := by
  cases result <;> rfl

/-- Building pass 4 takes at most one counter value. -/
theorem hlsPass4Build_frame (hal : Hal) (outSize : ℕ) (ctx : SecContext) :
    ctx.TookCounter (finalState (hlsPass4Build hal outSize) ctx) := by
  rw [hlsPass4Build, finalState_get_bind]
  cases ctx.mechanism with
  | hlsGmac =>
    refine hlsTakeCounter_frame ctx fun ic next => ?_
    rw [finalState_get_bind]
    cases hlsGmac hal next next.systemTitle ic next.ctos.val <;> rfl
  | hlsGostCmac =>
    refine hlsTakeCounter_frame ctx fun ic next => ?_
    rw [finalState_get_bind]
    cases Kuznyechik.hlsGostCmac next.kEm (buildIv next.systemTitle ic) (hlsSc next) next.ctos.val
      next.stoc.val <;> rfl
  | hlsEcdsa => exact .inl (ofExcept_unchanged _ _)
  | hlsGostSig => exact .inl (ofExcept_unchanged _ _)
  | hls => exact .inl (ofExcept_unchanged _ _)
  | hlsSha256 => exact .inl (ofExcept_unchanged _ _)
  | hlsGostStreebog => exact .inl (ofExcept_unchanged _ _)
  | hlsMd5 => exact .inl (ofExcept_unchanged _ _)
  | hlsSha1 => exact .inl (ofExcept_unchanged _ _)
  | lowest | lls | other => exact .inl rfl

/-- A GMAC that was built has taken its counter value. -/
theorem hlsPass4Build_gmac (mechanism : ctx.mechanism = .hlsGmac)
    (built : hlsPass4Build hal outSize ctx = .ok value next) :
    ctx.invocationCounter ≠ 0xFFFFFFFF ∧ next.invocationCounter = ctx.invocationCounter + 1 := by
  rw [hlsPass4Build, get_bind, mechanism] at built
  obtain ⟨-, rest⟩ := failIf_bind_ok_iff.mp built
  obtain ⟨ic, taken, took, rest⟩ := bind_ok_iff.mp rest
  rw [hlsTakeCounter, get_bind, failIf_bind_ok_iff] at took
  obtain ⟨more, took⟩ := took
  have counter : taken.invocationCounter = ctx.invocationCounter + 1 := by
    obtain ⟨-, rfl⟩ : _ ∧ _ := EStateM.Result.ok.inj took
    rfl
  rw [get_bind] at rest
  cases tag : hlsGmac hal taken taken.systemTitle ic taken.ctos.val with
  | none => simp [tag] at rest
  | some tag =>
    simp only [tag, pure_apply, EStateM.Result.ok.injEq] at rest
    exact ⟨more, rest.2 ▸ counter⟩

theorem hlsPass4Build_ok (built : hlsPass4Build hal outSize ctx = .ok value next) : ctx.TookCounter next :=
  finalState_of_ok built ▸ hlsPass4Build_frame hal outSize ctx

theorem hlsPass4Build_error (failed : hlsPass4Build hal outSize ctx = .error rc next) :
    ctx.TookCounter next :=
  finalState_of_error failed ▸ hlsPass4Build_frame hal outSize ctx

end OpenSpodes
