import Mathlib.Control.Monad.Basic
import Mathlib.Order.Defs.Unbundled

/-! # Fallible stateful computations

`EStateM ε σ` runs from a state to either a value or an error, and in both cases to a state: an
error keeps whatever was changed before it. These lemmas evaluate such a computation at a state and
take a sequence of steps apart, one step for each use of `bind_ok_iff` or `bind_error_iff`.
-/

namespace Machine.Fallible

variable {ε σ α β : Type} {x : EStateM ε σ α} {f : α → EStateM ε σ β} {s t u : σ} {a : α} {e : ε} {c : Prop}

/-- Fail with `e` when `c` holds. -/
def failIf (c : Prop) [Decidable c] (e : ε) : EStateM ε σ Unit :=
  if c then throw e else pure ()

/-- Run a step whose failure the caller looks at; a failed step keeps the state it reached. -/
def attempt (x : EStateM ε σ α) : EStateM ε σ (Option α) := fun s =>
  match x s with
  | .ok a t => .ok (some a) t
  | .error _ t => .ok none t

/-- Run a step whose outcome the caller does not look at. -/
def ignore (x : EStateM ε σ α) : EStateM ε σ Unit := do
  let _ ← attempt x

@[simp] theorem pure_apply (a : α) (s : σ) : (pure a : EStateM ε σ α) s = .ok a s := rfl

@[simp] theorem throw_apply (e : ε) (s : σ) : (throw e : EStateM ε σ α) s = .error e s := rfl

@[simp] theorem get_apply (s : σ) : (get : EStateM ε σ σ) s = .ok s s := rfl

@[simp] theorem set_apply (s' s : σ) : (set s' : EStateM ε σ PUnit) s = .ok ⟨⟩ s' := rfl

@[simp] theorem modify_apply (f : σ → σ) (s : σ) :
    (modify f : EStateM ε σ PUnit) s = .ok ⟨⟩ (f s) := rfl

@[simp] theorem modifyGet_apply (f : σ → α × σ) (s : σ) :
    (modifyGet f : EStateM ε σ α) s = .ok (f s).1 (f s).2 := rfl

@[simp] theorem get_bind (f : σ → EStateM ε σ β) (s : σ) : (get >>= f) s = f s s := rfl

@[simp] theorem set_bind (s' : σ) (f : PUnit → EStateM ε σ β) (s : σ) :
    (set s' >>= f) s = f ⟨⟩ s' := rfl

@[simp] theorem modify_bind (g : σ → σ) (f : PUnit → EStateM ε σ β) (s : σ) :
    (modify g >>= f) s = f ⟨⟩ (g s) := rfl

/-- A first step that succeeds hands its value and state to the rest. -/
theorem bind_of_ok (first : x s = .ok a t) : (x >>= f) s = f a t := by
  change EStateM.bind x f s = f a t
  simp only [EStateM.bind, first]

theorem bind_of_error (first : x s = .error e t) : (x >>= f) s = .error e t := by
  change EStateM.bind x f s = .error e t
  simp only [EStateM.bind, first]

theorem bind_ok_iff {b : β} : (x >>= f) s = .ok b u ↔ ∃ a t, x s = .ok a t ∧ f a t = .ok b u := by
  cases first : x s with
  | ok a t =>
    rw [bind_of_ok first]
    constructor
    · intro rest
      exact ⟨a, t, rfl, rest⟩
    · rintro ⟨_, _, ⟨⟩, rest⟩
      exact rest
  | error e t => simp [bind_of_error first]

theorem bind_error_iff : (x >>= f) s = .error e u ↔ x s = .error e u ∨ ∃ a t, x s = .ok a t ∧ f a t = .error e u := by
  cases first : x s with
  | ok a t =>
    rw [bind_of_ok first]
    constructor
    · intro rest
      exact .inr ⟨a, t, rfl, rest⟩
    · rintro (⟨⟨⟩⟩ | ⟨_, _, ⟨⟩, rest⟩)
      exact rest
  | error e t => simp [bind_of_error first]

/-- Past a check, its condition is false and the state is the one before it. -/
theorem failIf_bind_ok_iff [Decidable c] {f : Unit → EStateM ε σ β} {b : β} :
    (failIf c e >>= f) s = .ok b u ↔ ¬c ∧ f () s = .ok b u := by
  by_cases failed : c
  · simp [failIf, failed, bind_ok_iff]
  · simp [failIf, failed]

theorem failIf_bind_of_not [Decidable c] {f : Unit → EStateM ε σ β} (passes : ¬c) : (failIf c e >>= f) s = f () s := by
  simp [failIf, passes]

theorem failIf_bind_error_iff [Decidable c] {e' : ε} {f : Unit → EStateM ε σ β} :
    (failIf c e >>= f) s = .error e' u ↔ (c ∧ e = e' ∧ s = u) ∨ (¬c ∧ f () s = .error e' u) := by
  by_cases failed : c
  · simp [failIf, failed, bind_error_iff]
  · simp [failIf, failed]

/-! ## Where a computation ends -/

/-- The state behind a computation, whether it succeeded or failed. -/
def finalState (x : EStateM ε σ α) (s : σ) : σ :=
  match x s with
  | .ok _ t => t
  | .error _ t => t

def outcome (x : EStateM ε σ α) (s : σ) : Option α :=
  match x s with
  | .ok a _ => some a
  | .error _ _ => none

theorem finalState_of_ok (success : x s = .ok a t) : finalState x s = t := by
  simp only [finalState, success]

theorem finalState_of_error (failure : x s = .error e t) : finalState x s = t := by
  simp only [finalState, failure]

@[simp] theorem finalState_get_bind (f : σ → EStateM ε σ β) (s : σ) :
    finalState (get >>= f) s = finalState (f s) s := rfl

@[simp] theorem finalState_failIf (c : Prop) [Decidable c] (e : ε) (s : σ) :
    finalState (failIf c e : EStateM ε σ Unit) s = s := by
  unfold failIf
  split_ifs <;> rfl

@[simp] theorem finalState_failIf_bind (c : Prop) [Decidable c] (e : ε) (f : Unit → EStateM ε σ β) (s : σ) :
    finalState (failIf c e >>= f) s = if c then s else finalState (f ()) s := by
  by_cases failed : c
  · simp [failIf, failed, finalState, bind_of_error (throw_apply e s)]
  · simp [failIf, failed]

@[simp] theorem outcome_pure (a : α) (s : σ) : outcome (pure a : EStateM ε σ α) s = some a := rfl

@[simp] theorem outcome_get_bind (f : σ → EStateM ε σ β) (s : σ) :
    outcome (get >>= f) s = outcome (f s) s := rfl

@[simp] theorem outcome_modify_bind (g : σ → σ) (f : PUnit → EStateM ε σ β) (s : σ) :
    outcome (modify g >>= f) s = outcome (f ⟨⟩) (g s) := rfl

@[simp] theorem outcome_failIf_bind (c : Prop) [Decidable c] (e : ε) (f : Unit → EStateM ε σ β) (s : σ) :
    outcome (failIf c e >>= f) s = if c then none else outcome (f ()) s := by
  by_cases failed : c
  · simp [failIf, failed, outcome, bind_of_error (throw_apply e s)]
  · simp [failIf, failed]

/-! ## Relations between the states before and behind -/

theorem finalState_bind (x : EStateM ε σ α) (f : α → EStateM ε σ β) (s : σ) :
    finalState (x >>= f) s = match x s with
      | .ok a t => finalState (f a) t
      | .error _ t => t := by
  cases first : x s with
  | ok a t => simp only [finalState, bind_of_ok first]
  | error e t => simp only [finalState, bind_of_error first]

/-- Whatever the outcome, the state behind is related to the one before. -/
def Leaves (R : σ → σ → Prop) (x : EStateM ε σ α) : Prop := ∀ s, R s (finalState x s)

namespace Leaves

variable {R : σ → σ → Prop}

theorem of_ok (leaves : Leaves R x) (success : x s = .ok a t) : R s t :=
  finalState_of_ok success ▸ leaves s

theorem modify {f : σ → σ} (kept : ∀ s, R s (f s)) : Leaves R (modify f : EStateM ε σ PUnit) := kept

theorem attempt {x : EStateM ε σ α} (leaves : Leaves R x) : Leaves R (attempt x) := by
  intro s
  have kept := leaves s
  cases outcome : x s with
  | ok | error => simpa [finalState, Fallible.attempt, outcome] using kept

theorem get_bind {f : σ → EStateM ε σ β} (leaves : ∀ s, R s (finalState (f s) s)) : Leaves R (get >>= f) :=
  leaves

theorem ite [Decidable c] {yes no : EStateM ε σ α} (first : Leaves R yes) (second : Leaves R no) :
    Leaves R (if c then yes else no) := by
  split
  · exact first
  · exact second

variable [IsPreorder σ R]

theorem pure (a : α) : Leaves R (pure a : EStateM ε σ α) := refl_of R

theorem throw (e : ε) : Leaves R (throw e : EStateM ε σ α) := refl_of R

theorem failIf (c : Prop) [Decidable c] (e : ε) : Leaves R (failIf c e : EStateM ε σ Unit) := by
  intro s
  rw [finalState_failIf]
  exact refl_of R s

theorem bind (first : Leaves R x) (rest : ∀ a, Leaves R (f a)) : Leaves R (x >>= f) := by
  intro s
  rw [finalState_bind]
  have kept := first s
  cases outcome : x s with
  | ok a t => exact trans_of R (finalState_of_ok outcome ▸ kept) (rest a t)
  | error e t => exact finalState_of_error outcome ▸ kept

theorem ignore {x : EStateM ε σ α} (leaves : Leaves R x) : Leaves R (ignore x) :=
  .bind leaves.attempt fun _ => .pure _

end Leaves

/-! ## Computations that never fail -/

def Succeeds (x : EStateM ε σ α) : Prop := ∀ s, ∃ a t, x s = .ok a t

namespace Succeeds

theorem pure (a : α) : Succeeds (pure a : EStateM ε σ α) := fun s => ⟨a, s, rfl⟩

theorem bind (first : Succeeds x) (rest : ∀ a, Succeeds (f a)) : Succeeds (x >>= f) := by
  intro s
  obtain ⟨a, t, done⟩ := first s
  rw [bind_of_ok done]
  exact rest a t

theorem attempt (x : EStateM ε σ α) : Succeeds (attempt x) := by
  intro s
  rw [Fallible.attempt]
  cases x s with
  | ok | error => exact ⟨_, _, rfl⟩

theorem ignore (x : EStateM ε σ α) : Succeeds (ignore x) := (attempt x).bind fun _ => .pure _

theorem ite [Decidable c] {yes no : EStateM ε σ α} (first : Succeeds yes) (second : Succeeds no) :
    Succeeds (if c then yes else no) := by
  split
  · exact first
  · exact second

theorem forM {f : α → EStateM ε σ PUnit} (each : ∀ a, Succeeds (f a)) (as : List α) : Succeeds (as.forM f) := by
  induction as with
  | nil => exact .pure _
  | cons a as ih => exact (each a).bind fun _ => ih

end Succeeds

end Machine.Fallible
