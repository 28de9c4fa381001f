import OpenSpodes.Machine.TwoRuns

/-! # Postconditions for success and failure

`Ends x s good bad` says that from `s` the computation either succeeds with a value and a state in `good`, or fails in
an error and a state in `bad`. The rules follow the text of a computation; the failure side is the same at every step, so an
invariant that a failure must leave behind is shown once for each step that changes the state.
-/

namespace Machine.Fallible

variable {ε σ α β : Type} {s : σ} {good : α → σ → Prop} {after : β → σ → Prop} {bad : ε → σ → Prop}
  {x : EStateM ε σ α} {t : σ} {a : α}

def Ends (x : EStateM ε σ α) (s : σ) (good : α → σ → Prop) (bad : ε → σ → Prop) : Prop :=
  match x s with
  | .ok a t => good a t
  | .error e t => bad e t

namespace Ends

theorem ok (ends : Ends x s good bad) (success : x s = .ok a t) : good a t := by
  rwa [Ends, success] at ends

theorem error {e : ε} (ends : Ends x s good bad) (failure : x s = .error e t) : bad e t := by
  rwa [Ends, failure] at ends

theorem mono {good' : α → σ → Prop} {bad' : ε → σ → Prop} (ends : Ends x s good bad)
    (success : ∀ a t, good a t → good' a t) (failure : ∀ e t, bad e t → bad' e t) : Ends x s good' bad' := by
  cases run : x s with
  | ok a t =>
    rw [Ends, run]
    exact success a t (ends.ok run)
  | error e t =>
    rw [Ends, run]
    exact failure e t (ends.error run)

theorem pure {a : α} (holds : good a s) : Ends (pure a : EStateM ε σ α) s good bad := holds

theorem throw {e : ε} (holds : bad e s) : Ends (throw e : EStateM ε σ α) s good bad := holds

theorem modify_bind {change : σ → σ} {f : PUnit → EStateM ε σ β} (ends : Ends (f ⟨⟩) (change s) after bad) :
    Ends (modify change >>= f) s after bad := ends

theorem bind {f : α → EStateM ε σ β} (ends : Ends x s (fun a t => Ends (f a) t after bad) bad) :
    Ends (x >>= f) s after bad := by
  cases run : x s with
  | ok a t =>
    rw [Ends, bind_of_ok run]
    exact ends.ok run
  | error e t =>
    rw [Ends, bind_of_error run]
    exact ends.error run

/-- Where the outcome of the first step is known. -/
theorem bind_of_ok {x : EStateM ε σ α} {f : α → EStateM ε σ β} {a : α} {t : σ} (first : x s = .ok a t)
    (rest : Ends (f a) t after bad) : Ends (x >>= f) s after bad := by
  rwa [Ends, Fallible.bind_of_ok first]

theorem bind_of_error {x : EStateM ε σ α} {f : α → EStateM ε σ β} {e : ε} {t : σ} (first : x s = .error e t)
    (failed : bad e t) : Ends (x >>= f) s after bad := by
  rwa [Ends, Fallible.bind_of_error first]

theorem get_bind {f : σ → EStateM ε σ β} (ends : Ends (f s) s after bad) : Ends (get >>= f) s after bad := ends

theorem failIf_bind {c : Prop} [Decidable c] {e : ε} {f : Unit → EStateM ε σ β} (failure : c → bad e s)
    (ends : ¬c → Ends (f ()) s after bad) : Ends (failIf c e >>= f) s after bad := by
  by_cases failed : c
  · rw [failIf, if_pos failed]
    exact failure failed
  · rw [failIf, if_neg failed]
    exact ends failed

theorem failIf {c : Prop} [Decidable c] {e : ε} {good : Unit → σ → Prop} (failure : c → bad e s)
    (success : ¬c → good () s) : Ends (failIf c e) s good bad := by
  by_cases failed : c
  · rw [Fallible.failIf, if_pos failed]
    exact failure failed
  · rw [Fallible.failIf, if_neg failed]
    exact success failed

theorem ite {c : Prop} [Decidable c] {y : EStateM ε σ α} (yes : c → Ends x s good bad) (no : ¬c → Ends y s good bad) :
    Ends (if c then x else y) s good bad := by
  by_cases holds : c
  · rw [if_pos holds]
    exact yes holds
  · rw [if_neg holds]
    exact no holds

/-- What two runs keep between them, one run keeps by itself. -/
theorem of_twin {R : σ → σ → Prop} (alike : Twin R x) (start : R s s) :
    Ends x s (fun _ t => R t t) fun _ t => R t t := by
  rcases alike s s start with ⟨a, t, u, left, right, related⟩ | ⟨e, t, u, left, right, related⟩
  · rw [left] at right
    cases right
    rwa [Ends, left]
  · rw [left] at right
    cases right
    rwa [Ends, left]

end Ends

/-! ## Steps and plain state transformers -/

theorem map_of_ok {f : α → β} (ok : x s = .ok a t) : (f <$> x) s = .ok (f a) t := by
  change EStateM.map f x s = _
  simp only [EStateM.map, ok]

theorem ok_of_map {f : α → β} {b : β} (ok : (f <$> x) s = .ok b t) : ∃ a, x s = .ok a t ∧ f a = b := by
  change EStateM.map f x s = _ at ok
  cases run : x s with
  | ok a u =>
    simp only [EStateM.map, run, EStateM.Result.ok.injEq] at ok
    exact ⟨a, by rw [ok.2], ok.1⟩
  | error e u => simp [EStateM.map, run] at ok

theorem stateM_bind_of_eq {p : StateM σ α} {f : α → StateM σ β} (first : p s = (a, t)) : (p >>= f) s = f a t := by
  change f (p s).1 (p s).2 = f a t
  rw [first]

theorem stateM_get_bind (f : σ → StateM σ β) (s : σ) : (get >>= f) s = f s s := rfl

theorem stateM_modify_bind (g : σ → σ) (f : PUnit → StateM σ β) (s : σ) : (modify g >>= f) s = f ⟨⟩ (g s) := rfl

end Machine.Fallible
