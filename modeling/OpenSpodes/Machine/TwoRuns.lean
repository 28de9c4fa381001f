import OpenSpodes.Machine.Fallible
import OpenSpodes.Machine.Program

/-! # Two runs of one program

A property of two runs, such as "what a state hides is never seen", compares what a program does from two
states. Two runs are alike when they end in the same way with the same value, in states that a relation
connects. The rules follow the text of a program; a read of the state hands a different state to each of
the two runs, so from there on the rules speak of two programs.

There is one notion for each of the three kinds of computation: programs that may wait, fallible
computations, and plain state transformers.
-/

namespace Machine

variable {σ τ α β : Type} {R Q : σ → σ → Prop} {s t s' t' : σ} {change change' : σ → σ} {c : Prop}

/-- From `s` and `t` the two programs both wait, or both return the same value in related states. -/
def TwinAt (R : σ → σ → Prop) (s t : σ) (p q : Program σ α) : Prop :=
  (p s = none ∧ q t = none) ∨ ∃ a s' t', p s = some (a, s') ∧ q t = some (a, t') ∧ R s' t'

/-- From any two related states a program runs alike. -/
def Twin (R : σ → σ → Prop) (p : Program σ α) : Prop := ∀ s t, R s t → TwinAt R s t p p

namespace TwinAt

variable {p q p' q' : Program σ α} {f g : α → Program σ β}

theorem mono (alike : TwinAt Q s t p q) (implied : ∀ s t, Q s t → R s t) : TwinAt R s t p q := by
  rcases alike with waits | ⟨a, s', t', left, right, related⟩
  · exact .inl waits
  · exact .inr ⟨a, s', t', left, right, implied _ _ related⟩

theorem pure (a : α) (related : R s t) : TwinAt R s t (pure a) (pure a) :=
  .inr ⟨a, s, t, rfl, rfl, related⟩

theorem blocked : TwinAt R s t (blocked : Program σ α) blocked := .inl ⟨rfl, rfl⟩

/-- Runs that are alike hand one value and related states to the rest, which may also use what the first
program guarantees from `s`. -/
theorem bind_of_wp (post : α → σ → Prop) (first : TwinAt Q s t p q) (guaranteed : wp p post s)
    (rest : ∀ a s' t', Q s' t' → post a s' → TwinAt R s' t' (f a) (g a)) : TwinAt R s t (p >>= f) (q >>= g) := by
  rcases first with ⟨left, right⟩ | ⟨a, s', t', left, right, related⟩
  · refine .inl ⟨?_, ?_⟩
    · change Option.bind (p s) _ = none
      rw [left]
      rfl
    · change Option.bind (q t) _ = none
      rw [right]
      rfl
  · have later := rest a s' t' related (guaranteed a s' left)
    rwa [TwinAt, bind_of_some left, bind_of_some right]

theorem bind (first : TwinAt Q s t p q) (rest : ∀ a s' t', Q s' t' → TwinAt R s' t' (f a) (g a)) :
    TwinAt R s t (p >>= f) (q >>= g) :=
  first.bind_of_wp (fun _ _ => True) (fun _ _ _ => trivial) fun a s' t' related _ => rest a s' t' related

theorem get_bind {f g : σ → Program σ β} (rest : TwinAt R s t (f s) (g t)) :
    TwinAt R s t (get >>= f) (get >>= g) := rest

theorem set_bind {f g : PUnit → Program σ β} (rest : TwinAt R s' t' (f ⟨⟩) (g ⟨⟩)) :
    TwinAt R s t (set s' >>= f) (set t' >>= g) := rest

theorem modify_bind {f g : PUnit → Program σ β} (rest : TwinAt R (change s) (change' t) (f ⟨⟩) (g ⟨⟩)) :
    TwinAt R s t (modify change >>= f) (modify change' >>= g) := rest

theorem modify {change : σ → σ} (related : R (change s) (change t)) :
    TwinAt R s t (modify change : Program σ PUnit) (modify change) :=
  .inr ⟨⟨⟩, _, _, rfl, rfl, related⟩

theorem ite [Decidable c] (yes : c → TwinAt R s t p q) (no : ¬c → TwinAt R s t p' q') :
    TwinAt R s t (if c then p else p') (if c then q else q') := by
  by_cases holds : c
  · rw [if_pos holds, if_pos holds]
    exact yes holds
  · rw [if_neg holds, if_neg holds]
    exact no holds

theorem zoom {W : τ → τ → Prop} {view : σ → τ} {put : σ → τ → σ} {p q : Program τ α}
    (inner : TwinAt W (view s) (view t) p q) (related : ∀ w v, W w v → R (put s w) (put t v)) :
    TwinAt R s t (zoom view put p) (zoom view put q) := by
  rcases inner with ⟨left, right⟩ | ⟨a, w, v, left, right, inside⟩
  · exact .inl ⟨by simp [Machine.zoom, left], by simp [Machine.zoom, right]⟩
  · exact .inr ⟨a, _, _, by simp [Machine.zoom, left], by simp [Machine.zoom, right], related w v inside⟩

end TwinAt

namespace Twin

variable {p q : Program σ α}

theorem pure (a : α) : Twin R (pure a : Program σ α) := fun _ _ => TwinAt.pure a

theorem bind {f : α → Program σ β} (first : Twin R p) (rest : ∀ a, Twin R (f a)) : Twin R (p >>= f) :=
  fun s t related => (first s t related).bind fun a => rest a

theorem ite {c : Prop} [Decidable c] (yes : Twin R p) (no : Twin R q) : Twin R (if c then p else q) :=
  fun s t related => .ite (fun _ => yes s t related) (fun _ => no s t related)

end Twin

namespace Fallible

variable {ε : Type}

/-- From `s` and `t` the two computations succeed or fail alike, in related states. -/
def TwinAt (R : σ → σ → Prop) (s t : σ) (x y : EStateM ε σ α) : Prop :=
  (∃ a s' t', x s = .ok a s' ∧ y t = .ok a t' ∧ R s' t') ∨
    ∃ e s' t', x s = .error e s' ∧ y t = .error e t' ∧ R s' t'

/-- From any two related states a computation ends alike. -/
def Twin (R : σ → σ → Prop) (x : EStateM ε σ α) : Prop := ∀ s t, R s t → TwinAt R s t x x

namespace TwinAt

variable {x y x' y' : EStateM ε σ α}

theorem mono (alike : TwinAt Q s t x y) (implied : ∀ s t, Q s t → R s t) : TwinAt R s t x y := by
  rcases alike with ⟨a, s', t', left, right, related⟩ | ⟨e, s', t', left, right, related⟩
  · exact .inl ⟨a, s', t', left, right, implied _ _ related⟩
  · exact .inr ⟨e, s', t', left, right, implied _ _ related⟩

theorem pure (a : α) (related : R s t) : TwinAt R s t (pure a : EStateM ε σ α) (pure a) :=
  .inl ⟨a, s, t, rfl, rfl, related⟩

theorem throw (e : ε) (related : R s t) : TwinAt R s t (throw e : EStateM ε σ α) (throw e) :=
  .inr ⟨e, s, t, rfl, rfl, related⟩

theorem bind {f g : α → EStateM ε σ β} (first : TwinAt R s t x y)
    (rest : ∀ a s' t', R s' t' → TwinAt R s' t' (f a) (g a)) : TwinAt R s t (x >>= f) (y >>= g) := by
  rcases first with ⟨a, s', t', left, right, related⟩ | ⟨e, s', t', left, right, related⟩
  · have later := rest a s' t' related
    rwa [TwinAt, bind_of_ok left, bind_of_ok right]
  · exact .inr ⟨e, s', t', bind_of_error left, bind_of_error right, related⟩

theorem get_bind {f g : σ → EStateM ε σ β} (rest : TwinAt R s t (f s) (g t)) :
    TwinAt R s t (get >>= f) (get >>= g) := rest

theorem modify_bind {f g : PUnit → EStateM ε σ β} (rest : TwinAt R (change s) (change' t) (f ⟨⟩) (g ⟨⟩)) :
    TwinAt R s t (modify change >>= f) (modify change' >>= g) := rest

theorem modify {change : σ → σ} (related : R (change s) (change t)) :
    TwinAt R s t (modify change : EStateM ε σ PUnit) (modify change) :=
  .inl ⟨⟨⟩, _, _, rfl, rfl, related⟩

theorem ite [Decidable c] (yes : c → TwinAt R s t x y) (no : ¬c → TwinAt R s t x' y') :
    TwinAt R s t (if c then x else x') (if c then y else y') := by
  by_cases holds : c
  · rw [if_pos holds, if_pos holds]
    exact yes holds
  · rw [if_neg holds, if_neg holds]
    exact no holds

theorem failIf (c : Prop) [Decidable c] (e : ε) (related : R s t) : TwinAt R s t (failIf c e) (failIf c e) :=
  .ite (fun _ => .throw e related) fun _ => .pure () related

/-- Past a check its condition is false. -/
theorem failIf_bind [Decidable c] {e : ε} {f g : Unit → EStateM ε σ β} (related : R s t)
    (rest : ¬c → TwinAt R s t (f ()) (g ())) :
    TwinAt R s t (Fallible.failIf c e >>= f) (Fallible.failIf c e >>= g) := by
  by_cases fails : c
  · simp only [Fallible.failIf, if_pos fails]
    exact .inr ⟨e, s, t, rfl, rfl, related⟩
  · simp only [Fallible.failIf, if_neg fails]
    exact rest fails

theorem attempt (inner : TwinAt R s t x y) : TwinAt R s t (attempt x) (attempt y) := by
  rcases inner with ⟨a, s', t', left, right, related⟩ | ⟨e, s', t', left, right, related⟩
  · exact .inl ⟨some a, s', t', by simp [Fallible.attempt, left], by simp [Fallible.attempt, right], related⟩
  · exact .inl ⟨none, s', t', by simp [Fallible.attempt, left], by simp [Fallible.attempt, right], related⟩

end TwinAt

namespace Twin

variable {x : EStateM ε σ α}

theorem pure (a : α) : Twin R (pure a : EStateM ε σ α) := fun _ _ => TwinAt.pure a

theorem throw (e : ε) : Twin R (throw e : EStateM ε σ α) := fun _ _ => TwinAt.throw e

theorem bind {f : α → EStateM ε σ β} (first : Twin R x) (rest : ∀ a, Twin R (f a)) : Twin R (x >>= f) :=
  fun s t related => (first s t related).bind fun a => rest a

theorem ite {c : Prop} [Decidable c] {x x' : EStateM ε σ α} (yes : Twin R x) (no : Twin R x') :
    Twin R (if c then x else x') :=
  fun s t related => .ite (fun _ => yes s t related) (fun _ => no s t related)

theorem failIf_bind {c : Prop} [Decidable c] {e : ε} {f : Unit → EStateM ε σ β} (rest : ¬c → Twin R (f ())) :
    Twin R (failIf c e >>= f) :=
  fun s t related => .failIf_bind related fun passes => rest passes s t related

theorem attempt (inner : Twin R x) : Twin R (attempt x) := fun s t related => (inner s t related).attempt

theorem ignore (inner : Twin R x) : Twin R (ignore x) := inner.attempt.bind fun _ => .pure _

theorem map {f : α → β} (inner : Twin R x) : Twin R (f <$> x) := by
  rw [map_eq_pure_bind]
  exact inner.bind fun _ => .pure _

end Twin

end Fallible

/-! ## State transformers -/

/-- From `s` and `t` the two state transformers return one value and related states. -/
def TwinStateAt (R : σ → σ → Prop) (s t : σ) (p q : StateM σ α) : Prop :=
  (p s).1 = (q t).1 ∧ R (p s).2 (q t).2

/-- From any two related states a state transformer returns alike. -/
def TwinState (R : σ → σ → Prop) (p : StateM σ α) : Prop := ∀ s t, R s t → TwinStateAt R s t p p

namespace TwinStateAt

theorem pure (a : α) (related : R s t) : TwinStateAt R s t (pure a : StateM σ α) (pure a) := ⟨rfl, related⟩

theorem bind {p q : StateM σ α} {f g : α → StateM σ β} (first : TwinStateAt Q s t p q)
    (rest : ∀ a s' t', Q s' t' → TwinStateAt R s' t' (f a) (g a)) : TwinStateAt R s t (p >>= f) (q >>= g) := by
  obtain ⟨same, related⟩ := first
  have later := rest (p s).1 (p s).2 (q t).2 related
  rw [TwinStateAt] at later ⊢
  change (f (p s).1 (p s).2).1 = (g (q t).1 (q t).2).1 ∧ R (f (p s).1 (p s).2).2 (g (q t).1 (q t).2).2
  rwa [← same]

/-- Two first steps whose results are known. -/
theorem bind_of_eq {p q : StateM σ α} {f g : α → StateM σ β} {a : α} (left : p s = (a, s')) (right : q t = (a, t'))
    (rest : TwinStateAt R s' t' (f a) (g a)) : TwinStateAt R s t (p >>= f) (q >>= g) := by
  change (f (p s).1 (p s).2).1 = (g (q t).1 (q t).2).1 ∧ R (f (p s).1 (p s).2).2 (g (q t).1 (q t).2).2
  rw [left, right]
  exact rest

theorem get_bind {f g : σ → StateM σ β} (rest : TwinStateAt R s t (f s) (g t)) :
    TwinStateAt R s t (get >>= f) (get >>= g) := rest

theorem modify_bind {f g : PUnit → StateM σ β} (rest : TwinStateAt R (change s) (change' t) (f ⟨⟩) (g ⟨⟩)) :
    TwinStateAt R s t (modify change >>= f) (modify change' >>= g) := rest

theorem set_bind {f g : PUnit → StateM σ β} (rest : TwinStateAt R s' t' (f ⟨⟩) (g ⟨⟩)) :
    TwinStateAt R s t (set s' >>= f) (set t' >>= g) := rest

theorem ite [Decidable c] {p q p' q' : StateM σ α} (yes : TwinStateAt R s t p q) (no : TwinStateAt R s t p' q') :
    TwinStateAt R s t (if c then p else p') (if c then q else q') := by
  by_cases holds : c
  · rwa [if_pos holds, if_pos holds]
  · rwa [if_neg holds, if_neg holds]

end TwinStateAt

namespace TwinState

theorem pure (a : α) : TwinState R (pure a : StateM σ α) := fun _ _ => .pure a

theorem bind {p : StateM σ α} {f : α → StateM σ β} (first : TwinState R p)
    (rest : ∀ a, TwinState R (f a)) : TwinState R (p >>= f) :=
  fun s t related => (first s t related).bind fun a => rest a

theorem modify {change : σ → σ} (related : ∀ s t, R s t → R (change s) (change t)) :
    TwinState R (modify change : StateM σ PUnit) := fun s t before => ⟨rfl, related s t before⟩

theorem ite [Decidable c] {p q : StateM σ α} (yes : TwinState R p) (no : TwinState R q) :
    TwinState R (if c then p else q) := by
  split
  · exact yes
  · exact no

end TwinState

end Machine
