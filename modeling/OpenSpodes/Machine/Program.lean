import Mathlib.Control.Monad.Basic
import Mathlib.Order.Defs.Unbundled

/-! # Stateful programs that may wait for input

A program over a state `σ` either returns a value with the state it leaves, or stays blocked on
input that has not arrived. `wp program post s` is its weakest precondition for partial correctness:
every return from `s` satisfies `post`. The simp lemmas push `wp` through the structure of a program
written in `do` notation; what a called program guarantees enters through `wp.mono`.

Most facts about a large program relate the state it leaves to the state it found, by a relation
that composes. `Keeps R program` is that, and its rules follow the program's text.
-/

namespace Machine

/-- Programs over `σ`; `none` is a program still waiting. -/
abbrev Program (σ : Type) := StateT σ Option

variable {σ τ α β : Type}

def blocked : Program σ α := fun _ => none

def zoom (view : σ → τ) (put : σ → τ → σ) (program : Program τ α) : Program σ α := fun s =>
  (program (view s)).map fun returned => (returned.1, put s returned.2)

@[simp] theorem pure_apply (a : α) (s : σ) : (pure a : Program σ α) s = some (a, s) := rfl

@[simp] theorem get_bind_apply (next : σ → Program σ β) (s : σ) : (get >>= next) s = next s s := rfl

@[simp] theorem set_bind_apply (t : σ) (next : PUnit → Program σ β) (s : σ) :
    (set t >>= next) s = next ⟨⟩ t := rfl

@[simp] theorem modify_bind_apply (f : σ → σ) (next : PUnit → Program σ β) (s : σ) :
    (modify f >>= next) s = next ⟨⟩ (f s) := rfl

variable {program : Program σ α} {next : α → Program σ β}

/-- A first program that returns hands its value and state to the rest. -/
theorem bind_of_some {s t : σ} {a : α} (first : program s = some (a, t)) : (program >>= next) s = next a t := by
  change Option.bind (program s) _ = next a t
  rw [first]
  rfl

theorem bind_eq_some {s u : σ} {b : β} :
    (program >>= next) s = some (b, u) ↔ ∃ a t, program s = some (a, t) ∧ next a t = some (b, u) := by
  constructor
  · intro returned
    obtain ⟨⟨a, t⟩, first, second⟩ := Option.bind_eq_some_iff.mp returned
    exact ⟨a, t, first, second⟩
  · rintro ⟨a, t, first, second⟩
    rw [bind_of_some first, second]

/-- A program that hands on every other result of a step returns the good one only behind it. -/
theorem guard_eq_some [DecidableEq α] {a good : α} {next : Program σ α} {s t : σ} :
    (if a ≠ good then pure a else next : Program σ α) s = some (good, t) ↔ a = good ∧ next s = some (good, t) := by
  by_cases same : a = good
  · simp [same]
  · simp [same]

/-- Every return of the program from `s` satisfies `post`. -/
def wp (program : Program σ α) (post : α → σ → Prop) (s : σ) : Prop :=
  ∀ a t, program s = some (a, t) → post a t

theorem wp.mono {post weaker : α → σ → Prop} {s : σ} (holds : wp program post s)
    (implied : ∀ a t, post a t → weaker a t) : wp program weaker s :=
  fun a t returned => implied a t (holds a t returned)

theorem wp.and {post other : α → σ → Prop} {s : σ} (left : wp program post s) (right : wp program other s) :
    wp program (fun a t => post a t ∧ other a t) s :=
  fun a t returned => ⟨left a t returned, right a t returned⟩

@[simp] theorem wp_pure (a : α) (post : α → σ → Prop) (s : σ) : wp (pure a) post s ↔ post a s := by
  constructor
  · intro holds
    exact holds a s rfl
  · rintro holds b t ⟨⟩
    exact holds

/-- Sequencing nests the second program's precondition in the first one's postcondition. -/
@[simp] theorem wp_bind (program : Program σ α) (next : α → Program σ β) (post : β → σ → Prop)
    (s : σ) : wp (program >>= next) post s ↔ wp program (fun a t => wp (next a) post t) s := by
  constructor
  · intro holds a t first b u second
    exact holds b u (bind_eq_some.mpr ⟨a, t, first, second⟩)
  · intro holds b u returned
    obtain ⟨a, t, first, second⟩ := bind_eq_some.mp returned
    exact holds a t first b u second

@[simp] theorem wp_get (post : σ → σ → Prop) (s : σ) : wp get post s ↔ post s s :=
  wp_pure s post s

@[simp] theorem wp_set (s' : σ) (post : PUnit → σ → Prop) (s : σ) : wp (set s') post s ↔ post ⟨⟩ s' := by
  constructor
  · intro holds
    exact holds ⟨⟩ s' rfl
  · rintro holds b t ⟨⟩
    exact holds

@[simp] theorem wp_modify (f : σ → σ) (post : PUnit → σ → Prop) (s : σ) : wp (modify f) post s ↔ post ⟨⟩ (f s) := by
  constructor
  · intro holds
    exact holds ⟨⟩ (f s) rfl
  · rintro holds b t ⟨⟩
    exact holds

@[simp] theorem wp_blocked (post : α → σ → Prop) (s : σ) : wp (blocked : Program σ α) post s :=
  fun _ _ returned => nomatch returned

@[simp] theorem wp_zoom (view : σ → τ) (put : σ → τ → σ) (program : Program τ α) (post : α → σ → Prop) (s : σ) :
    wp (zoom view put program) post s ↔ wp program (fun a t => post a (put s t)) (view s) := by
  constructor
  · intro holds a t returned
    exact holds a (put s t) (by simp [zoom, returned])
  · intro holds a t returned
    obtain ⟨⟨b, u⟩, inner, same⟩ := Option.map_eq_some_iff.mp returned
    cases same
    exact holds b u inner

@[simp] theorem wp_ite (c : Prop) [Decidable c] (yes no : Program σ α) (post : α → σ → Prop) (s : σ) :
    wp (if c then yes else no) post s ↔ (c → wp yes post s) ∧ (¬c → wp no post s) := by
  by_cases holds : c <;> simp [holds]

/-! ## Relations that a program keeps -/

/-- Every return from `s` leaves a state related to it. -/
def KeepsAt (R : σ → σ → Prop) (s : σ) (program : Program σ α) : Prop := wp program (fun _ t => R s t) s

/-- Every return leaves a state related to the one before. -/
def Keeps (R : σ → σ → Prop) (program : Program σ α) : Prop := ∀ s, KeepsAt R s program

variable {R S : σ → σ → Prop}

namespace KeepsAt

variable {s t : σ}

theorem ite {c : Prop} [Decidable c] {yes no : Program σ α} (first : c → KeepsAt R s yes)
    (second : ¬c → KeepsAt R s no) : KeepsAt R s (if c then yes else no) := by
  split
  · exact first ‹c›
  · exact second ‹¬c›

variable [IsPreorder σ R]

/-- What a later state keeps is kept from an earlier one. -/
theorem after (kept : R s t) (rest : KeepsAt R t program) : wp program (fun _ u => R s u) t :=
  rest.mono fun _ _ later => trans_of R kept later

theorem pure (a : α) : KeepsAt R s (pure a : Program σ α) := by
  simpa [KeepsAt] using refl_of R s

theorem bind (first : KeepsAt R s program) (rest : ∀ a, Keeps R (next a)) : KeepsAt R s (program >>= next) := by
  rw [KeepsAt, wp_bind]
  exact first.mono fun a t kept => (rest a t).after kept

/-- What the first program says of its value may be used behind it. -/
theorem bind_of_wp (post : α → Prop) (first : wp program (fun a t => R s t ∧ post a) s)
    (rest : ∀ a, post a → Keeps R (next a)) : KeepsAt R s (program >>= next) := by
  rw [KeepsAt, wp_bind]
  exact first.mono fun a t kept => (rest a kept.2 t).after kept.1

theorem set_bind {next : PUnit → Program σ β} (kept : R s t) (rest : Keeps R (next ⟨⟩)) :
    KeepsAt R s (set t >>= next) := by
  rw [KeepsAt, wp_bind, wp_set]
  exact (rest t).after kept

end KeepsAt

namespace Keeps

theorem mono {program : Program σ α} (kept : Keeps R program) (implied : ∀ s t, R s t → S s t) : Keeps S program :=
  fun s => (kept s).mono fun _ t => implied s t

theorem blocked : Keeps R (blocked : Program σ α) := fun s => wp_blocked _ s

theorem modify {f : σ → σ} (kept : ∀ s, R s (f s)) : Keeps R (modify f : Program σ PUnit) :=
  fun s => by simpa [KeepsAt] using kept s

theorem zoom {view : σ → τ} {put : σ → τ → σ} {program : Program τ α}
    (kept : ∀ s, wp program (fun _ t => R s (put s t)) (view s)) : Keeps R (zoom view put program) :=
  fun s => by simpa [KeepsAt] using kept s

theorem ite {c : Prop} [Decidable c] {yes no : Program σ α} (first : Keeps R yes) (second : Keeps R no) :
    Keeps R (if c then yes else no) :=
  fun s => .ite (fun _ => first s) (fun _ => second s)

/-- Past a read of the state, the state is still the one that was read. -/
theorem get_bind {next : σ → Program σ β} (kept : ∀ s, KeepsAt R s (next s)) : Keeps R (get >>= next) :=
  fun s => by simpa [KeepsAt] using kept s

variable [IsPreorder σ R]

theorem pure (a : α) : Keeps R (pure a : Program σ α) := fun _ => .pure a

theorem get : Keeps R (get : Program σ σ) := fun s => by simpa [KeepsAt] using refl_of R s

theorem bind {program : Program σ α} {next : α → Program σ β} (first : Keeps R program)
    (rest : ∀ a, Keeps R (next a)) : Keeps R (program >>= next) :=
  fun s => (first s).bind rest

end Keeps

end Machine
