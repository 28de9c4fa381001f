import Mathlib.Data.Nat.Notation
import OpenSpodes.Machine.Program

/-! # Two programs that talk to each other

A party runs on an inbox of messages and leaves an outbox. Over two lossless channels the inbox of each of two parties
is the outbox of the other. What a party speaks before it has to wait depends on what it has heard so far, and a wait for
a message that never comes ends in the party's own way, so a run on a part of the inbox shows what was said up to there.
The conversation grows in rounds, and it is settled when a round adds nothing.
-/

namespace Machine

/-- A program, the state in which it hears a given inbox and nothing behind it, and what it has said by a state. -/
structure Party (σ μ α : Type) where
  program : Program σ α
  hearing : List μ → σ
  said : σ → List μ

namespace Party

variable {σ μ α : Type}

def outcome (party : Party σ μ α) (inbox : List μ) : Option (α × σ) := party.program (party.hearing inbox)

def outbox (party : Party σ μ α) (inbox : List μ) : List μ :=
  ((party.outcome inbox).map fun returned => party.said returned.2).getD []

theorem outbox_of_outcome {party : Party σ μ α} {inbox : List μ} {a : α} {after : σ}
    (returned : party.outcome inbox = some (a, after)) : party.outbox inbox = party.said after := by
  rw [outbox, returned]
  rfl

end Party

variable {σ τ μ α β : Type} {p : Party σ μ α} {q : Party τ μ β}

/-- The inboxes of both parties after some rounds; `p` speaks first. -/
def conversation (p : Party σ μ α) (q : Party τ μ β) : ℕ → List μ × List μ
  | 0 => ([], [])
  | n + 1 =>
      let toQ := p.outbox (conversation p q n).1
      (q.outbox toQ, toQ)

def Settled (p : Party σ μ α) (q : Party τ μ β) (toP toQ : List μ) : Prop :=
  ∃ n, ∀ m ≥ n, conversation p q m = (toP, toQ)

theorem Settled.unique {toP toP' toQ toQ' : List μ} (first : Settled p q toP toQ) (second : Settled p q toP' toQ') :
    toP' = toP ∧ toQ' = toQ := by
  obtain ⟨n, first⟩ := first
  obtain ⟨m, second⟩ := second
  have same := (second _ (Nat.le_max_right n m)).symm.trans (first _ (Nat.le_max_left n m))
  exact Prod.mk.inj same

/-- A round that adds nothing is followed by others that add nothing. -/
theorem Settled.of_fixed {toP toQ : List μ} (n : ℕ) (reached : conversation p q n = (toP, toQ))
    (speaks : p.outbox toP = toQ) (answers : q.outbox toQ = toP) : Settled p q toP toQ := by
  have more (k : ℕ) : conversation p q (n + k) = (toP, toQ) := by
    induction k with
    | zero => exact reached
    | succ k ih =>
      rw [← Nat.add_assoc, conversation, ih]
      dsimp only
      rw [speaks, answers]
  refine ⟨n, fun m later => ?_⟩
  obtain ⟨k, rfl⟩ := Nat.exists_eq_add_of_le later
  exact more k

end Machine
