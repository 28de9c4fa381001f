import Mathlib.Data.List.Basic

/-! # Lists cut into chunks

Chunk `n` of a list, counted from one, is what lies between the positions `(n - 1) * size` and `n * size`. The
first `n` chunks together are the first `n * size` elements. Two ways to cut one list are compared by the lengths
of their parts.
-/

namespace List

variable {α : Type*}

/-- Chunk `n` of a list, counted from one, for chunks of the given size. -/
def chunk (l : List α) (size n : ℕ) : List α := (l.drop ((n - 1) * size)).take size

theorem length_chunk_le (l : List α) (size n : ℕ) : (l.chunk size n).length ≤ size :=
  length_take_le _ _

/-- The first chunks are a first part of the list. -/
theorem flatMap_chunk_range' (l : List α) (size n : ℕ) : (range' 1 n).flatMap (l.chunk size) = l.take (n * size) := by
  induction n with
  | zero => simp
  | succ n ih =>
    rw [range'_1_concat, flatMap_append, ih, Nat.succ_mul, take_add]
    simp [chunk]

theorem length_flatten_le {pieces parts : List (List α)} (enough : parts.length ≤ pieces.length)
    (covers : ∀ pair ∈ pieces.zip parts, pair.2.length ≤ pair.1.length) :
    parts.flatten.length ≤ pieces.flatten.length := by
  induction parts generalizing pieces with
  | nil => simp
  | cons part parts ih =>
    cases pieces with
    | nil => simp at enough
    | cons piece pieces =>
      have first : part.length ≤ piece.length := covers (piece, part) (by simp)
      have rest := ih (Nat.le_of_succ_le_succ enough) fun pair member => covers pair (by simp [member])
      simp only [flatten_cons, length_append]
      omega

/-- Two cuts of one list are the same cut if no part of the first falls short of its counterpart. -/
theorem eq_of_flatten_eq {pieces parts : List (List α)} (same : pieces.flatten = parts.flatten)
    (some : ∀ piece ∈ pieces, piece ≠ []) (enough : parts.length ≤ pieces.length)
    (covers : ∀ pair ∈ pieces.zip parts, pair.2.length ≤ pair.1.length) : pieces = parts := by
  induction parts generalizing pieces with
  | nil =>
    cases pieces with
    | nil => rfl
    | cons piece pieces =>
      simp only [flatten_cons, flatten_nil, append_eq_nil_iff] at same
      exact absurd same.1 (some piece (by simp))
  | cons part parts ih =>
    cases pieces with
    | nil => simp at enough
    | cons piece pieces =>
      have first : part.length ≤ piece.length := covers (piece, part) (by simp)
      have later : ∀ pair ∈ pieces.zip parts, pair.2.length ≤ pair.1.length :=
        fun pair member => covers pair (by simp [member])
      have rest := length_flatten_le (Nat.le_of_succ_le_succ enough) later
      have total := congrArg length same
      simp only [flatten_cons, length_append] at same total
      obtain ⟨rfl, tail⟩ := append_inj same (by omega)
      rw [ih tail (fun piece member => some piece (by simp [member])) (Nat.le_of_succ_le_succ enough) later]

end List
