import Mathlib.Data.List.Infix

/-! # Messages cut into segments

A sender cuts a message into parts and marks all but the last as being followed by another. A receiver collects
parts until it meets one without the mark. As long as it takes the segments of a list of messages in their order,
what it holds is the beginning of one of the messages, and what it holds at the end of one is that message.
-/

namespace Machine.Segments

variable {α : Type} {parts : List (List α)}

/-- A part of a message, and whether another one follows. -/
abbrev Segment (α : Type) := List α × Bool

/-- The segments of a message that was cut into the given parts. -/
def segmentsOf : List (List α) → List (Segment α)
  | [] => []
  | part :: rest => (part, !rest.isEmpty) :: segmentsOf rest

def collect (held : List α) (segment : Segment α) : List α := if segment.2 then held ++ segment.1 else []

/-- What is held of the segments that came first. -/
def held (segments : List (Segment α)) : List α := segments.foldl collect []

theorem held_concat (segments : List (Segment α)) (segment : Segment α) :
    held (segments ++ [segment]) = collect (held segments) segment := by
  simp [held]

theorem foldl_segmentsOf (some : parts ≠ []) (start : List α) : (segmentsOf parts).foldl collect start = [] := by
  induction parts generalizing start with
  | nil => exact absurd rfl some
  | cons part rest ih =>
    cases rest with
    | nil => rfl
    | cons next rest => exact ih (List.cons_ne_nil _ _) _

/-- Nothing is held of a whole message. -/
theorem held_segmentsOf_append (parts : List (List α)) (segments : List (Segment α)) :
    held (segmentsOf parts ++ segments) = held segments := by
  cases parts with
  | nil => rfl
  | cons part rest => rw [held, List.foldl_append, foldl_segmentsOf (List.cons_ne_nil _ _)]; rfl

variable {before after : List (Segment α)} {segment : Segment α}

theorem foldl_begun (cut : segmentsOf parts = before ++ segment :: after) (start : List α) :
    before.foldl collect start ++ segment.1 <+: start ++ parts.flatten ∧
      (segment.2 = false → before.foldl collect start ++ segment.1 = start ++ parts.flatten) := by
  induction parts generalizing before start with
  | nil => simp [segmentsOf] at cut
  | cons part rest ih =>
    cases before with
    | nil =>
      obtain ⟨rfl, -⟩ : (part, !rest.isEmpty) = segment ∧ _ := by simpa [segmentsOf] using cut
      constructor
      · simp
      · intro last
        obtain rfl : rest = [] := by simpa using last
        simp
    | cons first before =>
      obtain ⟨rfl, behind⟩ : (part, !rest.isEmpty) = first ∧ segmentsOf rest = before ++ segment :: after := by
        simpa [segmentsOf] using cut
      have more : rest ≠ [] := by
        rintro rfl
        simp [segmentsOf] at behind
      have taken : collect start (part, !rest.isEmpty) = start ++ part := by simp [collect, more]
      rw [List.foldl_cons, taken, List.flatten_cons, ← List.append_assoc]
      exact ih behind (start ++ part)

/-- What is held together with the next segment begins a message, and is the whole of it at a last segment. -/
theorem held_begun {messages : List (List (List α))} (cut : messages.flatMap segmentsOf = before ++ segment :: after) :
    ∃ parts ∈ messages, held before ++ segment.1 <+: parts.flatten ∧
      (segment.2 = false → held before ++ segment.1 = parts.flatten) := by
  induction messages generalizing before with
  | nil => simp at cut
  | cons parts messages ih =>
    rw [List.flatMap_cons] at cut
    obtain ⟨more, rfl, behind⟩ | ⟨missing, inside, rest⟩ := List.append_eq_append_iff.mp cut
    · -- the segment belongs to a later message
      obtain ⟨later, member, begun⟩ := ih behind
      rw [held_segmentsOf_append]
      exact ⟨later, List.mem_cons_of_mem _ member, begun⟩
    · cases missing with
      | nil =>
        have first : messages.flatMap segmentsOf = [] ++ segment :: after := by simpa using rest.symm
        obtain ⟨later, member, begun⟩ := ih first
        rw [List.append_nil] at inside
        rw [← inside, ← List.append_nil (segmentsOf parts), held_segmentsOf_append]
        exact ⟨later, List.mem_cons_of_mem _ member, begun⟩
      | cons first missing =>
        obtain ⟨rfl, -⟩ : segment = first ∧ after = missing ++ _ := by simpa using rest
        exact ⟨parts, List.mem_cons_self, foldl_begun inside []⟩

end Machine.Segments
