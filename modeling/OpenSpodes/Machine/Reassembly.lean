import Mathlib.Data.List.Infix

/-! # Reassembling messages from numbered pieces

A sender cuts a message into numbered pieces. The first piece opens the message and names its
target, the others continue whatever is open, and one piece is flagged as the last. The receiver
here joins pieces in the order they arrive: `after` is what is still open behind a piece and
`completed` the message that the piece ends. It never looks at the numbers, so what it delivers are
pieces in order of arrival; whether they are the pieces `1, …, n` is `InOrder`.
-/

namespace Machine.Reassembly

/-- A piece; `opens` is the target when it is the first piece of a message. -/
structure Piece (τ α : Type) where
  opens : Option τ
  number : ℕ
  last : Bool
  payload : List α
  deriving DecidableEq

variable {τ α : Type}

def contents (pieces : List (Piece τ α)) : List α := pieces.flatMap Piece.payload

abbrev Message (τ α : Type) := τ × List (Piece τ α)

/-- The message that a piece belongs to, with the piece. -/
def join (current : Option (Message τ α)) (piece : Piece τ α) : Option (Message τ α) :=
  match piece.opens with
  | some target => some (target, [piece])
  | none => current.map fun message => (message.1, message.2 ++ [piece])

def Fits (limit : ℕ) (message : Message τ α) : Prop := (contents message.2).length ≤ limit

instance (limit : ℕ) (message : Message τ α) : Decidable (Fits limit message) :=
  inferInstanceAs (Decidable (_ ≤ _))

def after (limit : ℕ) (current : Option (Message τ α)) (piece : Piece τ α) : Option (Message τ α) :=
  (join current piece).filter fun message => Fits limit message ∧ piece.last = false

def completed (limit : ℕ) (current : Option (Message τ α)) (piece : Piece τ α) :
    Option (Message τ α) :=
  (join current piece).filter fun message => Fits limit message ∧ piece.last = true

/-- What is open behind pieces that arrived when nothing was open. -/
def run (limit : ℕ) (arrived : List (Piece τ α)) : Option (Message τ α) :=
  arrived.foldl (after limit) none

/-- The pieces carry the numbers `1, …, n`, in this order. -/
def InOrder (pieces : List (Piece τ α)) : Prop :=
  pieces.map Piece.number = List.range' 1 pieces.length

instance (pieces : List (Piece τ α)) : Decidable (InOrder pieces) :=
  inferInstanceAs (Decidable (_ = _))

/-- The pieces are one that opens a message for the target and others that continue it. -/
def Opened (message : Message τ α) : Prop :=
  ∃ first rest, message.2 = first :: rest ∧ first.opens = some message.1 ∧
    ∀ piece ∈ rest, piece.opens = none

section Joined

variable {limit : ℕ} {current : Option (Message τ α)} {piece : Piece τ α} {message : Message τ α}

theorem after_of_unjoined (unjoined : join current piece = none) : after limit current piece = none := by
  simp [after, unjoined]

theorem completed_of_unjoined (unjoined : join current piece = none) : completed limit current piece = none := by
  simp [completed, unjoined]

theorem after_of_joined (joined : join current piece = some message) : after limit current piece =
      if Fits limit message ∧ piece.last = false then some message else none := by
  simp [after, joined, Option.filter]

theorem completed_of_joined (joined : join current piece = some message) : completed limit current piece =
      if Fits limit message ∧ piece.last = true then some message else none := by
  simp [completed, joined, Option.filter]

end Joined

theorem run_concat (limit : ℕ) (arrived : List (Piece τ α)) (piece : Piece τ α) :
    run limit (arrived ++ [piece]) = after limit (run limit arrived) piece := by
  simp [run]

/-- A message consists of the pieces that arrived last, from the one that opened it on. -/
def Recent (arrived : List (Piece τ α)) (message : Message τ α) : Prop :=
  message.2 <:+ arrived ∧ Opened message

variable {arrived : List (Piece τ α)}

/-- There is only one message of the latest pieces. -/
theorem Recent.unique {message other : Message τ α} (recent : Recent arrived message)
    (recent' : Recent arrived other) : message = other := by
  -- the longer of two suffixes holds the opening piece of the shorter one, among those that continue
  have aligned {m n : Message τ α} (opened : Opened m) (opened' : Opened n) (inside : m.2 <:+ n.2) :
      m = n := by
    obtain ⟨first, rest, pieces, opens, -⟩ := opened
    obtain ⟨first', rest', pieces', opens', continued⟩ := opened'
    obtain ⟨before, split⟩ := inside
    rw [pieces, pieces'] at split
    cases before with
    | nil =>
      obtain ⟨rfl, rfl⟩ : first = first' ∧ rest = rest' := by simpa using split
      exact Prod.ext (Option.some.inj (opens.symm.trans opens')) (pieces.trans pieces'.symm)
    | cons head before =>
      obtain ⟨rfl, inside⟩ : head = first' ∧ before ++ first :: rest = rest' := by simpa using split
      have none := continued first (by simp [← inside])
      rw [opens] at none
      cases none
  rcases List.suffix_or_suffix_of_suffix recent.1 recent'.1 with inside | inside
  · exact aligned recent.2 recent'.2 inside
  · exact (aligned recent'.2 recent.2 inside).symm

theorem join_recent {current : Option (Message τ α)} {piece : Piece τ α}
    (recent : ∀ message ∈ current, Recent arrived message) :
    ∀ message ∈ join current piece, Recent (arrived ++ [piece]) message := by
  intro message joined
  cases opens : piece.opens with
  | some target =>
    obtain rfl : (target, [piece]) = message := by simpa [join, opens] using joined
    exact ⟨List.suffix_append _ _, piece, [], rfl, opens, by simp⟩
  | none =>
    obtain ⟨earlier, was, rfl⟩ : ∃ earlier ∈ current, (earlier.1, earlier.2 ++ [piece]) = message := by
      simpa [join, opens] using joined
    obtain ⟨⟨before, split⟩, first, rest, pieces, opened, continued⟩ := recent earlier was
    refine ⟨⟨before, by simp [← split]⟩, first, rest ++ [piece], by simp [pieces], opened, ?_⟩
    intro other member
    rcases List.mem_append.mp member with inside | added
    · exact continued other inside
    · rwa [List.mem_singleton.mp added]

/-- What is open are the latest pieces, from an opening one on. -/
theorem run_recent (limit : ℕ) (arrived : List (Piece τ α)) :
    ∀ message ∈ run limit arrived, Recent arrived message := by
  induction arrived using List.reverseRecOn with
  | nil => simp [run]
  | append_singleton arrived piece ih =>
    intro message opened
    rw [run_concat] at opened
    exact join_recent ih message ((Option.mem_filter_iff.mp opened).1)

end Machine.Reassembly
