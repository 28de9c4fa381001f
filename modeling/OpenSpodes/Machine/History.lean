import Mathlib.Data.List.Basic

/-! # Histories of a labelled transition relation

A system whose steps carry labels leaves a history: the list of labels in the order they happened.
`History step origin seen now` says that `seen` is such a history and `now` the state it ends in.
A history grows at its end, as a log does, so one rule carries all the inductions: an invariant
that may read both the labels so far and the current state is kept by one more label.
-/

namespace Machine

variable {State Label : Type*} {label : Label}

/-- A label of a history is its last one or occurs in what was there before. -/
theorem append_singleton_split {seen before after : List Label} {last : Label}
    (split : seen ++ [last] = before ++ label :: after) : (seen = before ∧ last = label ∧ after = []) ∨
      ∃ rest, after = rest ++ [last] ∧ seen = before ++ label :: rest := by
  rcases List.eq_nil_or_concat after with rfl | ⟨rest, final, rfl⟩
  · obtain ⟨rfl, same⟩ := List.append_inj' split rfl
    exact .inl ⟨rfl, by simpa using same, rfl⟩
  · have regrouped : seen ++ [last] = (before ++ label :: rest) ++ [final] := by simpa using split
    obtain ⟨earlier, same⟩ := List.append_inj' regrouped rfl
    obtain rfl : last = final := by simpa using same
    exact .inr ⟨rest, by simp, earlier⟩

/-- `seen` is a history from `origin` that ends in `now`. -/
inductive History (step : State → Label → State → Prop) (origin : State) :
    List Label → State → Prop
  | start : History step origin [] origin
  | extend {seen : List Label} {now next : State} {label : Label} :
      History step origin seen now → step now label next → History step origin (seen ++ [label]) next

namespace History

variable {step : State → Label → State → Prop} {origin middle now : State}
  {seen more : List Label}

/-- A history continues with any history of the state it ends in. -/
theorem trans (before : History step origin seen middle) (after : History step middle more now) :
    History step origin (seen ++ more) now := by
  induction after with
  | start => simpa using before
  | extend _ happened ih =>
    rw [← List.append_assoc]
    exact ih.extend happened

/-- An invariant of label list and state that each further label keeps holds of every history. -/
theorem invariant {Inv : List Label → State → Prop} (history : History step origin seen now) (initial : Inv [] origin)
    (kept : ∀ seen now label next, Inv seen now → step now label next → Inv (seen ++ [label]) next) : Inv seen now := by
  induction history with
  | start => exact initial
  | extend _ happened ih => exact kept _ _ _ _ ih happened

/-- What an invariant says of a label at the moment it happens holds wherever it occurs. -/
theorem at_label (history : History step origin seen now) (Inv : List Label → State → Prop)
    (Now : List Label → Label → Prop) (initial : Inv [] origin)
    (kept : ∀ seen now label next, Inv seen now → step now label next → Inv (seen ++ [label]) next)
    (holds : ∀ seen now label next, Inv seen now → step now label next → Now seen label) {before after : List Label}
    (occurs : seen = before ++ label :: after) : Now before label := by
  induction history generalizing after with
  | start => simp at occurs
  | @extend earlier state next last past happened ih =>
    have reached : Inv earlier state := past.invariant initial kept
    rcases append_singleton_split occurs with ⟨rfl, rfl, -⟩ | ⟨rest, -, inside⟩
    · exact holds _ _ _ _ reached happened
    · exact ih inside

theorem singleton_iff : History step origin [label] now ↔ step origin label now := by
  constructor
  · intro history
    generalize single : [label] = seen at history
    cases history with
    | start => simp at single
    | @extend earlier state _ last past happened =>
      obtain ⟨rfl, rfl⟩ : earlier = [] ∧ last = label := by
        simpa using List.append_eq_singleton_iff.mp single.symm
      generalize empty : [] = none at past
      cases past with
      | start => exact happened
      | extend => simp at empty
  · intro happened
    exact History.start.extend happened

end History

/-! ## The last label that wrote

What a key of a store is expected to hold: what the last write of the history put there, unless it was
cleared later.
-/

variable {Content : Type*} {writes : Label → Option Content} {clears : Label → Prop}

/-- The last label that writes writes `content`, and nothing after it clears. -/
def Latest (writes : Label → Option Content) (clears : Label → Prop) (seen : List Label) (content : Content) : Prop :=
  ∃ before label after, seen = before ++ label :: after ∧ writes label = some content ∧
    ∀ later ∈ after, writes later = none ∧ ¬clears later

theorem not_latest_nil (content : Content) : ¬Latest writes clears [] content := by
  rintro ⟨before, label, after, split, -⟩
  simp at split

/-- One more label either writes, or keeps what was there unless it clears. -/
theorem latest_append_singleton {seen : List Label} {last : Label} {content : Content} :
    Latest writes clears (seen ++ [last]) content ↔
      writes last = some content ∨ writes last = none ∧ ¬clears last ∧ Latest writes clears seen content := by
  constructor
  · rintro ⟨before, label, after, split, written, kept⟩
    rcases append_singleton_split split with ⟨rfl, rfl, rfl⟩ | ⟨rest, rfl, inside⟩
    · exact .inl written
    · obtain ⟨silent, stays⟩ := kept last (by simp)
      refine .inr ⟨silent, stays, before, label, rest, inside, written, ?_⟩
      intro later member
      exact kept later (by simp [member])
  · rintro (written | ⟨silent, stays, before, label, after, rfl, written, kept⟩)
    · exact ⟨seen, last, [], rfl, written, by simp⟩
    · refine ⟨before, label, after ++ [last], by simp, written, ?_⟩
      intro later member
      rcases List.mem_append.mp member with earlier | now
      · exact kept later earlier
      · obtain rfl := List.mem_singleton.mp now
        exact ⟨silent, stays⟩

/-- How one label changes what is found under a key. -/
structure Follows (writes : Label → Option Content) (clears : Label → Prop) (label : Label)
    (before after : Option Content) : Prop where
  written {content : Content} : writes label = some content → after = some content
  cleared : writes label = none → clears label → after = none
  kept : writes label = none → ¬clears label → after = before

/-- A lookup that follows every label finds the content of the last write. -/
theorem Follows.latest {seen : List Label} {before after : Option Content}
    (follows : Follows writes clears label before after)
    (found : ∀ content, before = some content ↔ Latest writes clears seen content) (content : Content) :
    after = some content ↔ Latest writes clears (seen ++ [label]) content := by
  rw [latest_append_singleton]
  cases written : writes label with
  | some put =>
    rw [follows.written written]
    simp
  | none =>
    by_cases clear : clears label
    · rw [follows.cleared written clear]
      simp [clear]
    · rw [follows.kept written clear, found content]
      simp [clear]

end Machine
