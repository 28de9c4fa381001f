import Mathlib.Data.List.Nodup
import Mathlib.Data.List.Range
import OpenSpodes.Spec.Data

/-! # Trees of values in a memory

`Value.Tree` follows a value into the places of its items and lists all of them, the items of items included; the
leaves satisfy a given predicate. A list of places without repetition means that no two items share a place, so the
slices of all arrays and structures of the tree are disjoint. `Laid` adds that, for places of one interval, which is
how a pool that is handed out from front to back holds a tree.
-/

namespace OpenSpodes

/-- Values without items, and the longest string among them. -/
def Value.Leaf : Value → Prop
  | .null | .scalar _ _ | .bitString _ _ => True
  | .octetString bytes | .visibleString bytes | .utf8String bytes => bytes.length ≤ 256
  | .array _ _ | .struct _ _ | .other _ | .owned _ _ _ => False

/-- A bit string fills at most the array of 32 bytes that holds it. -/
def Value.BitsFit : Value → Prop
  | .bitString _ numBits => numBits ≤ 256
  | _ => True

/-- The value's tree has leaves of the given kind, items within the limits, and these places for its items. -/
inductive Value.Tree (leaf : Value → Prop) (memory : ℕ → Value) : Value → List ℕ → Prop
  | leaf {value : Value} (holds : leaf value) : Tree leaf memory value []
  | nest {kind : NestKind} {start count : ℕ} {below : ℕ → List ℕ} (few : count ≤ kind.maxLen)
      (items : ∀ i < count, Tree leaf memory (memory (start + i)) (below i)) :
      Tree leaf memory (kind.value start count) (List.range' start count ++ (List.range count).flatMap below)

/-- The value itself, its items, their items and so on. -/
inductive Value.Part (memory : ℕ → Value) : Value → Value → Prop
  | self (value : Value) : Part memory value value
  | item {kind : NestKind} {start count i : ℕ} {part : Value} (inside : i < count)
      (below : Part memory (memory (start + i)) part) : Part memory (kind.value start count) part

/-- A tree with all its items at different places from `lo` to `hi`. -/
def Laid (leaf : Value → Prop) (memory : ℕ → Value) (lo hi : ℕ) (value : Value) : Prop :=
  ∃ places, value.Tree leaf memory places ∧ places.Nodup ∧ ∀ place ∈ places, lo ≤ place ∧ place < hi

/-- The same for the values at `count` places from `pos` on. -/
def AllLaid (leaf : Value → Prop) (memory : ℕ → Value) (lo hi pos count : ℕ) : Prop :=
  ∃ below : ℕ → List ℕ, (∀ i < count, (memory (pos + i)).Tree leaf memory (below i)) ∧
    ((List.range count).flatMap below).Nodup ∧ ∀ place ∈ (List.range count).flatMap below, lo ≤ place ∧ place < hi

section Trees

variable {leaf : Value → Prop} {memory memory' : ℕ → Value} {value : Value} {places : List ℕ} {lo mid hi pos count : ℕ}

theorem Value.Tree.congr (tree : value.Tree leaf memory places) (same : ∀ place ∈ places, memory' place = memory place) :
    value.Tree leaf memory' places := by
  induction tree with
  | leaf holds => exact .leaf holds
  | nest few items ih =>
    refine .nest few fun i inside => ?_
    rw [same _ (List.mem_append_left _ (List.mem_range'_1.mpr ⟨Nat.le_add_right _ _, by omega⟩))]
    refine ih i inside fun place member => same place (List.mem_append_right _ ?_)
    exact List.mem_flatMap.mpr ⟨i, List.mem_range.mpr inside, member⟩

theorem Value.Tree.mono {leaf' : Value → Prop} (tree : value.Tree leaf memory places)
    (implied : ∀ value, leaf value → leaf' value) : value.Tree leaf' memory places := by
  induction tree with
  | leaf holds => exact .leaf (implied _ holds)
  | nest few items ih => exact .nest few ih

theorem NestKind.value_inj {kind kind' : NestKind} {start start' count count' : ℕ}
    (same : kind.value start count = kind'.value start' count') : start = start' ∧ count = count' := by
  cases kind <;> cases kind' <;> simp_all [NestKind.value]

/-- What holds of the leaves and of all arrays and structures holds of every part. -/
theorem Value.Tree.part {holds : Value → Prop} (tree : value.Tree leaf memory places)
    (ofLeaf : ∀ value, leaf value → holds value) (ofNest : ∀ (kind : NestKind) start count, holds (kind.value start count))
    (noItems : ∀ (kind : NestKind) start count, ¬leaf (kind.value start count)) {part : Value}
    (isPart : value.Part memory part) : holds part := by
  induction isPart generalizing places with
  | self value =>
    cases tree with
    | leaf isLeaf => exact ofLeaf _ isLeaf
    | nest few items => exact ofNest _ _ _
  | @item kind start count i part inside below ih =>
    generalize same : kind.value start count = root at tree
    cases tree with
    | leaf isLeaf => exact absurd (same ▸ isLeaf) (noItems _ _ _)
    | nest few items =>
      obtain ⟨rfl, rfl⟩ := NestKind.value_inj same
      exact ih (items i inside)

theorem Laid.of_leaf (holds : leaf value) : Laid leaf memory lo hi value :=
  ⟨[], .leaf holds, List.nodup_nil, by simp⟩

theorem Laid.empty (kind : NestKind) (start : ℕ) : Laid leaf memory lo hi (kind.value start 0) := by
  have none : ∀ i < 0, (memory (start + i)).Tree leaf memory [] := by simp
  exact ⟨[], .nest (Nat.zero_le _) none, List.nodup_nil, by simp⟩

theorem Laid.congr (laid : Laid leaf memory lo hi value) (same : ∀ i, lo ≤ i → i < hi → memory' i = memory i) :
    Laid leaf memory' lo hi value := by
  obtain ⟨places, tree, distinct, inside⟩ := laid
  exact ⟨places, tree.congr fun place member => same place (inside place member).1 (inside place member).2, distinct, inside⟩

theorem AllLaid.nil : AllLaid leaf memory lo hi pos 0 := ⟨fun _ => [], by simp, by simp, by simp⟩

/-- One more item in front, with its own items at lower places than those of the others. -/
theorem AllLaid.cons (first : Laid leaf memory lo mid (memory pos)) (rest : AllLaid leaf memory mid hi (pos + 1) count)
    (lower : lo ≤ mid) (upper : mid ≤ hi) : AllLaid leaf memory lo hi pos (count + 1) := by
  obtain ⟨places, tree, distinct, inside⟩ := first
  obtain ⟨below, trees, distinctRest, insideRest⟩ := rest
  let all : ℕ → List ℕ := fun i => if i = 0 then places else below (i - 1)
  have split : (List.range (count + 1)).flatMap all = places ++ (List.range count).flatMap below := by
    rw [List.range_succ_eq_map, List.flatMap_cons, List.flatMap_map]
    simp [all]
  refine ⟨all, fun i small => ?_, ?_, ?_⟩
  · cases i with
    | zero => simpa [all] using tree
    | succ i =>
      have item := trees i (by omega)
      rw [Nat.add_assoc, Nat.add_comm 1] at item
      simpa [all] using item
  · rw [split]
    refine distinct.append distinctRest fun place member memberRest => ?_
    have := (inside place member).2
    have := (insideRest place memberRest).1
    omega
  · rw [split]
    intro place member
    rcases List.mem_append.mp member with early | late
    · exact ⟨(inside place early).1, (inside place early).2.trans_le upper⟩
    · exact ⟨lower.trans (insideRest place late).1, (insideRest place late).2⟩

/-- Items at fresh places in front of the places of their own items. -/
theorem AllLaid.nest {kind : NestKind} {start : ℕ} (laid : AllLaid leaf memory (start + count) hi start count)
    (few : count ≤ kind.maxLen) (upper : start + count ≤ hi) : Laid leaf memory start hi (kind.value start count) := by
  obtain ⟨below, trees, distinct, inside⟩ := laid
  refine ⟨_, .nest few trees, ?_, fun place member => ?_⟩
  · refine (List.nodup_range').append distinct fun place member memberRest => ?_
    have := List.mem_range'_1.mp member
    have := (inside place memberRest).1
    omega
  · rcases List.mem_append.mp member with early | late
    · have := List.mem_range'_1.mp early
      omega
    · have := inside place late
      omega

end Trees

end OpenSpodes
