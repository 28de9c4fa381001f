import Mathlib.Data.List.Basic

/-! # Arrays of which a prefix is in use

An array of fixed length with a count of the cells in use, as C programs keep their tables. Search,
appending and removal are the loops over the cells; what they mean is said on the list of the cells in
use: the search is `List.findIdx?`, appending adds at the end, and moving every later cell down by one is
`List.eraseIdx`.
-/

variable {α : Type}

/-- A table: its cells, and how many of them, from the first on, are in use. -/
structure ArrayPrefix (α : Type) where
  cells : List α
  count : ℕ
  inside : count ≤ cells.length

variable {a : α}

namespace ArrayPrefix

variable {table : ArrayPrefix α}

def empty (capacity : ℕ) (blank : α) : ArrayPrefix α := ⟨List.replicate capacity blank, 0, Nat.zero_le _⟩

def used (table : ArrayPrefix α) : List α := table.cells.take table.count

/-- Look at the cells from `i` on, `n` of them, for the first that satisfies `p`. -/
def findFrom (p : α → Bool) (cells : List α) : ℕ → ℕ → Option ℕ
  | 0, _ => none
  | n + 1, i => if (cells[i]?.map p).getD false then some i else findFrom p cells n (i + 1)

/-- The first cell in use that satisfies `p`. -/
def findIndex (p : α → Bool) (table : ArrayPrefix α) : Option ℕ := findFrom p table.cells table.count 0

/-- Write the cell after `i` over the cell `i`, then the same one further on, `n` times. -/
def shiftDown : ℕ → ℕ → List α → List α
  | 0, _, cells => cells
  | n + 1, i, cells =>
      shiftDown n (i + 1)
        (match cells[i + 1]? with
        | some next => cells.set i next
        | none => cells)

theorem length_shiftDown (n i : ℕ) (cells : List α) : (shiftDown n i cells).length = cells.length := by
  induction n generalizing i cells with
  | zero => rfl
  | succ n ih =>
    rw [shiftDown, ih]
    split <;> simp

def push (a : α) (table : ArrayPrefix α) : Option (ArrayPrefix α) :=
  if room : table.count < table.cells.length then
    some ⟨table.cells.set table.count a, table.count + 1, by rw [List.length_set]; exact room⟩
  else none

/-- Take a cell out of use by moving the later ones down. -/
def removeAt (i : ℕ) (table : ArrayPrefix α) : ArrayPrefix α :=
  ⟨shiftDown (table.count - 1 - i) i table.cells, table.count - 1, by
    rw [length_shiftDown]
    exact Nat.le_trans (Nat.sub_le _ _) table.inside⟩

def setAt (i : ℕ) (a : α) (table : ArrayPrefix α) : ArrayPrefix α :=
  ⟨table.cells.set i a, table.count, by rw [List.length_set]; exact table.inside⟩

def clear (table : ArrayPrefix α) : ArrayPrefix α := ⟨table.cells, 0, Nat.zero_le _⟩

/-- From the cell `i` on, `n` of them, write the cells to keep behind the `w` kept so far. -/
def compactFrom (keep : α → Bool) : ℕ → ℕ → ℕ → List α → List α × ℕ
  | 0, _, w, cells => (cells, w)
  | n + 1, i, w, cells =>
      match cells[i]? with
      | some a => if keep a then compactFrom keep n (i + 1) (w + 1) (cells.set w a)
          else compactFrom keep n (i + 1) w cells
      | none => compactFrom keep n (i + 1) w cells

theorem compactFrom_inside (keep : α → Bool) (n i w : ℕ) (cells : List α) (behind : w ≤ i)
    (inside : i + n ≤ cells.length) : (compactFrom keep n i w cells).2 ≤ (compactFrom keep n i w cells).1.length := by
  induction n generalizing i w cells with
  | zero =>
    rw [compactFrom]
    exact Nat.le_trans behind inside
  | succ n ih =>
    rw [compactFrom]
    split
    · split
      · exact ih _ _ _ (by omega) (by rw [List.length_set]; omega)
      · exact ih _ _ _ (by omega) (by omega)
    · exact ih _ _ _ (by omega) (by omega)

/-- Keep the cells in use that satisfy `keep`, moved together. -/
def compact (keep : α → Bool) (table : ArrayPrefix α) : ArrayPrefix α :=
  ⟨(compactFrom keep table.count 0 0 table.cells).1, (compactFrom keep table.count 0 0 table.cells).2,
    compactFrom_inside keep _ _ _ _ (Nat.le_refl 0) (by simpa using table.inside)⟩

theorem findFrom_eq (p : α → Bool) (cells : List α) (n i : ℕ) (inside : i + n ≤ cells.length) :
    findFrom p cells n i = (((cells.drop i).take n).findIdx? p).map (· + i) := by
  induction n generalizing i with
  | zero => simp [findFrom]
  | succ n ih =>
    have bound : i < cells.length := by omega
    rw [List.drop_eq_getElem_cons bound, List.take_succ_cons, List.findIdx?_cons, findFrom,
      List.getElem?_eq_getElem bound, Option.map_some, Option.getD_some]
    cases holds : p cells[i] with
    | true => simp
    | false =>
      rw [if_neg Bool.false_ne_true, if_neg Bool.false_ne_true, ih (i + 1) (by omega), Option.map_map]
      congr 1
      funext k
      simp only [Function.comp_apply]
      omega

/-- The search loop is the search of the cells in use. -/
theorem findIndex_eq (p : α → Bool) (table : ArrayPrefix α) : table.findIndex p = table.used.findIdx? p := by
  rw [findIndex, findFrom_eq p table.cells table.count 0 (by simpa using table.inside)]
  simp [used]

/-- The cell the search loop stops at is the first one in use that satisfies `p`. -/
theorem findIndex_bind_cells (p : α → Bool) (table : ArrayPrefix α) :
    ((table.findIndex p).bind fun i => table.cells[i]?) = table.used.find? p := by
  rw [findIndex_eq]
  cases found : table.used.findIdx? p with
  | none =>
    rw [Option.bind_none, List.find?_eq_none.mpr]
    intro a member
    simpa using List.findIdx?_eq_none_iff.mp found a member
  | some i =>
    obtain ⟨bound, holds, earlier⟩ := List.findIdx?_eq_some_iff_getElem.mp found
    have first : table.used.find? p = some table.used[i] := by
      rw [List.find?_eq_some_iff_getElem]
      exact ⟨holds, i, bound, rfl, by simpa using earlier⟩
    rw [Option.bind_some, first]
    simp only [used, List.getElem_take]
    exact List.getElem?_eq_getElem _

/-- After the loop the moved cells hold their successors and every other cell what it held. -/
theorem getElem?_shiftDown (n i j : ℕ) (cells : List α) (inside : i + n < cells.length) :
    (shiftDown n i cells)[j]? = if i ≤ j ∧ j < i + n then cells[j + 1]? else cells[j]? := by
  induction n generalizing i cells with
  | zero => rw [shiftDown, if_neg (by omega)]
  | succ n ih =>
    have next : i + 1 < cells.length := by omega
    rw [shiftDown, List.getElem?_eq_getElem next]
    dsimp only
    rw [ih (i + 1) _ (by simpa using by omega)]
    simp only [List.getElem?_set]
    -- the cell just written, the cells still to move, and the rest
    rcases Nat.lt_trichotomy i j with after | rfl | before
    · by_cases moved : j < i + (n + 1)
      · rw [if_pos (by omega), if_neg (by omega), if_pos (by omega)]
      · rw [if_neg (by omega), if_neg (by omega), if_neg (by omega)]
    · rw [if_neg (by omega), if_pos rfl, if_pos (by omega), if_pos (by omega), List.getElem?_eq_getElem next]
    · rw [if_neg (by omega), if_neg (by omega), if_neg (by omega)]

/-- There is no cell for one more only when all are in use. -/
theorem full_of_push (failed : table.push a = none) : table.cells.length ≤ table.count := by
  unfold push at failed
  split at failed
  · cases failed
  · omega

theorem used_push {pushed : ArrayPrefix α} (done : table.push a = some pushed) : pushed.used = table.used ++ [a] := by
  unfold push at done
  split at done
  · next room =>
      obtain rfl := Option.some.inj done
      rw [used, used, List.take_succ_eq_append_getElem (by simpa using room), List.take_set_of_le (Nat.le_refl _)]
      simp
  · cases done

/-- Moving the later cells down removes one cell in use and keeps the order of the others. -/
theorem used_removeAt {i : ℕ} (bound : i < table.count) : (table.removeAt i).used = table.used.eraseIdx i := by
  have inside := table.inside
  apply List.ext_getElem?
  intro j
  rw [used, removeAt, List.getElem?_eraseIdx, used]
  simp only [List.getElem?_take]
  rw [getElem?_shiftDown _ _ _ _ (by omega)]
  by_cases earlier : j < i
  · rw [if_pos (by omega), if_neg (by omega), if_pos earlier, if_pos (by omega)]
  · rw [if_neg earlier]
    by_cases last : j < table.count - 1
    · rw [if_pos last, if_pos (by omega), if_pos (by omega)]
    · rw [if_neg last, if_neg (by omega)]

theorem used_setAt {i : ℕ} (table : ArrayPrefix α) : (table.setAt i a).used = table.used.set i a := by
  rw [used, used, setAt, List.take_set]

@[simp] theorem used_clear (table : ArrayPrefix α) : table.clear.used = [] := rfl

/-- The loop keeps what it has kept, and keeps of the cells ahead those that satisfy `keep`. -/
theorem compactFrom_take (keep : α → Bool) (n i w : ℕ) (cells : List α) (behind : w ≤ i)
    (inside : i + n ≤ cells.length) : (compactFrom keep n i w cells).1.take (compactFrom keep n i w cells).2 =
      cells.take w ++ ((cells.drop i).take n).filter keep := by
  induction n generalizing i w cells with
  | zero => simp [compactFrom]
  | succ n ih =>
    have bound : i < cells.length := by omega
    rw [compactFrom, List.getElem?_eq_getElem bound, List.drop_eq_getElem_cons bound, List.take_succ_cons]
    dsimp only
    split
    · next kept =>
        have free : w < cells.length := by omega
        rw [ih _ _ _ (by omega) (by rw [List.length_set]; omega), List.filter_cons_of_pos kept,
          List.take_succ_eq_append_getElem (by simpa using free), List.take_set_of_le (Nat.le_refl _),
          List.drop_set_of_lt (by omega), List.getElem_set_self, List.append_assoc]
        rfl
    · next dropped => rw [ih _ _ _ (by omega) (by omega), List.filter_cons_of_neg dropped]

theorem used_compact (keep : α → Bool) (table : ArrayPrefix α) :
    (table.compact keep).used = table.used.filter keep := by
  rw [used, compact, compactFrom_take keep _ _ _ _ (Nat.le_refl 0) (by simpa using table.inside)]
  simp [used]

end ArrayPrefix

namespace List

variable {p q : α → Bool} {l : List α}

/-- The first element of a list that satisfies `p`. -/
def IsFirst (p : α → Bool) (l : List α) (a : α) : Prop :=
  p a = true ∧ ∃ i : ℕ, l[i]? = some a ∧ ∀ j < i, ∀ b, l[j]? = some b → p b = false

theorem isFirst_iff : IsFirst p l a ↔ l.find? p = some a := by
  rw [List.find?_eq_some_iff_getElem]
  refine and_congr_right fun _ => ⟨?_, ?_⟩
  · rintro ⟨i, at_i, earlier⟩
    obtain ⟨bound, is_a⟩ := List.getElem?_eq_some_iff.mp at_i
    refine ⟨i, bound, is_a, fun j before => ?_⟩
    simp [earlier j before _ (List.getElem?_eq_getElem (Nat.lt_trans before bound))]
  · rintro ⟨i, bound, is_a, earlier⟩
    refine ⟨i, List.getElem?_eq_some_iff.mpr ⟨bound, is_a⟩, fun j before b at_j => ?_⟩
    obtain ⟨bound_j, rfl⟩ := List.getElem?_eq_some_iff.mp at_j
    simpa using earlier j before

/-- An element written before every other match is the one found. -/
theorem find?_set_of_pos {i : ℕ} (bound : i < l.length) (holds : p a = true)
    (earlier : ∀ (j : ℕ) (before : j < i), p l[j] = false) : (l.set i a).find? p = some a := by
  rw [List.find?_eq_some_iff_getElem]
  refine ⟨holds, i, by simpa using bound, by simp, ?_⟩
  intro j before
  rw [List.getElem_set_ne (Nat.ne_of_gt before)]
  simp [earlier j before]

/-- Replacing one element that is not kept by another changes nothing about those that are. -/
theorem filter_set_of_neg {i : ℕ} (bound : i < l.length) (old : p l[i] = false) (fails : p a = false) :
    (l.set i a).filter p = l.filter p := by
  induction l generalizing i with
  | nil => simp at bound
  | cons b l ih =>
    cases i with
    | zero =>
      rw [List.set_cons_zero, List.filter_cons_of_neg (by simp [fails]), List.filter_cons_of_neg (by simpa using old)]
    | succ i =>
      rw [List.set_cons_succ, List.filter_cons, List.filter_cons, ih (by simpa using bound) (by simpa using old)]

/-- Replacing one element that is not looked for by another leaves the search as it was. -/
theorem find?_set_of_neg {i : ℕ} (bound : i < l.length) (old : p l[i] = false) (fails : p a = false) :
    (l.set i a).find? p = l.find? p := by
  rw [← List.head?_filter, ← List.head?_filter, filter_set_of_neg bound old fails]

/-- A change that `p` does not see leaves the number of elements that satisfy it. -/
theorem countP_modify_of_eq {f : α → α} (same : ∀ a, p (f a) = p a) (l : List α) (i : ℕ) :
    (l.modify i f).countP p = l.countP p := by
  induction l generalizing i with
  | nil => simp
  | cons a l ih =>
    cases i with
    | zero => simp [countP_cons, same]
    | succ i => simp [countP_cons, ih]

/-- Elements that are kept anyway need not be kept before. -/
theorem filter_filter_of_imp (implied : ∀ a, q a = true → p a = true) (l : List α) :
    (l.filter p).filter q = l.filter q := by
  rw [List.filter_filter]
  apply List.filter_congr
  intro a _
  cases holds : q a with
  | true => rw [implied a holds, Bool.and_self]
  | false => rfl

/-- Among elements with different keys, removing the first with a key removes the only one. -/
theorem eraseP_eq_filter_of_nodup {κ : Type} [DecidableEq κ] (key : α → κ) (k : κ) (distinct : (l.map key).Nodup) :
    l.eraseP (key · = k) = l.filter (key · ≠ k) := by
  induction l with
  | nil => rfl
  | cons a l ih =>
    rw [List.map_cons, List.nodup_cons] at distinct
    by_cases same : key a = k
    · subst same
      rw [List.eraseP_cons_of_pos (by simp), List.filter_cons_of_neg (by simp), List.filter_eq_self.mpr]
      intro b member
      have apart : key b ≠ key a := by
        intro equal
        exact distinct.1 (equal ▸ List.mem_map_of_mem member)
      simpa using apart
    · rw [List.eraseP_cons_of_neg (by simpa using same), List.filter_cons_of_pos (by simpa using same), ih distinct.2]

/-- Without the first element that satisfies `p`, the search finds the second. -/
theorem find?_eraseP_self (p : α → Bool) (l : List α) : (l.eraseP p).find? p = (l.filter p)[1]? := by
  induction l with
  | nil => rfl
  | cons a l ih =>
    cases holds : p a with
    | true =>
      rw [List.eraseP_cons_of_pos holds, List.filter_cons_of_pos holds, List.getElem?_cons_succ,
        ← List.head?_eq_getElem?, List.head?_filter]
    | false =>
      have fails : ¬p a = true := by simp [holds]
      rw [List.eraseP_cons_of_neg fails, List.find?_cons_of_neg fails, List.filter_cons_of_neg fails, ih]

/-- An element that satisfies `p` is not found by a search for anything else. -/
theorem find?_eraseP_of_disjoint (apart : ∀ a, p a = true → q a = false) (l : List α) :
    (l.eraseP p).find? q = l.find? q := by
  induction l with
  | nil => rfl
  | cons a l ih =>
    cases holds : p a with
    | true => rw [List.eraseP_cons_of_pos holds, List.find?_cons_of_neg (by simp [apart a holds])]
    | false => rw [List.eraseP_cons_of_neg (by simp [holds]), List.find?_cons, List.find?_cons, ih]

end List
