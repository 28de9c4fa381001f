import OpenSpodes.Machine.History
import OpenSpodes.Model.TableManager

/-! # The Table Manager as a keyed table

A table is driven by its methods. A history of successful calls decides what it holds under a key: the row
last written with that key, unless the key was removed later. That is what the table does for a key exactly
when `osp_ic_value_eq` takes the key to be equal to itself, and it does so for eight types of values only.
-/

namespace OpenSpodes

open Machine

def Value.Comparable : Value → Prop
  | .null | .octetString _ => True
  | .scalar kind _ =>
      kind = .unsigned ∨ kind = .longUnsigned ∨ kind = .doubleLongUnsigned ∨ kind = .integer ∨ kind = .long ∨
        kind = .doubleLong
  | _ => False

theorem eq_of_icValueEq {a b : Value} (same : icValueEq a b = true) : a = b := by
  unfold icValueEq at same
  split at same <;> simp_all

theorem icValueEq_self {value : Value} : icValueEq value value = true ↔ value.Comparable := by
  cases value with
  | scalar kind content => cases kind <;> simp [icValueEq, Value.Comparable]
  | _ => simp [icValueEq, Value.Comparable]

/-- A call of a method that reads or changes the rows. -/
inductive TableCall
  | addUpdate (rows : List Row)
  | remove (keys : List Value)
  | retrieve (keys : List Value)
  deriving DecidableEq

namespace TableCall

def writes (keyIndex : UInt8) (key : Value) : TableCall → Option Row
  | addUpdate rows => rows.reverse.find? (icRowKey · keyIndex = some key)
  | _ => none

def Removes (key : Value) : TableCall → Prop
  | remove keys => keys = [] ∨ key ∈ keys
  | _ => False

end TableCall

namespace TableManager

variable {keyIndex : UInt8}

/-- A successful call of a method, by what its parameter stands for. -/
inductive Step (tm : TableManager) : TableCall → TableManager → Prop
  | addUpdate {pool : Pool} {param : Value} {entries : List Value} {rows : List Row} {next : TableManager} :
      parseEntriesList pool param = .ok entries →
      List.Forall₂ (fun entry row => icValueToRow pool entry = .ok row) entries rows →
      tm.invoke pool 1 param = ((.ok, .untouched), next) → Step tm (.addUpdate rows) next
  | remove {pool : Pool} {param : Value} {keys : List Value} {next : TableManager} :
      parseEntriesList pool param = .ok keys →
      tm.invoke pool 2 param = ((.ok, .untouched), next) → Step tm (.remove keys) next
  | retrieve {pool : Pool} {param : Value} {keys : List Value} {found : List Row} {next : TableManager} :
      parseEntriesList pool param = .ok keys →
      tm.invoke pool 4 param = ((.ok, .rows found), next) → Step tm (.retrieve keys) next

def rowsWith (tm : TableManager) (key : Value) : List Row := tm.rows.used.filter (icRowKey · tm.keyIndex = some key)

def lookup (tm : TableManager) (key : Value) : Option Row := tm.rows.used.find? (icRowKey · tm.keyIndex = some key)

variable {tm next : TableManager} {key : Value} {row : Row}

/-- A row that matches a key has it. -/
theorem icRowKey_of_rowMatches (same : rowMatches keyIndex key row = true) : icRowKey row keyIndex = some key := by
  rw [rowMatches] at same
  cases found : icRowKey row keyIndex with
  | none => simp [found] at same
  | some own =>
    rw [found, Option.map_some, Option.getD_some] at same
    rw [eq_of_icValueEq same]

theorem rowMatches_eq (compared : keyIndex.toNat < 16 → key.Comparable) :
    rowMatches keyIndex key row = decide (icRowKey row keyIndex = some key) := by
  rw [Bool.eq_iff_iff, decide_eq_true_eq]
  constructor
  · exact icRowKey_of_rowMatches
  · intro found
    obtain ⟨bound, -⟩ := List.getElem?_eq_some_iff.mp found
    rw [rowMatches, found, Option.map_some, Option.getD_some, icValueEq_self]
    exact compared (Nat.lt_of_lt_of_le bound row.property)

/-- Writing one row puts it in the place of the row with its key, or at the end. -/
theorem addUpdateRow_cases (done : tm.addUpdateRow row = (.ok, next)) :
    next.keyIndex = tm.keyIndex ∧ ∃ own, icRowKey row tm.keyIndex = some own ∧
      ((∃ (i : ℕ) (bound : i < tm.rows.used.length), rowMatches tm.keyIndex own tm.rows.used[i] = true ∧
          (∀ (j : ℕ) (before : j < i), rowMatches tm.keyIndex own tm.rows.used[j] = false) ∧
          next.rows.used = tm.rows.used.set i row) ∨
        (∀ other ∈ tm.rows.used, rowMatches tm.keyIndex own other = false) ∧
          next.rows.used = tm.rows.used ++ [row]) := by
  rw [addUpdateRow] at done
  split at done
  · cases done
  · next own named =>
      rw [findRowIndex, ArrayPrefix.findIndex_eq] at done
      split at done
      · next i found =>
          obtain rfl := (Prod.mk.inj done).2
          obtain ⟨bound, holds, earlier⟩ := List.findIdx?_eq_some_iff_getElem.mp found
          refine ⟨rfl, own, named, .inl ⟨i, bound, holds, ?_, ArrayPrefix.used_setAt _⟩⟩
          simpa using earlier
      · next absent =>
          split at done
          · next rows pushed =>
              obtain rfl := (Prod.mk.inj done).2
              exact ⟨rfl, own, named, .inr ⟨List.findIdx?_eq_none_iff.mp absent, ArrayPrefix.used_push pushed⟩⟩
          · cases done

/-- A row written under a key is the one found there; under any other key nothing changes. -/
theorem lookup_addUpdateRow (compared : tm.keyIndex.toNat < 16 → key.Comparable)
    (done : tm.addUpdateRow row = (.ok, next)) :
    next.lookup key = if icRowKey row tm.keyIndex = some key then some row else tm.lookup key := by
  obtain ⟨sameIndex, own, named, ⟨i, bound, holds, earlier, used⟩ | ⟨absent, used⟩⟩ := addUpdateRow_cases done
  · rw [lookup, lookup, sameIndex, used]
    split
    · next written =>
        obtain rfl : own = key := Option.some.inj (named.symm.trans written)
        apply List.find?_set_of_pos bound (by simpa using written)
        intro j before
        simpa [rowMatches_eq compared] using earlier j before
    · next other =>
        have apart : own ≠ key := fun same => other (same ▸ named)
        apply List.find?_set_of_neg bound
        · simpa [icRowKey_of_rowMatches holds] using apart
        · simpa using other
  · rw [lookup, lookup, sameIndex, used, List.find?_append]
    split
    · next written =>
        obtain rfl : own = key := Option.some.inj (named.symm.trans written)
        have missing : tm.rows.used.find? (icRowKey · tm.keyIndex = some own) = none := by
          rw [List.find?_eq_none]
          intro other member
          simpa [rowMatches_eq compared] using absent other member
        rw [missing, Option.none_or, List.find?_cons_of_pos (by simpa using written)]
    · next other => rw [List.find?_cons_of_neg (by simpa using other), List.find?_nil, Option.or_none]

/-- A row with another key leaves the rows with a key as they are. -/
theorem rowsWith_addUpdateRow (done : tm.addUpdateRow row = (.ok, next))
    (other : icRowKey row tm.keyIndex ≠ some key) : next.rowsWith key = tm.rowsWith key := by
  obtain ⟨sameIndex, own, named, ⟨i, bound, holds, -, used⟩ | ⟨-, used⟩⟩ := addUpdateRow_cases done
  · have apart : own ≠ key := fun same => other (same ▸ named)
    rw [rowsWith, rowsWith, sameIndex, used]
    apply List.filter_set_of_neg bound
    · simpa [icRowKey_of_rowMatches holds] using apart
    · simpa using other
  · rw [rowsWith, rowsWith, sameIndex, used, List.filter_append, List.filter_cons_of_neg (by simpa using other),
      List.filter_nil, List.append_nil]

/-- Writing a row does not make a second one with a key. -/
theorem single_addUpdateRow (compared : tm.keyIndex.toNat < 16 → key.Comparable)
    (done : tm.addUpdateRow row = (.ok, next)) (single : (tm.rowsWith key).length ≤ 1) :
    (next.rowsWith key).length ≤ 1 := by
  by_cases written : icRowKey row tm.keyIndex = some key
  · obtain ⟨sameIndex, own, named, ⟨i, bound, holds, -, used⟩ | ⟨absent, used⟩⟩ := addUpdateRow_cases done
    · obtain rfl : own = key := Option.some.inj (named.symm.trans written)
      rw [rowsWith, ← List.countP_eq_length_filter] at single ⊢
      rw [sameIndex, used, List.countP_set bound]
      simp only [icRowKey_of_rowMatches holds, written, decide_true, if_true]
      omega
    · obtain rfl : own = key := Option.some.inj (named.symm.trans written)
      have none_yet : tm.rows.used.filter (icRowKey · tm.keyIndex = some own) = [] := by
        rw [List.filter_eq_nil_iff]
        intro other member
        simpa [rowMatches_eq compared] using absent other member
      rw [rowsWith, sameIndex, used, List.filter_append, none_yet, List.nil_append]
      exact List.length_filter_le _ _
  · rw [rowsWith_addUpdateRow done written]
    exact single

/-! ## Whole calls -/

/-- What a successful call of the first method does, row by row. -/
theorem addUpdate_run {pool : Pool} {entries : List Value} {rows : List Row}
    (spelled : List.Forall₂ (fun entry row => icValueToRow pool entry = .ok row) entries rows)
    (done : addUpdate pool entries tm = (.ok, next)) (compared : tm.keyIndex.toNat < 16 → key.Comparable) :
    next.keyIndex = tm.keyIndex ∧
      next.lookup key = (rows.reverse.find? (icRowKey · tm.keyIndex = some key)).or (tm.lookup key) ∧
      ((tm.rowsWith key).length ≤ 1 → (next.rowsWith key).length ≤ 1) ∧
      (rows.reverse.find? (icRowKey · tm.keyIndex = some key) = none → next.rowsWith key = tm.rowsWith key) := by
  induction spelled generalizing tm with
  | nil =>
    obtain rfl : tm = next := (Prod.mk.inj done).2
    exact ⟨rfl, rfl, id, fun _ => rfl⟩
  | @cons entry row entries rows read _ ih =>
    rw [addUpdate, read] at done
    dsimp only at done
    split at done
    · next written step =>
        have sameIndex : written.keyIndex = tm.keyIndex := (addUpdateRow_cases step).1
        obtain ⟨index, found, single, kept⟩ := ih done (sameIndex ▸ compared)
        rw [sameIndex] at index found kept
        refine ⟨index, ?_, ?_, ?_⟩
        · rw [found, lookup_addUpdateRow compared step, List.reverse_cons, List.find?_append, Option.or_assoc]
          congr 1
          split
          · next own => rw [List.find?_cons_of_pos (by simpa using own), Option.some_or]
          · next other => rw [List.find?_cons_of_neg (by simpa using other), List.find?_nil, Option.none_or]
        · intro before
          exact single (single_addUpdateRow compared step before)
        · intro silent
          rw [List.reverse_cons, List.find?_append, Option.or_eq_none_iff] at silent
          rw [kept silent.1]
          apply rowsWith_addUpdateRow step
          intro own
          rw [List.find?_cons_of_pos (by simpa using own)] at silent
          simp at silent
    · next failed _ => exact absurd (Prod.mk.inj done).1 failed

/-- Removal takes out the rows with the given keys. -/
theorem used_remove (keys : List Value) : (tm.remove keys).rows.used =
      if keys = [] then [] else tm.rows.used.filter fun row => !keys.any fun key => rowMatches tm.keyIndex key row := by
  rw [remove]
  split
  · exact ArrayPrefix.used_clear _
  · exact ArrayPrefix.used_compact _ _

theorem keyIndex_remove (keys : List Value) : (tm.remove keys).keyIndex = tm.keyIndex := by
  rw [remove]
  split <;> rfl

/-- No row with a removed key is left. -/
theorem rowsWith_removed (compared : tm.keyIndex.toNat < 16 → key.Comparable) {keys : List Value}
    (removed : keys = [] ∨ key ∈ keys) : (tm.remove keys).rowsWith key = [] := by
  rw [rowsWith, keyIndex_remove, used_remove, List.filter_eq_nil_iff]
  intro row member
  split at member
  · simp at member
  · next some_key =>
      have kept := (List.mem_filter.mp member).2
      simp only [Bool.not_eq_true', List.any_eq_false] at kept
      have apart := kept key (removed.resolve_left some_key)
      rw [rowMatches_eq compared] at apart
      exact apart

/-- Removal of other keys leaves the rows with a key. -/
theorem rowsWith_kept {keys : List Value} (kept : ¬(keys = [] ∨ key ∈ keys)) :
    (tm.remove keys).rowsWith key = tm.rowsWith key := by
  rw [not_or] at kept
  rw [rowsWith, keyIndex_remove, used_remove, if_neg kept.1, rowsWith]
  apply List.filter_filter_of_imp
  intro row own
  simp only [decide_eq_true_eq] at own
  simp only [Bool.not_eq_true', List.any_eq_false]
  intro other member same
  have equal := own.symm.trans (icRowKey_of_rowMatches same)
  exact kept.2 (Option.some.inj equal ▸ member)

theorem lookup_eq_head? (tm : TableManager) (key : Value) : tm.lookup key = (tm.rowsWith key).head? := by
  rw [lookup, rowsWith, List.head?_filter]

/-- What a successful call does to the rows with a key. -/
structure StepKeeps (tm next : TableManager) (key : Value) (call : TableCall) : Prop where
  keyIndex : next.keyIndex = tm.keyIndex
  follows : Follows (TableCall.writes tm.keyIndex key) (TableCall.Removes key) call (tm.lookup key) (next.lookup key)
  single : (tm.rowsWith key).length ≤ 1 → (next.rowsWith key).length ≤ 1
  unaffected : call.writes tm.keyIndex key = none → ¬call.Removes key → next.rowsWith key = tm.rowsWith key

theorem stepKeeps_of_step {call : TableCall} (step : tm.Step call next)
    (compared : tm.keyIndex.toNat < 16 → key.Comparable) : StepKeeps tm next key call := by
  cases step with
  | @addUpdate pool param entries rows _ parsed spelled done =>
    have written : addUpdate pool entries tm = (.ok, next) := by
      rw [invoke] at done
      simp only [parsed] at done
      obtain ⟨answer, after⟩ := Prod.mk.inj done
      exact Prod.ext (Prod.mk.inj answer).1 after
    obtain ⟨index, found, single, kept⟩ := addUpdate_run spelled written compared
    refine ⟨index, ⟨?_, ?_, ?_⟩, single, fun silent _ => kept silent⟩
    · intro content put
      rw [TableCall.writes] at put
      rw [found, put, Option.some_or]
    · intro _ removed
      cases removed
    · intro silent _
      rw [TableCall.writes] at silent
      rw [found, silent, Option.none_or]
  | @remove pool param keys _ parsed done =>
    obtain rfl : tm.remove keys = next := by
      rw [invoke] at done
      simp only [parsed] at done
      exact (Prod.mk.inj done).2
    by_cases removed : keys = [] ∨ key ∈ keys
    · have gone := rowsWith_removed compared removed
      refine ⟨keyIndex_remove keys, ⟨?_, ?_, ?_⟩, ?_, fun _ stays => absurd removed stays⟩
      · intro content put
        cases put
      · intro _ _
        rw [lookup_eq_head?, gone, List.head?_nil]
      · intro _ stays
        exact absurd removed stays
      · intro _
        rw [gone]
        exact Nat.zero_le 1
    · have kept : (tm.remove keys).rowsWith key = tm.rowsWith key := rowsWith_kept removed
      refine ⟨keyIndex_remove keys, ⟨?_, ?_, ?_⟩, ?_, fun _ _ => kept⟩
      · intro content put
        cases put
      · intro _ clear
        exact absurd clear removed
      · intro _ _
        rw [lookup_eq_head?, lookup_eq_head?, kept]
      · rw [kept]
        exact id
  | @retrieve pool param keys found _ parsed done =>
    obtain rfl : tm = next := by
      rw [invoke] at done
      simp only [parsed] at done
      exact (Prod.mk.inj done).2
    refine ⟨rfl, ⟨?_, ?_, ?_⟩, id, fun _ _ => rfl⟩
    · intro content put
      cases put
    · intro _ removed
      cases removed
    · intro _ _
      rfl

/-! ## Whole histories -/

/-- The table holds under a key what its history says. -/
structure Keyed (seen : List TableCall) (tm : TableManager) (key : Value) : Prop where
  single : (tm.rowsWith key).length ≤ 1
  retrieved : ∃ found : Option Row,
    (∀ pool param, parseEntriesList pool param = .ok [key] →
      tm.invoke pool 4 param = ((.ok, .rows found.toList), tm)) ∧
    ∀ row, found = some row ↔ Latest (TableCall.writes tm.keyIndex key) (TableCall.Removes key) seen row
  unaffected : ∀ call next, tm.Step call next → call.writes tm.keyIndex key = none → ¬call.Removes key →
    next.rowsWith key = tm.rowsWith key

/-- The fourth method returns the first row that matches a single key. -/
theorem invoke_retrieve {pool : Pool} {param : Value} (asked : parseEntriesList pool param = .ok [key]) :
    tm.invoke pool 4 param = ((.ok, .rows (tm.rows.used.find? (rowMatches tm.keyIndex key)).toList), tm) := by
  have searched : ((tm.findRowIndex key).bind fun i => tm.rows.cells[i]?) =
      tm.rows.used.find? (rowMatches tm.keyIndex key) := ArrayPrefix.findIndex_bind_cells _ _
  rw [invoke]
  simp only [asked, retrieve, if_neg (List.cons_ne_nil key []), List.filterMap_cons, searched]
  cases tm.rows.used.find? (rowMatches tm.keyIndex key) <;> rfl

/-- The invariant of a history for a key that is compared. -/
theorem history_keeps {seen : List TableCall} (compared : keyIndex.toNat < 16 → key.Comparable)
    (history : History Step (init keyIndex) seen tm) : tm.keyIndex = keyIndex ∧ (tm.rowsWith key).length ≤ 1 ∧
      ∀ row, tm.lookup key = some row ↔ Latest (TableCall.writes keyIndex key) (TableCall.Removes key) seen row := by
  apply history.invariant
  · have empty : (init keyIndex).lookup key = none := rfl
    refine ⟨rfl, Nat.zero_le 1, ?_⟩
    intro row
    rw [empty]
    exact iff_of_false (by simp) (not_latest_nil row)
  · rintro seen now call next ⟨rfl, single, found⟩ step
    have keeps := stepKeeps_of_step step compared
    exact ⟨keeps.keyIndex, keeps.single single, keeps.follows.latest found⟩

/-- A memory in which a parameter lists one row with a key in every field. -/
def rowPool (key : Value) (count : ℕ) : Pool :=
  ⟨fun i => if i = 1 then .array 2 1 else if i = 2 then .struct 3 count else key, 0⟩

def keyPool (key : Value) : Pool := ⟨fun i => if i = 1 then .array 2 1 else key, 0⟩

/-- A row with a key in every field up to the key field. -/
def rowOf (keyIndex : UInt8) (key : Value) (short : keyIndex.toNat < 16) : Row :=
  ⟨List.replicate (keyIndex.toNat + 1) key, by rw [List.length_replicate]; exact short⟩

theorem icRowKey_rowOf {short : keyIndex.toNat < 16} : icRowKey (rowOf keyIndex key short) keyIndex = some key := by
  rw [icRowKey, rowOf, List.getElem?_replicate_of_lt (Nat.lt_succ_self _)]

theorem icValueToRow_rowPool (short : keyIndex.toNat < 16) :
    icValueToRow (rowPool key (keyIndex.toNat + 1)) (.struct 3 (keyIndex.toNat + 1)) =
      .ok (rowOf keyIndex key short) := by
  rw [icValueToRow, dif_pos (by omega)]
  congr 1
  apply Subtype.ext
  apply List.ext_getElem
  · simp [Pool.items, rowOf]
  · intro i _ _
    simp only [Pool.items, rowPool, rowOf, List.getElem_map, List.getElem_range, List.getElem_replicate]
    rw [if_neg (by omega), if_neg (by omega)]

/-- The first row of a fresh table is stored whatever its key is. -/
theorem addUpdate_first (key : Value) (short : keyIndex.toNat < 16) :
    ∃ tm, (init keyIndex).Step (.addUpdate [rowOf keyIndex key short]) tm ∧
      tm.keyIndex = keyIndex ∧ tm.rows.used = [rowOf keyIndex key short] := by
  have stored : ∃ rows, (init keyIndex).rows.push (rowOf keyIndex key short) = some rows ∧
      rows.used = [rowOf keyIndex key short] := ⟨_, rfl, rfl⟩
  obtain ⟨rows, pushed, used⟩ := stored
  have written : (init keyIndex).addUpdateRow (rowOf keyIndex key short) = (.ok, ⟨keyIndex, rows⟩) := by
    have named : icRowKey (rowOf keyIndex key short) (init keyIndex).keyIndex = some key := icRowKey_rowOf
    have absent : (init keyIndex).findRowIndex key = none := rfl
    rw [addUpdateRow, named]
    simp only [absent, pushed]
    rfl
  have listed : parseEntriesList (rowPool key (keyIndex.toNat + 1)) (.struct 0 2) =
      .ok [.struct 3 (keyIndex.toNat + 1)] := rfl
  refine ⟨⟨keyIndex, rows⟩, .addUpdate listed (.cons (icValueToRow_rowPool short) .nil) ?_, rfl, used⟩
  rw [invoke]
  simp only [listed, addUpdate, icValueToRow_rowPool short, written]

/-- Under every key the table is what its history of successful calls says, exactly if the key is of a type
that is compared, or no row has room for a key. -/
theorem table_keyed_iff (keyIndex : UInt8) (key : Value) :
    (∀ seen tm, History Step (init keyIndex) seen tm → tm.Keyed seen key) ↔ (keyIndex.toNat < 16 → key.Comparable) := by
  constructor
  · intro keyed short
    obtain ⟨tm, step, rfl, used⟩ := addUpdate_first key short
    obtain ⟨found, answer, latest⟩ := (keyed _ tm (History.singleton_iff.mpr step)).retrieved
    -- the row was written under the key, so it has to be found, which takes a comparison of the key with itself
    have written : found = some (rowOf tm.keyIndex key short) := by
      rw [latest, ← List.nil_append [_], latest_append_singleton]
      left
      rw [TableCall.writes, List.reverse_singleton, List.find?_cons_of_pos (by simpa using icRowKey_rowOf)]
    have asked : parseEntriesList (keyPool key) (.struct 0 2) = .ok [key] := rfl
    have returned := answer (keyPool key) (.struct 0 2) asked
    rw [invoke_retrieve asked, written, used] at returned
    have matched : [rowOf tm.keyIndex key short].find? (rowMatches tm.keyIndex key) =
        some (rowOf tm.keyIndex key short) := by
      obtain ⟨answered, -⟩ := Prod.mk.inj returned
      have listed := TableAnswer.rows.inj (Prod.mk.inj answered).2
      cases first : [rowOf tm.keyIndex key short].find? (rowMatches tm.keyIndex key) with
      | none => simp [first] at listed
      | some row => simpa [first] using listed
    have same := List.find?_some matched
    rw [rowMatches, icRowKey_rowOf, Option.map_some, Option.getD_some, icValueEq_self] at same
    exact same
  · intro compared seen tm history
    obtain ⟨rfl, single, found⟩ := history_keeps compared history
    refine ⟨single, ⟨tm.lookup key, ?_, found⟩, ?_⟩
    · intro pool param asked
      have searched : rowMatches tm.keyIndex key = fun row => decide (icRowKey row tm.keyIndex = some key) :=
        funext fun row => rowMatches_eq compared
      rw [invoke_retrieve asked, searched, lookup]
    · intro call next step
      exact (stepKeeps_of_step step compared).unaffected

def trueKey : Value := .scalar .boolean 1

/-- A table after the row with the key true was written once, and then again. -/
def writtenOnce : TableManager := ((init 0).invoke (rowPool trueKey 1) 1 (.struct 0 2)).2

def writtenTwice : TableManager := (writtenOnce.invoke (rowPool trueKey 1) 1 (.struct 0 2)).2

/-- A row with a boolean key is stored a second time under the same key, and neither is found. -/
theorem boolean_key_stored_twice :
    History Step (init 0) [.addUpdate [rowOf 0 trueKey (by decide)], .addUpdate [rowOf 0 trueKey (by decide)]]
        writtenTwice ∧ (writtenTwice.rowsWith trueKey).length = 2 ∧
      writtenTwice.invoke (keyPool trueKey) 4 (.struct 0 2) = ((.ok, .rows []), writtenTwice) := by
  have listed : List.Forall₂ (fun entry row => icValueToRow (rowPool trueKey 1) entry = .ok row) [.struct 3 1]
      [rowOf 0 trueKey (by decide)] := .cons rfl .nil
  have first : (init 0).Step (.addUpdate [rowOf 0 trueKey (by decide)]) writtenOnce :=
    @Step.addUpdate _ (rowPool trueKey 1) (.struct 0 2) _ _ _ rfl listed rfl
  have second : writtenOnce.Step (.addUpdate [rowOf 0 trueKey (by decide)]) writtenTwice :=
    @Step.addUpdate _ (rowPool trueKey 1) (.struct 0 2) _ _ _ rfl listed rfl
  exact ⟨(History.start.extend first).extend second, by decide, rfl⟩

end TableManager

end OpenSpodes
