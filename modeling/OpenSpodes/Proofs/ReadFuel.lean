import OpenSpodes.Proofs.Codec
import OpenSpodes.Proofs.ReadTree

/-! # The depth bounds of the decoders

The recursive decoders of the source carry no depth; the model bounds theirs. Each level of a compact array's
description reads a byte of it, and each level of a tagged value owns a place of the pool, so a bound above what is
left of either is never met: the result is the same for every larger one.
-/

namespace OpenSpodes

open Machine Machine.Fallible

variable {n fuel fuel' : ℕ}

/-- The description cursor stands at or behind `lo`, in a description that ends at `stop`. -/
def Compact.Ahead (lo stop : ℕ) (s : Compact) : Prop := Buf.Agree lo stop s.desc s.desc

/-- From a cursor at or behind `lo` the two steps do the same, and the cursor does not go back behind `lo`. -/
def RunAlike {α : Type} (lo stop : ℕ) (x y : CompactM α) : Prop :=
  ∀ s, s.Ahead lo stop → Fallible.TwinAt (fun t u => t = u ∧ t.Ahead lo stop) s s x y

section Steps

variable {α β : Type} {lo stop : ℕ} {x y : CompactM α} {s : Compact}

namespace RunAlike

theorem eq (alike : RunAlike lo stop x y) (ahead : s.Ahead lo stop) : x s = y s := by
  rcases alike s ahead with ⟨a, t, u, left, right, rfl, -⟩ | ⟨e, t, u, left, right, rfl, -⟩
  · rw [left, right]
  · rw [left, right]

theorem pure (a : α) : RunAlike lo stop (pure a) (pure a) := fun _ ahead => .pure a ⟨rfl, ahead⟩

theorem bind {f g : α → CompactM β} (first : RunAlike lo stop x y) (rest : ∀ a, RunAlike lo stop (f a) (g a)) :
    RunAlike lo stop (x >>= f) (y >>= g) := by
  refine fun s ahead => (first s ahead).bind fun a t u same => ?_
  obtain ⟨rfl, ahead⟩ := same
  exact rest a t ahead

theorem ite {c : Prop} [Decidable c] {x' y' : CompactM α} (first : RunAlike lo stop x y)
    (second : RunAlike lo stop x' y') : RunAlike lo stop (if c then x else x') (if c then y else y') :=
  fun s ahead => .ite (fun _ => first s ahead) fun _ => second s ahead

theorem of_ends (ends : ∀ s, s.Ahead lo stop → Ends x s (fun _ t => t.Ahead lo stop) fun _ t => t.Ahead lo stop) :
    RunAlike lo stop x x := by
  intro s ahead
  cases run : x s with
  | ok a t => exact .inl ⟨a, t, t, run, run, rfl, (ends s ahead).ok run⟩
  | error e t => exact .inr ⟨e, t, t, run, run, rfl, (ends s ahead).error run⟩

theorem onDesc {step : Read α} (inside : ReadsLocally step) : RunAlike lo stop (onDesc step) (onDesc step) := by
  refine of_ends fun s ahead => ?_
  have outcome := Ends.of_twin (inside lo stop) ahead
  cases read : step s.desc with
  | ok a b =>
    simp only [Ends, OpenSpodes.onDesc, read]
    exact outcome.ok read
  | error e b =>
    simp only [Ends, OpenSpodes.onDesc, read]
    exact outcome.error read

theorem onContents (step : Read α) : RunAlike lo stop (onContents step) (onContents step) := by
  refine of_ends fun s ahead => ?_
  cases read : step s.contents with
  | ok | error =>
    simp only [Ends, OpenSpodes.onContents, read]
    exact ahead

theorem rewound {pos : ℕ} (low : lo ≤ pos) (high : pos ≤ stop) (alike : RunAlike lo stop x y) :
    RunAlike lo stop (do rewindDesc pos; x) (do rewindDesc pos; y) :=
  fun _ ahead => .modify_bind (alike _ { ahead with rd := rfl, from_start := low, inside := high })

theorem forSlots {step step' : ℕ → CompactM Unit} (each : ∀ pos, RunAlike lo stop (step pos) (step' pos))
    (count pos : ℕ) : RunAlike lo stop (forSlots step count pos) (forSlots step' count pos) := by
  induction count generalizing pos with
  | zero => exact .pure _
  | succ count ih => exact (each pos).bind fun _ => ih (pos + 1)

theorem take (count maxLen : ℕ) : RunAlike lo stop (compactTake count maxLen) (compactTake count maxLen) :=
  fun _ ahead => .get_bind (.failIf_bind ⟨rfl, ahead⟩ fun _ => .modify_bind (.pure _ ⟨rfl, ahead⟩))

theorem put (pos : ℕ) (value : Value) : RunAlike lo stop (compactPut pos value) (compactPut pos value) :=
  fun _ ahead => .modify ⟨rfl, ahead⟩

/-- Each level of a description reads a byte of it, and below the level the cursor never comes back to that byte. -/
theorem readU8_bind {f g : UInt8 → CompactM β} (few : n ≤ stop)
    (rest : ∀ m tag, n = m + 1 → RunAlike (stop - m) stop (f tag) (g tag)) :
    RunAlike (stop - n) stop (OpenSpodes.onDesc axdrReadU8 >>= f) (OpenSpodes.onDesc axdrReadU8 >>= g) := by
  intro s ahead
  rcases onDesc axdrReadU8_local s ahead with ⟨tag, t, u, left, right, rfl, after⟩ | ⟨e, t, u, left, right, rfl, after⟩
  · have low := ahead.from_start
    have high := after.inside
    have moved : t.desc.rd = s.desc.rd + 1 := by
      cases step : axdrReadU8 s.desc with
      | error e b => simp [OpenSpodes.onDesc, step] at left
      | ok byte b =>
        obtain ⟨some, -, rfl⟩ := axdrReadU8_ok_iff.mp step
        simp only [OpenSpodes.onDesc, step, EStateM.Result.ok.injEq] at left
        rw [← left.2]
        exact Buf.Agree.skip_rd ahead (ahead.room (by omega))
    have later := rest (n - 1) tag (by omega) t { after with from_start := by omega }
    rw [Fallible.TwinAt, bind_of_ok left, bind_of_ok right]
    exact later.mono fun v w same => ⟨same.1, { same.2 with from_start := by have := same.2.from_start; omega }⟩
  · exact .inr ⟨e, t, t, bind_of_error left, bind_of_error right, rfl, after⟩

end RunAlike

/-! ## Compact arrays -/

theorem compactSkipDescription_fuel (few : n ≤ stop) (enough : n < fuel) (enough' : n < fuel') :
    RunAlike (stop - n) stop (compactSkipDescription fuel) (compactSkipDescription fuel') := by
  induction fuel generalizing n fuel' with
  | zero => omega
  | succ fuel ih =>
    obtain ⟨fuel', rfl⟩ := Nat.exists_eq_add_one_of_ne_zero (Nat.ne_of_gt (Nat.zero_lt_of_lt enough'))
    refine .readU8_bind few fun m tag level => ?_
    have below := @ih m fuel' (by omega) (by omega) (by omega)
    refine .ite ?_ (.ite ?_ (.onContents _))
    · exact (RunAlike.onDesc dlmsReadLen_local).bind fun count => .forSlots (fun _ => below) count 0
    · refine (RunAlike.onDesc (axdrReadUint_local 2)).bind fun count s ahead => .get_bind ?_
      exact RunAlike.forSlots (fun _ => below.rewound ahead.from_start ahead.inside) count 0 s ahead

theorem compactWalkDescription_fuel {pos : ℕ} (few : n ≤ stop) (enough : n < fuel) (enough' : n < fuel') :
    RunAlike (stop - n) stop (compactWalkDescription fuel pos) (compactWalkDescription fuel' pos) := by
  induction fuel generalizing n fuel' pos with
  | zero => omega
  | succ fuel ih =>
    obtain ⟨fuel', rfl⟩ := Nat.exists_eq_add_one_of_ne_zero (Nat.ne_of_gt (Nat.zero_lt_of_lt enough'))
    refine .readU8_bind few fun m tag level => ?_
    have below (slot : ℕ) := @ih m fuel' slot (by omega) (by omega) (by omega)
    refine .ite ?_ (.ite ?_ ?_)
    · refine (RunAlike.onDesc dlmsReadLen_local).bind fun count => (RunAlike.take count 16).bind fun start => ?_
      exact (RunAlike.forSlots below count start).bind fun _ => .put pos _
    · refine (RunAlike.onDesc (axdrReadUint_local 2)).bind fun count => (RunAlike.take count 32).bind fun start => ?_
      intro s ahead
      have items := RunAlike.forSlots (fun slot => (below slot).rewound ahead.from_start ahead.inside) count start
      exact .get_bind ((items.bind fun _ => .put pos _) s ahead)
    · exact fun s ahead => .get_bind (.modify_bind (.failIf _ _ ⟨rfl, ahead⟩))

theorem compactCountElements_fuel (enough : stop < fuel) (enough' : stop < fuel') (left count : ℕ) :
    RunAlike 0 stop (compactCountElements fuel left count) (compactCountElements fuel' left count) := by
  induction left generalizing count with
  | zero =>
    exact fun s ahead => .get_bind (.get_bind (.ite (fun _ => .throw _ ⟨rfl, ahead⟩) fun _ => .pure _ ⟨rfl, ahead⟩))
  | succ left ih =>
    have skip := compactSkipDescription_fuel (le_refl stop) enough enough'
    rw [Nat.sub_self] at skip
    have element := (skip.bind fun _ => ih (count + 1)).rewound le_rfl (Nat.zero_le stop)
    exact fun s ahead => .get_bind (.get_bind (.ite (fun _ => element s ahead) fun _ => .pure _ ⟨rfl, ahead⟩))

theorem compactDecodeElements_fuel (enough : stop < fuel) (enough' : stop < fuel') :
    RunAlike 0 stop (compactDecodeElements fuel) (compactDecodeElements fuel') := by
  refine (compactCountElements_fuel enough enough' 32 0).bind fun count => (RunAlike.take count 32).bind fun start => ?_
  have walk (slot : ℕ) : RunAlike 0 stop (do rewindDesc 0; compactWalkDescription fuel slot)
      (do rewindDesc 0; compactWalkDescription fuel' slot) := by
    have element := @compactWalkDescription_fuel _ _ _ stop slot le_rfl enough enough'
    rw [Nat.sub_self] at element
    exact element.rewound le_rfl (Nat.zero_le stop)
  exact fun s ahead => .modify_bind (((RunAlike.forSlots walk count start).bind fun _ => .pure _) _ ahead)

end Steps

/-! ## Tagged values -/

section Values

variable {read read' : Value → StateM Reader (Err × Value)} {lo : ℕ} {r : Reader}

theorem readItems_congr (same : ∀ old r, lo ≤ r.pool.used → read old r = read' old r)
    (grows : ∀ old r, r.pool.used ≤ (read old r).2.pool.used) (count pos : ℕ) (start : lo ≤ r.pool.used) :
    readItems read count pos r = readItems read' count pos r := by
  induction count generalizing pos r with
  | zero => rfl
  | succ count ih =>
    have item := same (r.pool.slots pos) r start
    have more := grows (r.pool.slots pos) r
    rw [readItems, readItems, stateM_get_bind, stateM_get_bind]
    generalize out : read (r.pool.slots pos) r = done at item more
    obtain ⟨⟨err, value⟩, s⟩ := done
    rw [stateM_bind_of_eq out, stateM_bind_of_eq item.symm]
    dsimp only
    rw [stateM_modify_bind, stateM_modify_bind]
    split
    · exact ih (pos + 1) (start.trans more)
    · rfl

theorem listRead_congr {tag : UInt8} {maxLen : ℕ} {make : ℕ → ℕ → Value}
    (same : ∀ old s, r.pool.used < s.pool.used → r.pool.used < poolLen → read old s = read' old s)
    (grows : ∀ old r, r.pool.used ≤ (read old r).2.pool.used) :
    listRead read tag maxLen make r = listRead read' tag maxLen make r := by
  cases length : dlmsReadLen r.buf with
  | error e c => rw [listRead, listRead, stateM_bind_of_eq (run_of_error length), stateM_bind_of_eq (run_of_error length)]
  | ok count c =>
    rw [listRead, listRead, stateM_bind_of_eq (run_of_ok length), stateM_bind_of_eq (run_of_ok length)]
    dsimp only
    rw [stateM_get_bind, stateM_get_bind]
    dsimp only
    split
    · rfl
    · rename_i fits
      rw [stateM_modify_bind, stateM_modify_bind]
      have items : readItems read count r.pool.used ⟨c, r.pool.take count⟩ =
          readItems read' count r.pool.used ⟨c, r.pool.take count⟩ := by
        rcases Nat.eq_zero_or_pos count with none | some
        · subst none
          rfl
        · have later (old : Value) (s : Reader) (more : r.pool.used + 1 ≤ s.pool.used) : read old s = read' old s :=
            same old s more (by omega)
          exact readItems_congr later grows count _ (Nat.add_le_add_left some r.pool.used)
      generalize out : readItems read count r.pool.used ⟨c, r.pool.take count⟩ = done at items
      obtain ⟨err, s⟩ := done
      rw [stateM_bind_of_eq out, stateM_bind_of_eq items.symm]

/-- More fuel than the pool has places left makes no difference. -/
theorem valueReadImpl_fuel {old : Value} (few : poolLen < r.pool.used + n) (enough : n < fuel) (enough' : n < fuel') :
    valueReadImpl fuel old r = valueReadImpl fuel' old r := by
  induction n using Nat.strong_induction_on generalizing fuel fuel' old r with
  | _ n ih =>
    obtain ⟨fuel, rfl⟩ := Nat.exists_eq_add_one_of_ne_zero (Nat.ne_of_gt (Nat.zero_lt_of_lt enough))
    obtain ⟨fuel', rfl⟩ := Nat.exists_eq_add_one_of_ne_zero (Nat.ne_of_gt (Nat.zero_lt_of_lt enough'))
    have grows (old : Value) (r : Reader) := (valueReadImpl_tree fuel old r).ext.grows
    have items (old : Value) (s : Reader) (more : r.pool.used < s.pool.used) (left : r.pool.used < poolLen) :
        valueReadImpl fuel old s = valueReadImpl fuel' old s := by
      have some : 0 < n := by omega
      exact ih (n - 1) (by omega) (by omega) (by omega) (by omega)
    rw [valueReadImpl, valueReadImpl]
    cases tagged : axdrReadTag r.buf with
    | error e c => rw [stateM_bind_of_eq (run_of_error tagged), stateM_bind_of_eq (run_of_error tagged)]
    | ok tag c =>
      rw [stateM_bind_of_eq (run_of_ok tagged), stateM_bind_of_eq (run_of_ok tagged)]
      dsimp only
      cases ScalarKind.ofTag tag with
      | some kind => rfl
      | none =>
        dsimp only
        split_ifs
        · rfl
        · rfl
        · rfl
        · rfl
        · rfl
        · exact listRead_congr (r := ⟨c, r.pool⟩) items grows
        · exact listRead_congr (r := ⟨c, r.pool⟩) items grows
        · rfl
        · rfl

end Values

end OpenSpodes
