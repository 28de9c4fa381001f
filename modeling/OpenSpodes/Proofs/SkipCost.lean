import Mathlib.Tactic.Linarith
import OpenSpodes.Proofs.ReadFuel

/-! # How often a type description is walked

`compact_skip_description` calls itself once for every field of a structure and once for every element of an array,
as often as the description says. `skipCalls` counts these calls along the run of the decoder. The description alone
decides which of them take contents: `scan` walks it once and `productive` says that no array repeats an element that
may take none. Then every repetition is paid for by a byte of contents, and the number of calls is at most the length of
the description times one more than the length of the contents.
-/

namespace OpenSpodes

open Machine Machine.Fallible

variable {e : Err}

/-! ## Counting -/

def along {α : Type} (step : CompactM α) (s : Compact) (count : α → Compact → ℕ) : ℕ :=
  match step s with
  | .ok a t => count a t
  | .error _ _ => 0

/-- The calls of `n` repetitions of a step, up to the first that fails. -/
def loopCalls (step : CompactM Unit) (calls : Compact → ℕ) : ℕ → Compact → ℕ
  | 0, _ => 0
  | n + 1, s => calls s + along step s fun _ t => loopCalls step calls n t

def Compact.rewound (s : Compact) (pos : ℕ) : Compact := { s with desc := { s.desc with rd := pos } }

/-- The calls of `compact_skip_description` that one call makes, itself included. -/
def skipCalls : ℕ → Compact → ℕ
  | 0, _ => 0
  | fuel + 1, s =>
      1 + along (onDesc axdrReadU8) s fun tag t =>
        if tag = 2 then
          along (onDesc dlmsReadLen) t fun n u => loopCalls (compactSkipDescription fuel) (skipCalls fuel) n u
        else if tag = 1 then
          along (onDesc axdrReadU16) t fun n u =>
            loopCalls (do rewindDesc u.desc.rd; compactSkipDescription fuel)
              (fun v => skipCalls fuel (v.rewound u.desc.rd)) n u
        else 0

/-! ## The description alone -/

/-- A description walked once: the parts outside of all arrays, the parts inside, and whether it always takes contents. -/
structure Shape where
  surface : ℕ
  inner : ℕ
  takes : Bool
  deriving DecidableEq, Repr

def scanFields (scan : Read Shape) : ℕ → Read Shape
  | 0 => return ⟨0, 0, false⟩
  | n + 1 => do
      let first ← scan
      let rest ← scanFields scan n
      return ⟨first.surface + rest.surface, first.inner + rest.inner, first.takes || rest.takes⟩

/-- One walk over a description; like the walk over the contents, it stays in front of the element of an empty array. -/
def scan : ℕ → Read Shape
  | 0 => throw .invalid
  | fuel + 1 => do
      let tag ← axdrReadU8
      if tag = 2 then
        let fields ← scanFields (scan fuel) (← dlmsReadLen)
        return { fields with surface := fields.surface + 1 }
      else if tag = 1 then
        let n ← axdrReadU16
        if n = 0 then return ⟨1, 0, false⟩
        else
          let element ← scan fuel
          return ⟨1, element.surface + element.inner, element.takes⟩
      else return ⟨1, 0, tag ≠ 0⟩

def everyField (one : Buf → Bool) (scan : Read Shape) : ℕ → Buf → Bool
  | 0, _ => true
  | n + 1, b => one b && match scan b with
      | .ok _ c => everyField one scan n c
      | .error _ _ => true

/-- No array that the walk meets repeats an element that may take no contents. -/
def productive : ℕ → Buf → Bool
  | 0, _ => true
  | fuel + 1, b =>
      match axdrReadU8 b with
      | .error _ _ => true
      | .ok tag c =>
          if tag = 2 then
            match dlmsReadLen c with
            | .error _ _ => true
            | .ok n d => everyField (productive fuel) (scan fuel) n d
          else if tag = 1 then
            match axdrReadU16 c with
            | .error _ _ => true
            | .ok n d => n = 0 || (productive fuel d && match scan fuel d with
                | .ok element _ => element.takes
                | .error _ _ => true)
          else true

section Scan

variable {fuel n stop : ℕ} {b c : Buf} {shape : Shape} {α : Type} {step : Read α} {tag : UInt8} {one : Read Shape}

/-- The cursor is inside the area that ends at `stop`. -/
def Buf.Inside (stop : ℕ) (b : Buf) : Prop := Buf.Agree 0 stop b b

theorem Buf.Inside.read (reads : ReadsLocally step) {a : α} (inside : b.Inside stop) (read : step b = .ok a c) :
    c.Inside stop ∧ b.rd ≤ c.rd := by
  have after := (Ends.of_twin (reads b.rd stop) inside.here).ok read
  exact ⟨{ after with from_start := Nat.zero_le _ }, after.from_start⟩

theorem Buf.Inside.failed (reads : ReadsLocally step) (inside : b.Inside stop) (read : step b = .error e c) :
    b.rd ≤ c.rd :=
  ((Ends.of_twin (reads b.rd stop) inside.here).error read).from_start

theorem Buf.Inside.skipped {n : ℕ} (inside : b.Inside stop)
    (skipped : (needUnread n e >>= fun _ => modify (·.skip n)) b = .ok ⟨⟩ c) : c.rd = b.rd + n := by
  rw [needUnread, bind_assoc, get_bind, failIf_bind_ok_iff] at skipped
  obtain ⟨enough, done⟩ := skipped
  cases done
  exact inside.skip_rd (inside.room enough)

theorem Buf.Inside.readU8 (inside : b.Inside stop) (read : axdrReadU8 b = .ok tag c) :
    c.Inside stop ∧ c.rd = b.rd + 1 := by
  refine ⟨(inside.read axdrReadU8_local read).1, ?_⟩
  obtain ⟨some, -, rfl⟩ := axdrReadU8_ok_iff.mp read
  exact inside.skip_rd (inside.room (by omega))

theorem Buf.Inside.readLen {len : ℕ} (inside : b.Inside stop) (read : dlmsReadLen b = .ok len c) :
    c.Inside stop ∧ b.rd < c.rd := by
  refine ⟨(inside.read dlmsReadLen_local read).1, ?_⟩
  rw [dlmsReadLen, needUnread, bind_assoc, get_bind, failIf_bind_ok_iff] at read
  obtain ⟨enough, rest⟩ := read
  obtain ⟨first, d, next, rest⟩ := bind_ok_iff.mp rest
  cases next
  have one : (b.skip 1).rd = b.rd + 1 := inside.skip_rd (inside.room enough)
  have front : (b.skip 1).Inside stop := inside.skip (inside.room enough)
  split_ifs at rest
  · cases rest
    omega
  · rw [failIf_bind_ok_iff, failIf_bind_ok_iff] at rest
    have later := front.read (axdrReadUint_local _) rest.2.2
    omega

theorem skipPackedValue_forward (inside : b.Inside stop) (skipped : skipPackedValue tag b = .ok ⟨⟩ c) :
    b.rd ≤ c.rd ∧ (tag ≠ 0 → b.rd < c.rd) := by
  unfold skipPackedValue at skipped
  dsimp only at skipped
  split_ifs at skipped with fixed null string bits
  · have := inside.skipped skipped
    omega
  · cases skipped
    exact ⟨le_rfl, fun other => absurd null other⟩
  · obtain ⟨len, d, read, rest⟩ := bind_ok_iff.mp skipped
    have length := inside.readLen read
    have := length.1.skipped rest
    omega
  · obtain ⟨len, d, read, rest⟩ := bind_ok_iff.mp skipped
    have length := inside.readLen read
    have := length.1.skipped rest
    omega
  · cases skipped

/-- A walk moves forward by at least the number of parts it has met. -/
def Measured (stop : ℕ) (b : Buf) (shape : Shape) (c : Buf) : Prop :=
  c.Inside stop ∧ b.rd + (shape.surface + shape.inner) ≤ c.rd

theorem scanFields_measured
    (each : ∀ {b c : Buf} {shape : Shape}, b.Inside stop → one b = .ok shape c → Measured stop b shape c)
    (inside : b.Inside stop) (scanned : scanFields one n b = .ok shape c) : Measured stop b shape c := by
  induction n generalizing b shape with
  | zero =>
    cases scanned
    exact ⟨inside, le_rfl⟩
  | succ n ih =>
    obtain ⟨first, d, head, rest⟩ := bind_ok_iff.mp scanned
    obtain ⟨others, e, tail, done⟩ := bind_ok_iff.mp rest
    cases done
    have front := each inside head
    have behind := ih front.1 tail
    have := front.2
    have := behind.2
    exact ⟨behind.1, by dsimp only; omega⟩

theorem scan_measured (inside : b.Inside stop) (scanned : scan fuel b = .ok shape c) : Measured stop b shape c := by
  induction fuel generalizing b c shape with
  | zero => cases scanned
  | succ fuel ih =>
    obtain ⟨tag, d, read, rest⟩ := bind_ok_iff.mp scanned
    have tagged := inside.readU8 read
    split_ifs at rest
    · obtain ⟨count, e, length, rest⟩ := bind_ok_iff.mp rest
      have counted := tagged.1.read dlmsReadLen_local length
      obtain ⟨fields, f, walked, done⟩ := bind_ok_iff.mp rest
      cases done
      have fields := scanFields_measured ih counted.1 walked
      have := fields.2
      exact ⟨fields.1, by dsimp only; omega⟩
    · obtain ⟨count, e, length, rest⟩ := bind_ok_iff.mp rest
      have counted := tagged.1.read (axdrReadUint_local 2) length
      split_ifs at rest
      · cases rest
        exact ⟨counted.1, by dsimp only; omega⟩
      · obtain ⟨element, f, walked, done⟩ := bind_ok_iff.mp rest
        cases done
        have element := ih counted.1 walked
        have := element.2
        exact ⟨element.1, by dsimp only; omega⟩
    · cases rest
      exact ⟨tagged.1, by dsimp only; omega⟩

theorem Honest.scanFields (each : Honest one) (n : ℕ) : Honest (scanFields one n) := by
  induction n with
  | zero => exact .pure _
  | succ n ih => exact each.bind fun _ => ih.bind fun _ => .pure _

theorem Honest.scan (fuel : ℕ) : Honest (scan fuel) := by
  induction fuel with
  | zero => exact .throw (by decide)
  | succ fuel ih =>
    refine axdrReadU8.bind fun tag => .ite ?_ (.ite ?_ (.pure _))
    · exact dlmsReadLen.bind fun count => (scanFields ih count).bind fun _ => .pure _
    · exact (axdrReadUint 2).bind fun count => .ite (.pure _) (ih.bind fun _ => .pure _)

end Scan

/-! ## The walk over the contents -/

section Walk

variable {α : Type} {step : CompactM α} {s t : Compact} {a : α} {count : α → Compact → ℕ} {read : Read α} {b : Buf}

theorem along_of_ok (ok : step s = .ok a t) : along step s count = count a t := by simp only [along, ok]

theorem along_of_error (error : step s = .error e t) : along step s count = 0 := by simp only [along, error]

theorem onDesc_of_ok (ok : read s.desc = .ok a b) : onDesc read s = .ok a { s with desc := b } := by
  simp only [onDesc, ok]

theorem onDesc_of_error (error : read s.desc = .error e b) : onDesc read s = .error e { s with desc := b } := by
  simp only [onDesc, error]

end Walk

/-- Behind a walk that succeeded: it went over the description as `scan` does, and its calls are paid for. -/
structure Paid (m n : ℕ) (scan : Read Shape) (calls : ℕ) (s t : Compact) : Prop where
  agree : Compact.Agree m n t t
  forward : s.contents.rd ≤ t.contents.rd
  shape : ∃ shape, scan s.desc = .ok shape t.desc ∧
    calls ≤ shape.surface + shape.inner * (t.contents.rd - s.contents.rd) ∧
    (shape.takes = true → s.contents.rd < t.contents.rd)

/-- Behind a walk that failed. -/
structure Bounded (m : ℕ) (calls : ℕ) (s t : Compact) : Prop where
  forward : s.contents.rd ≤ t.contents.rd
  calls : calls ≤ (m - s.desc.rd + 1) * (1 + (t.contents.rd - s.contents.rd))

section Cost

variable {m n : ℕ}

/-- What a walk from `s` may cost. -/
def CostsAt (m n fuel : ℕ) (s : Compact) : Prop :=
  Ends (compactSkipDescription fuel) s (fun _ t => Paid m n (scan fuel) (skipCalls fuel s) s t)
    fun _ t => Bounded m (skipCalls fuel s) s t

/-- No walk over a productive description costs more. -/
def Affordable (m n fuel : ℕ) : Prop :=
  ∀ s : Compact, Compact.Agree m n s s → productive fuel s.desc = true → CostsAt m n fuel s

section Composition

variable {one rest : Read Shape} {fuel calls more : ℕ} {s t u : Compact}

theorem Paid.le (paid : Paid m n (scan fuel) calls s t) (agree : Compact.Agree m n s s) :
    s.desc.rd ≤ t.desc.rd ∧ calls ≤ (t.desc.rd - s.desc.rd) * (1 + (t.contents.rd - s.contents.rd)) := by
  obtain ⟨shape, scanned, cost, -⟩ := paid.shape
  have measured : Measured m s.desc shape t.desc := scan_measured agree.desc scanned
  have length := measured.2
  have parts : shape.surface + shape.inner ≤ t.desc.rd - s.desc.rd := by omega
  refine ⟨by omega, cost.trans ?_⟩
  calc shape.surface + shape.inner * (t.contents.rd - s.contents.rd)
      ≤ (shape.surface + shape.inner) * (1 + (t.contents.rd - s.contents.rd)) := by nlinarith
    _ ≤ _ := Nat.mul_le_mul_right _ parts

theorem Paid.cons {count : ℕ} (first : Paid m n (scan fuel) calls s t)
    (later : Paid m n (scanFields (scan fuel) count) more t u) :
    Paid m n (scanFields (scan fuel) (count + 1)) (calls + more) s u := by
  obtain ⟨head, scanned, cost, takes⟩ := first.shape
  obtain ⟨others, walked, costs, takesLater⟩ := later.shape
  have forward := first.forward
  have onward := later.forward
  refine ⟨later.agree, forward.trans onward,
    ⟨head.surface + others.surface, head.inner + others.inner, head.takes || others.takes⟩, ?_, ?_, ?_⟩
  · rw [scanFields, bind_of_ok scanned, bind_of_ok walked]
    rfl
  · have split : u.contents.rd - s.contents.rd =
        (t.contents.rd - s.contents.rd) + (u.contents.rd - t.contents.rd) := by omega
    rw [split]
    dsimp only
    nlinarith
  · intro either
    rcases Bool.or_eq_true_iff.mp either with now | then'
    · exact (takes now).trans_le onward
    · exact forward.trans_lt (takesLater then')

theorem Paid.fails (first : Paid m n (scan fuel) calls s t) (agree : Compact.Agree m n s s)
    (failed : Bounded m more t u) : Bounded m (calls + more) s u := by
  obtain ⟨ahead, cost⟩ := first.le agree
  have inside := first.agree.desc.inside
  have forward := first.forward
  have onward := failed.forward
  have costs := failed.calls
  refine ⟨forward.trans onward, ?_⟩
  have split : u.contents.rd - s.contents.rd =
      (t.contents.rd - s.contents.rd) + (u.contents.rd - t.contents.rd) := by omega
  have length : m - s.desc.rd + 1 = (t.desc.rd - s.desc.rd) + (m - t.desc.rd + 1) := by omega
  rw [split, length]
  nlinarith

end Composition

theorem fields_cost {fuel : ℕ} (each : Affordable m n fuel) (count pos : ℕ) {s : Compact} (agree : Compact.Agree m n s s)
    (every : everyField (productive fuel) (scan fuel) count s.desc = true) :
    Ends (forSlots (fun _ => compactSkipDescription fuel) count pos) s
      (fun _ t => Paid m n (scanFields (scan fuel) count)
        (loopCalls (compactSkipDescription fuel) (skipCalls fuel) count s) s t)
      fun _ t => Bounded m (loopCalls (compactSkipDescription fuel) (skipCalls fuel) count s) s t := by
  induction count generalizing pos s with
  | zero => exact .pure ⟨agree, le_rfl, ⟨0, 0, false⟩, rfl, by simp [loopCalls], by simp⟩
  | succ count ih =>
    rw [everyField, Bool.and_eq_true] at every
    have one := each s agree every.1
    cases run : compactSkipDescription fuel s with
    | error e t =>
      refine .bind_of_error run ?_
      rw [loopCalls, along_of_error run, Nat.add_zero]
      exact one.error run
    | ok _ t =>
      refine .bind_of_ok run ?_
      have paid := one.ok run
      obtain ⟨first, scanned, -⟩ := paid.shape
      rw [scanned] at every
      rw [loopCalls, along_of_ok run]
      exact (ih (pos + 1) paid.agree every.2).mono (fun _ _ rest => paid.cons rest) fun _ _ failed =>
        paid.fails agree failed

/-- Behind all elements of an array, each of which has taken contents. -/
structure ElementsPaid (m n : ℕ) (scanned : EStateM.Result Err Buf Shape) (count calls : ℕ) (s t : Compact) : Prop where
  agree : Compact.Agree m n t t
  forward : s.contents.rd ≤ t.contents.rd
  none : count = 0 → t = s
  some : 0 < count → (∃ shape, scanned = .ok shape t.desc) ∧ s.contents.rd < t.contents.rd
  calls : ∀ shape c, scanned = .ok shape c → calls ≤ (shape.surface + shape.inner) * (t.contents.rd - s.contents.rd)

/-- The elements of an array, all with the description at one place. -/
theorem elements_cost {fuel : ℕ} (each : Affordable m n fuel) {elem : Buf} (inside : elem.Inside m)
    (fine : productive fuel elem = true) (takes : ∀ shape c, scan fuel elem = .ok shape c → shape.takes = true)
    (count pos : ℕ) {s : Compact} (agree : Compact.Agree m n s s) (area : s.desc.buf = elem.buf) :
    let step : CompactM Unit := do rewindDesc elem.rd; compactSkipDescription fuel
    let calls := loopCalls step (fun v => skipCalls fuel (v.rewound elem.rd)) count s
    Ends (forSlots (fun _ => step) count pos) s (fun _ t => ElementsPaid m n (scan fuel elem) count calls s t)
      fun _ t => s.contents.rd ≤ t.contents.rd ∧ calls ≤ (m - elem.rd + 1) * (1 + (t.contents.rd - s.contents.rd)) := by
  intro step calls
  induction count generalizing pos s with
  | zero => exact .pure ⟨agree, le_rfl, fun _ => rfl, by simp, by simp [calls, loopCalls]⟩
  | succ count ih =>
    have back : (s.rewound elem.rd).desc = elem := by
      have ends : s.desc.wr = elem.wr := agree.desc.wr.trans inside.wr.symm
      simp only [Compact.rewound, area, ends]
    have start : Compact.Agree m n (s.rewound elem.rd) (s.rewound elem.rd) :=
      ⟨back.symm ▸ inside, agree.contents, rfl⟩
    have one := each (s.rewound elem.rd) start (back.symm ▸ fine)
    cases run : compactSkipDescription fuel (s.rewound elem.rd) with
    | error e t =>
      have stepped : step s = .error e t := run
      have failed := one.error run
      have bound := failed.calls
      rw [back] at bound
      refine .bind_of_error stepped ⟨failed.forward, ?_⟩
      simp only [calls, loopCalls, along_of_error stepped, Nat.add_zero]
      exact bound
    | ok _ t =>
      have stepped : step s = .ok () t := run
      have paid := one.ok run
      have forward : s.contents.rd ≤ t.contents.rd := paid.forward
      obtain ⟨shape, scanned, cost, byte⟩ := paid.shape
      rw [back] at scanned
      have taken : s.contents.rd < t.contents.rd := byte (takes shape _ scanned)
      have length : Measured m elem shape t.desc := scan_measured inside scanned
      have here : t.desc.buf = elem.buf := (Honest.scan fuel elem).ok scanned
      have own : skipCalls fuel (s.rewound elem.rd) ≤
          (shape.surface + shape.inner) * (t.contents.rd - s.contents.rd) := by
        have some : 1 ≤ t.contents.rd - s.contents.rd := by omega
        refine cost.trans ?_
        change shape.surface + shape.inner * (t.contents.rd - s.contents.rd) ≤ _
        nlinarith
      refine .bind_of_ok stepped ?_
      have count_eq : calls = skipCalls fuel (s.rewound elem.rd) +
          loopCalls step (fun v => skipCalls fuel (v.rewound elem.rd)) count t := by
        simp only [calls, loopCalls, along_of_ok stepped]
      refine (ih (pos + 1) paid.agree here).mono (fun _ u rest => ?_) fun _ u rest => ?_
      · have onward := rest.forward
        refine ⟨rest.agree, forward.trans onward, by simp, fun _ => ⟨?_, by omega⟩, fun shape' c same => ?_⟩
        · rcases Nat.eq_zero_or_pos count with none | some
          · exact ⟨shape, by rw [rest.none none, scanned]⟩
          · exact (rest.some some).1
        · rw [scanned] at same
          cases same
          have more := rest.calls shape _ scanned
          have split : u.contents.rd - s.contents.rd =
              (t.contents.rd - s.contents.rd) + (u.contents.rd - t.contents.rd) := by omega
          rw [count_eq, split, Nat.mul_add]
          exact Nat.add_le_add own more
      · obtain ⟨onward, more⟩ := rest
        refine ⟨forward.trans onward, ?_⟩
        have split : u.contents.rd - s.contents.rd =
            (t.contents.rd - s.contents.rd) + (u.contents.rd - t.contents.rd) := by omega
        have parts : shape.surface + shape.inner ≤ m - elem.rd + 1 := by
          have := length.2
          have := length.1.inside
          omega
        have scaled := Nat.mul_le_mul_right (t.contents.rd - s.contents.rd) parts
        rw [count_eq, split]
        nlinarith

/-- One more call in front of those behind a later place of the description. -/
theorem Bounded.of_later {calls : ℕ} {s t : Compact} {pos : ℕ} (later : s.desc.rd < pos) (inside : pos ≤ m)
    (forward : s.contents.rd ≤ t.contents.rd)
    (bound : calls ≤ (m - pos + 1) * (1 + (t.contents.rd - s.contents.rd))) : Bounded m (1 + calls) s t := by
  refine ⟨forward, ?_⟩
  have more : m - pos + 1 + 1 ≤ m - s.desc.rd + 1 := by omega
  have scaled := Nat.mul_le_mul_right (1 + (t.contents.rd - s.contents.rd)) more
  rw [Nat.add_mul (m - pos + 1)] at scaled
  omega

theorem Bounded.single {s t : Compact} (forward : s.contents.rd ≤ t.contents.rd) : Bounded m 1 s t :=
  ⟨forward, Nat.mul_pos (Nat.succ_pos _) (by omega)⟩

section Nodes

variable {fuel : ℕ} {s : Compact} {tag : UInt8} {b : Buf}

theorem struct_cost (each : Affordable m n fuel) (agree : Compact.Agree m n s s) (read : axdrReadU8 s.desc = .ok 2 b)
    (fine : productive (fuel + 1) s.desc = true) : CostsAt m n (fuel + 1) s := by
  obtain ⟨inside, moved⟩ := Buf.Inside.readU8 agree.desc read
  simp only [productive, read, if_true] at fine
  rw [CostsAt, skipCalls, compactSkipDescription, along_of_ok (onDesc_of_ok read)]
  refine .bind_of_ok (onDesc_of_ok read) ?_
  simp only [if_true]
  cases length : dlmsReadLen b with
  | error e c =>
    rw [along_of_error (onDesc_of_error length)]
    exact .bind_of_error (onDesc_of_error length) (.single le_rfl)
  | ok count c =>
    obtain ⟨inside, later⟩ := inside.readLen length
    rw [length] at fine
    rw [along_of_ok (onDesc_of_ok length)]
    refine .bind_of_ok (onDesc_of_ok length) ?_
    have fields := fields_cost each count 0 (s := { s with desc := c }) ⟨inside, agree.contents, rfl⟩ fine
    refine fields.mono (fun _ t paid => ?_) fun _ t failed => ?_
    · obtain ⟨shape, scanned, cost, takes⟩ := paid.shape
      refine ⟨paid.agree, paid.forward, { shape with surface := shape.surface + 1 }, ?_, ?_, takes⟩
      · rw [scan, bind_of_ok read]
        simp only [if_true]
        rw [bind_of_ok length, bind_of_ok scanned]
        rfl
      · dsimp only at cost ⊢
        omega
    · exact .of_later (by omega) inside.inside failed.forward failed.calls

theorem array_cost (each : Affordable m n fuel) (agree : Compact.Agree m n s s) (read : axdrReadU8 s.desc = .ok 1 b)
    (fine : productive (fuel + 1) s.desc = true) : CostsAt m n (fuel + 1) s := by
  obtain ⟨inside, moved⟩ := Buf.Inside.readU8 agree.desc read
  have other : ¬(1 : UInt8) = 2 := by decide
  simp only [productive, read, if_neg other, if_true] at fine
  rw [CostsAt, skipCalls, compactSkipDescription, along_of_ok (onDesc_of_ok read)]
  refine .bind_of_ok (onDesc_of_ok read) ?_
  simp only [if_neg other, if_true]
  cases length : axdrReadU16 b with
  | error e c =>
    rw [along_of_error (onDesc_of_error length)]
    exact .bind_of_error (onDesc_of_error length) (.single le_rfl)
  | ok count c =>
    obtain ⟨inside, later⟩ := inside.read (axdrReadUint_local 2) length
    rw [length] at fine
    rw [along_of_ok (onDesc_of_ok length)]
    refine .bind_of_ok (onDesc_of_ok length) (Ends.get_bind ?_)
    rcases Nat.eq_zero_or_pos count with none | some
    · subst none
      refine Ends.pure ⟨⟨inside, agree.contents, rfl⟩, le_rfl, ⟨1, 0, false⟩, ?_, by simp [loopCalls], by simp⟩
      rw [scan, bind_of_ok read]
      simp only [if_neg other, if_true]
      rw [bind_of_ok length]
      rfl
    · have many : ¬count = 0 := by omega
      simp only [many, decide_false, Bool.false_or, Bool.and_eq_true] at fine
      have takes (shape : Shape) (d : Buf) (scanned : scan fuel c = .ok shape d) : shape.takes = true := by
        have byte := fine.2
        rwa [scanned] at byte
      have elements := elements_cost each inside fine.1 takes count 0 (s := { s with desc := c })
        ⟨inside, agree.contents, rfl⟩ rfl
      refine elements.mono (fun _ t paid => ?_) fun _ t failed => ?_
      · obtain ⟨⟨shape, scanned⟩, taken⟩ := paid.some some
        have cost := paid.calls shape _ scanned
        refine ⟨paid.agree, paid.forward, ⟨1, shape.surface + shape.inner, shape.takes⟩, ?_, ?_, fun _ => taken⟩
        · rw [scan, bind_of_ok read]
          simp only [if_neg other, if_true]
          rw [bind_of_ok length]
          simp only [if_neg many]
          rw [bind_of_ok scanned]
          rfl
        · dsimp only at cost ⊢
          omega
      · exact .of_later (by omega) inside.inside failed.1 failed.2

theorem leaf_cost (agree : Compact.Agree m n s s) (read : axdrReadU8 s.desc = .ok tag b) (noStruct : tag ≠ 2)
    (noArray : tag ≠ 1) : CostsAt m n (fuel + 1) s := by
  obtain ⟨inside, moved⟩ := Buf.Inside.readU8 agree.desc read
  rw [CostsAt, skipCalls, compactSkipDescription, along_of_ok (onDesc_of_ok read)]
  refine .bind_of_ok (onDesc_of_ok read) ?_
  simp only [if_neg noStruct, if_neg noArray]
  cases skipped : skipPackedValue tag s.contents with
  | error e c =>
    have forward := Buf.Inside.failed (skipPackedValue_local tag) agree.contents skipped
    simp only [Ends, onContents, skipped]
    exact .single forward
  | ok _ c =>
    have forward := skipPackedValue_forward agree.contents skipped
    have after := (Buf.Inside.read (skipPackedValue_local tag) agree.contents skipped).1
    simp only [Ends, onContents, skipped]
    refine ⟨⟨inside, after, rfl⟩, forward.1, ⟨1, 0, tag ≠ 0⟩, ?_, by simp, fun takes => forward.2 (by simpa using takes)⟩
    rw [scan, bind_of_ok read]
    simp only [if_neg noStruct, if_neg noArray]
    rfl

end Nodes

/-- Every walk over a productive description is affordable. -/
theorem affordable (fuel : ℕ) : Affordable m n fuel := by
  induction fuel with
  | zero => exact fun s _ _ => .throw ⟨le_rfl, Nat.zero_le _⟩
  | succ fuel ih =>
    intro s agree fine
    cases read : axdrReadU8 s.desc with
    | error e b =>
      rw [CostsAt, skipCalls, compactSkipDescription, along_of_error (onDesc_of_error read)]
      exact .bind_of_error (onDesc_of_error read) (.single le_rfl)
    | ok tag b =>
      by_cases isStruct : tag = 2
      · subst isStruct
        exact struct_cost ih agree read fine
      · by_cases isArray : tag = 1
        · subst isArray
          exact array_cost ih agree read fine
        · exact leaf_cost agree read isStruct isArray

end Cost

end OpenSpodes
