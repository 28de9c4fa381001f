import Mathlib.Data.List.Basic
import Mathlib.Logic.Function.Iterate

/-! # Shift registers with feedback

A register takes a message bit by bit: the bit is added to the lowest place, everything moves down by one place, and
the feedback is added when a one left the register. This computes the check of a cyclic code. The register is linear,
and when the feedback reaches its highest place, no content but zero becomes zero; so an error whose bits are no
farther apart than the register is wide is seen in the check.
-/

namespace ShiftRegister

variable {w : ℕ} {feedback s t : BitVec w} {bits errors : List Bool}

def lowest (bit : Bool) : BitVec w := (BitVec.ofBool bit).setWidth w

def shift (feedback s : BitVec w) : BitVec w := if s.getLsbD 0 then (s >>> 1) ^^^ feedback else s >>> 1

def feed (feedback s : BitVec w) (bits : List Bool) : BitVec w :=
  bits.foldl (fun s bit => shift feedback (s ^^^ lowest bit)) s

/-- A message of at most `w` bits as the content of a register, the first bit in the lowest place. -/
def word : List Bool → BitVec w
  | [] => 0
  | bit :: bits => (word bits <<< 1) ^^^ lowest bit

theorem getLsbD_lowest (bit : Bool) (i : ℕ) : (lowest bit : BitVec w).getLsbD i = (decide (i < w) && (i == 0 && bit)) := by
  cases i <;> cases bit <;> simp [lowest]

theorem getLsbD_word {i : ℕ} (inside : i < w) : (word bits : BitVec w).getLsbD i = bits.getD i false := by
  induction bits generalizing i with
  | nil => simp [word]
  | cons bit bits ih =>
    rw [word, BitVec.getLsbD_xor, BitVec.getLsbD_shiftLeft, getLsbD_lowest]
    cases i with
    | zero => simp [inside]
    | succ i =>
      rw [Nat.add_sub_cancel, ih (show i < w by omega)]
      simp [inside]

/-! ## Linearity -/

theorem shift_xor : shift feedback (s ^^^ t) = shift feedback s ^^^ shift feedback t := by
  unfold shift
  rw [BitVec.getLsbD_xor, BitVec.ushiftRight_xor_distrib]
  cases s.getLsbD 0 <;> cases t.getLsbD 0
  · rfl
  · exact BitVec.xor_assoc _ _ _
  · change s >>> 1 ^^^ t >>> 1 ^^^ feedback = s >>> 1 ^^^ feedback ^^^ t >>> 1
    ac_rfl
  · change s >>> 1 ^^^ t >>> 1 = s >>> 1 ^^^ feedback ^^^ (t >>> 1 ^^^ feedback)
    rw [BitVec.xor_comm (t >>> 1), BitVec.xor_assoc (s >>> 1), ← BitVec.xor_assoc feedback, BitVec.xor_self,
      BitVec.zero_xor]

theorem lowest_xor (bit error : Bool) : (lowest (bit ^^ error) : BitVec w) = lowest bit ^^^ lowest error := by
  ext i
  cases bit <;> cases error <;> simp [lowest]

theorem feed_xor (same : errors.length = bits.length) :
    feed feedback (s ^^^ t) (List.zipWith xor bits errors) = feed feedback s bits ^^^ feed feedback t errors := by
  induction bits generalizing s t errors with
  | nil =>
    rw [List.length_eq_zero_iff.mp same]
    rfl
  | cons bit bits ih =>
    obtain ⟨error, errors, rfl⟩ := List.exists_cons_of_length_eq_add_one same
    change feed feedback (shift feedback (s ^^^ t ^^^ lowest (bit ^^ error))) (List.zipWith xor bits errors) =
      feed feedback (shift feedback (s ^^^ lowest bit)) bits ^^^ feed feedback (shift feedback (t ^^^ lowest error)) errors
    rw [← ih (by simpa using same), ← shift_xor, lowest_xor]
    congr 2
    ac_rfl

theorem feed_append (more : List Bool) : feed feedback s (bits ++ more) = feed feedback (feed feedback s bits) more :=
  List.foldl_append

/-- A register without content takes in zeros. -/
theorem feed_zeros (zeros : true ∉ bits) : feed feedback 0 bits = 0 := by
  induction bits with
  | nil => rfl
  | cons bit bits ih =>
    simp only [List.mem_cons, not_or] at zeros
    obtain rfl : bit = false := by simpa using Ne.symm zeros.1
    simpa [feed, shift, lowest] using ih zeros.2

/-! ## Messages that fit into the register -/

/-- What lies above the lowest place only moves down. -/
theorem shift_shiftLeft (clear : s.getLsbD (w - 1) = false) : shift feedback (s <<< 1) = s := by
  have even : (s <<< 1).getLsbD 0 = false := by simp
  rw [shift, even, if_neg Bool.false_ne_true]
  apply BitVec.eq_of_getLsbD_eq
  intro i inside
  rw [BitVec.getLsbD_ushiftRight, BitVec.getLsbD_shiftLeft, Nat.add_sub_cancel_left]
  by_cases highest : i = w - 1
  · simp [highest, clear]
  · simp [show 1 + i < w by omega]

theorem iterate_shift_xor (n : ℕ) : (shift feedback)^[n] (s ^^^ t) = (shift feedback)^[n] s ^^^ (shift feedback)^[n] t := by
  induction n generalizing s t with
  | zero => rfl
  | succ n ih => rw [Function.iterate_succ_apply, shift_xor, ih, Function.iterate_succ_apply, Function.iterate_succ_apply]

theorem iterate_shift_shiftLeft {n : ℕ} (clear : ∀ i, w - n ≤ i → s.getLsbD i = false) :
    (shift feedback)^[n] (s <<< n) = s := by
  induction n with
  | zero => simp
  | succ n ih =>
    have highest : (s <<< n).getLsbD (w - 1) = false := by
      rw [BitVec.getLsbD_shiftLeft, clear (w - 1 - n) (by omega), Bool.and_false]
    rw [Function.iterate_succ_apply, BitVec.shiftLeft_add, shift_shiftLeft highest]
    exact ih fun i outside => clear i (by omega)

/-- A message that fits is added to the register before anything moves. -/
theorem feed_eq (fits : bits.length ≤ w) : feed feedback s bits = (shift feedback)^[bits.length] (s ^^^ word bits) := by
  induction bits generalizing s with
  | nil => simp [feed, word]
  | cons bit bits ih =>
    rw [List.length_cons] at fits
    have clear : (word bits : BitVec w).getLsbD (w - 1) = false := by
      rw [getLsbD_word (by omega)]
      simp [show bits.length ≤ w - 1 by omega]
    rw [List.length_cons, Function.iterate_succ_apply]
    change feed feedback (shift feedback (s ^^^ lowest bit)) bits = _
    have moved : shift feedback (s ^^^ word (bit :: bits)) = shift feedback (s ^^^ lowest bit) ^^^ word bits := by
      rw [word, BitVec.xor_comm (word bits <<< 1), ← BitVec.xor_assoc, shift_xor (s := s ^^^ lowest bit),
        shift_shiftLeft clear]
    rw [ih (by omega), moved]

/-! ## Bursts -/

section Reaching

variable (reaches : feedback.getLsbD (w - 1) = true)

include reaches

theorem eq_zero_of_shift (gone : shift feedback s = 0) : s = 0 := by
  unfold shift at gone
  split at gone
  · next odd =>
    have highest := congrArg (·.getLsbD (w - 1)) gone
    have outside : s.getLsbD (1 + (w - 1)) = false := BitVec.getLsbD_of_ge s _ (by omega)
    simp [reaches, outside] at highest
  · next even =>
    apply BitVec.eq_of_getLsbD_eq
    intro i _
    cases i with
    | zero => simpa using even
    | succ i =>
      have bit := congrArg (·.getLsbD i) gone
      rw [BitVec.getLsbD_ushiftRight, Nat.add_comm] at bit
      simpa using bit

theorem eq_zero_of_iterate_shift {n : ℕ} (gone : (shift feedback)^[n] s = 0) : s = 0 := by
  induction n with
  | zero => exact gone
  | succ n ih =>
    rw [Function.iterate_succ_apply'] at gone
    exact ih (eq_zero_of_shift reaches gone)

theorem feed_ne_zero_of_short (fits : bits.length ≤ w) (some : true ∈ bits) : feed feedback 0 bits ≠ 0 := by
  intro gone
  rw [feed_eq fits, show (0 : BitVec w) ^^^ word bits = word bits from BitVec.zero_xor] at gone
  obtain ⟨i, inside, one⟩ := List.mem_iff_getElem.mp some
  have bit := congrArg (·.getLsbD i) (eq_zero_of_iterate_shift reaches gone)
  rw [getLsbD_word (by omega)] at bit
  simp [inside, one] at bit

/-- Nothing disappears while zeros come in. -/
theorem feed_zeros_ne_zero (zeros : true ∉ bits) (some : s ≠ 0) : feed feedback s bits ≠ 0 := by
  induction bits generalizing s with
  | nil => exact some
  | cons bit bits ih =>
    simp only [List.mem_cons, not_or] at zeros
    obtain rfl : bit = false := by simpa using Ne.symm zeros.1
    refine ih zeros.2 fun gone => some ?_
    simpa [lowest] using eq_zero_of_shift reaches gone

/-- An error is seen when its bits are no farther apart than the register is wide. -/
theorem feed_burst_ne_zero {start : ℕ} (burst : ∀ i, bits[i]? = some true → start ≤ i ∧ i < start + w)
    (some : true ∈ bits) : feed feedback 0 bits ≠ 0 := by
  have before : true ∉ bits.take start := by
    intro early
    obtain ⟨i, bound, one⟩ := List.mem_iff_getElem.mp early
    rw [List.getElem_take] at one
    rw [List.length_take] at bound
    have := (burst i (by simp [one, show i < bits.length by omega])).1
    omega
  have behind : true ∉ bits.drop (start + w) := by
    intro late
    obtain ⟨i, bound, one⟩ := List.mem_iff_getElem.mp late
    rw [List.getElem_drop] at one
    rw [List.length_drop] at bound
    have := (burst (start + w + i) (by simp [one, show start + w + i < bits.length by omega])).2
    omega
  have parts : bits = bits.take start ++ ((bits.drop start).take w ++ bits.drop (start + w)) := by
    rw [← List.drop_drop, List.take_append_drop, List.take_append_drop]
  have middle : true ∈ (bits.drop start).take w := by
    rw [parts, List.mem_append, List.mem_append] at some
    exact (some.resolve_left before).resolve_right behind
  rw [parts, feed_append, feed_append, feed_zeros before]
  exact feed_zeros_ne_zero reaches behind
    (feed_ne_zero_of_short reaches (by rw [List.length_take]; omega) middle)

end Reaching

end ShiftRegister
