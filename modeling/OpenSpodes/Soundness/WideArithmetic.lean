import Mathlib.Tactic.Linarith
import Mathlib.Tactic.Ring
import OpenSpodes.Model.Gost3410

/-! # Two-word arithmetic without a two-word type

A wrapped sum is smaller than a summand exactly when there was a carry. With that the words that the fallbacks return
make up the exact sum or product of any words.
-/

namespace OpenSpodes

theorem carryOf_value (a b : UInt64) : (carryOf (a + b) a).toNat * 2 ^ 64 + (a + b).toNat = a.toNat + b.toNat := by
  have boundA := a.toNat_lt
  have boundB := b.toNat_lt
  simp only [carryOf, apply_ite UInt64.toNat, UInt64.lt_iff_toNat_lt, UInt64.toNat_add, UInt64.toNat_one,
    UInt64.toNat_zero]
  split <;> omega

theorem carryOf_le (sum a : UInt64) : (carryOf sum a).toNat ≤ 1 := by
  unfold carryOf
  split <;> decide

private theorem toNat_add_of_lt {a b : UInt64} (small : a.toNat + b.toNat < 2 ^ 64) :
    (a + b).toNat = a.toNat + b.toNat := by
  rw [UInt64.toNat_add, Nat.mod_eq_of_lt small]

/-- The partial products are summed without loss when the result has two words. -/
theorem partialProducts_value (ll lh hl hh : UInt64)
    (fits : hh.toNat * 2 ^ 64 + (lh.toNat + hl.toNat) * 2 ^ 32 + ll.toNat < 2 ^ 128) :
    (hh + (lh + hl) >>> 32 + carryOf (lh + hl) lh <<< 32 + carryOf (ll + (lh + hl) <<< 32) ll).toNat * 2 ^ 64 +
        (ll + (lh + hl) <<< 32).toNat = hh.toNat * 2 ^ 64 + (lh.toNat + hl.toNat) * 2 ^ 32 + ll.toNat := by
  have middle := carryOf_value lh hl
  have low := carryOf_value ll ((lh + hl) <<< 32)
  have few := carryOf_le (lh + hl) lh
  generalize carryOf (lh + hl) lh = midCarry at middle few ⊢
  generalize lh + hl = mid at middle low ⊢
  generalize carryOf (ll + mid <<< 32) ll = loCarry at low ⊢
  generalize ll + mid <<< 32 = lo at low ⊢
  have shifted (x : UInt64) : (x <<< 32).toNat = x.toNat * 2 ^ 32 % 2 ^ 64 := by simp [Nat.shiftLeft_eq]
  have carried : (midCarry <<< 32).toNat = midCarry.toNat * 2 ^ 32 := by
    rw [shifted]
    omega
  have midHigh : (mid >>> 32).toNat = mid.toNat / 2 ^ 32 := by simp [Nat.shiftRight_eq_div_pow]
  have bound := mid.toNat_lt
  -- the middle sum goes to both words
  have parts : mid.toNat * 2 ^ 32 % 2 ^ 64 + mid.toNat / 2 ^ 32 * 2 ^ 64 = mid.toNat * 2 ^ 32 := by omega
  rw [shifted] at low
  generalize mid >>> 32 = high at midHigh ⊢
  generalize midCarry <<< 32 = carry at carried ⊢
  rw [← middle] at fits ⊢
  have first : (hh + high).toNat = _ := toNat_add_of_lt (by omega)
  have second : (hh + high + carry).toNat = _ := toNat_add_of_lt (by omega)
  rw [toNat_add_of_lt (by omega), second, first, midHigh, carried]
  linarith

/-- The words returned by the fallbacks make up the product and the sums, for all words. -/
theorem wide_arithmetic_exact (a b c : UInt64) :
    (u128Mul a b).1.toNat * 2 ^ 64 + (u128Mul a b).2.toNat = a.toNat * b.toNat ∧
      (u128Add3 a b c).2.toNat * 2 ^ 64 + (u128Add3 a b c).1.toNat = a.toNat + b.toNat + c.toNat ∧
      (u128Add2 a b).2.toNat * 2 ^ 64 + (u128Add2 a b).1.toNat = a.toNat + b.toNat := by
  refine ⟨?_, ?_, carryOf_value a b⟩
  case refine_2 =>
    have first := carryOf_value a b
    have second := carryOf_value (a + b) c
    have few := carryOf_le (a + b) a
    have few' := carryOf_le (a + b + c) (a + b)
    dsimp only [u128Add3]
    rw [toNat_add_of_lt (by omega), Nat.add_mul, Nat.add_assoc, second, ← first, Nat.add_assoc]
  have product (x y : UInt32) : (x.toUInt64 * y.toUInt64).toNat = x.toNat * y.toNat := by
    rw [UInt64.toNat_mul]
    exact Nat.mod_eq_of_lt (show _ < 2 ^ 32 * 2 ^ 32 from Nat.mul_lt_mul'' x.toNat_lt y.toNat_lt)
  have halves (x : UInt64) : x.toNat = (x >>> 32).toUInt32.toNat * 2 ^ 32 + x.toUInt32.toNat := by
    have bound := x.toNat_lt
    simp [Nat.shiftRight_eq_div_pow]
    omega
  have total : a.toNat * b.toNat < 2 ^ 64 * 2 ^ 64 := Nat.mul_lt_mul'' a.toNat_lt b.toNat_lt
  rw [halves a, halves b] at total ⊢
  dsimp only [u128Mul]
  rw [partialProducts_value, product, product, product, product]
  · ring
  · rw [product, product, product, product]
    linarith

end OpenSpodes
