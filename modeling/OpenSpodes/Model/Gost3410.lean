import Mathlib.Logic.Function.Basic

/-! # GOST R 34.10 signatures

The word arithmetic for targets without a 128-bit type, and the signature secret that `osp_gost3410_sign` derives.
Hash and signing under a given secret are parameters: a digest is of any type, so that a hash can be injective, and the
answer is whatever signing returns.
-/

namespace OpenSpodes

/-- The carry of a wrapped sum, `(sum < a) ? 1 : 0`. -/
def carryOf (sum a : UInt64) : UInt64 := if sum < a then 1 else 0

/-- `osp_u128_add2`: the sum and its carry. -/
def u128Add2 (a b : UInt64) : UInt64 × UInt64 :=
  let s := a + b
  (s, carryOf s a)

/-- `osp_u128_add3`. -/
def u128Add3 (a b c : UInt64) : UInt64 × UInt64 :=
  let s1 := a + b
  let s2 := s1 + c
  (s2, carryOf s1 a + carryOf s2 s1)

/-- `osp_u128_mul`: the high and the low word of the product. -/
def u128Mul (a b : UInt64) : UInt64 × UInt64 :=
  let aLo := a.toUInt32
  let aHi := (a >>> 32).toUInt32
  let bLo := b.toUInt32
  let bHi := (b >>> 32).toUInt32
  let ll := aLo.toUInt64 * bLo.toUInt64
  let lh := aLo.toUInt64 * bHi.toUInt64
  let hl := aHi.toUInt64 * bLo.toUInt64
  let hh := aHi.toUInt64 * bHi.toUInt64
  let mid := lh + hl
  let midCarry := carryOf mid lh
  let lo := ll + (mid <<< 32)
  let loCarry := carryOf lo ll
  (hh + (mid >>> 32) + (midCarry <<< 32) + loCarry, lo)

/-- `osp_gost3410_sign`. The scratch buffer holds the key; a message of at most 32 bytes is copied behind it and the
whole is hashed, a longer one is hashed alone. -/
def gost3410Sign {Digest Answer : Type} (streebog256 : List UInt8 → Digest)
    (signWithK : Vector UInt8 32 → List UInt8 → Digest → Answer) (d : Vector UInt8 32) (msg : List UInt8) : Answer :=
  let k := if msg.length > 32 then streebog256 msg else streebog256 (d.toList ++ msg)
  signWithK d msg k

end OpenSpodes
