import OpenSpodes.ToMathlib.Bytes

/-! # Fields of 256 elements

A byte is a polynomial over two elements, with its lowest coefficient in its lowest bit. Sums are exclusive ors, and
products are taken modulo `x⁸` plus a polynomial `p` of lower degree.
-/

namespace ByteField

/-- The product with `x`. -/
def double (p a : UInt8) : UInt8 := if a &&& 0x80 = 0 then a <<< 1 else a <<< 1 ^^^ p

/-- The product: the sum of the multiples of `b` by the powers of `x` in `a`. -/
def mul (p a b : UInt8) : UInt8 :=
  (List.range 8).foldr (fun i sum => if a.toNat.testBit i then (double p)^[i] b ^^^ sum else sum) 0

theorem one_mul (p b : UInt8) : mul p 1 b = b := by
  change b ^^^ 0 = b
  exact UInt8.xor_zero

end ByteField
