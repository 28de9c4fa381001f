import Mathlib.Data.List.Basic
import Mathlib.Tactic.Ring

/-! # Big-endian byte strings and zero padding

Wire formats write a number as a fixed count of bytes, most significant first, and copy byte
strings into arrays of a fixed size. `beBytes` and `beNat` are the two directions of the first;
`padTo` is the second. Substitution tables and cipher blocks are the fixed-size data that ciphers
use. Nothing here depends on a particular format.
-/

namespace Bytes

/-- The `width` low-order bytes of `n`, most significant first. -/
def beBytes : ℕ → ℕ → List UInt8
  | 0, _ => []
  | width + 1, n => UInt8.ofNat (n / 256 ^ width) :: beBytes width n

/-- The number that a byte string denotes, most significant byte first. -/
def beNat (bytes : List UInt8) : ℕ :=
  bytes.foldl (fun acc byte => acc * 256 + byte.toNat) 0

/-- The first `size` bytes of a string, continued with zeros when it is shorter. -/
def padTo (size : ℕ) (bytes : List UInt8) : List UInt8 :=
  bytes.take size ++ List.replicate (size - bytes.length) 0

/-- A table indexed by a byte, in sixteen rows of sixteen. -/
abbrev ByteTable := Vector (Vector UInt8 16) 16

theorem highNibble_lt (byte : UInt8) : byte.toNat / 16 < 16 := by
  have bound := byte.toNat_lt
  omega

theorem lowNibble_lt (byte : UInt8) : byte.toNat % 16 < 16 := by omega

def ByteTable.lookup (table : ByteTable) (byte : UInt8) : UInt8 :=
  (table.get ⟨byte.toNat / 16, highNibble_lt byte⟩).get ⟨byte.toNat % 16, lowNibble_lt byte⟩

/-- The first sixteen bytes of a string as a cipher block, zeros where it ends early. -/
def blockOf (bytes : List UInt8) : Vector UInt8 16 := Vector.ofFn fun i => bytes.getD i 0

@[simp] theorem length_beBytes (width n : ℕ) : (beBytes width n).length = width := by
  induction width with
  | zero => rfl
  | succ width ih => simp only [beBytes, List.length_cons, ih]

private theorem foldl_be (bytes : List UInt8) (acc : ℕ) : bytes.foldl (fun acc byte => acc * 256 + byte.toNat) acc =
      acc * 256 ^ bytes.length + beNat bytes := by
  induction bytes generalizing acc with
  | nil => simp [beNat]
  | cons byte rest ih =>
    simp only [beNat, List.foldl_cons, List.length_cons, Nat.zero_mul, Nat.zero_add]
    rw [ih, ih byte.toNat]
    ring

theorem beNat_cons (byte : UInt8) (rest : List UInt8) :
    beNat (byte :: rest) = byte.toNat * 256 ^ rest.length + beNat rest := by
  simp only [beNat, List.foldl_cons, Nat.zero_mul, Nat.zero_add]
  exact foldl_be rest byte.toNat

/-- Reading back what was written returns the number modulo the width. -/
theorem beNat_beBytes_mod (width n : ℕ) : beNat (beBytes width n) = n % 256 ^ width := by
  induction width with
  | zero => simp [beBytes, beNat, Nat.mod_one]
  | succ width ih =>
    rw [beBytes, beNat_cons, ih, length_beBytes, UInt8.toNat_ofNat']
    have split : n % (256 ^ width * 256) = n % 256 ^ width + 256 ^ width * (n / 256 ^ width % 256) :=
      Nat.mod_mul
    rw [show 256 ^ (width + 1) = 256 ^ width * 256 from pow_succ 256 width, split, Nat.add_comm, Nat.mul_comm]

/-- A number that fits the width is read back exactly. -/
theorem beNat_beBytes {width n : ℕ} (fits : n < 256 ^ width) : beNat (beBytes width n) = n := by
  rw [beNat_beBytes_mod, Nat.mod_eq_of_lt fits]

@[simp] theorem length_padTo (size : ℕ) (bytes : List UInt8) : (padTo size bytes).length = size := by
  simp only [padTo, List.length_append, List.length_take, List.length_replicate]
  omega

theorem padTo_of_length_eq {size : ℕ} {bytes : List UInt8} (exact : bytes.length = size) :
    padTo size bytes = bytes := by
  subst exact
  simp [padTo]

/-- A counter below its last value has a successor. -/
theorem toNat_succ {counter : UInt32} (more : counter ≠ 0xFFFFFFFF) : (counter + 1).toNat = counter.toNat + 1 := by
  have bound : counter.toNat < 2 ^ 32 := counter.toNat_lt
  have below : counter.toNat ≠ 0xFFFFFFFF := fun last => more (UInt32.toNat_inj.mp last)
  have one : (1 : UInt32).toNat = 1 := rfl
  rw [UInt32.toNat_add, one]
  omega

end Bytes
