import Mathlib.Data.List.Basic

/-! # Stream ciphers over blocks

A stream cipher in counter mode xors the input, cut into blocks, with one key block for each. Doing it
twice with the same key blocks gives the input back, whatever the key blocks are.
-/

namespace Bytes

variable {width : ℕ} {stream : ℕ → List UInt8}

/-- Xor the input, in blocks of `width`, with the blocks of a stream. -/
def xorBlocks (width : ℕ) (stream : ℕ → List UInt8) (input : List UInt8) : List UInt8 :=
  (List.range ((input.length + (width - 1)) / width)).flatMap fun b =>
    List.zipWith (· ^^^ ·) ((input.drop (width * b)).take width) (stream b)

theorem zipWith_xor_twice {input key : List UInt8} (long : input.length ≤ key.length) :
    List.zipWith (· ^^^ ·) (List.zipWith (· ^^^ ·) input key) key = input := by
  apply List.ext_getElem
  · simp [long]
  · intro i _ _
    simp [UInt8.xor_assoc]

private theorem length_flatMap_stream (full : ∀ b, (stream b).length = width) (n : ℕ) :
    ((List.range n).flatMap stream).length = width * n := by
  induction n with
  | zero => simp
  | succ n ih =>
    rw [List.range_succ, List.flatMap_append, List.length_append, ih]
    simp [full, Nat.mul_succ]

private theorem zipWith_append_unused {input key more : List UInt8} (long : input.length ≤ key.length) :
    List.zipWith (· ^^^ ·) input (key ++ more) = List.zipWith (· ^^^ ·) input key := by
  apply List.ext_getElem
  · simp only [List.length_zipWith, List.length_append]
    omega
  · intro i _ inside
    rw [List.length_zipWith] at inside
    simp [List.getElem_append_left (show i < key.length by omega)]

/-- Block by block is the same as all at once. -/
private theorem flatMap_zipWith (full : ∀ b, (stream b).length = width) (input : List UInt8) (n : ℕ) :
    ((List.range n).flatMap fun b => List.zipWith (· ^^^ ·) ((input.drop (width * b)).take width) (stream b)) =
      List.zipWith (· ^^^ ·) (input.take (width * n)) ((List.range n).flatMap stream) := by
  induction n with
  | zero => simp
  | succ n ih =>
    rw [List.range_succ, List.flatMap_append, List.flatMap_append, ih, Nat.mul_succ, List.take_add]
    simp only [List.flatMap_cons, List.flatMap_nil, List.append_nil]
    rcases Nat.lt_or_ge input.length (width * n) with short | long
    · -- the input has ended: the last block adds nothing on either side
      have ended : input.drop (width * n) = [] := List.drop_eq_nil_of_le (Nat.le_of_lt short)
      rw [ended, List.take_nil, List.zipWith_nil_left, List.append_nil, List.append_nil, zipWith_append_unused]
      rw [List.length_take, length_flatMap_stream full]
      exact Nat.min_le_left _ _
    · rw [List.zipWith_append]
      rw [List.length_take, length_flatMap_stream full]
      exact Nat.min_eq_left long

private theorem blocks_cover (positive : 0 < width) (length : ℕ) :
    length ≤ width * ((length + (width - 1)) / width) := by
  have step := Nat.lt_mul_div_succ (length + (width - 1)) positive
  rw [Nat.mul_succ] at step
  omega

theorem xorBlocks_eq (positive : 0 < width) (full : ∀ b, (stream b).length = width) (input : List UInt8) :
    xorBlocks width stream input = List.zipWith (· ^^^ ·) input
      ((List.range ((input.length + (width - 1)) / width)).flatMap stream) := by
  rw [xorBlocks, flatMap_zipWith full, List.take_of_length_le (blocks_cover positive _)]

theorem length_xorBlocks (positive : 0 < width) (full : ∀ b, (stream b).length = width)
    (input : List UInt8) : (xorBlocks width stream input).length = input.length := by
  rw [xorBlocks_eq positive full, List.length_zipWith, length_flatMap_stream full]
  exact Nat.min_eq_left (blocks_cover positive _)

/-- The same stream takes itself away. -/
theorem xorBlocks_twice (positive : 0 < width) (full : ∀ b, (stream b).length = width)
    (input : List UInt8) : xorBlocks width stream (xorBlocks width stream input) = input := by
  rw [xorBlocks_eq positive full (xorBlocks width stream input), length_xorBlocks positive full,
    xorBlocks_eq positive full input]
  apply zipWith_xor_twice
  rw [length_flatMap_stream full]
  exact blocks_cover positive _

end Bytes
