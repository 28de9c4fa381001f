import OpenSpodes.Proofs.HlsHighInjective
import OpenSpodes.ToMathlib.ByteField

/-! # The built-in block cipher is AES-128

Between rounds the source holds the standard's state without its round key, which it adds at the start of the next.
-/

namespace OpenSpodes.HlsHigh

open Bytes ByteField

namespace Standard

/-- The multiplicative inverse, which is the power 254, with 0 for 0. -/
def inverse (a : UInt8) : UInt8 :=
  let power127 := (fun power => mul 0x1B (mul 0x1B power power) a)^[6] a
  mul 0x1B power127 power127

/-- `SBOX`: the inverse, then the affine transformation. -/
def sbox (a : UInt8) : UInt8 :=
  let b := inverse a
  let rotated (k : UInt8) := b <<< k ||| b >>> (8 - k)
  b ^^^ rotated 1 ^^^ rotated 2 ^^^ rotated 3 ^^^ rotated 4 ^^^ 0x63

/-- `SHIFTROWS`; the byte in row `r` of column `c` has index `r + 4 * c`. -/
def shiftRows (s : AesBlock) : AesBlock := Vector.ofFn fun i => s[i.val % 4 + 4 * ((i.val / 4 + i.val % 4) % 4)]

/-- `MIXCOLUMNS`. -/
def mixColumns (s : AesBlock) : AesBlock :=
  Vector.ofFn fun i =>
    let below (k : ℕ) := s[4 * (i.val / 4) + (i.val + k) % 4]
    mul 0x1B 2 (below 0) ^^^ mul 0x1B 3 (below 1) ^^^ below 2 ^^^ below 3

/-- `KEYEXPANSION`: byte `r` of word `i`. -/
def keyWord (key : AesBlock) (i r : ℕ) : UInt8 :=
  if i < 4 then key[4 * (i % 4) + r % 4]
  else if i % 4 = 0 then
    keyWord key (i - 4) r ^^^ (sbox (keyWord key (i - 1) ((r + 1) % 4)) ^^^ if r = 0 then (double 0x1B)^[i / 4 - 1] 1 else 0)
  else keyWord key (i - 4) r ^^^ keyWord key (i - 1) r

/-- The words of a round. -/
def roundKey (key : AesBlock) (round : ℕ) : AesBlock :=
  Vector.ofFn fun i => keyWord key (4 * round + i.val / 4) (i.val % 4)

/-- `ADDROUNDKEY`. -/
def addRoundKey (key : AesBlock) (round : ℕ) (s : AesBlock) : AesBlock := Vector.zipWith (· ^^^ ·) s (roundKey key round)

/-- The state behind the first rounds, which all mix the columns. -/
def rounds (key input : AesBlock) : ℕ → AesBlock
  | 0 => addRoundKey key 0 input
  | n + 1 => addRoundKey key (n + 1) (mixColumns (shiftRows ((rounds key input n).map sbox)))

/-- `CIPHER` for AES-128. -/
def cipher (key input : AesBlock) : AesBlock := addRoundKey key 10 (shiftRows ((rounds key input 9).map sbox))

end Standard

open Standard (sbox keyWord roundKey addRoundKey rounds cipher)

theorem sbox_eq : hlsHighSBox.lookup = sbox := by
  have all (high : ℕ) (row : high < 16) (low : Fin 16) :
      hlsHighSBox.lookup (.ofNat (16 * high + low)) = sbox (.ofNat (16 * high + low)) := by
    revert low
    interval_cases high <;> decide +kernel
  funext a
  have bound := a.toNat_lt
  have found := all (a.toNat / 16) (by omega) ⟨a.toNat % 16, by omega⟩
  rwa [Nat.div_add_mod, UInt8.ofNat_toNat] at found

theorem shiftRows_eq (d : AesBlock) : shiftRows d = Standard.shiftRows d := by
  apply Vector.ext
  intro i inside
  rw [Standard.shiftRows, Vector.getElem_ofFn]
  interval_cases i <;> simp [shiftRows]

/-- Doubling the sum with the neighbour and adding the whole column is the standard's combination. -/
theorem mixByte_eq {a b c e mix : UInt8} (sum : mix = a ^^^ b ^^^ c ^^^ e) :
    mixByte a b mix = mul 0x1B 2 a ^^^ mul 0x1B 3 b ^^^ c ^^^ e := by
  have doubles : ∀ a : Fin 256, hlsHighGaloisMultiply (.ofFin a) = double 0x1B (.ofFin a) := by decide +kernel
  rw [mixByte, sum, hlsHighGaloisMultiply_xor, show hlsHighGaloisMultiply a = _ from doubles a.toFin,
    show hlsHighGaloisMultiply b = _ from doubles b.toFin]
  change _ = (double 0x1B a ^^^ 0) ^^^ (b ^^^ (double 0x1B b ^^^ 0)) ^^^ c ^^^ e
  simp [UInt8.xor_assoc, UInt8.xor_comm, xor_left_comm, xor_cancel_left]

theorem mixColumns_eq (d : AesBlock) : mixColumns d = Standard.mixColumns d := by
  simp only [mixColumns, Vector.mk_append_mk, List.append_toArray, List.cons_append, List.nil_append]
  apply Vector.ext
  intro i inside
  rw [Standard.mixColumns, Vector.getElem_ofFn]
  interval_cases i
  all_goals
    simp
    exact mixByte_eq (by ac_rfl)

/-- A turn computes the next round key from the present one. -/
theorem nextKey_roundKey (key : AesBlock) (n : Fin 10) : nextKey n (roundKey key n) = roundKey key (n + 1) := by
  have rcon : hlsHighRCon.get n = (double 0x1B)^[n.val] 1 := by
    revert n
    decide
  have first (r : ℕ) : keyWord key (4 * n + 4) r = keyWord key (4 * n) r ^^^
      (sbox (keyWord key (4 * n + 3) ((r + 1) % 4)) ^^^ if r = 0 then (double 0x1B)^[n.val] 1 else 0) := by
    rw [keyWord, if_neg (by omega), if_pos (by omega), show (4 * n.val + 4) / 4 - 1 = n by omega]
    rfl
  have chain (c r : ℕ) (inner : c < 3) :
      keyWord key (4 * n + (5 + c)) r = keyWord key (4 * n + (1 + c)) r ^^^ keyWord key (4 * n + (4 + c)) r := by
    rw [keyWord, if_neg (by omega), if_neg (by omega), show 4 * n.val + (5 + c) - 4 = 4 * n + (1 + c) by omega,
      show 4 * n.val + (5 + c) - 1 = 4 * n + (4 + c) by omega]
  apply Vector.ext
  intro i inside
  simp only [nextKey, roundKey, Vector.getElem_ofFn, sbox_eq, rcon]
  interval_cases i
  all_goals
    simp [Nat.mul_add, first, chain 0, chain 1, chain 2]
    ac_rfl

theorem rounds_eq (data key : AesBlock) (n : ℕ) (inner : n ≤ 9) :
    ∃ d, ((List.finRange 10).take n).foldl aesRound (data, roundKey key 0) = (d, roundKey key n) ∧
      addRoundKey key n d = rounds key data n := by
  induction n with
  | zero => exact ⟨data, rfl, rfl⟩
  | succ n ih =>
    obtain ⟨d, run, state⟩ := ih (by omega)
    refine ⟨mixColumns (shiftRows ((rounds key data n).map sbox)), ?_, by rw [mixColumns_eq, shiftRows_eq, rounds]⟩
    rw [List.take_succ_eq_append_getElem (by simp; omega), List.foldl_append, run, List.getElem_finRange]
    simp only [List.foldl_cons, List.foldl_nil, aesRound, addSubstitute, sbox_eq]
    rw [if_pos (by simp; omega), ← state]
    exact Prod.ext rfl (nextKey_roundKey key ⟨n, by omega⟩)

/-- For every key and block the source computes the standard's cipher. -/
theorem aes_block_standard (data key : AesBlock) : hlsHighAes1EncryptBlock data key = cipher key data := by
  have start : roundKey key 0 = key := by
    apply Vector.ext
    intro i inside
    rw [roundKey, Vector.getElem_ofFn, keyWord, if_pos (by omega)]
    congr 1
    dsimp only
    omega
  obtain ⟨d, run, state⟩ := rounds_eq data key 9 le_rfl
  rw [start] at run
  have all : List.finRange 10 = (List.finRange 10).take 9 ++ [9] := by decide
  rw [hlsHighAes1EncryptBlock, all, List.foldl_append, run, cipher, ← state, ← shiftRows_eq, ← sbox_eq]
  simp only [List.foldl_cons, List.foldl_nil, aesRound, if_neg (show ¬(9 : Fin 10).val < 9 by decide)]
  exact congrArg (Vector.zipWith (· ^^^ ·) _) (nextKey_roundKey key 9)

end OpenSpodes.HlsHigh
