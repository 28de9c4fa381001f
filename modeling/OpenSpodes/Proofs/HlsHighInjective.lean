import Mathlib.Tactic.IntervalCases
import OpenSpodes.Model.HlsHigh

/-! # The password function never merges two challenges

Under a fixed key every step of a round is a permutation of blocks, so the block function is
injective and two challenges have equal images exactly when they agree after padding.
-/

namespace OpenSpodes.HlsHigh

open Bytes

variable {a b : List UInt8} {key : AesBlock}

/-- The inverse of `hlsHighSBox`, which the source does not need. -/
def inverseSBox : ByteTable := #v[
  #v[82, 9, 106, 213, 48, 54, 165, 56, 191, 64, 163, 158, 129, 243, 215, 251],
  #v[124, 227, 57, 130, 155, 47, 255, 135, 52, 142, 67, 68, 196, 222, 233, 203],
  #v[84, 123, 148, 50, 166, 194, 35, 61, 238, 76, 149, 11, 66, 250, 195, 78],
  #v[8, 46, 161, 102, 40, 217, 36, 178, 118, 91, 162, 73, 109, 139, 209, 37],
  #v[114, 248, 246, 100, 134, 104, 152, 22, 212, 164, 92, 204, 93, 101, 182, 146],
  #v[108, 112, 72, 80, 253, 237, 185, 218, 94, 21, 70, 87, 167, 141, 157, 132],
  #v[144, 216, 171, 0, 140, 188, 211, 10, 247, 228, 88, 5, 184, 179, 69, 6],
  #v[208, 44, 30, 143, 202, 63, 15, 2, 193, 175, 189, 3, 1, 19, 138, 107],
  #v[58, 145, 17, 65, 79, 103, 220, 234, 151, 242, 207, 206, 240, 180, 230, 115],
  #v[150, 172, 116, 34, 231, 173, 53, 133, 226, 249, 55, 232, 28, 117, 223, 110],
  #v[71, 241, 26, 113, 29, 41, 197, 137, 111, 183, 98, 14, 170, 24, 190, 27],
  #v[252, 86, 62, 75, 198, 210, 121, 32, 154, 219, 192, 254, 120, 205, 90, 244],
  #v[31, 221, 168, 51, 136, 7, 199, 49, 177, 18, 16, 89, 39, 128, 236, 95],
  #v[96, 81, 127, 169, 25, 181, 74, 13, 45, 229, 122, 159, 147, 201, 156, 239],
  #v[160, 224, 59, 77, 174, 42, 245, 176, 200, 235, 187, 60, 131, 83, 153, 97],
  #v[23, 43, 4, 126, 186, 119, 214, 38, 225, 105, 20, 99, 85, 33, 12, 125]]

private theorem inverseSBox_lookup (byte : Fin 256) :
    inverseSBox.lookup (hlsHighSBox.lookup (UInt8.ofFin byte)) = UInt8.ofFin byte := by
  revert byte
  decide +kernel

theorem hlsHighSBox_injective : Function.Injective hlsHighSBox.lookup := by
  intro a b same
  rw [← UInt8.ofFin_toFin a, ← UInt8.ofFin_toFin b, ← inverseSBox_lookup a.toFin,
    ← inverseSBox_lookup b.toFin, UInt8.ofFin_toFin, UInt8.ofFin_toFin, same]

private theorem zipWith_xor_injective (key : AesBlock) :
    Function.Injective (Vector.zipWith (· ^^^ ·) · key : AesBlock → AesBlock) := by
  intro a b same
  apply Vector.ext
  intro i bound
  have byte : a[i] ^^^ key[i] = b[i] ^^^ key[i] := by
    simpa only [Vector.getElem_zipWith] using congrArg (fun block : AesBlock => block[i]) same
  exact (UInt8.xor_left_inj key[i]).mp byte

theorem addSubstitute_injective (key : AesBlock) : Function.Injective (addSubstitute · key) := by
  intro a b same
  apply zipWith_xor_injective key
  apply Vector.ext
  intro i bound
  apply hlsHighSBox_injective
  simpa [addSubstitute] using congrArg (fun block : AesBlock => block[i]) same

theorem shiftRows_injective : Function.Injective shiftRows := by
  intro a b same
  apply Vector.ext
  intro i bound
  simp [shiftRows] at same
  interval_cases i <;> simp [same]

section MixColumns

theorem xor_cancel_left (a b : UInt8) : a ^^^ (a ^^^ b) = b := by
  rw [← UInt8.xor_assoc, UInt8.xor_self, UInt8.zero_xor]

theorem xor_left_comm (a b c : UInt8) : a ^^^ (b ^^^ c) = b ^^^ (a ^^^ c) := by
  rw [← UInt8.xor_assoc, UInt8.xor_comm a b, UInt8.xor_assoc]

/-- Doubling in the field is additive. -/
theorem hlsHighGaloisMultiply_xor (a b : UInt8) :
    hlsHighGaloisMultiply (a ^^^ b) = hlsHighGaloisMultiply a ^^^ hlsHighGaloisMultiply b := by
  have topBit : ∀ c : UInt8, c >>> 7 = 0 ∨ c >>> 7 = 1 := by
    intro c
    have shifted : (c >>> 7).toNat = c.toNat / 128 := by simp [Nat.shiftRight_eq_div_pow]
    have bound := c.toNat_lt
    rcases (show c.toNat / 128 = 0 ∨ c.toNat / 128 = 1 by omega) with low | high
    · exact Or.inl (UInt8.toNat_inj.mp (by rw [shifted, low]; rfl))
    · exact Or.inr (UInt8.toNat_inj.mp (by rw [shifted, high]; rfl))
  simp only [hlsHighGaloisMultiply, UInt8.shiftRight_xor, UInt8.shiftLeft_xor]
  rcases topBit a with ha | ha <;> rcases topBit b with hb | hb <;>
    simp [ha, hb, UInt8.xor_assoc, UInt8.xor_comm, xor_left_comm]

/-- Mixing a column twice leaves each byte with four times its sum with the opposite one. -/
private theorem mixByte_twice {a b c e mix : UInt8} (sum : mix = a ^^^ b ^^^ c ^^^ e) :
    mixByte (mixByte a b mix) (mixByte b c mix)
        (mixByte a b mix ^^^ mixByte b c mix ^^^ mixByte c e mix ^^^ mixByte e a mix) =
      a ^^^ hlsHighGaloisMultiply (hlsHighGaloisMultiply (a ^^^ c)) := by
  simp [sum, mixByte, hlsHighGaloisMultiply_xor, UInt8.xor_assoc, UInt8.xor_comm, xor_left_comm, xor_cancel_left]

private theorem column_first {a b c e mix a' b' c' e' mix' : UInt8} (sum : mix = a ^^^ b ^^^ c ^^^ e)
    (sum' : mix' = a' ^^^ b' ^^^ c' ^^^ e') (first : mixByte a b mix = mixByte a' b' mix')
    (second : mixByte b c mix = mixByte b' c' mix') (third : mixByte c e mix = mixByte c' e' mix')
    (fourth : mixByte e a mix = mixByte e' a' mix') : a = a' := by
  have here := mixByte_twice sum
  rw [first, second, third, fourth, mixByte_twice sum'] at here
  have opposite := mixByte_twice (show mix = c ^^^ e ^^^ a ^^^ b by rw [sum]; ac_rfl)
  rw [first, second, third, fourth, mixByte_twice (show mix' = c' ^^^ e' ^^^ a' ^^^ b' by rw [sum']; ac_rfl),
    UInt8.xor_comm c a, UInt8.xor_comm c' a'] at opposite
  -- The quadruple is the same in both, so the bytes have the same sum and with it the same quadruple.
  have sums : a ^^^ c = a' ^^^ c' := by
    have both := congrArg₂ (· ^^^ ·) here opposite
    simpa [UInt8.xor_assoc, UInt8.xor_comm, xor_left_comm, xor_cancel_left] using both.symm
  rw [sums] at here
  exact ((UInt8.xor_left_inj _).mp here).symm

theorem mixColumns_injective : Function.Injective mixColumns := by
  intro a b same
  simp only [mixColumns, Vector.mk_append_mk, List.append_toArray, List.cons_append,
    List.nil_append, Vector.mk.injEq, Array.mk.injEq, List.cons.injEq, and_true] at same
  obtain ⟨c0, c1, c2, c3, c4, c5, c6, c7, c8, c9, c10, c11, c12, c13, c14, c15⟩ := same
  have column {a b c e a' b' c' e' : UInt8} first second third fourth : a = a' ∧ b = b' ∧ c = c' ∧ e = e' :=
    ⟨column_first rfl rfl first second third fourth, column_first (by ac_rfl) (by ac_rfl) second third fourth first,
      column_first (by ac_rfl) (by ac_rfl) third fourth first second,
      column_first (by ac_rfl) (by ac_rfl) fourth first second third⟩
  obtain ⟨h0, h1, h2, h3⟩ := column c0 c1 c2 c3
  obtain ⟨h4, h5, h6, h7⟩ := column c4 c5 c6 c7
  obtain ⟨h8, h9, h10, h11⟩ := column c8 c9 c10 c11
  obtain ⟨h12, h13, h14, h15⟩ := column c12 c13 c14 c15
  apply Vector.ext
  intro i bound
  interval_cases i <;> assumption

end MixColumns

private theorem aesRound_injective {a b : AesBlock} {round : Fin 10}
    (same : aesRound (a, key) round = aesRound (b, key) round) : a = b := by
  have blocks := congrArg Prod.fst same
  simp only [aesRound] at blocks
  split at blocks
  · exact addSubstitute_injective key (shiftRows_injective (mixColumns_injective blocks))
  · exact addSubstitute_injective key (shiftRows_injective blocks)

private theorem rounds_key (rounds : List (Fin 10)) (a b key : AesBlock) :
    (rounds.foldl aesRound (a, key)).2 = (rounds.foldl aesRound (b, key)).2 := by
  induction rounds generalizing a b key with
  | nil => rfl
  | cons round rest ih => exact ih _ _ _

private theorem rounds_injective (rounds : List (Fin 10)) {a b : AesBlock}
    (same : (rounds.foldl aesRound (a, key)).1 = (rounds.foldl aesRound (b, key)).1) : a = b := by
  induction rounds generalizing a b key with
  | nil => exact same
  | cons round rest ih => exact aesRound_injective (Prod.ext (ih same) rfl)

theorem hlsHighAes1EncryptBlock_injective (key : AesBlock) : Function.Injective (hlsHighAes1EncryptBlock · key) := by
  intro a b same
  simp only [hlsHighAes1EncryptBlock] at same
  rw [rounds_key _ b a key] at same
  exact rounds_injective _ (zipWith_xor_injective _ same)

private theorem encryptBlocks_succ (key : AesBlock) (count : ℕ) (bytes : List UInt8) :
    encryptBlocks key (count + 1) bytes = encryptBlocks key count bytes ++
      (hlsHighAes1EncryptBlock (blockOf (bytes.drop (16 * count))) key).toList := by
  simp [encryptBlocks, List.range_succ]

@[simp] theorem length_encryptBlocks (key : AesBlock) (count : ℕ) (bytes : List UInt8) :
    (encryptBlocks key count bytes).length = 16 * count := by
  induction count with
  | zero => rfl
  | succ count ih => rw [encryptBlocks_succ, List.length_append, ih, Vector.length_toList]; omega

private theorem blocks_of_encryptBlocks {count : ℕ} (same : encryptBlocks key count a = encryptBlocks key count b)
    (pos : ℕ) (inside : pos < count) : blockOf (a.drop (16 * pos)) = blockOf (b.drop (16 * pos)) := by
  induction count with
  | zero => omega
  | succ count ih =>
    rw [encryptBlocks_succ, encryptBlocks_succ] at same
    obtain ⟨front, last⟩ := List.append_inj same (by simp)
    rcases Nat.lt_succ_iff_lt_or_eq.mp inside with earlier | rfl
    · exact ih front earlier
    · exact hlsHighAes1EncryptBlock_injective key (Vector.toList_inj.mp last)

/-- The output is made of whole blocks, at least one and at most the four of the longest input. -/
theorem securedLen_bounds {dataLen secretLen : ℕ} (data : 0 < dataLen) (dataFits : dataLen ≤ 64)
    (secretFits : secretLen ≤ 64) : 16 ≤ securedLen dataLen secretLen ∧ securedLen dataLen secretLen ≤ 64 := by
  unfold securedLen roundUp16
  split_ifs <;> omega

private theorem securedLen_eq (dataLen secretLen : ℕ) :
    securedLen dataLen secretLen = 16 * (securedLen dataLen secretLen / 16) := by
  unfold securedLen roundUp16
  split_ifs <;> omega

/-- The bytes that are encrypted for a challenge. -/
def paddedChallenge (data secret : List UInt8) : List UInt8 :=
  padTo (securedLen data.length secret.length) data

private theorem length_paddedChallenge (data secret : List UInt8) :
    (paddedChallenge data secret).length = 16 * ((paddedChallenge data secret).length / 16) := by
  simpa [paddedChallenge] using securedLen_eq data.length secret.length

/-- Challenges with the same image under a key agree after padding. -/
theorem encryptBlocks_paddedChallenge_injective {secret : List UInt8}
    (same : encryptBlocks key ((paddedChallenge a secret).length / 16) (paddedChallenge a secret) =
      encryptBlocks key ((paddedChallenge b secret).length / 16) (paddedChallenge b secret)) :
    paddedChallenge a secret = paddedChallenge b secret := by
  have counts : (paddedChallenge a secret).length / 16 = (paddedChallenge b secret).length / 16 := by
    simpa using congrArg List.length same
  have lengthLeft := length_paddedChallenge a secret
  have lengthRight := length_paddedChallenge b secret
  rw [counts] at same lengthLeft
  -- whole blocks are recovered from their encryption, and with them every byte
  generalize (paddedChallenge b secret).length / 16 = count at *
  apply List.ext_getElem (by rw [lengthLeft, lengthRight])
  intro i insideLeft insideRight
  have block := blocks_of_encryptBlocks same (i / 16) (by omega)
  have inBlock : i % 16 < 16 := Nat.mod_lt _ (by omega)
  have byte : ((paddedChallenge a secret).drop (16 * (i / 16))).getD (i % 16) 0 =
      ((paddedChallenge b secret).drop (16 * (i / 16))).getD (i % 16) 0 := by
    simpa only [blockOf, Vector.getElem_ofFn] using congrArg (fun v : AesBlock => v[i % 16]) block
  simpa [List.getD_eq_getElem?_getD, Nat.div_add_mod, insideLeft, insideRight] using byte

end OpenSpodes.HlsHigh
