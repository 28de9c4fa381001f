import OpenSpodes.Model.Hdlc
import OpenSpodes.ToMathlib.ShiftRegister

/-! # The frame check sequence

The table-driven loop is a shift register with feedback, eight moves for each byte. A string that ends in its own
check sequence always leaves the same content in the register; so two such strings differ in a way that the register
does not see, and their difference is no short burst.
-/

namespace OpenSpodes

open ShiftRegister

variable (byte : UInt8) (bytes : List UInt8)

/-- The bits of a string as the register takes them, the lowest bit of each byte first. -/
def bitsOf (bytes : List UInt8) : List Bool :=
  bytes.flatMap fun byte => (List.range 8).map byte.toBitVec.getLsbD

/-- The feedback of the check sequence, the reflected polynomial. -/
def fcsFeedback : BitVec 16 := 0x8408#16

/-- The register of the check sequence behind a string. -/
def fcsRegister (bytes : List UInt8) : BitVec 16 := feed fcsFeedback 0xFFFF#16 (bitsOf bytes)

theorem crcEntry_eq : (crcEntry byte).toBitVec = (shift fcsFeedback)^[8] (byte.toBitVec.setWidth 16) := by
  have all : ∀ n : Fin 256, (crcEntry (UInt8.ofNat n)).toBitVec =
      (shift fcsFeedback)^[8] ((UInt8.ofNat n).toBitVec.setWidth 16) := by decide +kernel
  simpa using all ⟨byte.toNat, byte.toNat_lt⟩

theorem word_bitsOf : (word (bitsOf [byte]) : BitVec 16) = byte.toBitVec.setWidth 16 := by
  apply BitVec.eq_of_getLsbD_eq
  intro i inside
  rw [getLsbD_word inside, BitVec.getLsbD_setWidth]
  by_cases low : i < 8
  · simp [bitsOf, low, inside]
  · simp [bitsOf, low, BitVec.getLsbD_of_ge byte.toBitVec i (by omega)]

/-- One round of the loop takes the bits of a byte into the register. -/
theorem fcs_round (fcs : UInt16) (byte : UInt8) :
    ((fcs >>> 8) ^^^ crcEntry (fcs.toUInt8 ^^^ byte)).toBitVec = feed fcsFeedback fcs.toBitVec (bitsOf [byte]) := by
  have parts : fcs.toBitVec ^^^ byte.toBitVec.setWidth 16 =
      (fcs.toBitVec.setWidth 8 ^^^ byte.toBitVec).setWidth 16 ^^^ ((fcs.toBitVec >>> 8) <<< 8) := by
    apply BitVec.eq_of_getLsbD_eq
    intro i inside
    by_cases low : i < 8
    · simp [low, inside]
    · simp [low, inside, show 8 + (i - 8) = i by omega, BitVec.getLsbD_of_ge byte.toBitVec i (by omega)]
  have clear : ∀ i, 16 - 8 ≤ i → (fcs.toBitVec >>> 8).getLsbD i = false := by
    intro i outside
    rw [BitVec.getLsbD_ushiftRight]
    exact BitVec.getLsbD_of_ge _ _ (by omega)
  have short : (bitsOf [byte]).length = 8 := by simp [bitsOf]
  rw [feed_eq (by rw [short]; decide), word_bitsOf, short, parts, iterate_shift_xor, iterate_shift_shiftLeft clear,
    UInt16.toBitVec_xor, crcEntry_eq, BitVec.xor_comm]
  rfl

theorem bitsOf_append (more : List UInt8) : bitsOf (bytes ++ more) = bitsOf bytes ++ bitsOf more :=
  List.flatMap_append

theorem hdlcFcs16_eq : (hdlcFcs16 bytes).toBitVec = fcsRegister bytes ^^^ 0xFFFF#16 := by
  have loop (fcs : UInt16) :
      (bytes.foldl (fun (fcs : UInt16) (byte : UInt8) => (fcs >>> 8) ^^^ crcEntry (fcs.toUInt8 ^^^ byte)) fcs).toBitVec =
        feed fcsFeedback fcs.toBitVec (bitsOf bytes) := by
    induction bytes generalizing fcs with
    | nil => rfl
    | cons byte bytes ih =>
      rw [List.foldl_cons, ih, fcs_round, ← feed_append, ← bitsOf_append]
      rfl
  rw [hdlcFcs16, UInt16.toBitVec_xor, loop]
  rfl

theorem length_bitsOf : (bitsOf bytes).length = 8 * bytes.length := by
  simp [bitsOf, List.length_flatMap, Nat.mul_comm]

/-- The check sequences of a string and of the string with the first byte of its check sequence behind it never overlap:
the second does not start with the rest of the first. -/
theorem hdlcFcs16_overlap :
    (hdlcFcs16 (bytes ++ [(hdlcFcs16 bytes).toUInt8])).toUInt8 ≠ (hdlcFcs16 bytes >>> 8).toUInt8 := by
  simp only [hdlcFcs16, List.foldl_append, List.foldl_cons, List.foldl_nil]
  generalize bytes.foldl _ _ = fcs
  have index : fcs.toUInt8 ^^^ (fcs ^^^ 0xFFFF).toUInt8 = 0xFF := by
    rw [UInt16.toUInt8_xor, ← UInt8.xor_assoc, UInt8.xor_self, UInt8.zero_xor]
    rfl
  rw [index]
  intro same
  -- the table's last entry has bit 3 set in its low byte
  have bit := congrArg (·.toBitVec.getLsbD 3) same
  simp [show crcEntry 0xFF = 0x0F78 from rfl] at bit

/-- A string with its own check sequence behind it always leaves the same in the register. -/
theorem fcsRegister_checked :
    fcsRegister (bytes ++ fcsBytes (hdlcFcs16 bytes)) = (shift fcsFeedback)^[16] 0xFFFF#16 := by
  have short : (bitsOf (fcsBytes (hdlcFcs16 bytes))).length = 16 := by simp [bitsOf, fcsBytes]
  have sequence : (word (bitsOf (fcsBytes (hdlcFcs16 bytes))) : BitVec 16) = (hdlcFcs16 bytes).toBitVec := by
    generalize hdlcFcs16 bytes = fcs
    apply BitVec.eq_of_getLsbD_eq
    intro i inside
    rw [getLsbD_word inside, List.getD_eq_getElem?_getD]
    change ((bitsOf [fcs.toUInt8] ++ bitsOf [(fcs >>> 8).toUInt8])[i]?).getD false = _
    by_cases low : i < 8
    · rw [List.getElem?_append_left (by simpa [length_bitsOf] using low)]
      simp [bitsOf, low]
    · rw [List.getElem?_append_right (by simpa [length_bitsOf] using low)]
      simp [bitsOf, show i - 8 < 8 by omega, show 8 + (i - 8) = i by omega]
  rw [fcsRegister, bitsOf_append, feed_append, feed_eq short.le, short, sequence, hdlcFcs16_eq, ← BitVec.xor_assoc]
  change (shift fcsFeedback)^[16] (fcsRegister bytes ^^^ fcsRegister bytes ^^^ _) = _
  rw [BitVec.xor_self, BitVec.zero_xor]

theorem bitsOf_xor {bytes noise : List UInt8} (same : noise.length = bytes.length) :
    bitsOf (List.zipWith (· ^^^ ·) bytes noise) = List.zipWith xor (bitsOf bytes) (bitsOf noise) := by
  induction bytes generalizing noise with
  | nil => rfl
  | cons byte bytes ih =>
    obtain ⟨error, noise, rfl⟩ := List.exists_cons_of_length_eq_add_one same
    change (List.range 8).map _ ++ bitsOf _ = List.zipWith xor ((List.range 8).map _ ++ bitsOf _) (_ ++ bitsOf _)
    rw [ih (by simpa using same), List.zipWith_append (by simp), List.zipWith_map, List.zipWith_self]
    congr 1
    simp

/-- The difference of two strings that both end in their check sequence is no burst of at most 16 bits. -/
theorem no_burst_between_checked {bytes bytes' noise : List UInt8} {start : ℕ}
    (same : noise.length = (bytes ++ fcsBytes (hdlcFcs16 bytes)).length)
    (changed : bytes' ++ fcsBytes (hdlcFcs16 bytes') =
      List.zipWith (· ^^^ ·) (bytes ++ fcsBytes (hdlcFcs16 bytes)) noise)
    (burst : ∀ i, (bitsOf noise)[i]? = some true → start ≤ i ∧ i < start + 16) : true ∉ bitsOf noise := by
  intro some
  have seen := feed_burst_ne_zero (show fcsFeedback.getLsbD (16 - 1) = true by decide) burst some
  have register : fcsRegister (bytes' ++ fcsBytes (hdlcFcs16 bytes')) =
      fcsRegister (bytes ++ fcsBytes (hdlcFcs16 bytes)) ^^^ feed fcsFeedback 0 (bitsOf noise) := by
    rw [changed, fcsRegister, bitsOf_xor same]
    have length : (bitsOf noise).length = (bitsOf (bytes ++ fcsBytes (hdlcFcs16 bytes))).length := by
      rw [length_bitsOf, length_bitsOf, same]
    exact feed_xor (s := 0xFFFF#16) (t := 0#16) length
  rw [fcsRegister_checked, fcsRegister_checked] at register
  apply seen
  calc feed fcsFeedback 0 (bitsOf noise)
      = (shift fcsFeedback)^[16] 0xFFFF#16 ^^^ ((shift fcsFeedback)^[16] 0xFFFF#16 ^^^ feed fcsFeedback 0 (bitsOf noise)) := by
        rw [← BitVec.xor_assoc, BitVec.xor_self, BitVec.zero_xor]
    _ = 0 := by rw [← register, BitVec.xor_self]; rfl

end OpenSpodes
