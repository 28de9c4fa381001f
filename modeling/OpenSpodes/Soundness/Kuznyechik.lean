import Mathlib.Tactic.IntervalCases
import OpenSpodes.Model.Kuznyechik
import OpenSpodes.ToMathlib.ByteField
import OpenSpodes.ToMathlib.XorStream

/-! # The modes of the Kuznyechik cipher

Counter mode is its own inverse, so what the transport AEAD has sealed is opened in all four modes, and with a tag only
by that tag. CMAC is compared with its definition: the loop of the source takes whole blocks by index and looks at the
length first, the definition takes the message from the front and looks at what is left. The linear layer moves an
index where its definition moves the bytes.
-/

namespace OpenSpodes.Kuznyechik

open Bytes ByteField

variable {af plain : List UInt8} {sc : UInt8} {iv : Vector UInt8 12}

/-! ## Counter mode and the transport AEAD -/

theorem ctr_eq_xorBlocks (key : Vector UInt8 32) (iv : Vector UInt8 12) (input : List UInt8) :
    gostKuznyechikCtr key iv input = xorBlocks 16
      (fun b => (kuzEncryptBlock (kuzExpand key) (blockOf (iv.toList ++ beBytes 4 (b + 1)))).toList) input :=
  rfl

theorem ctr_length (key : Vector UInt8 32) (iv : Vector UInt8 12) (input : List UInt8) :
    (gostKuznyechikCtr key iv input).length = input.length := by
  rw [ctr_eq_xorBlocks]
  exact length_xorBlocks (by decide) (fun _ => Vector.length_toList) input

theorem ctr_ctr (key : Vector UInt8 32) (iv : Vector UInt8 12) (input : List UInt8) :
    gostKuznyechikCtr key iv (gostKuznyechikCtr key iv input) = input := by
  rw [ctr_eq_xorBlocks, ctr_eq_xorBlocks]
  exact xorBlocks_twice (by decide) (fun _ => Vector.length_toList) input

/-- A tag is built for everything that fits the work buffer. -/
theorem kuznBuildTag_some (kM : Vector UInt8 32) (iv : Vector UInt8 12) (sc : UInt8) {data : List UInt8}
    (header : af.length ≤ 512) (fits : data.length ≤ 1024) :
    ∃ tag, kuznBuildTag kM iv sc af data = some tag ∧ tag.length = 12 := by
  have room : ¬12 + 1 + af.length + data.length > 12 + 1 + 512 + 1024 := by omega
  refine ⟨_, by rw [kuznBuildTag, if_neg room], ?_⟩
  simp [gostKuznyechikCmac96]

/-- What is sealed is opened, and where there is a tag only by that tag. -/
theorem aead_opens (kEm : Vector UInt8 64) (iv : Vector UInt8 12) (sc : UInt8) (auth encr : Bool)
    (header : af.length ≤ 512) (present : 0 < plain.length) (fits : plain.length ≤ 1024) :
    ∃ out tag, gostKuznAeadEncrypt kEm iv sc af plain auth encr = some (out, tag) ∧ out.length = plain.length ∧
      tag.length = (if auth then 12 else 0) ∧ ∀ offered, gostKuznAeadDecrypt kEm iv sc af out auth encr offered =
        if auth = true ∧ offered ≠ tag then .error (-2) else .ok plain := by
  have length := ctr_length (keyEncr kEm) iv plain
  have nonempty : ¬plain = [] := List.ne_nil_of_length_pos present
  cases auth with
  | true =>
    cases encr with
    | true =>
      obtain ⟨tag, built, twelve⟩ := kuznBuildTag_some (keyMac kEm) iv sc header (length.trans_le fits)
      refine ⟨_, tag, by simp [gostKuznAeadEncrypt, built], length, twelve, fun offered => ?_⟩
      simp [gostKuznAeadDecrypt, built, ctr_ctr, eq_comm]
    | false =>
      obtain ⟨tag, built, twelve⟩ := kuznBuildTag_some (keyMac kEm) iv sc header fits
      refine ⟨_, tag, by simp [gostKuznAeadEncrypt, built], rfl, twelve, fun offered => ?_⟩
      simp [gostKuznAeadDecrypt, built, eq_comm]
  | false =>
    cases encr with
    | true => exact ⟨_, [], rfl, length, rfl, fun _ => by simp [gostKuznAeadDecrypt, ctr_ctr]⟩
    | false => exact ⟨plain, [], by simp [gostKuznAeadEncrypt, nonempty], rfl, rfl, by simp [gostKuznAeadDecrypt, nonempty]⟩

/-- Decryption returns what was encrypted, in every mode, and no other tag is accepted. -/
theorem kuzn_aead_round_trip (kEm : Vector UInt8 64) (iv : Vector UInt8 12) (sc : UInt8) (af plain : List UInt8)
    (auth encr : Bool) (header : af.length ≤ 512) (present : 1 ≤ plain.length) (fits : plain.length ≤ 1024) :
    ∃ out tag, gostKuznAeadEncrypt kEm iv sc af plain auth encr = some (out, tag) ∧
      gostKuznAeadDecrypt kEm iv sc af out auth encr tag = .ok plain ∧
      (auth = true → tag.length = 12 ∧ ∀ other : List UInt8, other.length = 12 → other ≠ tag →
        ∃ code, code ≠ 0 ∧ gostKuznAeadDecrypt kEm iv sc af out auth encr other = .error code) := by
  obtain ⟨out, tag, encrypted, -, length, opens⟩ := aead_opens kEm iv sc auth encr header present fits
  refine ⟨out, tag, encrypted, by simp [opens], fun authenticated => ⟨by simp [length, authenticated], ?_⟩⟩
  intro other _ different
  exact ⟨-2, by decide, by rw [opens, if_pos ⟨authenticated, different⟩]⟩

theorem kuzn_aead_round_trip_short : ∃ out tag,
    gostKuznAeadEncrypt (Vector.replicate 64 1) (Vector.replicate 12 2) 0x30 [3] [4, 5] true true = some (out, tag) ∧
      gostKuznAeadDecrypt (Vector.replicate 64 1) (Vector.replicate 12 2) 0x30 [3] out true true tag = .ok [4, 5] := by
  obtain ⟨out, tag, encrypted, opened, -⟩ := kuzn_aead_round_trip (Vector.replicate 64 1) (Vector.replicate 12 2) 0x30
    [3] [4, 5] true true (by decide) (by decide) (by decide)
  exact ⟨out, tag, encrypted, opened⟩

/-! ## CMAC -/

/-- Coefficient `k` of a block that is read as a polynomial over the field of two elements, first byte highest. -/
def coeff (block : KuzBlock) (k : ℕ) : Bool := block[15 - k / 8].toBitVec.getLsbD (k % 8)

/-- Multiplication by the indeterminate modulo the polynomial of degree 128 whose lower coefficients are those of `0x87`. -/
def Doubles (block double : KuzBlock) : Prop := ∀ k < 128,
  coeff double k = ((decide (0 < k) && coeff block (k - 1)) ^^ (coeff block 127 && Nat.testBit 0x87 k))

/-- CMAC of what is left of a message, behind the blocks that `state` stands for. -/
def cmac (encrypt : KuzBlock → KuzBlock) (k1 k2 state : KuzBlock) (message : List UInt8) : KuzBlock :=
  if 16 < message.length then cmac encrypt k1 k2 (encrypt (kuzXor state (blockOf message))) (message.drop 16)
  else if message.length = 16 then encrypt (kuzXor state (kuzXor (blockOf message) k1))
  else encrypt (kuzXor state (kuzXor (blockOf (message ++ [0x80])) k2))
termination_by message.length

theorem msb_iff (byte : UInt8) : byte >>> 7 ≠ 0 ↔ byte.toBitVec[7] = true := by
  rw [ne_eq, ← UInt8.toBitVec_inj, UInt8.toBitVec_shiftRight]
  generalize byte.toBitVec = bits
  revert bits
  decide +kernel

theorem doubles_kuzDbl (block : KuzBlock) : Doubles block (kuzDbl block) := by
  intro k bound
  by_cases low : k < 8
  · interval_cases k <;> simp [coeff, kuzDbl, msb_iff, Vector.get] <;> cases block[0].toBitVec[7] <;> rfl
  · have inner : 15 - k / 8 < 15 := by omega
    have none : Nat.testBit 0x87 k = false := by
      apply Nat.testBit_lt_two_pow
      exact lt_of_lt_of_le (show 0x87 < 2 ^ 8 by decide) (Nat.pow_le_pow_right (by decide) (by omega))
    have positive : 0 < k := by omega
    simp only [coeff, kuzDbl, Vector.get, none, positive]
    rcases Nat.eq_zero_or_pos (k % 8) with first | later
    · have above : 15 - k / 8 + 1 = 15 - (k - 1) / 8 := by omega
      have top : (k - 1) % 8 = 7 := by omega
      simp [inner, first, above, top]
    · have same : 15 - (k - 1) / 8 = 15 - k / 8 := by omega
      have next : (k - 1) % 8 = k % 8 - 1 := by omega
      have beyond : block[15 - k / 8 + 1].toBitVec.getLsbD (7 + k % 8) = false := BitVec.getLsbD_of_ge _ _ (by omega)
      simpa [inner, same, next, beyond, Nat.mod_lt, later.ne'] using (BitVec.getLsbD_eq_getElem (by omega)).symm

theorem cmac_eq_foldl (encrypt : KuzBlock → KuzBlock) (k1 k2 state : KuzBlock) (message : List UInt8) :
    cmac encrypt k1 k2 state message = encrypt (kuzXor ((List.range ((message.length - 1) / 16)).foldl
        (fun state b => encrypt (kuzXor state (blockOf (message.drop (16 * b))))) state)
      (cmacLast k1 k2 (message.drop (16 * ((message.length - 1) / 16))))) := by
  induction length : (message.length - 1) / 16 generalizing state message with
  | zero =>
    have short : ¬16 < message.length := by omega
    rw [cmac, if_neg short, cmacLast]
    simp only [List.range_zero, List.foldl_nil, Nat.mul_zero, List.drop_zero]
    split <;> rfl
  | succ n ih =>
    have long : 16 < message.length := by omega
    have rest := ih (encrypt (kuzXor state (blockOf message))) (message.drop 16) (by rw [List.length_drop]; omega)
    have index (b : ℕ) : 16 + 16 * b = 16 * (b + 1) := by omega
    simp only [List.drop_drop, index] at rest
    rw [cmac, if_pos long, rest, List.range_succ_eq_map, List.foldl_cons, List.foldl_map]
    rfl

/-- CMAC of every message, with the doublings of the encrypted zero block as masks. -/
theorem gostKuznyechikCmac_standard (key : Vector UInt8 32) (data : List UInt8) :
    let encrypt := kuzEncryptBlock (kuzExpand key)
    ∃ k1 k2, Doubles (encrypt (Vector.replicate 16 0)) k1 ∧ Doubles k1 k2 ∧
      gostKuznyechikCmac key data = cmac encrypt k1 k2 (Vector.replicate 16 0) data := by
  refine ⟨_, _, doubles_kuzDbl _, doubles_kuzDbl _, ?_⟩
  have blocks : (if data.length = 0 then 1 else (data.length + 15) / 16) - 1 = (data.length - 1) / 16 := by
    split <;> omega
  rw [cmac_eq_foldl, gostKuznyechikCmac]
  simp only [blocks]

/-! ## The linear layer -/

/-- The linear combination of a register's bytes, in the field modulo `x⁸ + x⁷ + x⁶ + x + 1`. -/
def combination (r : KuzBlock) : UInt8 :=
  let l := mul 0xC3
  l 148 r[0]! ^^^ l 32 r[1]! ^^^ l 133 r[2]! ^^^ l 16 r[3]! ^^^ l 194 r[4]! ^^^ l 192 r[5]! ^^^ l 1 r[6]! ^^^ l 251 r[7]!
    ^^^ l 1 r[8]! ^^^ l 192 r[9]! ^^^ l 194 r[10]! ^^^ l 16 r[11]! ^^^ l 133 r[12]! ^^^ l 32 r[13]! ^^^ l 148 r[14]! ^^^ l 1 r[15]!

/-- The map `R`: the combination comes in at the front, and every byte moves on by one place. -/
def registerStep (r : KuzBlock) : KuzBlock :=
  Vector.ofFn fun i => if i.val = 0 then combination r else r[i.val - 1]!

/-- The tables of products and their constants. -/
def products : List (UInt8 × ByteTable) :=
  [(148, kuznGft148), (32, kuznGft32), (133, kuznGft133), (16, kuznGft16), (194, kuznGft194), (192, kuznGft192),
    (251, kuznGft251)]

theorem products_lookup : ∀ product ∈ products, ∀ b, product.2.lookup b = mul 0xC3 product.1 b := by
  have table {t : ByteTable} {c : UInt8} (all : ∀ b : Fin 256, t.lookup (.ofFin b) = mul 0xC3 c (.ofFin b))
      (b : UInt8) : t.lookup b = mul 0xC3 c b := all b.toFin
  simp only [products, List.forall_mem_cons, List.not_mem_nil, false_imp_iff, implies_true, and_true]
  refine ⟨table ?_, table ?_, table ?_, table ?_, table ?_, table ?_, table ?_⟩ <;> decide +kernel

/-- The register that lies in a block after `i` steps: its front is `i` places before the end. -/
def rotated (block : KuzBlock) (i : Fin 16) : KuzBlock := Vector.ofFn fun b => block.get (kuzGetIdx b i)

theorem combination_rotated (block : KuzBlock) (i : Fin 16) :
    (kuzLStep block i).get (kuzGetIdx 15 i) = combination (rotated block i) := by
  have tables := products_lookup
  simp only [products, List.forall_mem_cons] at tables
  obtain ⟨h148, h32, h133, h16, h194, h192, h251, -⟩ := tables
  change (kuzLStep block i)[(kuzGetIdx 15 i).val] = _
  rw [kuzLStep, Vector.getElem_set_self]
  simp (disch := decide) only [kuzTable, h148, h32, h133, h16, h194, h192, h251, combination, rotated, getElem!_pos,
    Vector.getElem_ofFn, ByteField.one_mul]
  ac_rfl

/-- A step in place is a step of the register. -/
theorem rotated_kuzLStep (block : KuzBlock) (i : Fin 16) :
    rotated (kuzLStep block i) (i + 1) = registerStep (rotated block i) := by
  apply Vector.ext
  intro b inside
  rw [rotated, registerStep, Vector.getElem_ofFn, Vector.getElem_ofFn]
  have place : kuzGetIdx ⟨b, inside⟩ (i + 1) = kuzGetIdx (⟨b, inside⟩ - 1) i := by
    generalize (⟨b, inside⟩ : Fin 16) = b
    revert b i
    decide
  rw [place]
  dsimp only
  by_cases front : b = 0
  · subst front
    rw [if_pos rfl, ← combination_rotated]
    rfl
  · have before : (⟨b, inside⟩ - 1 : Fin 16) = ⟨b - 1, by omega⟩ := by
      apply Fin.ext
      rw [Fin.sub_def]
      simp
      omega
    have elsewhere : (kuzGetIdx 15 i).val ≠ (kuzGetIdx ⟨b - 1, by omega⟩ i).val := by
      have apart : ∀ a i : Fin 16, a ≠ 15 → (kuzGetIdx 15 i).val ≠ (kuzGetIdx a i).val := by decide
      exact apart _ i (by simp [Fin.ext_iff]; omega)
    rw [if_neg front, before, getElem!_pos _ _ (by omega), rotated, Vector.getElem_ofFn]
    exact Vector.getElem_set_ne (kuzGetIdx 15 i).isLt _ elsewhere

theorem rotated_zero (block : KuzBlock) : rotated block 0 = block := by
  have same : ∀ b : Fin 16, kuzGetIdx b 0 = b := by decide
  apply Vector.ext
  intro b inside
  rw [rotated, Vector.getElem_ofFn, same]
  rfl

theorem rotated_steps (block : KuzBlock) (n : ℕ) :
    rotated ((List.range n).foldl (fun block i => kuzLStep block (Fin.ofNat 16 i)) block) (Fin.ofNat 16 n) =
      registerStep^[n] block := by
  induction n with
  | zero => exact rotated_zero block
  | succ n ih =>
    have next : Fin.ofNat 16 (n + 1) = Fin.ofNat 16 n + 1 := by
      apply Fin.ext
      simp [Fin.val_add]
    rw [List.range_succ, List.foldl_append, List.foldl_cons, List.foldl_nil, next, rotated_kuzLStep, ih,
      Function.iterate_succ_apply']

/-- The tables hold products, and the steps in place compute what sixteen applications of `R` do. -/
theorem linear_layer_refines :
    (∀ product ∈ products, ∀ b, product.2.lookup b = mul 0xC3 product.1 b) ∧
      (∀ block : KuzBlock, (List.finRange 16).foldl kuzLStep block = registerStep^[16] block) ∧
      ∀ block key : KuzBlock, kuzLsx block key = registerStep^[16] ((kuzXor block key).map kuznP.lookup) := by
  have all : List.finRange 16 = (List.range 16).map (Fin.ofNat 16) := by decide
  have steps (block : KuzBlock) : (List.finRange 16).foldl kuzLStep block = registerStep^[16] block := by
    rw [all, List.foldl_map, ← rotated_steps]
    exact (rotated_zero _).symm
  refine ⟨products_lookup, steps, fun block key => ?_⟩
  rw [kuzLsx, steps]

end OpenSpodes.Kuznyechik
