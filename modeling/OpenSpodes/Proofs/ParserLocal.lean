import OpenSpodes.Proofs.FrameCheck
import OpenSpodes.Proofs.FrameStream

/-! # What the frame parser reads

The parser of a session works on a memory of which only the first bytes were received. It looks at those alone: a frame
with a single byte between its control field and its check sequence would make the decoder read an information field
that runs past the frame, but its two check sequences overlap and are never both right. So two memories that agree in
the received bytes are parsed alike.
-/

namespace OpenSpodes

open Bytes

variable {mem : List UInt8} {len : ℕ}

/-- An information field that stays within the first bytes of an area. -/
theorem hdlcInfo_take {fcsStart pos : ℕ} (held : len ≤ mem.length) (inside : fcsStart ≤ len)
    (before : pos ≤ fcsStart) (short : fcsStart < 2 ^ 16) :
    hdlcInfo (mem.take len) fcsStart pos = hdlcInfo mem fcsStart pos := by
  have length : (fcsStart + 2 ^ 16 - pos) % 2 ^ 16 = fcsStart - pos := by
    rw [show fcsStart + 2 ^ 16 - pos = fcsStart - pos + 2 ^ 16 by omega, Nat.add_mod_right]
    exact Nat.mod_eq_of_lt (by omega)
  rw [hdlcInfo, hdlcInfo, length, padTo, padTo, List.drop_take, List.take_take, List.length_take, List.length_drop]
  congr 1
  · congr 1
    omega
  · congr 1
    omega

/-- A header check sequence that runs into the frame's is never right together with it. -/
theorem checks_overlap {pos : ℕ} (held : pos + 1 < mem.length)
    (header : fcsBytes (hdlcFcs16 ((mem.drop 1).take pos)) = fcsAt mem (pos + 1))
    (frame : fcsBytes (hdlcFcs16 ((mem.drop 1).take (pos + 1))) = fcsAt mem (pos + 2)) : False := by
  rw [fcsBytes, fcsAt, List.cons.injEq, List.cons.injEq] at header frame
  have longer : (mem.drop 1).take (pos + 1) = (mem.drop 1).take pos ++ [(hdlcFcs16 ((mem.drop 1).take pos)).toUInt8] := by
    rw [header.1, List.take_add_one, List.getElem?_drop, Nat.add_comm 1 pos, List.getElem?_eq_getElem held]
    simp [held]
  rw [longer] at frame
  exact hdlcFcs16_overlap _ (frame.1.trans header.2.1.symm)

/-- The decoder reads a frame alone. -/
theorem hdlcDeframe_take (held : len ≤ mem.length) (small : len < 2 ^ 16) :
    hdlcDeframe (mem.take len) len = hdlcDeframe mem len := by
  by_cases short : len < 6
  · simp [hdlcDeframe, short]
  have byte {i : ℕ} (inside : i < len) : (mem.take len).getD i 0 = mem.getD i 0 := by
    simp [List.getD_eq_getElem?_getD, inside]
  have part {n : ℕ} (inside : n ≤ len - 1) : ((mem.take len).drop 1).take n = (mem.drop 1).take n := by
    rw [List.drop_take, List.take_take, min_eq_left inside]
  have front : (mem.take len).take (len - 3) = mem.take (len - 3) := by
    rw [List.take_take, min_eq_left (Nat.sub_le _ _)]
  have fcs {i : ℕ} (inside : i + 1 < len) : fcsAt (mem.take len) i = fcsAt mem i := by
    rw [fcsAt, fcsAt, byte (by omega), byte inside]
  unfold hdlcDeframe
  dsimp only
  simp only [byte (show 0 < len by omega), byte (show len - 1 < len by omega), byte (show 1 < len by omega),
    byte (show 2 < len by omega), part (show len - 4 ≤ len - 1 by omega), fcs (show len - 3 + 1 < len by omega), front]
  generalize hdlcReadAddress 4 ((mem.take (len - 3)).drop 3) = destination
  generalize hdlcReadAddress 4 ((mem.take (len - 3)).drop (3 + destination.length)) = source
  by_cases outside : 3 + destination.length + source.length ≥ len - 3
  · simp only [if_pos outside]
  simp only [if_neg outside, byte (show 3 + destination.length + source.length < len by omega)]
  cases decoded : hdlcControlDecode (mem.getD (3 + destination.length + source.length) 0) with
  | none => rfl
  | some control =>
    by_cases header : 3 + destination.length + source.length + 1 < len - 3
    · simp only [if_pos header, part (show 3 + destination.length + source.length + 1 - 1 ≤ len - 1 by omega),
        fcs (show 3 + destination.length + source.length + 1 + 1 < len by omega)]
      by_cases room : 3 + destination.length + source.length + 1 + 2 ≤ len - 3
      · rw [hdlcInfo_take held (Nat.sub_le _ _) room (by omega)]
      · split_ifs with unframed length frame header
        · rfl
        · rfl
        · rfl
        · rfl
        · -- one byte between control field and check sequence
          have place : len - 3 = 3 + destination.length + source.length + 2 := by omega
          rw [ne_eq, not_not, place, show len - 4 = 3 + destination.length + source.length + 1 by omega] at frame
          exact (checks_overlap (by omega) (not_not.mp header) frame).elim
    · simp only [if_neg header]

/-- Two outcomes of the parser that differ only in what lies behind the received bytes. -/
inductive SameParse (bytes : List UInt8) : Parsed → Parsed → Prop
  | frame {err : Err} {f : HdlcFrame} {rest : List UInt8} (mem mem' : List UInt8) : rest <:+ bytes →
      SameParse bytes (.frame err f (rest ++ mem) rest.length) (.frame err f (rest ++ mem') rest.length)
  | more {part : List UInt8} (mem mem' : List UInt8) : part <:+ bytes →
      SameParse bytes (.more (part ++ mem) part.length) (.more (part ++ mem') part.length)

theorem SameParse.of_suffix {bytes rest : List UInt8} {left right : Parsed} (same : SameParse rest left right)
    (inside : rest <:+ bytes) : SameParse bytes left right := by
  cases same with
  | frame mem mem' suffix => exact .frame mem mem' (suffix.trans inside)
  | more mem mem' suffix => exact .more mem mem' (suffix.trans inside)

/-- The decoder on received bytes, whatever lies behind them. -/
theorem hdlcDeframe_append {bytes : List UInt8} (held : len ≤ bytes.length) (small : len < 2 ^ 16)
    (stale : List UInt8) : hdlcDeframe (bytes ++ stale) len = hdlcDeframe (bytes.take len) len := by
  have front : (bytes ++ stale).take len = bytes.take len := List.take_append_of_le_length held
  rw [← front]
  exact (hdlcDeframe_take (by rw [List.length_append]; omega) small).symm

/-- Memories that agree in the received bytes are parsed alike. -/
theorem sessionParse_local (bytes : List UInt8) (fuel : ℕ) (stale stale' : List UInt8) :
    SameParse bytes (sessionParse fuel (bytes ++ stale) bytes.length)
      (sessionParse fuel (bytes ++ stale') bytes.length) := by
  induction fuel generalizing bytes stale stale' with
  | zero => exact .more stale stale' (List.suffix_refl bytes)
  | succ fuel ih =>
    -- what is before the first flag is dropped
    obtain ⟨skipped, kept, split, found⟩ : ∃ skipped kept, bytes = skipped ++ kept ∧
        bytes.findIdx (· == 0x7E) = skipped.length := by
      refine ⟨bytes.take (bytes.findIdx (· == 0x7E)), bytes.drop (bytes.findIdx (· == 0x7E)), by simp, ?_⟩
      rw [List.length_take, min_eq_left List.findIdx_le_length]
    subst split
    have inside : kept <:+ skipped ++ kept := List.suffix_append _ _
    obtain ⟨mem, moved⟩ := moveFront_append skipped kept stale
    obtain ⟨mem', moved'⟩ := moveFront_append skipped kept stale'
    have total : (skipped ++ kept).length - skipped.length = kept.length := by simp
    rw [sessionParse, sessionParse]
    simp only [List.take_left, found, moved, moved', total]
    by_cases few : kept.length < 3
    · rw [if_pos few, if_pos few]
      exact .more mem mem' inside
    simp only [if_neg few, getD_append (show 1 < kept.length by omega), getD_append (show 2 < kept.length by omega)]
    generalize length : 1 + ((kept.getD 1 0 &&& 7).toNat * 256 + (kept.getD 2 0).toNat) + 1 = need
    -- a byte that does not start a frame is dropped, and the search goes on
    have again : SameParse (skipped ++ kept) (sessionParse fuel (moveFront (kept ++ mem) 1 kept.length) (kept.length - 1))
        (sessionParse fuel (moveFront (kept ++ mem') 1 kept.length) (kept.length - 1)) := by
      obtain ⟨flag, rest, rfl⟩ := List.exists_cons_of_length_pos (show 0 < kept.length by omega)
      have behind : rest <:+ skipped ++ flag :: rest := (List.suffix_cons flag rest).trans inside
      obtain ⟨left, moved⟩ := moveFront_append [flag] rest mem
      obtain ⟨right, moved'⟩ := moveFront_append [flag] rest mem'
      have searched := (ih rest left right).of_suffix behind
      rwa [← moved, ← moved'] at searched
    by_cases other : kept.getD 1 0 &&& 0xF0 ≠ 0xA0 ∨ need > sessionBufSize
    · rw [if_pos other, if_pos other]
      exact again
    rw [if_neg other, if_neg other]
    by_cases unfinished : kept.length < need
    · rw [if_pos unfinished, if_pos unfinished]
      exact .more mem mem' inside
    rw [if_neg unfinished, if_neg unfinished]
    simp only [getD_append (show need - 1 < kept.length by omega)]
    by_cases unmarked : kept.getD (need - 1) 0 ≠ 0x7E
    · rw [if_pos unmarked, if_pos unmarked]
      exact again
    rw [if_neg unmarked, if_neg unmarked]
    have size : sessionBufSize = 1088 := rfl
    rw [hdlcDeframe_append (by omega) (by omega) mem, hdlcDeframe_append (by omega) (by omega) mem']
    generalize hdlcDeframe (kept.take need) need = read
    obtain ⟨err, f⟩ := read
    by_cases behind : kept.length > need
    · obtain ⟨left, moved⟩ := moveFront_append (kept.take need) (kept.drop need) mem
      obtain ⟨right, moved'⟩ := moveFront_append (kept.take need) (kept.drop need) mem'
      rw [List.take_append_drop, List.length_take, min_eq_left (by omega)] at moved moved'
      simp only [if_pos behind, moved, moved', ← List.length_drop]
      exact .frame left right ((List.drop_suffix need kept).trans inside)
    · simp only [if_neg behind]
      have nothing : ([] : List UInt8) <:+ skipped ++ kept := List.nil_suffix
      exact SameParse.frame (kept ++ mem) (kept ++ mem') nothing

end OpenSpodes
