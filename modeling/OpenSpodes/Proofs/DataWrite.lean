import OpenSpodes.Proofs.Codec
import OpenSpodes.Spec.Data

/-! # Values are written as the data they stand for

`valueWrite` follows the places of a value's items. Where the places hold the items of a tree of
sized parts, it writes the encoding of the tree, or fails if there is no room for it.
-/

namespace OpenSpodes

open Bytes Machine.Fallible

theorem axdrWriteU8_writes (byte : UInt8) : Writes (axdrWriteU8 byte) [byte] := writeBytes_writes _ _

theorem dlmsWriteLen_writes (len : ℕ) : Writes (dlmsWriteLen len) (dlmsLenBytes len) := writeBytes_writes _ _

theorem scalarWrite_writes (kind : ScalarKind) (content : ℕ) :
    Writes (scalarWrite kind content) (scalarBytes kind content) := by
  cases kind
  case datetime =>
    exact (writeBytes_writes _ _).andThen ((writeBytes_writes _ _).andThen (writeBytes_writes _ _))
  all_goals exact writeBytes_writes _ _

mutual

theorem Data.Fits.sized : ∀ {data : Data}, data.Fits → data.Sized
  | .null, fits | .scalar _ _, fits | .string _ _, fits | .bits _ _, fits => fits
  | .nest kind _, fits => by
      refine ⟨fits.1.trans ?_, Data.FitAll.sized fits.2⟩
      cases kind <;> decide

theorem Data.FitAll.sized : ∀ {items : List Data}, Data.FitAll items → Data.SizedAll items
  | [], _ => trivial
  | _ :: _, fits => ⟨Data.Fits.sized fits.1, Data.FitAll.sized fits.2⟩

end

mutual

theorem Data.Held.writes {region : Set ℕ} {pool : Pool} : ∀ {data : Data} {value : Value} {fuel : ℕ},
    data.Held region pool.slots value → data.Sized → data.slots < fuel →
    Writes (valueWriteImpl pool fuel value) data.encode
  | _, _, 0, _, _, deep => absurd deep (Nat.not_lt_zero _)
  | .null, _, _ + 1, held, _, _ => by
      obtain rfl := held
      exact axdrWriteU8_writes 0
  | .scalar kind content, _, _ + 1, held, _, _ => by
      obtain rfl := held
      exact (axdrWriteU8_writes kind.tag).andThen (scalarWrite_writes kind content)
  | .string kind bytes, _, fuel + 1, held, _, _ => by
      obtain rfl := held
      have behind := (dlmsWriteLen_writes bytes.length).andThen (writeBytes_writes bytes .nomem)
      cases kind <;> exact (axdrWriteU8_writes _).andThen behind
  | .bits bytes count, _, fuel + 1, held, sized, _ => by
      obtain ⟨stored, rfl, same⟩ := held
      obtain ⟨few, length⟩ := sized
      have numBytes : (count + 7) % 2 ^ 32 / 8 = bytes.length := by omega
      have unused : (bytes.length * 8 + 2 ^ 32 - count) % 2 ^ 32 = bytes.length * 8 - count := by omega
      have behind := (dlmsWriteLen_writes (1 + bytes.length)).andThen
        (writeBytes_writes ([UInt8.ofNat (bytes.length * 8 - count)] ++ bytes) .nomem)
      simp only [valueWriteImpl, numBytes, unused, same]
      exact (axdrWriteU8_writes 4).andThen behind
  | .nest kind items, _, fuel + 1, held, sized, deep => by
      obtain ⟨start, rfl, all⟩ := held
      have behind := (dlmsWriteLen_writes items.length).andThen
        (Data.HeldAll.writes all sized.2 (Nat.lt_succ_iff.mp deep))
      cases kind <;> exact (axdrWriteU8_writes _).andThen behind

theorem Data.HeldAll.writes {region : Set ℕ} {pool : Pool} : ∀ {items : List Data} {pos fuel : ℕ},
    Data.HeldAll region pool.slots items pos → Data.SizedAll items → items.length + Data.slotsAll items ≤ fuel →
    Writes (writeItems (valueWriteImpl pool fuel) pool.slots items.length pos) (Data.encodeAll items)
  | [], _, _, _, _, _ => .pure
  | item :: items, pos, fuel, held, sized, deep => by
      rw [List.length_cons, Data.slotsAll] at deep
      exact (Data.Held.writes held.2.1 sized.1 (by omega)).andThen
        (Data.HeldAll.writes held.2.2 sized.2 (by omega))

end

/-- A value is written as the data it stands for. -/
theorem Value.Denotes.writes {memory : Pool} {value : Value} {data : Data} (denotes : value.Denotes memory data)
    (fits : data.Fits) (few : data.slots ≤ poolLen) : Writes (valueWrite memory value) data.encode :=
  Data.Held.writes denotes fits.sized (by omega)

end OpenSpodes
