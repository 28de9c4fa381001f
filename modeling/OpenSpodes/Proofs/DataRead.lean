import OpenSpodes.Machine.Outcomes
import OpenSpodes.Proofs.DataStore
import OpenSpodes.Proofs.DataWrite
import OpenSpodes.Proofs.ReadLocal

/-! # Encoded data is read back

Reading takes places for items from the pool as it goes: first all places of a list, then, item by item, the
places that each of them needs. So a read returns the value of `Data.store` and leaves its pool, which the induction
over the tree shows for any part of the pool that is still free.
-/

namespace OpenSpodes

open Bytes Machine.Fallible

variable {content : ℕ} {bytes : List UInt8} {b : Buf} {kind : ScalarKind} {count : ℕ}

/-! ## Lengths -/

mutual

/-- An item takes less than 264 bytes. -/
theorem Data.length_encode_le : ∀ {data : Data}, data.Fits → data.encode.length ≤ 264 * (1 + data.slots)
  | .null, _ => show 1 ≤ 264 * (1 + 0) by decide
  | .scalar kind content, _ => by
      cases kind <;> simp [Data.encode, scalarBytes, ScalarKind.size, Data.slots]
  | .string kind bytes, fits => by
      have short : bytes.length ≤ 256 := fits.trans (by cases kind <;> decide)
      have length := dlmsLenBytes_length_le (show bytes.length ≤ 0xFFFF by omega)
      simp only [Data.encode, List.length_cons, List.length_append, Data.slots]
      omega
  | .bits bytes count, fits => by
      have bounded : count ≤ 256 ∧ bytes.length = (count + 7) / 8 := fits
      have length := dlmsLenBytes_length_le (show 1 + bytes.length ≤ 0xFFFF by omega)
      simp only [Data.encode, List.length_cons, List.length_append, Data.slots]
      omega
  | .nest kind items, fits => by
      have few : items.length ≤ 32 := fits.1.trans (by cases kind <;> decide)
      have length := dlmsLenBytes_length_le (show items.length ≤ 0xFFFF by omega)
      have all := Data.length_encodeAll_le fits.2
      simp only [Data.encode, List.length_cons, List.length_append, Data.slots]
      omega

theorem Data.length_encodeAll_le : ∀ {items : List Data}, Data.FitAll items →
    (Data.encodeAll items).length ≤ 264 * (items.length + Data.slotsAll items)
  | [], _ => Nat.zero_le _
  | item :: items, fits => by
      have first := Data.length_encode_le fits.1
      have rest := Data.length_encodeAll_le fits.2
      simp only [Data.encodeAll, List.length_append, List.length_cons, Data.slotsAll]
      omega

end

/-! ## Scalars and strings -/

theorem Takes.uintMod (width n : ℕ) : Takes (axdrReadUint width) (beBytes width n) (n % 256 ^ width) := by
  have read := (Takes.checked (length_beBytes width n) .invalid).map beNat
  rwa [bind_assoc, beNat_beBytes_mod] at read

theorem datetimeRead_of_holds {rest : List UInt8} (fits : content < 256 ^ 9)
    (holds : b.Holds (scalarBytes .datetime content ++ rest)) :
    ∃ c, datetimeRead b = (.ok, content, c) ∧ c.Holds rest := by
  simp only [scalarBytes, List.append_assoc] at holds
  obtain ⟨c, date, behind⟩ := (Takes.uint (show content / 256 ^ 4 < 256 ^ 5 by omega)).reads b _ holds
  obtain ⟨d, time, behind⟩ := (Takes.uintMod 4 content).reads c _ behind
  have room : needUnread 3 .invalid d = .ok () d := behind.needUnread (by simp)
  refine ⟨d.skip 3, ?_, by simpa using behind.skip (n := 3) (by simp)⟩
  simp only [datetimeRead, date, time, room]
  congr 2
  omega

theorem scalarRead_of_holds {rest : List UInt8} (fits : content < scalarBound kind)
    (holds : b.Holds (scalarBytes kind content ++ rest)) :
    ∃ c, scalarRead kind b = (.ok, content, c) ∧ c.Holds rest := by
  cases kind
  case datetime => exact datetimeRead_of_holds fits holds
  case boolean =>
    have fits : content < 2 := fits
    obtain ⟨c, read, behind⟩ := (Takes.uint (show content < 256 ^ 1 by omega)).reads b rest holds
    refine ⟨c, ?_, behind⟩
    simp only [scalarRead, ScalarKind.size, read, if_true]
    congr 2
    omega
  all_goals
    obtain ⟨c, read, behind⟩ := (Takes.uint fits).reads b rest holds
    exact ⟨c, by simp only [scalarRead, read]; rfl, behind⟩

theorem Takes.axdrLength {n : ℕ} (small : n ≤ 0xFFFF) : Takes axdrReadLength (dlmsLenBytes n) n :=
  (Takes.len (by omega)).attempt.last (.pure n)

theorem Takes.string {readLength : Read ℕ} {maxLen : ℕ} {e : Err}
    (length : Takes readLength (dlmsLenBytes bytes.length) bytes.length) (short : bytes.length ≤ maxLen) :
    Takes (stringRead readLength maxLen e) (dlmsLenBytes bytes.length ++ bytes) bytes :=
  length.bind (.check (Nat.not_lt.mpr short) (.checked rfl .invalid))

theorem Takes.bits (few : count ≤ 256) (length : bytes.length = (count + 7) / 8) :
    Takes bitStringRead (dlmsLenBytes (1 + bytes.length) ++ UInt8.ofNat (bytes.length * 8 - count) :: bytes)
      (.bitString bytes count) := by
  have unused : (UInt8.ofNat (bytes.length * 8 - count)).toNat = bytes.length * 8 - count := by
    rw [UInt8.toNat_ofNat']
    omega
  have total : (bytes.length * 8 % 2 ^ 32 + 2 ^ 32 - (bytes.length * 8 - count)) % 2 ^ 32 = count := by omega
  rw [Nat.add_comm 1]
  apply (Takes.axdrLength (by omega)).bind
  apply Takes.needUnread (by simp)
  apply (Takes.nextByte _).bind
  apply Takes.check (by omega)
  apply (Takes.raw bytes).last
  rw [unused, total]
  exact .pure _

/-! ## Trees -/

/-- Reading the data in front of the rest stores it. -/
def Data.Readable (data : Data) (fuel : ℕ) (r : Reader) (rest : List UInt8) : Prop :=
  ∀ old, ∃ c, valueReadImpl fuel old r = ((.ok, (data.store r.pool).1), ⟨c, (data.store r.pool).2⟩) ∧ c.Holds rest

section Values

variable {r : Reader} {rest : List UInt8} {old : Value} {fuel : ℕ} {tag : UInt8}

theorem run_tag {behind : List UInt8} (holds : r.buf.Holds (tag :: behind)) :
    Reader.run axdrReadTag r = (.ok tag, { r with buf := r.buf.skip 1 }) ∧ (r.buf.skip 1).Holds behind :=
  ⟨run_of_ok (Takes.u8 tag _ behind holds.offers), holds.skip (n := 1) (by simp)⟩

theorem readable_null (holds : r.buf.Holds (Data.null.encode ++ rest)) : Data.null.Readable (fuel + 1) r rest := by
  intro old
  obtain ⟨tag, behind⟩ := run_tag holds
  refine ⟨r.buf.skip 1, ?_, behind⟩
  rw [valueReadImpl, stateM_bind_of_eq tag]
  rfl

theorem readable_scalar (fits : content < scalarBound kind)
    (holds : r.buf.Holds ((Data.scalar kind content).encode ++ rest)) :
    (Data.scalar kind content).Readable (fuel + 1) r rest := by
  intro old
  obtain ⟨tag, behind⟩ := run_tag holds
  obtain ⟨c, read, behind⟩ := scalarRead_of_holds fits behind
  refine ⟨c, ?_, behind⟩
  rw [valueReadImpl, stateM_bind_of_eq tag]
  simp only [ScalarKind.ofTag_tag]
  change (((scalarRead kind (r.buf.skip 1)).1, Value.scalar kind (scalarRead kind (r.buf.skip 1)).2.1),
    (⟨(scalarRead kind (r.buf.skip 1)).2.2, r.pool⟩ : Reader)) = _
  rw [read]
  rfl

/-- A string read behind its tag. -/
theorem string_of_ok {make : List UInt8 → Value} {read : Read (List UInt8)} {c : Buf} (ok : read r.buf = .ok bytes c) :
    valueReadImpl.string tag make read r = ((.ok, make bytes), { r with buf := c }) := by
  rw [valueReadImpl.string, stateM_bind_of_eq (run_of_ok (map_of_ok ok))]
  rfl

theorem readable_string {kind : StringKind} (short : bytes.length ≤ kind.maxLen)
    (holds : r.buf.Holds ((Data.string kind bytes).encode ++ rest)) :
    (Data.string kind bytes).Readable (fuel + 1) r rest := by
  intro old
  obtain ⟨tag, behind⟩ := run_tag holds
  have few : bytes.length ≤ 0xFFFF := by
    cases kind <;> simp only [StringKind.maxLen] at short <;> omega
  rw [valueReadImpl, stateM_bind_of_eq tag]
  cases kind
  case octet =>
    obtain ⟨c, read, behind⟩ := (Takes.string (e := .nomem) (.len (by omega)) short).reads _ _ behind
    exact ⟨c, string_of_ok read, behind⟩
  case visible =>
    obtain ⟨c, read, behind⟩ := (Takes.string (e := .nomem) (.len (by omega)) short).reads _ _ behind
    exact ⟨c, string_of_ok read, behind⟩
  case utf8 =>
    obtain ⟨c, read, behind⟩ := (Takes.string (e := .nomem) (.axdrLength few) short).reads _ _ behind
    exact ⟨c, string_of_ok read, behind⟩

theorem readable_bits (fits : (Data.bits bytes count).Fits)
    (holds : r.buf.Holds ((Data.bits bytes count).encode ++ rest)) :
    (Data.bits bytes count).Readable (fuel + 1) r rest := by
  intro old
  obtain ⟨tag, behind⟩ := run_tag holds
  obtain ⟨c, read, behind⟩ := (Takes.bits fits.1 fits.2).reads _ _ behind
  refine ⟨c, ?_, behind⟩
  rw [valueReadImpl, stateM_bind_of_eq tag]
  change (Reader.run bitStringRead >>= _) _ = _
  rw [stateM_bind_of_eq (run_of_ok read)]
  rfl

end Values

/-! ## What is read lies within the limits -/

/-- The data in front of the rest, within the limits and stored. -/
def Data.ReadWithin (data : Data) (fuel : ℕ) (old : Value) (r : Reader) (rest : List UInt8) : Prop :=
  data.Fits ∧ r.pool.used + data.slots ≤ poolLen ∧
    ∃ c, valueReadImpl fuel old r = ((.ok, (data.store r.pool).1), ⟨c, (data.store r.pool).2⟩) ∧ c.Holds rest

mutual

/-- A read that succeeds has found the list limits and the pool large enough; if they are, and the levels too, the
encoding is read back. -/
theorem Data.readWithin : ∀ {data : Data} {fuel : ℕ} {old : Value} {r : Reader} {rest : List UInt8}, data.Sized →
    r.buf.Holds (data.encode ++ rest) → r.pool.used ≤ poolLen → (valueReadImpl fuel old r).1.1 = .ok ∨
      data.Fits ∧ r.pool.used + data.slots ≤ poolLen ∧ data.slots < fuel → data.ReadWithin fuel old r rest
  | _, 0, _, _, _, _, _, _, .inl ok => by cases ok
  | _, 0, _, _, _, _, _, _, .inr within => absurd within.2.2 (Nat.not_lt_zero _)
  | .null, _ + 1, old, _, _, _, holds, room, _ => ⟨trivial, room, readable_null holds old⟩
  | .scalar _ _, _ + 1, old, _, _, sized, holds, room, _ => ⟨sized, room, readable_scalar sized holds old⟩
  | .string _ _, _ + 1, old, _, _, sized, holds, room, _ => ⟨sized, room, readable_string sized holds old⟩
  | .bits _ _, _ + 1, old, _, _, sized, holds, room, _ => ⟨sized, room, readable_bits sized holds old⟩
  | .nest kind items, fuel + 1, old, r, rest, sized, holds, room, reason => by
      have small := sized.1
      simp only [Data.encode, List.cons_append, List.append_assoc] at holds
      obtain ⟨tag, behind⟩ := run_tag holds
      obtain ⟨c, length, behind⟩ := (Takes.len (by omega)).reads _ _ behind
      have read : valueReadImpl (fuel + 1) old r =
          listRead (valueReadImpl fuel) kind.tag kind.maxLen kind.value { r with buf := r.buf.skip 1 } := by
        rw [valueReadImpl, stateM_bind_of_eq tag]
        cases kind <;> rfl
      rw [listRead, stateM_bind_of_eq (run_of_ok length)] at read
      dsimp only at read
      rw [stateM_get_bind] at read
      dsimp only at read
      rw [read, Data.slots] at reason
      obtain ⟨few, free⟩ : items.length ≤ kind.maxLen ∧ r.pool.used + items.length ≤ poolLen := by
        rcases reason with ok | ⟨fits, total, -⟩
        · by_contra exceeds
          rw [if_pos (by omega)] at ok
          cases ok
        · exact ⟨fits.1, by omega⟩
      have keeps : ¬(items.length > kind.maxLen ∨ r.pool.used + items.length > poolLen) := by omega
      rw [if_neg keeps] at reason
      obtain ⟨fits, total, d, readAll, final⟩ := @Data.allReadWithin items r.pool.used fuel ⟨c, r.pool.take items.length⟩
        rest sized.2 behind free (reason.imp id fun within => ⟨within.1.2, by
          change r.pool.used + items.length + _ ≤ _
          omega, by omega⟩)
      refine ⟨⟨few, fits⟩, ?_, d, ?_, final⟩
      · rw [Data.slots, ← Nat.add_assoc]
        exact total
      · rw [read, if_neg keeps, stateM_modify_bind]
        exact stateM_bind_of_eq readAll

theorem Data.allReadWithin : ∀ {items : List Data} {pos fuel : ℕ} {r : Reader} {rest : List UInt8},
    Data.SizedAll items → r.buf.Holds (Data.encodeAll items ++ rest) → r.pool.used ≤ poolLen →
    (readItems (valueReadImpl fuel) items.length pos r).1 = .ok ∨ Data.FitAll items ∧
      r.pool.used + Data.slotsAll items ≤ poolLen ∧ items.length + Data.slotsAll items ≤ fuel →
    Data.FitAll items ∧ r.pool.used + Data.slotsAll items ≤ poolLen ∧
      ∃ d, readItems (valueReadImpl fuel) items.length pos r = (.ok, ⟨d, Data.storeAll items pos r.pool⟩) ∧ d.Holds rest
  | [], _, _, r, _, _, holds, room, _ => ⟨trivial, room, r.buf, rfl, holds⟩
  | item :: items, pos, fuel, r, rest, sized, holds, room, reason => by
      rw [Data.encodeAll, List.append_assoc] at holds
      rw [List.length_cons, Data.slotsAll] at reason
      have first : (valueReadImpl fuel (r.pool.slots pos) r).1.1 = .ok ∨
          item.Fits ∧ r.pool.used + item.slots ≤ poolLen ∧ item.slots < fuel := by
        rcases reason with ok | ⟨fits, total, deep⟩
        · refine .inl (not_not.mp fun failed => ?_)
          change ((if (valueReadImpl fuel (r.pool.slots pos) r).1.1 = .ok then _
            else pure (valueReadImpl fuel (r.pool.slots pos) r).1.1 : StateM Reader Err) _).1 = .ok at ok
          rw [if_neg failed] at ok
          exact failed ok
        · exact .inr ⟨fits.1, by omega, by omega⟩
      obtain ⟨fits, total, c, read, behind⟩ := Data.readWithin sized.1 holds room first
      have used := Data.store_used item r.pool
      have step : readItems (valueReadImpl fuel) (items.length + 1) pos r = readItems (valueReadImpl fuel) items.length
          (pos + 1) ⟨c, (item.store r.pool).2.put pos (item.store r.pool).1⟩ := by
        rw [readItems, stateM_get_bind, stateM_bind_of_eq read]
        rfl
      rw [step] at reason
      obtain ⟨fitAll, totalAll, d, readAll, final⟩ :=
        @Data.allReadWithin items (pos + 1) fuel ⟨c, (item.store r.pool).2.put pos (item.store r.pool).1⟩ rest sized.2
          behind (by change (item.store r.pool).2.used ≤ _; omega) (reason.imp id fun within => ⟨within.1.2, by
            change (item.store r.pool).2.used + _ ≤ _
            omega, by omega⟩)
      have sum : (item.store r.pool).2.used + Data.slotsAll items ≤ poolLen := totalAll
      refine ⟨⟨fits, fitAll⟩, ?_, d, ?_, final⟩
      · rw [Data.slotsAll]
        omega
      · rw [List.length_cons, step]
        exact readAll

end

end OpenSpodes
