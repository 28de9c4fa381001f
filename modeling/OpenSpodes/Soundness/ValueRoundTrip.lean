import OpenSpodes.Proofs.OfferedBytes

/-! # Tagged values survive the wire

The writer follows the items of a value through memory, the reader puts the items it meets into its own pool, so
the two values are compared through the tree they stand for. The reader's side holds in front of any further
bytes: those behind the value and those behind the end of the valid data, old content of the area.
-/

namespace OpenSpodes

open Bytes Machine Machine.Fallible

/-- A value within the decoder's limits is written, and read back as a value of the same tree. -/
theorem value_round_trip {memory : Pool} {value : Value} {data : Data} (denotes : value.Denotes memory data)
    (fits : data.Fits) (few : data.slots ≤ poolLen) (b : WBuf) (room : data.encode.length ≤ b.free) :
    ∃ c bytes, valueWrite memory value b = .ok () c ∧ c.out = b.out ++ bytes ∧
      ∀ (r : Reader) (rest : List UInt8) (old : Value), r.buf.Offers (bytes ++ rest) →
        ∃ value' after, valueRead old r = ((.ok, value'), after) ∧
          after.buf.rd = r.buf.rd + bytes.length ∧ value'.Denotes after.pool data := by
  obtain ⟨c, wrote, out, -⟩ := (denotes.writes fits few).appends b room
  refine ⟨c, data.encode, wrote, out, fun r rest old offers => ?_⟩
  obtain ⟨value', after, read, -, position, held⟩ := valueRead_of_offers fits few offers old
  exact ⟨value', after, read, position, held⟩

/-- A structure of an array with a date-time, three bits and a text. -/
def sampleTree : Data :=
  .nest .struct [.nest .array [.scalar .datetime 5], .bits [0xA0] 3, .string .visible [0x41]]

def sampleMemory : Pool :=
  (((Pool.empty.put 0 (.array 3 1)).put 1 (.bitString [0xA0, 0xFF] 3)).put 2 (.visibleString [0x41])).put 3
    (.scalar .datetime 5)

theorem sampleTree_denoted : (Value.struct 0 3).Denotes sampleMemory sampleTree := by
  simp [Value.Denotes, sampleTree, sampleMemory, Pool.put, Data.Held, Data.HeldAll, NestKind.value, StringKind.value,
    padTo]

theorem sampleTree_fits : sampleTree.Fits := by
  simp [sampleTree, Data.Fits, Data.FitAll, NestKind.maxLen, StringKind.maxLen, scalarBound]

theorem value_round_trip_sample : ∃ c bytes, valueWrite sampleMemory (.struct 0 3) (WBuf.init 64) = .ok () c ∧
    c.out = (WBuf.init 64).out ++ bytes ∧
      ∀ (r : Reader) (rest : List UInt8) (old : Value), r.buf.Offers (bytes ++ rest) →
        ∃ value' after, valueRead old r = ((.ok, value'), after) ∧
          after.buf.rd = r.buf.rd + bytes.length ∧ value'.Denotes after.pool sampleTree :=
  value_round_trip sampleTree_denoted sampleTree_fits (by decide) (WBuf.init 64) (by decide)

/-! ## Where a value is written -/

/-- A value whose tags are supported is written exactly where its encoding fits, whatever the area holds; the fuel only
bounds the depth. -/
theorem value_written_iff_fits {memory : Pool} {value : Value} {data : Data} (denotes : value.Denotes memory data)
    (sized : data.Sized) : ∃ bytes : List UInt8, ∀ fuel > data.slots, ∀ b : WBuf,
      ((∃ c, valueWriteImpl memory fuel value b = .ok () c) ↔ bytes.length ≤ b.free) ∧
        ∀ c, valueWriteImpl memory fuel value b = .ok () c → c.out = b.out ++ bytes ∧ c.size = b.size := by
  refine ⟨data.encode, ?_⟩
  intro fuel deep b
  have writes := Data.Held.writes denotes sized deep
  by_cases room : data.encode.length ≤ b.free
  · obtain ⟨c, wrote, out, size⟩ := writes.appends b room
    refine ⟨iff_of_true ⟨c, wrote⟩ room, ?_⟩
    intro d same
    obtain rfl : c = d := by simpa using wrote.symm.trans same
    exact ⟨out, size⟩
  · obtain ⟨e, d, failed⟩ := writes.refuses b (Nat.lt_of_not_le room)
    have fails (c : WBuf) : valueWriteImpl memory fuel value b ≠ .ok () c := by simp [failed]
    exact ⟨iff_of_false (fun ⟨c, wrote⟩ => fails c wrote) room, fun c wrote => absurd wrote (fails c)⟩

theorem value_written_iff_fits_sample : ∃ bytes : List UInt8, ∀ fuel > 4, ∀ b : WBuf,
    ((∃ c, valueWriteImpl sampleMemory fuel (.struct 0 3) b = .ok () c) ↔ bytes.length ≤ b.free) ∧
      ∀ c, valueWriteImpl sampleMemory fuel (.struct 0 3) b = .ok () c → c.out = b.out ++ bytes ∧ c.size = b.size :=
  value_written_iff_fits sampleTree_denoted sampleTree_fits.sized

/-- A delta, whose tag is declared and not supported, is written into no area. -/
theorem delta_not_written : ¬∃ bytes : List UInt8, ∀ b : WBuf,
      (∃ c, valueWrite Pool.empty (.other 28) b = .ok () c) ↔ bytes.length ≤ b.free := by
  rintro ⟨bytes, exactly⟩
  obtain ⟨c, wrote⟩ := (exactly (WBuf.init bytes.length)).mpr le_rfl
  obtain ⟨-, d, -, refused⟩ := bind_ok_iff.mp wrote
  cases refused

end OpenSpodes
