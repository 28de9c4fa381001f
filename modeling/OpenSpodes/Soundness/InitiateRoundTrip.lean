import OpenSpodes.Model.Initiate
import OpenSpodes.Proofs.DataWrite

/-! # Initiate messages come back as they were sent

Presence flags decide where the later fields of an initiate message lie. Each optional field is read back together with
its flag, wherever it lies, so the messages are read back field by field.
-/

namespace OpenSpodes

open Bytes Machine.Fallible

variable {n : ℕ}

theorem takeFlagged_takes (field : Option UInt8) :
    Takes takeFlagged (((field.map ([·])).map (1 :: ·)).getD [0]) field := by
  cases field with
  | none =>
    apply (Takes.u8 0).last
    apply Takes.check (by decide)
    exact .pure none
  | some byte =>
    apply (Takes.u8 1).bind
    apply Takes.check (by decide)
    apply (Takes.u8 byte).last
    exact .pure (some byte)

theorem takeDedicatedKey_takes (key : Option (BytesUpTo 32)) : Takes takeDedicatedKey
      (((key.map fun key => UInt8.ofNat key.val.length :: key.val).map (1 :: ·)).getD [0]) key := by
  cases key with
  | none =>
    apply (Takes.u8 0).last
    apply Takes.check (by decide)
    exact .pure none
  | some key =>
    have short := key.property
    have length : (UInt8.ofNat key.val.length).toNat = key.val.length := by
      rw [UInt8.toNat_ofNat']
      omega
    apply (Takes.u8 1).bind
    apply Takes.check (by decide)
    apply (Takes.u8 (UInt8.ofNat key.val.length)).bind
    intro b rest offers
    have passes : ¬(UInt8.ofNat key.val.length > 32 ∨ b.unread < (UInt8.ofNat key.val.length).toNat) := by
      rw [offers.unread, gt_iff_lt, UInt8.lt_iff_toNat_lt, length, List.length_append]
      exact not_or.mpr ⟨Nat.not_lt.mpr short, by omega⟩
    rw [get_bind, failIf_bind_of_not passes, length]
    rw [bind_of_ok (Takes.raw key.val b rest offers), BytesUpTo.ofList_val, pure_apply]

theorem takeConformance_takes (small : n < 2 ^ 24) :
    Takes takeConformance ([0x5F, 0x1F, 0x04, 0x00] ++ beBytes 3 n) n := by
  apply Takes.needUnread (by simp)
  intro b rest offers
  have tag : ¬(b.byteAt b.rd ≠ 0x5F ∨ b.byteAt (b.rd + 1) ≠ 0x1F) := by
    have first : b.byteAt (b.rd + 0) = 0x5F := offers.byteAt (by simp)
    have second : b.byteAt (b.rd + 1) = 0x1F := offers.byteAt (by simp)
    simpa using ⟨first, second⟩
  rw [get_bind, failIf_bind_of_not tag]
  refine (Takes.skip [0x5F, 0x1F]).bind ((Takes.u8 4).bind ?_) b rest offers
  intro b rest offers
  have enough : ¬((4 : UInt8) < 1 ∨ b.unread < (4 : UInt8).toNat) := by
    rw [offers.unread]
    simp
  rw [get_bind, failIf_bind_of_not enough]
  have number : Takes (do return beNat (← takeBytes 3) % 2 ^ 32) (beBytes 3 n) n := by
    have taken := Takes.raw (beBytes 3 n)
    rw [length_beBytes] at taken
    refine taken.last ?_
    rw [beNat_beBytes small, Nat.mod_eq_of_lt (by omega)]
    exact .pure n
  exact ((Takes.skip [0]).bind number) b rest offers

/-- What is decoded is what was encoded, from exactly the bytes written. -/
theorem initiate_round_trip :
    (∀ req : InitiateRequest, req.proposedConformance < 2 ^ 24 → req.clientMaxReceivePduSize < 2 ^ 16 →
      ∃ bytes, Writes (initiateRequestEncode req) bytes ∧ Takes initiateRequestDecode bytes req) ∧
    ∀ resp : InitiateResponse, resp.negotiatedConformance < 2 ^ 24 → resp.serverMaxReceivePduSize < 2 ^ 16 →
      resp.vaaName < 2 ^ 16 →
      ∃ bytes, Writes (initiateResponseEncode resp) bytes ∧ Takes initiateResponseDecode bytes resp := by
  have quality (q : Option Int8) : q.map ([·.toUInt8]) = (q.map (·.toUInt8)).map ([·]) := by cases q <;> rfl
  have restored (q : Option Int8) : (q.map (·.toUInt8)).map (·.toInt8) = q := by cases q <;> simp
  constructor
  · rintro ⟨key, allowed, qos, version, conformance, pduSize⟩ small fits
    refine ⟨_, .andThen (axdrWriteU8_writes _) (.andThen (writeBytes_writes _ _) (.andThen (writeBytes_writes _ _)
      (.andThen (writeBytes_writes _ _) (.andThen (axdrWriteU8_writes _) (.andThen (writeBytes_writes _ _)
        (writeBytes_writes _ _)))))), ?_⟩
    have response := takeFlagged_takes (if allowed then none else some 0)
    rw [apply_ite (Option.map _)] at response
    rw [quality]
    apply (Takes.u8 1).bind
    apply Takes.check (by decide)
    apply (takeDedicatedKey_takes key).bind
    apply response.bind
    apply (takeFlagged_takes _).bind
    apply (Takes.u8 version).bind
    apply (takeConformance_takes small).bind
    apply (Takes.uint fits).last
    rw [restored]
    cases allowed <;> exact .pure _
  · rintro ⟨qos, version, conformance, pduSize, vaaName⟩ small fits named
    refine ⟨_, .andThen (axdrWriteU8_writes _) (.andThen (writeBytes_writes _ _) (.andThen (axdrWriteU8_writes _)
      (.andThen (writeBytes_writes _ _) (.andThen (writeBytes_writes _ _) (writeBytes_writes _ _))))), ?_⟩
    rw [quality]
    apply (Takes.u8 8).bind
    apply Takes.check (by decide)
    apply (takeFlagged_takes _).bind
    apply (Takes.u8 version).bind
    apply (takeConformance_takes small).bind
    apply (Takes.uint fits).bind
    apply (Takes.uint named).last
    rw [restored]
    exact .pure _

theorem initiate_round_trip_keyed :
    (∃ bytes, Writes (initiateRequestEncode ⟨some (.ofList 32 [1, 2]), false, some (-1), 6, 0x7E1F, 0x4B0⟩) bytes ∧
        Takes initiateRequestDecode bytes ⟨some (.ofList 32 [1, 2]), false, some (-1), 6, 0x7E1F, 0x4B0⟩) ∧
      ∃ bytes, Writes (initiateResponseEncode initiateResponseDefault) bytes ∧
        Takes initiateResponseDecode bytes initiateResponseDefault :=
  ⟨initiate_round_trip.1 _ (by decide) (by decide), initiate_round_trip.2 _ (by decide) (by decide) (by decide)⟩

end OpenSpodes
