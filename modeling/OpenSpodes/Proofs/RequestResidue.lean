import OpenSpodes.Model.Xdms
import OpenSpodes.Proofs.Codec

/-! # What a decoder leaves of the structure it fills

The request decoders store field by field into a structure of the caller and ignore most inner failures. These
lemmas say, for a normal GET or ACTION in a receive area, which fields are stored and which keep their old
content, by the number of bytes received.
-/

namespace OpenSpodes

open Bytes Machine.Fallible

variable {α : Type} {r : Reader}

/-- A reader at position `pos` of the `len` bytes received in an area. -/
abbrev readerAt (mem : List UInt8) (len pos : ℕ) (pool : Pool) : Reader := ⟨⟨mem, pos, len⟩, pool⟩

section Steps

variable (mem : List UInt8) (pool : Pool) {len pos n : ℕ} {err e : Err} {step : Read α} {b c : Buf} {a : α}
  {t : Reader}

theorem unread_at (inside : pos ≤ len) : (⟨mem, pos, len⟩ : Buf).unread = len - pos := if_pos inside

theorem needUnread_at (room : pos + n ≤ len) : needUnread n err ⟨mem, pos, len⟩ = .ok () ⟨mem, pos, len⟩ := by
  have enough : ¬(⟨mem, pos, len⟩ : Buf).unread < n := by rw [unread_at mem (by omega)]; omega
  simp only [needUnread, Machine.Fallible.get_bind, failIf, if_neg enough, pure_apply]

theorem needUnread_cut (inside : pos ≤ len) (short : len < pos + n) :
    needUnread n err ⟨mem, pos, len⟩ = .error err ⟨mem, pos, len⟩ := by
  have less : (⟨mem, pos, len⟩ : Buf).unread < n := by rw [unread_at mem inside]; omega
  simp only [needUnread, Machine.Fallible.get_bind, failIf, if_pos less, throw_apply]

theorem skip_at (room : pos + n ≤ len) (bounded : len < 2 ^ 32) :
    (⟨mem, pos, len⟩ : Buf).skip n = ⟨mem, pos + n, len⟩ := by
  simp only [Buf.skip, Nat.mod_eq_of_lt (room.trans_lt bounded)]

theorem onBuf_of_ok (ok : step b = .ok a c) : onBuf step ⟨b, pool⟩ = .ok a ⟨c, pool⟩ := by
  simp only [onBuf, ok]

theorem onBuf_of_error (failed : step b = .error e c) : onBuf step ⟨b, pool⟩ = .error e ⟨c, pool⟩ := by
  simp only [onBuf, failed]

theorem attempt_of_ok {step : Decode α} (ok : step r = .ok a t) : attempt step r = .ok (some a) t := by
  simp only [attempt, ok]

theorem attempt_of_error {step : Decode α} (failed : step r = .error e t) : attempt step r = .ok none t := by
  simp only [attempt, failed]

theorem axdrReadU8_at (room : pos + 1 ≤ len) (bounded : len < 2 ^ 32) :
    axdrReadU8 ⟨mem, pos, len⟩ = .ok (mem.getD pos 0) ⟨mem, pos + 1, len⟩ := by
  rw [axdrReadU8, bind_of_ok (needUnread_at mem room), nextByte, modifyGet_apply, skip_at mem room bounded]
  rfl

theorem axdrReadU8_end : axdrReadU8 ⟨mem, len, len⟩ = .error .invalid ⟨mem, len, len⟩ :=
  bind_of_error (needUnread_cut mem le_rfl (by omega))

theorem takeBytes_at (room : pos + n ≤ len) (bounded : len < 2 ^ 32) :
    takeBytes n ⟨mem, pos, len⟩ = .ok (padTo n (mem.drop pos)) ⟨mem, pos + n, len⟩ := by
  rw [takeBytes, modifyGet_apply, skip_at mem room bounded]
  rfl

theorem readU16_at (room : pos + 2 ≤ len) (bounded : len < 2 ^ 32) :
    ∃ n, onBuf axdrReadU16 (readerAt mem len pos pool) = .ok n (readerAt mem len (pos + 2) pool) :=
  ⟨_, onBuf_of_ok pool ((bind_of_ok (needUnread_at mem room)).trans (bind_of_ok (takeBytes_at mem room bounded)))⟩

theorem readObis_at (room : pos + 6 ≤ len) (bounded : len < 2 ^ 32) :
    ∃ obis, onBuf obisRead (readerAt mem len pos pool) = .ok obis (readerAt mem len (pos + 6) pool) :=
  ⟨_, onBuf_of_ok pool ((bind_of_ok (needUnread_at mem room)).trans (bind_of_ok (takeBytes_at mem room bounded)))⟩

/-- A whole descriptor is stored whatever was there. -/
theorem descriptorRead_whole (room : pos + 9 ≤ len) (bounded : len < 2 ^ 32) :
    ∃ descriptor, ∀ old, descriptorRead old (readerAt mem len pos pool) =
      .ok descriptor (readerAt mem len (pos + 9) pool) := by
  obtain ⟨classId, first⟩ := readU16_at mem pool (show pos + 2 ≤ len by omega) bounded
  obtain ⟨obis, second⟩ := readObis_at mem pool (show pos + 2 + 6 ≤ len by omega) bounded
  have third := onBuf_of_ok pool (axdrReadU8_at mem (show pos + 2 + 6 + 1 ≤ len by omega) bounded)
  refine ⟨⟨classId, obis, mem.getD (pos + 2 + 6) 0⟩, fun old => ?_⟩
  exact (bind_of_ok (attempt_of_ok first)).trans
    ((bind_of_ok (attempt_of_ok second)).trans (bind_of_ok (attempt_of_ok third)))

/-- The number of bytes of a descriptor that are stored, when it is cut off after `n` bytes. -/
def storedOf (n : ℕ) : ℕ := if n < 2 then 0 else if n < 8 then 2 else 8

/-- Of a descriptor that is cut off the id is never stored. -/
theorem descriptorRead_cut (inside : pos ≤ len) (short : len < pos + 9) (bounded : len < 2 ^ 32) :
    ∃ change : Descriptor → Descriptor, (∀ old, (change old).id = old.id) ∧
      ∀ old, descriptorRead old (readerAt mem len pos pool) =
        .ok (change old) (readerAt mem len (pos + storedOf (len - pos)) pool) := by
  by_cases none : len < pos + 2
  · have stored : storedOf (len - pos) = 0 := if_pos (by omega)
    refine ⟨id, fun _ => rfl, fun old => ?_⟩
    rw [stored]
    have failed : onBuf axdrReadU16 (readerAt mem len pos pool) = .error .invalid (readerAt mem len pos pool) :=
      onBuf_of_error pool (bind_of_error (needUnread_cut mem inside none))
    exact bind_of_ok (attempt_of_error failed)
  · obtain ⟨classId, first⟩ := readU16_at mem pool (show pos + 2 ≤ len by omega) bounded
    by_cases one : len < pos + 8
    · have stored : storedOf (len - pos) = 2 := by simp only [storedOf]; split_ifs <;> omega
      refine ⟨fun old => { old with classId := classId }, fun _ => rfl, fun old => ?_⟩
      rw [stored]
      have failed : onBuf obisRead (readerAt mem len (pos + 2) pool) = .error .invalid (readerAt mem len (pos + 2) pool) :=
        onBuf_of_error pool (bind_of_error (needUnread_cut mem (by omega) (by omega)))
      exact (bind_of_ok (attempt_of_ok first)).trans (bind_of_ok (attempt_of_error failed))
    · obtain ⟨obis, second⟩ := readObis_at mem pool (show pos + 2 + 6 ≤ len by omega) bounded
      obtain rfl : len = pos + 2 + 6 := by omega
      have stored : storedOf (pos + 2 + 6 - pos) = 8 := by simp only [storedOf]; split_ifs <;> omega
      refine ⟨fun old => { old with classId := classId, instanceId := obis }, fun _ => rfl, fun old => ?_⟩
      rw [stored]
      exact (bind_of_ok (attempt_of_ok first)).trans ((bind_of_ok (attempt_of_ok second)).trans
        (bind_of_ok (attempt_of_error (onBuf_of_error pool (axdrReadU8_end mem)))))

/-- A value whose tag was received is stored whatever was there. -/
theorem readValue_stored (room : pos + 1 ≤ len) (bounded : len < 2 ^ 32) :
    ∃ value after, ∀ old, readValue old (readerAt mem len pos pool) = .ok value after := by
  have run (pool : Pool) : Reader.run axdrReadTag (readerAt mem len pos pool) =
      (.ok (mem.getD pos 0), readerAt mem len (pos + 1) pool) := by
    simp only [Reader.run, axdrReadTag, axdrReadU8_at mem room bounded]
  have same (old : Value) :
      valueRead old (readerAt mem len pos pool) = valueRead .null (readerAt mem len pos pool) := by
    change valueReadImpl (poolLen + 2) old (readerAt mem len pos { pool with used := 0 }) =
      valueReadImpl (poolLen + 2) .null (readerAt mem len pos { pool with used := 0 })
    simp only [valueReadImpl, bind, StateT.bind, run]
  refine ⟨(valueRead .null (readerAt mem len pos pool)).1.2, (valueRead .null (readerAt mem len pos pool)).2,
    fun old => ?_⟩
  rw [← same old]
  rfl

/-- Without a tag byte the old value stays. -/
theorem readValue_end (old : Value) :
    readValue old (readerAt mem len len pool) = .ok old (readerAt mem len len { pool with used := 0 }) := by
  have run (pool : Pool) : Reader.run axdrReadTag (readerAt mem len len pool) =
      (.error .invalid, readerAt mem len len pool) := by
    simp only [Reader.run, axdrReadTag, axdrReadU8_end mem]
  have read : valueRead old (readerAt mem len len pool) =
      ((.invalid, old), readerAt mem len len { pool with used := 0 }) := by
    change valueReadImpl (poolLen + 2) old (readerAt mem len len { pool with used := 0 }) = _
    simp only [valueReadImpl, bind, StateT.bind, run]
    rfl
  rw [readValue, read]

end Steps

/-! ## Normal requests -/

section Requests

variable {mem : List UInt8} (pool : Pool) {len : ℕ} {change : Descriptor → Descriptor} {tag : UInt8}

/-- The header of a request of the given tag, type 1. -/
theorem requestHeader_normal (tagged : mem.getD 0 0 = tag) (normal : mem.getD 1 0 = 1) (long : 3 ≤ len)
    (bounded : len < 2 ^ 32) :
    requestHeader tag (readerAt mem len 0 pool) = .ok (1, mem.getD 2 0) (readerAt mem len 3 pool) := by
  have first := onBuf_of_ok pool (axdrReadU8_at mem (show 0 + 1 ≤ len by omega) bounded)
  have second := onBuf_of_ok pool (axdrReadU8_at mem (show 1 + 1 ≤ len by omega) bounded)
  have third := onBuf_of_ok pool (axdrReadU8_at mem (show 2 + 1 ≤ len by omega) bounded)
  rw [requestHeader, bind_of_ok first, failIf_bind_of_not (not_not.mpr tagged), bind_of_ok second,
    bind_of_ok third, normal]
  rfl

theorem requestHeader_short (tagged : mem.getD 0 0 = tag) :
    requestHeader tag (readerAt mem 2 0 pool) = .error .invalid (readerAt mem 2 2 pool) := by
  have first := onBuf_of_ok pool (axdrReadU8_at mem (show 0 + 1 ≤ 2 by omega) (by decide))
  have second := onBuf_of_ok pool (axdrReadU8_at mem (show 1 + 1 ≤ 2 by omega) (by decide))
  rw [requestHeader, bind_of_ok first, failIf_bind_of_not (not_not.mpr tagged), bind_of_ok second]
  exact bind_of_error (onBuf_of_error pool (axdrReadU8_end mem))

theorem ignore_ok (step : Decode α) (r : Reader) : ∃ after, ignore step r = .ok () after := by
  cases returned : step r with
  | ok a after => exact ⟨after, bind_of_ok (attempt_of_ok returned)⟩
  | error e after => exact ⟨after, bind_of_ok (attempt_of_error returned)⟩

/-- The request that a GET decoder leaves in a structure. -/
def GetRequest.filled (old : GetRequest) (invokeIdPriority : UInt8) (attr : Descriptor) : GetRequest :=
  { old with kind := .normal, invokeIdPriority := invokeIdPriority, attr := attr }

theorem getRequestDecode_of_attr (isGet : mem.getD 0 0 = 0xC0) (normal : mem.getD 1 0 = 1) (long : 3 ≤ len)
    (bounded : len < 2 ^ 32) (read : ∀ old, descriptorRead old (readerAt mem len 3 pool) = .ok (change old) r) :
    ∃ after, ∀ old, getRequestDecode old (readerAt mem len 0 pool) =
      .ok (old.filled (mem.getD 2 0) (change old.attr)) after := by
  obtain ⟨after, skipped⟩ := ignore_ok skipAccessSelection r
  refine ⟨after, fun old => ?_⟩
  rw [getRequestDecode, bind_of_ok (requestHeader_normal pool isGet normal long bounded)]
  exact (bind_of_ok (read old.attr)).trans (bind_of_ok skipped)

/-- The request that an ACTION decoder leaves in a structure. -/
def ActionRequest.filled (old : ActionRequest) (invokeIdPriority : UInt8) (method : Descriptor) (data : Value) :
    ActionRequest :=
  { old with kind := .normal, invokeIdPriority := invokeIdPriority, method := method, data := data }

theorem actionRequestDecode_of_parts (isAction : mem.getD 0 0 = 0xC3) (normal : mem.getD 1 0 = 1) (long : 3 ≤ len)
    (bounded : len < 2 ^ 32) {keep : Value → Value} {after : Reader}
    (read : ∀ old, descriptorRead old (readerAt mem len 3 pool) = .ok (change old) r)
    (parameter : ∀ old, actionParameter old r = .ok (keep old) after) (old : ActionRequest) :
    actionRequestDecode old (readerAt mem len 0 pool) =
      .ok (old.filled (mem.getD 2 0) (change old.method) (keep old.data)) after := by
  rw [actionRequestDecode, bind_of_ok (requestHeader_normal pool isAction normal long bounded)]
  exact (bind_of_ok (read old.method)).trans (bind_of_ok (parameter old.data))

theorem actionRequestDecode_of_refused (isAction : mem.getD 0 0 = 0xC3) (normal : mem.getD 1 0 = 1) (long : 3 ≤ len)
    (bounded : len < 2 ^ 32)
    (read : ∀ old, descriptorRead old (readerAt mem len 3 pool) = .ok (change old) (readerAt mem len len pool))
    (old : ActionRequest) :
    actionRequestDecode old (readerAt mem len 0 pool) = .error .invalid (readerAt mem len len pool) := by
  rw [actionRequestDecode, bind_of_ok (requestHeader_normal pool isAction normal long bounded)]
  exact (bind_of_ok (read old.method)).trans
    (bind_of_error (bind_of_error (onBuf_of_error pool (axdrReadU8_end mem))))

variable (mem) in
/-- The parameter behind a have-data byte: stored, unless it is announced and nothing follows. -/
theorem actionParameter_at {pos : ℕ} (room : pos + 1 ≤ len) (bounded : len < 2 ^ 32) :
    ∃ (keep : Value → Value) (after : Reader), (∀ old, actionParameter old (readerAt mem len pos pool) = .ok (keep old) after) ∧
      (mem.getD pos 0 = 0 ∨ pos + 2 ≤ len → ∀ old old', keep old = keep old') ∧
      (mem.getD pos 0 ≠ 0 → pos + 1 = len → ∀ old, keep old = old) := by
  have first := onBuf_of_ok pool (axdrReadU8_at mem room bounded)
  by_cases absent : mem.getD pos 0 = 0
  · refine ⟨fun _ => .null, readerAt mem len (pos + 1) pool, fun old => ?_, fun _ _ _ => rfl,
      fun present => absurd absent present⟩
    rw [actionParameter, bind_of_ok first, if_neg (not_not.mpr absent)]
    rfl
  · by_cases last : pos + 1 = len
    · subst last
      refine ⟨id, readerAt mem (pos + 1) (pos + 1) { pool with used := 0 }, fun old => ?_, ?_, fun _ _ _ => rfl⟩
      · rw [actionParameter, bind_of_ok first, if_pos absent]
        exact readValue_end mem pool old
      · rintro (zero | more)
        · exact absurd zero absent
        · omega
    · obtain ⟨value, after, stored⟩ := readValue_stored mem pool (show pos + 1 + 1 ≤ len by omega) bounded
      refine ⟨fun _ => value, after, fun old => ?_, fun _ _ _ => rfl, fun _ ends => absurd ends last⟩
      rw [actionParameter, bind_of_ok first, if_pos absent]
      exact stored old

end Requests

end OpenSpodes
