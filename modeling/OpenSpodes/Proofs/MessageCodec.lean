import Mathlib.Data.List.Forall2
import OpenSpodes.Proofs.Encoders
import OpenSpodes.Proofs.OfferedBytes
import OpenSpodes.Spec.Xdlms

/-! # Messages on the wire

Every encoder of a service, given a structure that carries a message, puts the bytes of that message; every decoder, in
front of these bytes, ends with a structure that carries it, whatever the structure held before. One lemma for each part
that several messages share, then the six encoders and the six decoders, choice by choice.
-/

namespace OpenSpodes

open Bytes Machine.Fallible

variable {α β : Type} {write : α → Write Unit} {encode : β → List UInt8} {stands : α → β → Prop} {items : List α}
  {contents : List β} {attr : Descriptor}

/-! ## Parts that are written -/

theorem Puts.entries (all : List.Forall₂ stands items contents)
    (each : ∀ item, ∀ content ∈ contents, stands item content → Puts (write item) (encode content)) :
    Puts (items.forM write) (contents.flatMap encode) := by
  induction all with
  | nil => exact .pure
  | @cons item content items contents first rest ih =>
    have head := each item content List.mem_cons_self first
    exact head.andThen (ih fun item content member => each item content (List.mem_cons_of_mem _ member))

/-- The entries of a list behind their number. -/
theorem Puts.list (all : List.Forall₂ stands items contents)
    (each : ∀ item, ∀ content ∈ contents, stands item content → Puts (write item) (encode content)) :
    Puts (do Machine.Fallible.ignore (dlmsWriteLen items.length); items.forM write) (encodeEntries encode contents) := by
  rw [encodeEntries, ← all.length_eq]
  exact (writeBytes_puts _ _).ignore.andThen (.entries all each)

theorem descriptorWrite_puts (descriptor : Descriptor) : Puts (descriptorWrite descriptor) descriptor.encode :=
  (writeBytes_puts _ _).andThen ((writeBytes_puts _ _).andThen (writeBytes_puts [descriptor.id] _))

theorem attributeWrite_puts (attr : Descriptor) : Puts (attributeWrite attr) attr.encodeUnselected :=
  (descriptorWrite_puts attr).ignore.andThen (writeEach_puts [0])

theorem dataBlockWrite_puts (block : DataBlock) : Puts (dataBlockWrite block) block.encode := by
  apply Puts.ignore
  exact (writeBytes_puts [if block.lastBlock then 1 else 0] _).andThen ((writeBytes_puts _ _).andThen
    ((writeBytes_puts _ _).andThen (writeEach_puts _)))

section Values

variable {memory : Pool} {value : Value} {data : Data}

theorem Value.Denotes.puts (denotes : value.Denotes memory data) (fits : data.FitsPool) :
    Puts (valueWrite memory value) data.encode :=
  (denotes.writes fits.1 fits.2).appends

theorem Data.FitsList.slots (fits : data.FitsList) : data.slots = 0 := by
  cases data with
  | nest kind items => exact fits.2.elim
  | null | scalar | string | bits => rfl

theorem Data.FitsList.fitsPool (fits : data.FitsList) : data.FitsPool :=
  ⟨fits.1, by rw [fits.slots]; exact Nat.zero_le _⟩

/-- Only null data has a value with the tag of null. -/
theorem Value.Denotes.tag_eq_zero_iff (denotes : value.Denotes memory data) : value.tag = 0 ↔ data = .null := by
  cases data with
  | null =>
    obtain rfl : value = .null := denotes
    simp [Value.tag]
  | scalar kind content =>
    obtain rfl : value = .scalar kind content := denotes
    cases kind <;> simp [Value.tag, ScalarKind.tag]
  | string kind bytes =>
    obtain rfl : value = kind.value bytes := denotes
    cases kind <;> simp [StringKind.value, Value.tag]
  | bits bytes count =>
    obtain ⟨stored, rfl, -⟩ := denotes
    simp [Value.tag]
  | nest kind items =>
    obtain ⟨start, rfl, -⟩ := denotes
    cases kind <;> simp [NestKind.value, Value.tag]

theorem Data.encodeOptional_of_some (some : data ≠ .null) (announced : List UInt8) :
    data.encodeOptional announced = announced ++ data.encode := by
  cases data with
  | null => exact absurd rfl some
  | scalar | string | bits | nest => rfl

theorem replyItemEncode_puts {item : ReplyItem} {result : GetResultMessage} (fits : result.content.FitsPool)
    (carries : item.Carries memory result) : Puts (replyItemEncode memory item) result.encode := by
  cases result with
  | data content =>
    obtain ⟨isData, held⟩ := carries
    rw [replyItemEncode, if_pos isData]
    exact (writeBytes_puts [0] _).andThen (writeValue_puts (held.puts fits))
  | accessResult code =>
    obtain ⟨isData, rfl⟩ := carries
    rw [replyItemEncode, if_neg (by simp [isData])]
    exact (writeBytes_puts [1] _).andThen (writeBytes_puts [item.accessResult] _)

theorem invocationWrite_puts (method : Descriptor) (denotes : value.Denotes memory data) (fits : data.FitsPool) :
    Puts (invocationWrite memory method value) (encodeInvocation (method, data)) := by
  apply (descriptorWrite_puts method).ignore.andThen
  by_cases absent : data = .null
  · rw [if_pos (denotes.tag_eq_zero_iff.mpr absent), absent]
    exact writeEach_puts [0]
  · rw [if_neg (denotes.tag_eq_zero_iff.not.mpr absent), Data.encodeOptional_of_some absent]
    exact (writeEach_puts [1]).andThen (denotes.puts fits).ignore

theorem actionResultWrite_puts (code : UInt8) (denotes : value.Denotes memory data) (fits : data.FitsPool) :
    Puts (actionResultWrite memory code value) (encodeActionResult (code, data)) := by
  change Puts _ ([code] ++ data.encodeOptional [1, 0])
  apply (writeEach_puts [code]).andThen
  by_cases absent : data = .null
  · rw [if_neg (not_not.mpr (denotes.tag_eq_zero_iff.mpr absent)), absent]
    exact writeEach_puts [0]
  · rw [if_pos (denotes.tag_eq_zero_iff.not.mpr absent), Data.encodeOptional_of_some absent]
    exact (writeEach_puts [1, 0]).andThen (denotes.puts fits).ignore

end Values

/-! ## Parts that are read -/

theorem obisRead_takes (name : Obis) : Takes obisRead name.toList name := by
  have length : name.toList.length = 6 := by simp
  have same : (Vector.ofFn fun i : Fin 6 => name.toList.getD i 0) = name := by
    ext i inside
    simp
  have read := (Takes.checked length .invalid).map fun bytes => Vector.ofFn fun i : Fin 6 => bytes.getD i 0
  rwa [bind_assoc, same] at read

theorem descriptorRead_decodes {descriptor : Descriptor} (fits : descriptor.Fits) (old : Descriptor) :
    Restores (descriptorRead old) descriptor.encode fun a _ => a = descriptor := by
  apply (Restores.u16 fits).attempt.bind
  apply (Restores.onBuf (obisRead_takes _)).attempt.bind
  exact (Restores.u8 _).attempt.last (.pure fun _ => rfl)

theorem skipAccessSelection_decodes : Restores (ignore skipAccessSelection) [0] fun u _ => u = () := by
  have none : Restores skipAccessSelection [0] fun _ _ => True := (Restores.u8 0).last (.pure fun _ => trivial)
  exact none.ignore.mono fun _ _ _ => rfl

/-- An attribute without access selection, behind which the decoder goes on. -/
theorem unselected_decodes (fits : attr.Fits) (old : Descriptor) {next : Descriptor → Decode α} {bytes : List UInt8}
    {good : α → Pool → Prop} (rest : Restores (next attr) bytes good) :
    Restores (do
      let attr ← descriptorRead old
      ignore skipAccessSelection
      next attr) (attr.encodeUnselected ++ bytes) good := by
  rw [Descriptor.encodeUnselected, List.append_assoc]
  exact (descriptorRead_decodes fits old).bind (skipAccessSelection_decodes.bind rest)

theorem unselected_last (fits : attr.Fits) (old : Descriptor) :
    Restores (do
      let attr ← descriptorRead old
      ignore skipAccessSelection
      return attr) attr.encodeUnselected fun a _ => a = attr :=
  (descriptorRead_decodes fits old).bind (skipAccessSelection_decodes.last (.pure fun _ => rfl))

theorem dataBlockBytes_takes (bytes : BytesUpTo 256) :
    Takes dataBlockBytes (dlmsLenBytes bytes.val.length ++ bytes.val) bytes := by
  have bounded := bytes.property
  apply (Takes.len (by omega)).bind
  intro b rest offers
  have unread := offers.unread
  rw [List.length_append] at unread
  rw [get_bind, failIf_bind_of_not (by omega), bind_of_ok offers.takeBytes, BytesUpTo.ofList_val, pure_apply]

theorem dataBlockSaDecode_decodes {block : DataBlock} (fits : block.Fits) (old : DataBlock) :
    Restores (dataBlockSaDecode old) block.encode fun a _ => a = block := by
  have flag : decide ((if block.lastBlock then (1 : UInt8) else 0) ≠ 0) = block.lastBlock := by
    cases block.lastBlock <;> rfl
  apply (Restores.u8 _).attempt.bind
  apply (Restores.u32 fits).attempt.bind
  apply (Restores.onBuf (dataBlockBytes_takes _)).attempt.last
  apply Restores.pure
  intro pool
  rw [flag]

theorem requestHeader_decodes (tag type invokeId : UInt8) :
    Restores (requestHeader tag) [tag, type, invokeId] fun a _ => a = (type, invokeId) := by
  apply (Restores.u8 tag).bind
  apply Restores.check (not_not.mpr rfl)
  apply (Restores.u8 type).bind
  exact (Restores.u8 invokeId).last (.pure fun _ => rfl)

theorem listCount_decodes {n : ℕ} (few : n ≤ xdlmsMaxList) : Restores listCount (dlmsLenBytes n) fun a _ => a = n := by
  have small : n ≤ 8 := few
  apply (Restores.len (by omega)).attempt.last
  exact .check (by omega) (.pure fun _ => rfl)

/-- A list of entries whose results are known, behind which nothing is read. -/
theorem list_decodes {item : Type} {read : ℕ → Decode α} {encode : item → List UInt8} {stands : α → item → Prop}
    {items : List item} {next : List α → β} {good : β → Pool → Prop} (few : items.length ≤ xdlmsMaxList)
    (each : ∀ i, ∀ x ∈ items, Restores (read i) (encode x) fun a _ => stands a x)
    (holds : ∀ results pool, List.Forall₂ stands results items → good (next results) pool) :
    Restores (do
      let count ← listCount
      let results ← readEntries read count 0
      return next results) (encodeEntries encode items) good :=
  (listCount_decodes few).bind ((Restores.entries items each 0).map holds)

/-- Raw data is stored from its start on. -/
theorem rawDataRead_decodes (bytes : List UInt8) {i : ℕ} (fits : i + bytes.length ≤ 256) (memory : Vector UInt8 256) :
    Restores (rawDataRead bytes.length i memory) bytes
      fun stored _ => stored.toList.take (i + bytes.length) = memory.toList.take i ++ bytes := by
  induction bytes generalizing i memory with
  | nil => exact .pure fun _ => by simp
  | cons byte bytes ih =>
    rw [List.length_cons] at fits
    apply (Restores.u8 byte).attempt.bind
    apply (ih (show i + 1 + bytes.length ≤ 256 by omega) (memory.setIfInBounds i byte)).mono
    intro stored _ same
    have inside : i < memory.toList.length := by simp; omega
    rw [Vector.toList_setIfInBounds, List.take_succ_eq_append_getElem (by simpa using inside)] at same
    rw [List.length_cons, show i + (bytes.length + 1) = i + 1 + bytes.length by omega, same]
    simp [List.take_set_of_le]

end OpenSpodes
