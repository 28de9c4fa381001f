import OpenSpodes.Model.ListAttributes
import OpenSpodes.Proofs.MessageCodec

/-! # Tables that a client can read

The encoder of a table and the decoder of tagged values have separate limits. A profile buffer may have rows of 32 cells,
but a structure is decoded with 16 items at most; and whatever the shape, all items of a value share the pool. So a table
is read back exactly when its lists are short enough and its items fit into the pool, which is said here in the sizes of
the table.
-/

namespace OpenSpodes

open Bytes Machine.Fallible

/-! ## Arrays and structures -/

theorem structBegin_writes (n : ℕ) : Writes (structBegin n) ([2] ++ dlmsLenBytes n) :=
  (axdrWriteU8_writes 2).andThen (dlmsWriteLen_writes n)

theorem arrayBegin_writes (n : ℕ) : Writes (arrayBegin n) ([1] ++ dlmsLenBytes n) :=
  (axdrWriteU8_writes 1).andThen (dlmsWriteLen_writes n)

/-- The bytes of an array whose items are written one by one. -/
theorem array_writes {α : Type} {write : α → Write Unit} {content : α → Data}
    (each : ∀ item, Writes (write item) (content item).encode) (items : List α) :
    Writes (do arrayBegin items.length; items.forM write) (Data.nest .array (items.map content)).encode := by
  have entries : Writes (items.forM write) (items.flatMap fun item => (content item).encode) := by
    induction items with
    | nil => exact .pure
    | cons item items ih => exact (each item).andThen ih
  have both := (arrayBegin_writes items.length).andThen entries
  simpa [Data.encode, Data.encodeAll_eq, List.flatMap_map, NestKind.tag] using both

/-- A table is written as its data, and the data is read back exactly under the condition. -/
def DecodedWhen (write : Write Unit) (data : Data) (condition : Prop) : Prop :=
  ∀ b : WBuf, data.encode.length ≤ b.free → ∃ c, write b = .ok () c ∧ c.out = b.out ++ data.encode ∧
    ∀ (r : Reader) (old : Value), r.buf.Offers data.encode →
      ((∃ value after, valueRead old r = ((.ok, value), after) ∧ after.buf.unread = 0 ∧
        value.Denotes after.pool data) ↔ condition)

theorem DecodedWhen.of_puts {table : Write Unit} {data : Data} {condition : Prop} (puts : Puts table data.encode)
    (sized : data.Sized) (limits : data.Fits ∧ data.slots ≤ poolLen ↔ condition) :
    DecodedWhen (refWrite table) data condition := by
  have some : 1 ≤ data.encode.length := by
    cases data <;> simp [Data.encode]
  intro b room
  obtain ⟨c, wrote, out, -⟩ := (puts.needFree some : Puts (refWrite table) _) b room
  refine ⟨c, wrote, out, fun r old offers => ?_⟩
  rw [← limits]
  constructor
  · rintro ⟨value, after, read, -, -⟩
    exact (valueRead_denotes sized offers read).1
  · rintro ⟨fits, few⟩
    rw [← List.append_nil data.encode] at offers
    obtain ⟨value, after, read, left, -, held⟩ := valueRead_of_offers fits few offers old
    exact ⟨value, after, read, left.unread, held⟩

/-! ## Profile buffers -/

/-- The data of a profile buffer with the given rows. -/
def profileData (rows : List (List Data)) : Data := .nest .array (rows.map (.nest .struct))

def ProfileBufferView.Denotes (memory : Pool) (view : ProfileBufferView) (rows : List (List Data)) : Prop :=
  List.Forall₂ (fun row cells => List.Forall₂ (Value.Denotes memory) (row.cells.take maxCaptureObjects) cells)
    view.selected rows

theorem ProfileBufferView.length_selected (view : ProfileBufferView) : view.selected.length ≤ maxBufferRows := by
  rw [selected, List.length_map]
  refine (List.length_filter_le _ _).trans ?_
  rw [List.length_zipIdx, List.length_take]
  exact Nat.min_le_left _ _

section Profile

variable {memory : Pool} {view : ProfileBufferView} {rows : List (List Data)}

theorem profileBufferWrite_puts (denotes : view.Denotes memory rows) (fits : ∀ cells ∈ rows, ∀ cell ∈ cells, cell.FitsList) :
    Puts (profileBufferWrite memory view) (profileData rows).encode := by
  have entries : Puts (view.selected.forM fun row => do
      structBegin (row.cells.take maxCaptureObjects).length
      (row.cells.take maxCaptureObjects).forM (valueWrite memory))
        (rows.flatMap fun cells => (Data.nest .struct cells).encode) := by
    refine .entries denotes fun row cells member held => ?_
    have inner : Puts ((row.cells.take maxCaptureObjects).forM (valueWrite memory)) (cells.flatMap Data.encode) :=
      .entries held fun _ cell inside denoted => denoted.puts (fits cells member cell inside).fitsPool
    have both := (structBegin_writes cells.length).appends.andThen inner
    rw [held.length_eq]
    simpa [Data.encode, Data.encodeAll_eq, NestKind.tag] using both
  have both := (arrayBegin_writes rows.length).appends.andThen entries
  rw [profileBufferWrite, denotes.length_eq]
  simpa [profileData, Data.encode, Data.encodeAll_eq, List.flatMap_map, NestKind.tag] using both

theorem profileData_slots (fits : ∀ cells ∈ rows, ∀ cell ∈ cells, cell.FitsList) :
    (profileData rows).slots = rows.length + (rows.map List.length).sum := by
  rw [profileData, Data.slots, List.length_map, Data.slotsAll_eq, List.map_map]
  congr 2
  refine List.map_congr_left fun cells member => ?_
  have flat : cells.map Data.slots = cells.map fun _ => 0 :=
    List.map_congr_left fun cell inside => (fits cells member cell inside).slots
  simp [Data.slots, Data.slotsAll_eq, flat]

theorem profileData_fits_iff (few : rows.length ≤ maxBufferRows) (fits : ∀ cells ∈ rows, ∀ cell ∈ cells, cell.FitsList) :
    (profileData rows).Fits ↔ ∀ cells ∈ rows, cells.length ≤ NestKind.struct.maxLen := by
  rw [profileData, Data.Fits, List.length_map, and_iff_right (show rows.length ≤ NestKind.array.maxLen from few),
    Data.fitAll_iff, List.forall_mem_map]
  refine forall₂_congr fun cells member => ?_
  rw [Data.Fits, Data.fitAll_iff, and_iff_left fun cell inside => (fits cells member cell inside).1]

theorem Data.FitsList.sized {data : Data} (fits : data.FitsList) : data.Sized := by
  cases data with
  | nest kind items => exact fits.2.elim
  | null | scalar | string | bits => exact fits.1

theorem ProfileBufferView.Denotes.length_row (denotes : view.Denotes memory rows) :
    ∀ cells ∈ rows, cells.length ≤ maxCaptureObjects := by
  rw [ProfileBufferView.Denotes] at denotes
  generalize view.selected = selected at denotes
  induction denotes with
  | nil => simp
  | @cons row cells _ _ first _ ih =>
    rw [List.forall_mem_cons]
    refine ⟨?_, ih⟩
    rw [← first.length_eq, List.length_take]
    exact Nat.min_le_left _ _

theorem profileData_sized (denotes : view.Denotes memory rows) (fits : ∀ cells ∈ rows, ∀ cell ∈ cells, cell.FitsList) :
    (profileData rows).Sized := by
  have few := view.length_selected
  rw [denotes.length_eq] at few
  rw [profileData, Data.Sized, Data.sizedAll_iff, List.forall_mem_map, List.length_map]
  refine ⟨few.trans (by decide), fun cells member => ?_⟩
  rw [Data.Sized, Data.sizedAll_iff]
  refine ⟨?_, fun cell inside => (fits cells member cell inside).sized⟩
  exact (denotes.length_row cells member).trans (by decide)

end Profile

/-! ## Object lists -/

/-- The data of an access right item of an attribute. -/
def attrAccessData (item : UInt8 × AttrAccess) : Data :=
  .nest .struct [.scalar .integer item.1.toNat, .scalar .enum item.2.code.toNat, .null]

/-- The data of an access right item of a method. -/
def methodAccessData (item : UInt8 × MethodAccess) : Data :=
  .nest .struct [.scalar .integer item.1.toNat, .scalar .enum item.2.code.toNat]

def ListedObject.data (e : ListedObject) : Data :=
  .nest .struct [.scalar .longUnsigned e.classId, .scalar .unsigned e.version.toNat, .string .octet e.logicalName.toList,
    .nest .struct [.nest .array (e.attrs.map attrAccessData), .nest .array (e.methods.map methodAccessData)]]

def writtenEntries (list : List ListedObject) : List ListedObject := (list.take maxObjectList).take 255

def objectListData (list : List ListedObject) : Data := .nest .array ((writtenEntries list).map ListedObject.data)

def ListedObject.places (e : ListedObject) : ℕ := 7 + 4 * e.attrs.length + 3 * e.methods.length

theorem beBytes_toNat (byte : UInt8) : beBytes 1 byte.toNat = [byte] := by
  simp [beBytes]

theorem attrAccess_writes (item : UInt8 × AttrAccess) : Writes (do
    structBegin 3
    axdrWriteU8 15
    axdrWriteU8 item.1
    axdrWriteU8 22
    axdrWriteU8 item.2.code
    axdrWriteU8 0) (attrAccessData item).encode := by
  have writes := (structBegin_writes 3).andThen ((axdrWriteU8_writes 15).andThen ((axdrWriteU8_writes item.1).andThen
    ((axdrWriteU8_writes 22).andThen ((axdrWriteU8_writes item.2.code).andThen (axdrWriteU8_writes 0)))))
  simpa [attrAccessData, Data.encode, Data.encodeAll, scalarBytes, ScalarKind.size, ScalarKind.tag, NestKind.tag,
    beBytes_toNat] using writes

theorem methodAccess_writes (item : UInt8 × MethodAccess) : Writes (do
    structBegin 2
    axdrWriteU8 15
    axdrWriteU8 item.1
    axdrWriteU8 22
    axdrWriteU8 item.2.code) (methodAccessData item).encode := by
  have writes := (structBegin_writes 2).andThen ((axdrWriteU8_writes 15).andThen ((axdrWriteU8_writes item.1).andThen
    ((axdrWriteU8_writes 22).andThen (axdrWriteU8_writes item.2.code))))
  simpa [methodAccessData, Data.encode, Data.encodeAll, scalarBytes, ScalarKind.size, ScalarKind.tag, NestKind.tag,
    beBytes_toNat] using writes

theorem accessRightWrite_writes (e : ListedObject) : Writes (accessRightWrite e)
    (Data.nest .struct [.nest .array (e.attrs.map attrAccessData), .nest .array (e.methods.map methodAccessData)]).encode := by
  have writes := (structBegin_writes 2).andThen
    ((array_writes attrAccess_writes e.attrs).andThen (array_writes methodAccess_writes e.methods))
  simp only [bind_assoc] at writes
  rw [accessRightWrite]
  simpa [Data.encode, Data.encodeAll, NestKind.tag] using writes

theorem entry_writes (e : ListedObject) : Writes (do
    structBegin 4
    axdrWriteU8 18
    axdrWriteU16 e.classId
    axdrWriteU8 17
    axdrWriteU8 e.version
    axdrWriteU8 9
    axdrWriteOctetString e.logicalName.toList
    accessRightWrite e) e.data.encode := by
  have name : Writes (axdrWriteOctetString e.logicalName.toList) (dlmsLenBytes 6 ++ e.logicalName.toList) := by
    have writes : Writes (axdrWriteOctetString e.logicalName.toList) _ := (dlmsWriteLen_writes _).andThen (writeBytes_writes _ _)
    simpa using writes
  have classId : Writes (axdrWriteU16 e.classId) (beBytes 2 e.classId) := writeBytes_writes _ _
  have writes := (structBegin_writes 4).andThen ((axdrWriteU8_writes 18).andThen (classId.andThen ((axdrWriteU8_writes 17).andThen
    ((axdrWriteU8_writes e.version).andThen ((axdrWriteU8_writes 9).andThen (name.andThen (accessRightWrite_writes e)))))))
  rw [ListedObject.data, Data.encode, Data.encodeAll, Data.encodeAll, Data.encodeAll, Data.encodeAll, Data.encodeAll]
  simpa [Data.encode, scalarBytes, ScalarKind.size, ScalarKind.tag, NestKind.tag, StringKind.tag, beBytes_toNat] using writes

theorem objectListWrite_writes (list : List ListedObject) : Writes (objectListWrite list) (objectListData list).encode :=
  array_writes entry_writes _

section ObjectList

variable {e : ListedObject} {list : List ListedObject}

theorem ListedObject.data_slots (e : ListedObject) : e.data.slots + 1 = e.places := by
  have attrs : (e.attrs.map fun item => (attrAccessData item).slots) = e.attrs.map fun _ => 3 := rfl
  have methods : (e.methods.map fun item => (methodAccessData item).slots) = e.methods.map fun _ => 2 := rfl
  simp only [data, places, Data.slots, Data.slotsAll, Data.slotsAll_eq, List.map_map, Function.comp_def, attrs, methods,
    List.length_cons, List.length_nil, List.length_map, List.map_const', List.sum_replicate_nat]
  omega

theorem objectListData_slots : (objectListData list).slots = ((writtenEntries list).map ListedObject.places).sum := by
  rw [objectListData, Data.slots, List.length_map, Data.slotsAll_eq, List.map_map]
  generalize writtenEntries list = entries
  induction entries with
  | nil => rfl
  | cons e entries ih =>
    have first := e.data_slots
    simp only [List.length_cons, List.map_cons, List.sum_cons, Function.comp_apply] at ih ⊢
    omega

theorem byte_lt (byte : UInt8) : byte.toNat < 256 ^ 1 := byte.toNat_lt

theorem ListedObject.data_fits (small : e.classId < 2 ^ 16) : e.data.Fits := by
  have attrs : e.attrs.length ≤ 16 := by simp [ListedObject.attrs, maxAccessItems]
  have methods : e.methods.length ≤ 16 := by simp [ListedObject.methods, maxMethodItems]
  have attrItems : ∀ item ∈ e.attrs, (attrAccessData item).Fits := by
    intro item _
    exact ⟨show 3 ≤ 16 by decide, byte_lt item.1, byte_lt item.2.code, trivial, trivial⟩
  have methodItems : ∀ item ∈ e.methods, (methodAccessData item).Fits := by
    intro item _
    exact ⟨show 2 ≤ 16 by decide, byte_lt item.1, byte_lt item.2.code, trivial⟩
  have rights : Data.FitAll (e.attrs.map attrAccessData) ∧ Data.FitAll (e.methods.map methodAccessData) := by
    rw [Data.fitAll_iff, Data.fitAll_iff, List.forall_mem_map, List.forall_mem_map]
    exact ⟨attrItems, methodItems⟩
  refine ⟨show 4 ≤ 16 by decide, small, byte_lt e.version, ?_,
    ⟨show 2 ≤ 16 by decide, ⟨?_, rights.1⟩, ⟨?_, rights.2⟩, trivial⟩, trivial⟩
  · simp [Data.Fits, StringKind.maxLen]
  · simp only [List.length_map, NestKind.maxLen]
    omega
  · simp only [List.length_map, NestKind.maxLen]
    omega

theorem objectListData_fits (small : ∀ e ∈ list, e.classId < 2 ^ 16) : (objectListData list).Fits := by
  refine ⟨?_, Data.fitAll_iff.mpr ?_⟩
  · simp [writtenEntries, maxObjectList, NestKind.maxLen]
  · rw [List.forall_mem_map]
    intro e member
    exact ListedObject.data_fits (small e (List.mem_of_mem_take (List.mem_of_mem_take member)))

end ObjectList

/-! ### Reading them back -/

def ListedObject.asRead (e : ListedObject) : ReadObject :=
  ⟨e.classId, e.version.toNat, e.logicalName.toList, e.attrItems.map fun item => (item.1.toNat, item.2.code.toNat),
    e.methodItems.map fun item => (item.1.toNat, item.2.code.toNat)⟩

section Reading

variable {memory : ℕ → Value} {value : Value} {start : ℕ}

/-- The items of an array are read one by one. -/
theorem icReadItems_held {α β : Type} {read : Value → Option β} {content : α → Data} {out : α → β} {items : List α}
    (each : ∀ item ∈ items, ∀ value, (content item).Held .univ memory value → read value = some (out item))
    (held : Data.HeldAll .univ memory (items.map content) start) :
    icReadItems memory read start items.length = some (items.map out) := by
  induction items generalizing start with
  | nil => rfl
  | cons item items ih =>
    obtain ⟨-, first, others⟩ := held
    have rest := ih (fun item member => each item (List.mem_cons_of_mem _ member)) others
    rw [icReadItems] at rest ⊢
    rw [List.length_cons, List.range'_succ, List.mapM_cons, each item List.mem_cons_self _ first, rest]
    rfl

/-- An item of an access right starts with its id and its mode, whatever follows. -/
theorem icReadAccessItem_held {id mode : UInt8} {more : List Data} (held : (Data.nest .struct
    (.scalar .integer id.toNat :: .scalar .enum mode.toNat :: more)).Held .univ memory value) :
    icReadAccessItem memory value = some (id.toNat, mode.toNat) := by
  obtain ⟨first, rfl, -, id, -, mode, -⟩ := held
  have id : memory first = .scalar .integer _ := id
  have mode : memory (first + 1) = .scalar .enum _ := mode
  simp [icReadAccessItem, NestKind.value, id, mode, Value.number]

theorem icReadObject_held {e : ListedObject} (attrs : e.attrItems.length ≤ maxAccessItems)
    (methods : e.methodItems.length ≤ maxMethodItems) (held : e.data.Held .univ memory value) :
    icReadObject memory value = some e.asRead := by
  obtain ⟨first, rfl, -, classId, -, version, -, name, -, ⟨rights, right, -, ⟨attr, attrArray, attrHeld⟩, -,
    ⟨method, methodArray, methodHeld⟩, -⟩, -⟩ := held
  have classId : memory first = .scalar .longUnsigned _ := classId
  have version : memory (first + 1) = .scalar .unsigned _ := version
  have name : memory (first + 2) = .octetString _ := name
  have right : memory (first + 3) = .struct rights 2 := right
  have all : e.attrs = e.attrItems ∧ e.methods = e.methodItems :=
    ⟨List.take_of_length_le attrs, List.take_of_length_le methods⟩
  rw [all.1] at attrArray attrHeld
  rw [all.2] at methodArray methodHeld
  have attrItems := icReadItems_held (fun item _ _ => icReadAccessItem_held) attrHeld
  have methodItems := icReadItems_held (fun item _ _ => icReadAccessItem_held) methodHeld
  rw [List.length_map] at attrArray methodArray
  have attrArray : memory rights = .array attr _ := attrArray
  have methodArray : memory (rights + 1) = .array method _ := methodArray
  simp [icReadObject, NestKind.value, name, right, icReadAccessRight, attrArray, methodArray, min_eq_left attrs,
    min_eq_left methods, attrItems, methodItems, classId, version, Value.number, guard, ListedObject.asRead]

end Reading

/-- What is written for an object list and then decoded is read as the same entries. -/
theorem object_list_round_trip {list : List ListedObject} (few : list.length ≤ maxObjectList)
    (items : ∀ e ∈ list, e.attrItems.length ≤ maxAccessItems ∧ e.methodItems.length ≤ maxMethodItems)
    (small : ∀ e ∈ list, e.classId < 2 ^ 16) {b c : WBuf} (wrote : objectListWrite list b = .ok () c) :
    ∃ bytes, c.out = b.out ++ bytes ∧ ∀ (r after : Reader) (old value : Value), r.buf.Offers bytes →
      valueRead old r = ((.ok, value), after) →
      icReadObjectList after.pool.slots value = some (list.map ListedObject.asRead) := by
  refine ⟨_, ((objectListWrite_writes list).of_ok wrote).2.1, fun r after old value offers read => ?_⟩
  obtain ⟨start, rfl, held⟩ := (valueRead_denotes (objectListData_fits small).sized offers read).2
  have whole : writtenEntries list = list := by
    rw [writtenEntries, List.take_of_length_le few, List.take_of_length_le (few.trans (by decide))]
  rw [whole] at held ⊢
  have entries := icReadItems_held (fun e member _ => icReadObject_held (items e member).1 (items e member).2) held
  rw [List.length_map]
  change icReadItems _ _ start (min list.length maxObjectList) = _
  rw [min_eq_left few]
  exact entries

/-! ## The tables of a server -/

/-- A profile buffer with simple cells is written and read back exactly when each row has at most as many cells as a
decoded structure and rows and cells fit into the pool; an object list exactly when the places of its entries do. -/
theorem list_attributes_decoded_iff {memory : Pool} {view : ProfileBufferView} {rows : List (List Data)}
    (denotes : view.Denotes memory rows) (fits : ∀ cells ∈ rows, ∀ cell ∈ cells, cell.FitsList)
    {list : List ListedObject} (small : ∀ e ∈ list, e.classId < 2 ^ 16) :
    DecodedWhen (refWrite (profileBufferWrite memory view)) (profileData rows)
        ((∀ cells ∈ rows, cells.length ≤ NestKind.struct.maxLen) ∧
          rows.length + (rows.map List.length).sum ≤ poolLen) ∧
      DecodedWhen (refWrite (objectListWrite list)) (objectListData list)
        (((writtenEntries list).map ListedObject.places).sum ≤ poolLen) := by
  constructor
  · have few := view.length_selected
    rw [denotes.length_eq] at few
    apply DecodedWhen.of_puts (profileBufferWrite_puts denotes fits) (profileData_sized denotes fits)
    rw [profileData_fits_iff few fits, profileData_slots fits]
  · have fits := objectListData_fits small
    apply DecodedWhen.of_puts (objectListWrite_writes list).appends fits.sized
    rw [and_iff_right fits, objectListData_slots]

def narrowView : ProfileBufferView := ⟨[⟨[.scalar .unsigned 1, .null]⟩], 0, 0⟩

/-- The association's own entry: two attributes may be read, one method may be called. -/
def associationEntry : ListedObject :=
  { classId := 15
    logicalName := Vector.replicate 6 0
    attrItems := [(1, .readOnly), (2, .readOnly)]
    methodItems := [(1, .access)]
    version := 1 }

theorem list_attributes_decoded_iff_samples :
    DecodedWhen (refWrite (profileBufferWrite Pool.empty narrowView)) (profileData [[.scalar .unsigned 1, .null]])
        ((∀ cells ∈ [[Data.scalar .unsigned 1, .null]], cells.length ≤ NestKind.struct.maxLen) ∧
          [[Data.scalar .unsigned 1, .null]].length + ([[Data.scalar .unsigned 1, .null]].map List.length).sum ≤ poolLen) ∧
      DecodedWhen (refWrite (objectListWrite [associationEntry])) (objectListData [associationEntry])
        (((writtenEntries [associationEntry]).map ListedObject.places).sum ≤ poolLen) := by
  apply list_attributes_decoded_iff
  · exact .cons (.cons rfl (.cons rfl .nil)) .nil
  · simp [Data.FitsList, Data.Fits, Data.Flat, scalarBound, ScalarKind.size]
  · simp [associationEntry]

theorem object_list_round_trip_entry :
    ∃ value after, valueRead .null ⟨Buf.ofBytes (objectListData [associationEntry]).encode, Pool.empty⟩ =
        ((.ok, value), after) ∧
      icReadObjectList after.pool.slots value = some [associationEntry.asRead] := by
  have ok : (valueRead .null ⟨Buf.ofBytes (objectListData [associationEntry]).encode, Pool.empty⟩).1.1 = .ok := by
    decide +kernel
  obtain ⟨⟨err, value⟩, after, read⟩ : ∃ result after,
      valueRead .null ⟨Buf.ofBytes (objectListData [associationEntry]).encode, Pool.empty⟩ = (result, after) := ⟨_, _, rfl⟩
  rw [read] at ok
  obtain rfl : err = .ok := ok
  obtain ⟨bytes, out, reads⟩ := @object_list_round_trip [associationEntry] (by decide) (by decide) (by decide)
    (WBuf.init 64) _ rfl
  obtain rfl : (objectListData [associationEntry]).encode = bytes := out
  exact ⟨value, after, read, reads _ _ _ _ (.ofBytes (by decide)) read⟩

/-- A buffer with a row of 17 cells, which the encoder's table has room for. -/
def wideView : ProfileBufferView := ⟨[⟨List.replicate 17 .null⟩], 0, 0⟩

/-- The row is written in full, and its decoding fails. -/
theorem wide_row_refused :
    wideView.rows.length ≤ maxBufferRows ∧ (∀ row ∈ wideView.rows, row.cells.length ≤ maxCaptureObjects) ∧
    ∃ c, refWrite (profileBufferWrite Pool.empty wideView) (WBuf.init 64) = .ok () c ∧
      c.out = (profileData [List.replicate 17 .null]).encode ∧
      (valueRead .null ⟨Buf.ofBytes (profileData [List.replicate 17 .null]).encode, Pool.empty⟩).1.1 = .nomem := by
  refine ⟨by decide, by simp [wideView, maxCaptureObjects], _, rfl, rfl, ?_⟩
  decide +kernel

end OpenSpodes
