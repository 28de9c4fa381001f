import OpenSpodes.Model.Dispatcher

/-! # Attributes that are written from their tables

A buffer of a Profile Generic object and the object list of an association are not kept as tagged values. The value of
such an attribute is a reference to the table, and writing it puts an array of structures straight from there. The
limits of the tables are those of the encoder; the decoder of tagged values has its own.
-/

namespace OpenSpodes

open Bytes Machine.Fallible

/-- `osp_struct_begin`. -/
def structBegin (numFields : ℕ) : Write Unit := do
  axdrWriteU8 2
  dlmsWriteLen numFields

/-- `osp_array_begin`. -/
def arrayBegin (count : ℕ) : Write Unit := do
  axdrWriteU8 1
  dlmsWriteLen count

/-- `osp_value_write` of a reference to a table: the tag of the reference is written, taken back and replaced by what
the table writes. -/
def refWrite (table : Write Unit) : Write Unit := do
  needFree 1 .invalid
  table

/-! ## Profile buffers -/

/-- `OSP_MAX_BUFFER_ROWS`. -/
def maxBufferRows : ℕ := 32

/-- `OSP_MAX_CAPTURE_OBJECTS`. -/
def maxCaptureObjects : ℕ := 32

/-- `osp_profile_row_t`: the cells in use. -/
structure ProfileRow where
  cells : List Value

/-- `osp_profile_buffer_view_t` with the rows in use of its buffer; a bound of 0 is none. -/
structure ProfileBufferView where
  rows : List ProfileRow
  fromEntry : ℕ
  toEntry : ℕ

namespace ProfileBufferView

/-- Whether the entry with this number, counted from 1, is asked for. -/
def covers (view : ProfileBufferView) (entry : ℕ) : Bool :=
  !(view.fromEntry != 0 && entry < view.fromEntry) && !(view.toEntry != 0 && entry > view.toEntry)

/-- The rows that are written. -/
def selected (view : ProfileBufferView) : List ProfileRow :=
  (((view.rows.take maxBufferRows).zipIdx 1).filter fun row => view.covers row.2).map Prod.fst

end ProfileBufferView

/-- `osp_profile_buffer_write`, for cells whose items lie in the given memory. -/
def profileBufferWrite (memory : Pool) (view : ProfileBufferView) : Write Unit := do
  arrayBegin view.selected.length
  view.selected.forM fun row => do
    let cells := row.cells.take maxCaptureObjects
    structBegin cells.length
    cells.forM (valueWrite memory)

/-! ## Object lists -/

/-- `OSP_MAX_OBJECT_LIST`. -/
def maxObjectList : ℕ := 32

/-- `OSP_MAX_ACCESS_ITEMS`. -/
def maxAccessItems : ℕ := 16

/-- `OSP_MAX_METHOD_ITEMS`. -/
def maxMethodItems : ℕ := 16

def AttrAccess.code : AttrAccess → UInt8
  | noAccess => 0
  | readOnly => 1
  | writeOnly => 2
  | readWrite => 3
  | authReadOnly => 4
  | authWriteOnly => 5
  | authReadWrite => 6

def MethodAccess.code : MethodAccess → UInt8
  | noAccess => 0
  | access => 1
  | authenticatedAccess => 2

/-- `osp_object_list_element_t` with its version. -/
structure ListedObject extends ObjectListElement where
  version : UInt8

/-- The attribute items that are written. -/
def ListedObject.attrs (e : ListedObject) : List (UInt8 × AttrAccess) := e.attrItems.take maxAccessItems

/-- The method items that are written. -/
def ListedObject.methods (e : ListedObject) : List (UInt8 × MethodAccess) := e.methodItems.take maxMethodItems

/-- `osp_access_right_write`; access selectors are always null. -/
def accessRightWrite (e : ListedObject) : Write Unit := do
  structBegin 2
  arrayBegin e.attrs.length
  e.attrs.forM fun item => do
    structBegin 3
    axdrWriteU8 15
    axdrWriteU8 item.1
    axdrWriteU8 22
    axdrWriteU8 item.2.code
    axdrWriteU8 0
  arrayBegin e.methods.length
  e.methods.forM fun item => do
    structBegin 2
    axdrWriteU8 15
    axdrWriteU8 item.1
    axdrWriteU8 22
    axdrWriteU8 item.2.code

/-- `osp_object_list_write`. -/
def objectListWrite (list : List ListedObject) : Write Unit := do
  let entries := (list.take maxObjectList).take 255
  arrayBegin entries.length
  entries.forM fun e => do
    structBegin 4
    axdrWriteU8 18
    axdrWriteU16 e.classId
    axdrWriteU8 17
    axdrWriteU8 e.version
    axdrWriteU8 9
    axdrWriteOctetString e.logicalName.toList
    accessRightWrite e

/-! ### Reading an object list -/

/-- `osp_get_u8`, `osp_get_i8`, `osp_get_u16` and `osp_get_enum`: the number of a value of the kind, 0 of any other. -/
def Value.number (kind : ScalarKind) : Value → ℕ
  | .scalar found content => if found = kind then content else 0
  | _ => 0

/-- `osp_object_list_element_t` as it is read: an access mode is stored with whatever code it has. -/
structure ReadObject where
  classId : ℕ
  version : ℕ
  logicalName : List UInt8
  attrItems : List (ℕ × ℕ)
  methodItems : List (ℕ × ℕ)
  deriving DecidableEq, Repr

section Reading

variable (memory : ℕ → Value)

/-- The loops over the items of an array; a refused item is OSP_ERR_INVALID. -/
def icReadItems {α : Type} (read : Value → Option α) (start count : ℕ) : Option (List α) :=
  (List.range' start count).mapM fun pos => read (memory pos)

/-- One turn of both loops of `osp_ic_read_access_right`. -/
def icReadAccessItem : Value → Option (ℕ × ℕ)
  | .struct first count =>
      if count < 2 then none else some ((memory first).number .integer, (memory (first + 1)).number .enum)
  | _ => none

/-- `osp_ic_read_access_right`. -/
def icReadAccessRight : Value → Option (List (ℕ × ℕ) × List (ℕ × ℕ))
  | .struct first count =>
      if count < 2 then none
      else match memory first, memory (first + 1) with
        | .array attrs attrCount, .array methods methodCount => do
            let attrItems ← icReadItems memory (icReadAccessItem memory) attrs (min attrCount maxAccessItems)
            let methodItems ← icReadItems memory (icReadAccessItem memory) methods (min methodCount maxMethodItems)
            return (attrItems, methodItems)
        | _, _ => none
  | _ => none

/-- One turn of `osp_ic_read_object_list`. -/
def icReadObject : Value → Option ReadObject
  | .struct first count =>
      if count < 4 then none
      else match memory (first + 2) with
        | .octetString name => do
            guard (name.length = 6)
            let (attrItems, methodItems) ← icReadAccessRight memory (memory (first + 3))
            return ⟨(memory first).number .longUnsigned, (memory (first + 1)).number .unsigned, name, attrItems, methodItems⟩
        | _ => none
  | _ => none

/-- `osp_ic_read_object_list`. -/
def icReadObjectList : Value → Option (List ReadObject)
  | .array start count => icReadItems memory (icReadObject memory) start (min count maxObjectList)
  | _ => none

end Reading

end OpenSpodes
