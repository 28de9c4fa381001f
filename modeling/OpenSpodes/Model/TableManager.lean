import OpenSpodes.Model.Value
import OpenSpodes.ToMathlib.ArrayPrefix

/-! # The Table Manager class

`ic/table_manager.c` with the helpers of `ic/spodus_helpers.c` it uses, without a data HAL. A table holds rows
of at most sixteen fields, one of which is the key. Rows are copies of the structures that a method receives;
an answer refers to rows of the table.
-/

namespace OpenSpodes

/-- The items of an array or a structure. -/
def Pool.items (pool : Pool) (start count : ℕ) : List Value :=
  (List.range count).map fun i => pool.slots (start + i)

/-- `osp_ic_value_eq`. -/
def icValueEq (a b : Value) : Bool :=
  match a, b with
  | .null, .null => true
  | .octetString x, .octetString y => x == y
  | .scalar .unsigned x, .scalar .unsigned y => x == y
  | .scalar .longUnsigned x, .scalar .longUnsigned y => x == y
  | .scalar .doubleLongUnsigned x, .scalar .doubleLongUnsigned y => x == y
  | .scalar .integer x, .scalar .integer y => x == y
  | .scalar .long x, .scalar .long y => x == y
  | .scalar .doubleLong x, .scalar .doubleLong y => x == y
  | _, _ => false

/-- `osp_ic_row_t`. -/
abbrev Row := { fields : List Value // fields.length ≤ 16 }

/-- `osp_ic_row_key`. -/
def icRowKey (row : Row) (keyIndex : UInt8) : Option Value := row.val[keyIndex.toNat]?

/-- `osp_ic_value_to_row`. -/
def icValueToRow (pool : Pool) (value : Value) : Except Err Row :=
  match value with
  | .struct start count =>
      if fits : count ≤ 16 then .ok ⟨pool.items start count, by simpa [Pool.items] using fits⟩ else .error .nomem
  | _ => .error .invalid

/-- `osp_ic_spodus_parse_entries_list`: the second field of a structure, an array of at most 32 entries. -/
def parseEntriesList (pool : Pool) (param : Value) : Except Err (List Value) :=
  match param with
  | .struct start count =>
      if 1 < count then
        match pool.slots (start + 1) with
        | .array first n => if n > 32 then .error .nomem else .ok (pool.items first n)
        | _ => .error .invalid
      else .error .invalid
  | _ => .error .invalid

/-- `osp_ic_table_manager_t`. -/
structure TableManager where
  keyIndex : UInt8
  rows : ArrayPrefix Row

/-- What a method leaves in its result. -/
inductive TableAnswer
  | untouched
  | count (n : ℕ)
  | rows (found : List Row)
  deriving DecidableEq

namespace TableManager

/-- `osp_ic_table_manager_init` and `osp_ic_table_manager_set_key_index`. -/
def init (keyIndex : UInt8) : TableManager := ⟨keyIndex, ArrayPrefix.empty 32 ⟨[], Nat.zero_le 16⟩⟩

/-- Whether a row has a key that compares equal. -/
def rowMatches (keyIndex : UInt8) (key : Value) (row : Row) : Bool :=
  ((icRowKey row keyIndex).map (icValueEq · key)).getD false

/-- `find_row_index`. -/
def findRowIndex (tm : TableManager) (key : Value) : Option ℕ := tm.rows.findIndex (rowMatches tm.keyIndex key)

/-- One round of the loop of `tm_add_update`. -/
def addUpdateRow (tm : TableManager) (row : Row) : Err × TableManager :=
  match icRowKey row tm.keyIndex with
  | none => (.invalid, tm)
  | some key =>
      match tm.findRowIndex key with
      | some i => (.ok, { tm with rows := tm.rows.setAt i row })
      | none =>
          match tm.rows.push row with
          | some rows => (.ok, { tm with rows := rows })
          | none => (.nomem, tm)

/-- `tm_add_update`. -/
def addUpdate (pool : Pool) : List Value → TableManager → Err × TableManager
  | [], tm => (.ok, tm)
  | entry :: entries, tm =>
      match icValueToRow pool entry with
      | .error err => (err, tm)
      | .ok row =>
          match tm.addUpdateRow row with
          | (.ok, next) => addUpdate pool entries next
          | (err, next) => (err, next)

/-- `tm_remove`: without keys it removes every row. -/
def remove (keys : List Value) (tm : TableManager) : TableManager :=
  if keys = [] then { tm with rows := tm.rows.clear }
  else { tm with rows := tm.rows.compact fun row => !keys.any fun key => rowMatches tm.keyIndex key row }

/-- `tm_retrieve`: without keys it returns every row. -/
def retrieve (keys : List Value) (tm : TableManager) : List Row :=
  if keys = [] then tm.rows.used.take 32
  else (keys.filterMap fun key => (tm.findRowIndex key).bind fun i => tm.rows.cells[i]?).take 32

/-- `tm_invoke`. -/
def invoke (pool : Pool) (tm : TableManager) (methodId : UInt8) (param : Value) :
    (Err × TableAnswer) × TableManager :=
  match methodId with
  | 1 =>
      match parseEntriesList pool param with
      | .error _ => ((.invalid, .untouched), tm)
      | .ok entries =>
          let (err, next) := addUpdate pool entries tm
          ((err, .untouched), next)
  | 2 =>
      match parseEntriesList pool param with
      | .error _ => ((.invalid, .untouched), tm)
      | .ok keys => ((.ok, .untouched), remove keys tm)
  | 3 => ((.ok, .count tm.rows.count), tm)
  | 4 =>
      match parseEntriesList pool param with
      | .error _ => ((.invalid, .untouched), tm)
      | .ok keys => ((.ok, .rows (retrieve keys tm)), tm)
  | _ => ((.notFound, .untouched), tm)

end TableManager

end OpenSpodes
