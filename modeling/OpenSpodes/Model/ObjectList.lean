import OpenSpodes.Model.Dispatcher
import OpenSpodes.ToMathlib.ArrayPrefix

/-! # The object list of an association

`osp_object_list_t` is an array with a count. `Association` holds the entries in use as a list; here is
the array itself, with the calls that add and remove entries. The capacity is set at build time, so it is
that of the array at hand.
-/

namespace OpenSpodes

/-- Whether an entry is the one of an object. -/
def ObjectListElement.names (e : ObjectListElement) (classId : ℕ) (ln : Obis) : Bool :=
  e.classId == classId && e.logicalName == ln

/-- `osp_object_list_t`. -/
abbrev ObjectList := ArrayPrefix ObjectListElement

namespace ObjectList

/-- The zeroed list of a fresh association. -/
def init (capacity : ℕ) : ObjectList :=
  ArrayPrefix.empty capacity ⟨0, Vector.replicate 6 0, [], []⟩

/-- `find_index`. -/
def findIndex (list : ObjectList) (classId : ℕ) (ln : Obis) : Option ℕ :=
  ArrayPrefix.findIndex (·.names classId ln) list

/-- `osp_ic_association_ln_add_object`. -/
def addObject (list : ObjectList) (elem : ObjectListElement) : Err × ObjectList :=
  match list.push elem with
  | none => (.nomem, list)
  | some longer => (.ok, longer)

/-- `osp_ic_association_ln_remove_object`. -/
def removeObject (list : ObjectList) (classId : ℕ) (ln : Obis) : Err × ObjectList :=
  match list.findIndex classId ln with
  | none => (.notFound, list)
  | some idx => (.ok, list.removeAt idx)

end ObjectList

/-- An association whose object list is the given array. -/
def Association.withList (a : Association) (list : ObjectList) : Association :=
  { a with objectList := list.used }

end OpenSpodes
