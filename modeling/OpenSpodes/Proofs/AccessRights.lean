import OpenSpodes.Model.ObjectList

/-! # What an object list grants

The three access checks search the object list for the entry of the object and the entry for the
attribute or method. Here is what they decide, in terms of the first entry and its first item, and how
the searched entry changes when an object is removed.
-/

namespace OpenSpodes

/-- The modes under which an attribute may be read. -/
def AttrAccess.reads (authenticated : Bool) : AttrAccess → Bool
  | .readOnly | .readWrite => true
  | .authReadOnly | .authReadWrite => authenticated
  | .noAccess | .writeOnly | .authWriteOnly => false

/-- The modes under which an attribute may be written. -/
def AttrAccess.writes (authenticated : Bool) : AttrAccess → Bool
  | .writeOnly | .readWrite => true
  | .authWriteOnly | .authReadWrite => authenticated
  | .noAccess | .readOnly | .authReadOnly => false

/-- The modes under which a method may be invoked. -/
def MethodAccess.invokes (authenticated : Bool) : MethodAccess → Bool
  | .access => true
  | .authenticatedAccess => authenticated
  | .noAccess => false

/-- The first item for an id has a mode that grants the operation. -/
def ItemGrants {mode : Type} (items : List (UInt8 × mode)) (id : UInt8) (grants : mode → Bool) : Prop :=
  ∃ m, List.IsFirst (·.1 == id) items (id, m) ∧ grants m = true

theorem itemGrants_iff {mode : Type} {items : List (UInt8 × mode)} {id : UInt8} {grants : mode → Bool} :
    ItemGrants items id grants ↔ ((items.find? (·.1 == id)).map fun item => grants item.2).getD false = true := by
  simp only [ItemGrants, List.isFirst_iff]
  cases found : items.find? (·.1 == id) with
  | none => simp
  | some item =>
    obtain ⟨key, m⟩ := item
    have same : key = id := by simpa using List.find?_some found
    simp [same]

namespace Association

variable {a : Association} {classId : ℕ} {ln : Obis} {id : UInt8}

theorem attrMode_iff {grants : AttrAccess → Bool} (closed : grants .noAccess = false) :
    grants (a.attrMode classId ln id) = true ↔
      ∃ e, a.findObject classId ln = some e ∧ ItemGrants e.attrItems id grants := by
  simp only [itemGrants_iff, attrMode]
  cases a.findObject classId ln with
  | none => simp [closed]
  | some e => cases found : e.attrItems.find? (·.1 == id) <;> simp [found, closed]

theorem canRead_iff : a.canRead classId ln id = true ↔
      ∃ e, a.findObject classId ln = some e ∧ ItemGrants e.attrItems id (AttrAccess.reads a.authenticated) := by
  rw [← attrMode_iff rfl, canRead]
  cases a.attrMode classId ln id <;> rfl

theorem canWrite_iff : a.canWrite classId ln id = true ↔ ∃ e, a.findObject classId ln = some e ∧
        ItemGrants e.attrItems id (AttrAccess.writes a.authenticated) := by
  rw [← attrMode_iff rfl, canWrite]
  cases a.attrMode classId ln id <;> rfl

theorem canInvoke_iff : a.canInvoke classId ln id = true ↔ ∃ e, a.findObject classId ln = some e ∧
        ItemGrants e.methodItems id (MethodAccess.invokes a.authenticated) := by
  simp only [itemGrants_iff, canInvoke]
  cases a.findObject classId ln with
  | none => simp
  | some e =>
    simp only [Option.some.injEq, exists_eq_left']
    cases e.methodItems.find? (·.1 == id) with
    | none => simp
    | some item =>
      obtain ⟨key, mode⟩ := item
      cases mode <;> simp [MethodAccess.invokes]

theorem findObject_iff {e : ObjectListElement} :
    a.findObject classId ln = some e ↔ List.IsFirst (·.names classId ln) a.objectList e :=
  List.isFirst_iff.symm

end Association

namespace ObjectList

variable {list removed : ObjectList} {classId : ℕ} {ln : Obis}

/-- Removing an object takes its first entry out of the list. -/
theorem used_removeObject (done : list.removeObject classId ln = (.ok, removed)) :
    removed.used = list.used.eraseP (·.names classId ln) := by
  unfold removeObject at done
  split at done
  · cases done
  · next idx found =>
      obtain ⟨-, rfl⟩ := Prod.mk.inj done
      rw [findIndex, ArrayPrefix.findIndex_eq] at found
      have bound : idx < list.used.length := by
        obtain ⟨bound, -⟩ := List.findIdx?_eq_some_iff_getElem.mp found
        exact bound
      have counted : idx < list.count := by
        rw [ArrayPrefix.used, List.length_take] at bound
        omega
      rw [ArrayPrefix.used_removeAt counted, List.eraseP_eq_eraseIdx, found]

end ObjectList

end OpenSpodes
