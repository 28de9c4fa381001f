import OpenSpodes.Proofs.AccessRights

/-! # Access control of the dispatcher

The dispatcher passes a call to an object only when the association in force grants it: the first entry
of its object list for the object has a first item for the attribute or method whose mode allows the
operation. The object itself is arbitrary, so "not called" says that the outcome is one error whatever
the classes would have done.

Removing an object from the list takes the first of its entries away. Nothing stops an object from being
added twice, and then the second entry is in force after the removal.
-/

namespace OpenSpodes

variable {σ : Type}

/-- The first entry of the list for an object has a property. -/
def FirstEntry (list : ObjectList) (classId : ℕ) (ln : Obis) (holds : ObjectListElement → Prop) : Prop :=
  ∃ e, List.IsFirst (·.names classId ln) list.used e ∧ holds e

/-- A dispatcher call is passed on to an instance, which the rights allow, or refused with nothing
touched, whatever the classes do. -/
def Guarded {result : Type} (allowed : Prop) (call : Behaviour σ → result)
    (passed : ℕ → Behaviour σ → result) (refused : Err → result) : Prop :=
  (allowed ∧ ∃ inst, call = passed inst) ∨
    ∃ err, (err = .security ∨ err = .notFound) ∧ ∀ behaviour, call behaviour = refused err

theorem firstEntry_iff {a : Association} {list : ObjectList} {classId : ℕ} {ln : Obis} {holds : ObjectListElement → Prop}
    (shown : a.objectList = list.used) :
    FirstEntry list classId ln holds ↔ ∃ e, a.findObject classId ln = some e ∧ holds e := by
  simp only [Association.findObject_iff, shown, FirstEntry]

/-- The shape of the three dispatcher calls: find the object, its function, and the right to use it. -/
theorem guarded_of_checks {result : Type} {call : Behaviour σ → result} {passed : ℕ → Behaviour σ → result}
    {refused : Err → result} {allowed : Bool} (target : Option Entry) (has : Entry → Bool)
    (checks : ∀ behaviour, call behaviour =
      match target with
      | none => refused .notFound
      | some e =>
        if !has e then refused .notFound
        else if !allowed then refused .security
        else passed e.inst behaviour) :
    Guarded (allowed = true) call passed refused := by
  obtain rfl : call = _ := funext checks
  cases target with
  | none => exact .inr ⟨.notFound, .inr rfl, fun _ => rfl⟩
  | some e =>
    cases function : has e with
    | false => exact .inr ⟨.notFound, .inr rfl, fun _ => by simp [function]⟩
    | true =>
      cases allowed with
      | false => exact .inr ⟨.security, .inl rfl, fun _ => by simp [function]⟩
      | true => exact .inl ⟨rfl, e.inst, by simp [function]⟩

/-- With an association in force, a get, set or action reaches an object only when the first entry of
the object list for it has a first item whose mode grants the operation, the authenticated modes only
from LLS on; any other call is refused with an access error or as not found, and no object is called. -/
theorem dispatcher_enforces_access (requireAcl : Bool) (list : ObjectList) (inst : ℕ) (objects : Objects σ)
    (a : Association) (in_force : (objects.instances inst).association = a.withList list)
    (d : Descriptor) (value old : Value) :
    Guarded
        (FirstEntry list d.classId d.instanceId fun e =>
          ItemGrants e.attrItems d.id (AttrAccess.reads (a.authenticationMechanism ≥ 1)))
        (dispatcherGet · requireAcl (some inst) d old objects)
        (fun target behaviour => behaviour.get target d.id old objects)
        (fun err => ((err, old), objects)) ∧
      Guarded
        (FirstEntry list d.classId d.instanceId fun e =>
          ItemGrants e.attrItems d.id (AttrAccess.writes (a.authenticationMechanism ≥ 1)))
        (dispatcherSet · requireAcl (some inst) d value objects)
        (fun target behaviour => behaviour.set target d.id value objects)
        (fun err => (err, objects)) ∧
      Guarded
        (FirstEntry list d.classId d.instanceId fun e =>
          ItemGrants e.methodItems d.id (MethodAccess.invokes (a.authenticationMechanism ≥ 1)))
        (dispatcherAction · requireAcl (some inst) d value old objects)
        (fun target behaviour => behaviour.invoke target d.id value old objects)
        (fun err => ((err, old, none), objects)) := by
  have shown : (objects.instances inst).association.objectList = list.used := by rw [in_force]; rfl
  have mechanism : (objects.instances inst).association.authenticated =
      decide (a.authenticationMechanism ≥ 1) := by
    rw [in_force]; rfl
  rw [← mechanism, firstEntry_iff shown, firstEntry_iff shown, firstEntry_iff shown, ← Association.canRead_iff,
    ← Association.canWrite_iff, ← Association.canInvoke_iff]
  refine ⟨?_, ?_, ?_⟩
  · exact guarded_of_checks (objects.find d.classId d.instanceId) Entry.hasGet fun _ => rfl
  · exact guarded_of_checks (objects.find d.classId d.instanceId) Entry.hasSet fun _ => rfl
  · exact guarded_of_checks (objects.find d.classId d.instanceId) Entry.hasInvoke fun _ => rfl

/-- The entry of a register whose value may be read. -/
def registerEntry : ObjectListElement := ⟨3, #v[1, 0, 1, 8, 0, 255], [(2, .readOnly)], []⟩

/-- The entry of a clock for authenticated clients. -/
def clockEntry : ObjectListElement := ⟨8, #v[0, 0, 1, 0, 0, 255], [(2, .authReadWrite)], [(1, .access)]⟩

/-- The list with the given entries added to an empty one. -/
def ObjectList.listing (entries : List ObjectListElement) : ObjectList :=
  entries.foldl (fun list e => (list.addObject e).2) (ObjectList.init 32)

/-- A list from which the register was removed again. -/
def clockOnly : ObjectList :=
  ((ObjectList.listing [registerEntry, clockEntry]).removeObject 3 registerEntry.logicalName).2

/-- Objects of which instance 0 is an association with the list `clockOnly`. -/
def clockObjects : Objects Unit where
  entries := [⟨15, true, true, true, 0⟩, ⟨8, true, true, true, 1⟩]
  instances inst :=
    if inst = 0 then ⟨#v[0, 0, 40, 0, 3, 255], ({} : Association).withList clockOnly⟩
    else ⟨clockEntry.logicalName, {}⟩
  pool := Pool.empty
  hidden := ()

theorem dispatcher_enforces_access_clock :
    Guarded
      (FirstEntry clockOnly 8 clockEntry.logicalName fun e =>
        ItemGrants e.attrItems 2 (AttrAccess.reads false))
      (dispatcherGet · false (some 0) ⟨8, clockEntry.logicalName, 2⟩ .null clockObjects)
      (fun target behaviour => behaviour.get target 2 .null clockObjects)
      (fun err => ((err, .null), clockObjects)) :=
  (dispatcher_enforces_access false clockOnly 0 clockObjects {} rfl ⟨8, clockEntry.logicalName, 2⟩
    .null .null).1

/-! ## Revocation -/

def ObjectList.secondEntry (list : ObjectList) (classId : ℕ) (ln : Obis) : Option ObjectListElement :=
  (list.used.filter (·.names classId ln))[1]?

def ObjectListElement.GrantsNothing (e : ObjectListElement) (authenticated : Bool) : Prop :=
  ∀ id, ¬ItemGrants e.attrItems id (AttrAccess.reads authenticated) ∧
    ¬ItemGrants e.attrItems id (AttrAccess.writes authenticated) ∧
    ¬ItemGrants e.methodItems id (MethodAccess.invokes authenticated)

section Revocation

variable {a : Association} {list removed : ObjectList} {classId : ℕ} {ln : Obis}

theorem findObject_removed (done : list.removeObject classId ln = (.ok, removed)) :
    (a.withList removed).findObject classId ln = list.secondEntry classId ln := by
  show removed.used.find? (·.names classId ln) = _
  rw [ObjectList.used_removeObject done, List.find?_eraseP_self]
  rfl

theorem refuses_all_iff : (∀ id, a.canRead classId ln id = false ∧ a.canWrite classId ln id = false ∧
        a.canInvoke classId ln id = false) ↔
      ∀ e, a.findObject classId ln = some e → e.GrantsNothing a.authenticated := by
  simp only [← Bool.not_eq_true, Association.canRead_iff, Association.canWrite_iff, Association.canInvoke_iff]
  constructor
  · intro refused e found id
    obtain ⟨read, write, invoke⟩ := refused id
    exact ⟨fun grants => read ⟨e, found, grants⟩, fun grants => write ⟨e, found, grants⟩,
      fun grants => invoke ⟨e, found, grants⟩⟩
  · intro nothing id
    refine ⟨?_, ?_, ?_⟩
    · rintro ⟨e, found, grants⟩
      exact (nothing e found id).1 grants
    · rintro ⟨e, found, grants⟩
      exact (nothing e found id).2.1 grants
    · rintro ⟨e, found, grants⟩
      exact (nothing e found id).2.2 grants

end Revocation

/-- A removal revokes all access to the object exactly when the list has no second entry for it that
grants something; the answers for every other object stay as they were. -/
theorem access_revoked_iff (a : Association) (list removed : ObjectList) (classId : ℕ) (ln : Obis)
    (done : list.removeObject classId ln = (.ok, removed)) :
    ((∀ id, (a.withList removed).canRead classId ln id = false ∧ (a.withList removed).canWrite classId ln id = false ∧
          (a.withList removed).canInvoke classId ln id = false) ↔
        ∀ e, list.secondEntry classId ln = some e → e.GrantsNothing (a.authenticationMechanism ≥ 1)) ∧
      ∀ otherClass otherLn, (otherClass, otherLn) ≠ (classId, ln) → ∀ id,
        (a.withList removed).canRead otherClass otherLn id = (a.withList list).canRead otherClass otherLn id ∧
          (a.withList removed).canWrite otherClass otherLn id = (a.withList list).canWrite otherClass otherLn id ∧
          (a.withList removed).canInvoke otherClass otherLn id = (a.withList list).canInvoke otherClass otherLn id := by
  constructor
  · rw [refuses_all_iff, findObject_removed done]
    rfl
  · intro otherClass otherLn other id
    have same : (a.withList removed).findObject otherClass otherLn = (a.withList list).findObject otherClass otherLn := by
      show removed.used.find? (·.names otherClass otherLn) = list.used.find? (·.names otherClass otherLn)
      rw [ObjectList.used_removeObject done]
      refine List.find?_eraseP_of_disjoint (fun e named => ?_) list.used
      simp only [ObjectListElement.names, Bool.and_eq_true, beq_iff_eq] at named
      obtain ⟨rfl, rfl⟩ := named
      by_contra also
      simp only [ObjectListElement.names, Bool.not_eq_false, Bool.and_eq_true, beq_iff_eq] at also
      exact other (by rw [also.1, also.2])
    refine ⟨?_, ?_, ?_⟩
    · rw [Bool.eq_iff_iff, Association.canRead_iff, Association.canRead_iff, same]; rfl
    · rw [Bool.eq_iff_iff, Association.canWrite_iff, Association.canWrite_iff, same]; rfl
    · rw [Bool.eq_iff_iff, Association.canInvoke_iff, Association.canInvoke_iff, same]; rfl

theorem access_revoked_iff_register :
    (({} : Association).withList clockOnly).canRead 3 registerEntry.logicalName 2 = false ∧
      (({} : Association).withList clockOnly).canWrite 3 registerEntry.logicalName 2 = false ∧
      (({} : Association).withList clockOnly).canInvoke 3 registerEntry.logicalName 2 = false :=
  (access_revoked_iff {} (ObjectList.listing [registerEntry, clockEntry]) clockOnly 3
    registerEntry.logicalName rfl).1.mpr (fun _ second => by cases second) 2

/-- An object added twice can still be read after its removal. -/
theorem access_not_revoked :
    ((ObjectList.listing [registerEntry, registerEntry]).removeObject 3 registerEntry.logicalName).1 = .ok ∧
      (({} : Association).withList ((ObjectList.listing [registerEntry, registerEntry]).removeObject 3
            registerEntry.logicalName).2).canRead 3 registerEntry.logicalName 2 = true := by
  decide

end OpenSpodes
