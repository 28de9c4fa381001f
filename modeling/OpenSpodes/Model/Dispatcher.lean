import OpenSpodes.Model.Xdms

/-! # Objects and their dispatcher

The dispatcher finds the addressed object and checks the access rights of the association in force
before it calls the object. What a class does is not fixed here: `Behaviour` is any get, set and
invoke function over the memory of all objects, the value pool included. Of an instance the server
itself reads the logical name and, in class 15, the association record.
-/

namespace OpenSpodes

/-- `osp_attr_access_t`. -/
inductive AttrAccess
  | noAccess | readOnly | writeOnly | readWrite | authReadOnly | authWriteOnly | authReadWrite
  deriving DecidableEq, Repr

/-- `osp_method_access_t`. -/
inductive MethodAccess
  | noAccess | access | authenticatedAccess
  deriving DecidableEq, Repr

/-- `osp_object_list_element_t`. -/
structure ObjectListElement where
  classId : ℕ
  logicalName : Obis
  attrItems : List (UInt8 × AttrAccess)
  methodItems : List (UInt8 × MethodAccess)
  deriving DecidableEq

/-- `osp_ic_association_ln_t` behind its logical name; `rest` is what the server only copies. -/
structure Association where
  objectList : List ObjectListElement := []
  clientSap : UInt8 := 0
  authenticationMechanism : UInt8 := 0
  secret : BytesUpTo 64 := BytesUpTo.empty 64
  associationStatus : UInt8 := 0
  rest : List UInt8 := []
  deriving DecidableEq

namespace Association

/-- `osp_ic_association_ln_find_object`. -/
def findObject (a : Association) (classId : ℕ) (ln : Obis) : Option ObjectListElement :=
  a.objectList.find? fun e => e.classId == classId && e.logicalName == ln

/-- Whether the association's mechanism authenticates the client. -/
def authenticated (a : Association) : Bool := a.authenticationMechanism ≥ 1

def attrMode (a : Association) (classId : ℕ) (ln : Obis) (attrId : UInt8) : AttrAccess :=
  match a.findObject classId ln with
  | none => .noAccess
  | some e => ((e.attrItems.find? (·.1 == attrId)).map (·.2)).getD .noAccess

/-- `osp_ic_association_ln_can_read`. -/
def canRead (a : Association) (classId : ℕ) (ln : Obis) (attrId : UInt8) : Bool :=
  match a.attrMode classId ln attrId with
  | .readOnly | .readWrite => true
  | .authReadOnly | .authReadWrite => a.authenticated
  | _ => false

/-- `osp_ic_association_ln_can_write`. -/
def canWrite (a : Association) (classId : ℕ) (ln : Obis) (attrId : UInt8) : Bool :=
  match a.attrMode classId ln attrId with
  | .writeOnly | .readWrite => true
  | .authWriteOnly | .authReadWrite => a.authenticated
  | _ => false

/-- `osp_ic_association_ln_can_invoke`. -/
def canInvoke (a : Association) (classId : ℕ) (ln : Obis) (methodId : UInt8) : Bool :=
  match a.findObject classId ln with
  | none => false
  | some e =>
      match e.methodItems.find? (·.1 == methodId) with
      | some (_, .access) => true
      | some (_, .authenticatedAccess) => a.authenticated
      | _ => false

end Association

/-- One instance: its logical name, and the association record when it is of class 15. -/
structure Instance where
  logicalName : Obis
  association : Association := {}
  deriving DecidableEq

/-- `osp_object_entry_t`: class, its functions, and the number of the instance. -/
structure Entry where
  classId : ℕ
  hasGet : Bool := true
  hasSet : Bool := true
  hasInvoke : Bool := true
  inst : ℕ
  deriving DecidableEq, Repr

/-- The memory of all objects: registered entries, instances, the value pool and the rest. -/
structure Objects (σ : Type) where
  entries : List Entry
  instances : ℕ → Instance
  pool : Pool
  hidden : σ

namespace Objects

variable {σ : Type}

def setInstance (objects : Objects σ) (inst : ℕ) (content : Instance) : Objects σ :=
  { objects with instances := fun i => if i = inst then content else objects.instances i }

/-- `find_object`. -/
def find (objects : Objects σ) (classId : ℕ) (obis : Obis) : Option Entry :=
  objects.entries.find? fun e =>
    e.classId == classId && (objects.instances e.inst).logicalName == obis

/-- The association instances in registration order. -/
def associations (objects : Objects σ) : List ℕ :=
  (objects.entries.filter fun e => e.classId == 15).map Entry.inst

/-- `server_find_current_association`: the instance named 0.0.40.0.0.255. -/
def currentAssociation (objects : Objects σ) : Option ℕ :=
  objects.associations.find? fun inst => (objects.instances inst).logicalName == #v[0, 0, 40, 0, 0, 255]

/-- `server_mirror_current`: copy an association over the current one, the name apart. -/
def mirror (objects : Objects σ) (src : ℕ) : Objects σ :=
  match objects.currentAssociation with
  | none => objects
  | some cur =>
      if cur = src then objects
      else
        objects.setInstance cur
          { logicalName := (objects.instances cur).logicalName
            association := { (objects.instances src).association with associationStatus := 1 } }

/-- `server_clear_current`: zero the current association, the name apart. -/
def clearCurrent (objects : Objects σ) : Objects σ :=
  match objects.currentAssociation with
  | none => objects
  | some cur => objects.setInstance cur { logicalName := (objects.instances cur).logicalName }

end Objects

/-- A notification that an invoked method queues. -/
structure Push where
  body : Value
  confirmed : Bool
  deriving DecidableEq

/-- The functions of the registered classes. A result starts from the content of the caller's
variable; `select` narrows an object's own array or buffer view to a range of entries. -/
structure Behaviour (σ : Type) where
  get : ℕ → UInt8 → Value → Objects σ → (Err × Value) × Objects σ
  set : ℕ → UInt8 → Value → Objects σ → Err × Objects σ
  invoke : ℕ → UInt8 → Value → Value → Objects σ → (Err × Value × Option Push) × Objects σ
  select : ℕ → ℕ → Value → Objects σ → Value × Objects σ

section Dispatch

variable {σ : Type} (behaviour : Behaviour σ) (requireAcl : Bool) (association : Option ℕ)

/-- Whether the association in force, if any, grants an access; a build may demand one. -/
def granted (objects : Objects σ) (right : Association → Bool) : Bool :=
  match association with
  | none => !requireAcl
  | some inst => right (objects.instances inst).association

/-- `osp_dispatcher_get` over an old result. -/
def dispatcherGet (attr : Descriptor) (old : Value) (objects : Objects σ) :
    (Err × Value) × Objects σ :=
  match objects.find attr.classId attr.instanceId with
  | none => ((.notFound, old), objects)
  | some e =>
      if !e.hasGet then ((.notFound, old), objects)
      else if !granted requireAcl association objects
          (·.canRead attr.classId attr.instanceId attr.id) then ((.security, old), objects)
      else behaviour.get e.inst attr.id old objects

/-- `osp_dispatcher_set`. -/
def dispatcherSet (attr : Descriptor) (value : Value) (objects : Objects σ) : Err × Objects σ :=
  match objects.find attr.classId attr.instanceId with
  | none => (.notFound, objects)
  | some e =>
      if !e.hasSet then (.notFound, objects)
      else if !granted requireAcl association objects
          (·.canWrite attr.classId attr.instanceId attr.id) then (.security, objects)
      else behaviour.set e.inst attr.id value objects

/-- `osp_dispatcher_action` over an old result. -/
def dispatcherAction (method : Descriptor) (param old : Value) (objects : Objects σ) :
    (Err × Value × Option Push) × Objects σ :=
  match objects.find method.classId method.instanceId with
  | none => ((.notFound, old, none), objects)
  | some e =>
      if !e.hasInvoke then ((.notFound, old, none), objects)
      else if !granted requireAcl association objects
          (·.canInvoke method.classId method.instanceId method.id) then ((.security, old, none), objects)
      else behaviour.invoke e.inst method.id param old objects

end Dispatch

end OpenSpodes
