import OpenSpodes.Model.Server

/-! # Classes of objects

What the registered classes do is a parameter of the server. Two constructions give it more content: a record
of how the classes are called, and the class of Data objects, `ic/data.c` without a data HAL, beside arbitrary
other classes.
-/

namespace OpenSpodes

variable {σ : Type}

/-- A call of a class function. -/
structure ClassCall where
  service : Service
  inst : ℕ
  id : UInt8
  argument : Value
  deriving DecidableEq

/-- Objects with another memory. -/
def Objects.withHidden {τ : Type} (objects : Objects σ) (hidden : τ) : Objects τ :=
  ⟨objects.entries, objects.instances, objects.pool, hidden⟩

/-- The same classes, which also record how they are called. -/
def Behaviour.recorded (behaviour : Behaviour σ) : Behaviour (σ × List ClassCall) where
  get inst id old objects :=
    let (result, after) := behaviour.get inst id old (objects.withHidden objects.hidden.1)
    (result, after.withHidden (after.hidden, objects.hidden.2 ++ [⟨.get, inst, id, .null⟩]))
  set inst id value objects :=
    let (result, after) := behaviour.set inst id value (objects.withHidden objects.hidden.1)
    (result, after.withHidden (after.hidden, objects.hidden.2 ++ [⟨.set, inst, id, value⟩]))
  invoke inst id param old objects :=
    let (result, after) := behaviour.invoke inst id param old (objects.withHidden objects.hidden.1)
    (result, after.withHidden (after.hidden, objects.hidden.2 ++ [⟨.action, inst, id, param⟩]))
  select entryFrom entryTo value objects :=
    let (value, after) := behaviour.select entryFrom entryTo value (objects.withHidden objects.hidden.1)
    (value, after.withHidden (after.hidden, objects.hidden.2))

/-! ## Data objects -/

/-- `osp_ic_set_logical_name`. -/
def icSetLogicalName (ln : Obis) (value : Value) : Err × Obis :=
  match value with
  | .octetString bytes => if bytes.length ≠ 6 then (.invalid, ln) else (.ok, Vector.ofFn fun i => bytes.getD i 0)
  | _ => (.invalid, ln)

/-- The values of Data objects, and the memory of all other objects. -/
structure DataMemory (σ : Type) where
  value : ℕ → Value
  rest : σ

def Objects.storeData (objects : Objects (DataMemory σ)) (inst : ℕ) (value : Value) : Objects (DataMemory σ) :=
  objects.withHidden { objects.hidden with value := Function.update objects.hidden.value inst value }

/-- `data_get_attr`. -/
def dataGetAttr (inst : ℕ) (attrId : UInt8) (old : Value) (objects : Objects (DataMemory σ)) : Err × Value :=
  match attrId with
  | 1 => (.ok, .octetString (objects.instances inst).logicalName.toList)
  | 2 => (.ok, objects.hidden.value inst)
  | _ => (.notFound, old)

/-- `data_set_attr`; the value is stored as it is, with its items where they are. -/
def dataSetAttr (inst : ℕ) (attrId : UInt8) (value : Value) (objects : Objects (DataMemory σ)) :
    Err × Objects (DataMemory σ) :=
  match attrId with
  | 1 =>
      let content := objects.instances inst
      let (err, ln) := icSetLogicalName content.logicalName value
      (err, objects.setInstance inst { content with logicalName := ln })
  | 2 => (.ok, objects.storeData inst value)
  | _ => (.notFound, objects)

/-- `data_invoke`: the only method resets the value. -/
def dataInvoke (inst : ℕ) (methodId : UInt8) (old : Value) (objects : Objects (DataMemory σ)) :
    (Err × Value × Option Push) × Objects (DataMemory σ) :=
  if methodId ≠ 1 then ((.notFound, old, none), objects)
  else ((.ok, .null, none), objects.storeData inst .null)

/-- Run a function of another class, which does not reach the values of Data objects. -/
def beside {α : Type} (call : Objects σ → α × Objects σ) (objects : Objects (DataMemory σ)) :
    α × Objects (DataMemory σ) :=
  let (result, after) := call (objects.withHidden objects.hidden.rest)
  (result, after.withHidden { objects.hidden with rest := after.hidden })

/-- Data objects among objects of other classes. -/
def Behaviour.withData (others : Behaviour σ) (isData : ℕ → Bool) : Behaviour (DataMemory σ) where
  get inst id old objects :=
    if isData inst then (dataGetAttr inst id old objects, objects) else beside (others.get inst id old) objects
  set inst id value objects :=
    if isData inst then dataSetAttr inst id value objects else beside (others.set inst id value) objects
  invoke inst id param old objects :=
    if isData inst then dataInvoke inst id old objects else beside (others.invoke inst id param old) objects
  select entryFrom entryTo value objects := beside (others.select entryFrom entryTo value) objects

end OpenSpodes
