import OpenSpodes.Model.Xdms
import OpenSpodes.ToMathlib.ArrayPrefix

/-! # The concentrator's meter registry

`spodus/meter_registry.c` keeps the configured meters in one fixed array, in use up to a count, and the
values last read from them in a second one, whose entries carry a flag of their own. A meter is known by
the bytes of its id. The list of meters built for a client is left out.
-/

namespace OpenSpodes

/-- `osp_spodus_meter_channel_t`. -/
structure MeterChannel where
  id : UInt8
  address : BytesUpTo 32
  deriving DecidableEq

abbrev MeterId := BytesUpTo 32

/-- `osp_spodus_meter_descriptor_t`. -/
structure MeterDescriptor where
  meterId : MeterId
  meterModel : BytesUpTo 32
  channels : { channels : List MeterChannel // channels.length ≤ 4 }
  deriving DecidableEq

/-- What a cached value is found by. -/
structure CacheKey where
  meterId : MeterId
  obis : Obis
  attributeId : UInt8
  deriving DecidableEq

/-- `osp_spodus_cache_entry_t`. -/
structure CacheEntry where
  used : Bool
  key : CacheKey
  value : Value
  deriving DecidableEq

/-- Whether an entry in use holds the value of an attribute. -/
def CacheEntry.holds (key : CacheKey) (entry : CacheEntry) : Bool := entry.used ∧ entry.key = key

/-- `osp_spodus_meter_registry_t`. -/
structure MeterRegistry where
  meters : ArrayPrefix MeterDescriptor
  cache : List CacheEntry

namespace MeterRegistry

/-- `osp_spodus_registry_init`: sixteen meters, thirty-two values. -/
def init : MeterRegistry where
  meters := ArrayPrefix.empty 16 ⟨BytesUpTo.empty 32, BytesUpTo.empty 32, ⟨[], Nat.zero_le 4⟩⟩
  cache := List.replicate 32 ⟨false, ⟨BytesUpTo.empty 32, Vector.replicate 6 0, 0⟩, .null⟩

/-- `registry_drop_cache_for`. -/
def dropCacheFor (reg : MeterRegistry) (id : MeterId) : MeterRegistry :=
  { reg with
    cache := reg.cache.map fun entry =>
      if entry.used ∧ entry.key.meterId = id then { entry with used := false } else entry }

/-- `osp_spodus_registry_remove`. -/
def remove (reg : MeterRegistry) (id : MeterId) : MeterRegistry :=
  if id.val = [] then reg
  else
    let meters :=
      match reg.meters.findIndex (·.meterId = id) with
      | none => reg.meters
      | some i => reg.meters.removeAt i
    dropCacheFor { reg with meters := meters } id

/-- `osp_spodus_registry_add`. -/
def add (reg : MeterRegistry) (meter : MeterDescriptor) : Err × MeterRegistry :=
  if meter.meterId.val = [] then (.invalid, reg)
  else
    let cleared := reg.remove meter.meterId
    match cleared.meters.push meter with
    | none => (.nomem, cleared)
    | some meters => (.ok, { cleared with meters := meters })

/-- `osp_spodus_registry_find`. -/
def find (reg : MeterRegistry) (id : MeterId) : Option MeterDescriptor :=
  (reg.meters.findIndex (·.meterId = id)).bind fun i => reg.meters.cells[i]?

/-- `osp_spodus_registry_store`: over the value of the same attribute, else in the first free entry. -/
def store (reg : MeterRegistry) (key : CacheKey) (value : Value) : Err × MeterRegistry :=
  match reg.cache.findIdx? (·.holds key) with
  | some i => (.ok, { reg with cache := reg.cache.modify i fun entry => { entry with value := value } })
  | none =>
      match reg.cache.findIdx? (!·.used) with
      | some i => (.ok, { reg with cache := reg.cache.set i ⟨true, key, value⟩ })
      | none => (.nomem, reg)

/-- `osp_spodus_registry_cached`. -/
def cached (reg : MeterRegistry) (key : CacheKey) : Option Value :=
  (reg.cache.find? (·.holds key)).map CacheEntry.value

end MeterRegistry

end OpenSpodes
