import OpenSpodes.Machine.History
import OpenSpodes.Model.MeterRegistry

/-! # The meter registry as a finite map

The registry is driven by calls that add a meter, remove one or store a value. A history of such calls, with
what each returned, decides what it holds: the descriptor last added under an id and not removed since, and
the value last stored for an attribute since its meter was last added or removed. The two arrays with their
shifted and reused entries are an implementation of that.
-/

namespace OpenSpodes

open Machine

/-- A call that changes the registry. -/
inductive RegistryCall
  | add (meter : MeterDescriptor)
  | remove (id : MeterId)
  | store (key : CacheKey) (value : Value)
  deriving DecidableEq

namespace RegistryCall

def meterId : RegistryCall → MeterId
  | add meter => meter.meterId
  | remove id => id
  | store key _ => key.meterId

end RegistryCall

/-- A call and what it returned; a removal returns nothing. -/
abbrev RegistryEvent := RegistryCall × Err

namespace RegistryEvent

def adds (id : MeterId) : RegistryEvent → Option MeterDescriptor
  | (.add meter, .ok) => if meter.meterId = id then some meter else none
  | _ => none

def Removes (id : MeterId) (event : RegistryEvent) : Prop := event.1 = .remove id

def stores (key : CacheKey) : RegistryEvent → Option Value
  | (.store stored value, .ok) => if stored = key then some value else none
  | _ => none

def Renews (id : MeterId) (event : RegistryEvent) : Prop :=
  (∃ meter, event.1 = .add meter ∧ meter.meterId = id) ∨ event.1 = .remove id

end RegistryEvent

namespace MeterRegistry

variable {call : RegistryCall} {event : RegistryEvent}

def perform (reg : MeterRegistry) : RegistryCall → Err × MeterRegistry
  | .add meter => reg.add meter
  | .remove id => (.ok, reg.remove id)
  | .store key value => reg.store key value

/-- One call about a meter whose id is not empty. -/
def Step (reg : MeterRegistry) (event : RegistryEvent) (next : MeterRegistry) : Prop :=
  event.1.meterId.val ≠ [] ∧ reg.perform event.1 = (event.2, next)

def listed (reg : MeterRegistry) : List MeterDescriptor := reg.meters.used

variable {reg next : MeterRegistry} {id : MeterId} {meter : MeterDescriptor} {key : CacheKey} {value : Value}
  {err : Err}

/-! ## The meters -/

theorem find_eq (reg : MeterRegistry) (id : MeterId) : reg.find id = reg.listed.find? (·.meterId = id) :=
  ArrayPrefix.findIndex_bind_cells _ _

/-- Removal takes the meter out and leaves the others in their order. -/
theorem listed_remove (distinct : (reg.listed.map (·.meterId)).Nodup) (named : id.val ≠ []) :
    (reg.remove id).listed = reg.listed.filter (·.meterId ≠ id) := by
  rw [← List.eraseP_eq_filter_of_nodup MeterDescriptor.meterId id distinct, List.eraseP_eq_eraseIdx, remove, if_neg named, dropCacheFor, listed, ArrayPrefix.findIndex_eq]
  simp only [listed]
  cases found : reg.meters.used.findIdx? (·.meterId = id) with
  | none => rfl
  | some i =>
    obtain ⟨bound, -⟩ := List.findIdx?_eq_some_iff_getElem.mp found
    apply ArrayPrefix.used_removeAt
    rw [ArrayPrefix.used, List.length_take] at bound
    omega

/-- A meter that is found can be added again: its removal makes room. -/
theorem room_after_remove (named : id.val ≠ []) (found : (reg.meters.findIndex (·.meterId = id)).isSome) :
    (reg.remove id).meters.count < (reg.remove id).meters.cells.length := by
  obtain ⟨i, at_i⟩ := Option.isSome_iff_exists.mp found
  have inside := reg.meters.inside
  have bound : i < reg.meters.count := by
    rw [ArrayPrefix.findIndex_eq] at at_i
    obtain ⟨bound, -⟩ := List.findIdx?_eq_some_iff_getElem.mp at_i
    rw [ArrayPrefix.used, List.length_take] at bound
    omega
  rw [remove, if_neg named, at_i]
  simp only [dropCacheFor, ArrayPrefix.removeAt, ArrayPrefix.length_shiftDown]
  omega

/-- An addition removes the meter first; then it puts the new descriptor at the end. Without room for it there
was no such meter. -/
theorem add_cases (named : meter.meterId.val ≠ []) (added : reg.add meter = (err, next)) :
    err = .nomem ∧ next = reg.dropCacheFor meter.meterId ∨
      err = .ok ∧ next.listed = (reg.remove meter.meterId).listed ++ [meter] ∧
        next.cache = (reg.dropCacheFor meter.meterId).cache := by
  have cleared : (reg.remove meter.meterId).cache = (reg.dropCacheFor meter.meterId).cache := by
    rw [remove, if_neg named]
    rfl
  rw [add, if_neg named] at added
  dsimp only at added
  split at added
  · next full =>
      obtain ⟨rfl, rfl⟩ := Prod.mk.inj added
      refine .inl ⟨rfl, ?_⟩
      cases found : reg.meters.findIndex (·.meterId = meter.meterId) with
      | none => rw [remove, if_neg named, found]
      | some i =>
        have room := room_after_remove named (by rw [found]; rfl)
        have none_left := ArrayPrefix.full_of_push full
        omega
  · next meters pushed =>
      obtain ⟨rfl, rfl⟩ := Prod.mk.inj added
      exact .inr ⟨rfl, ArrayPrefix.used_push pushed, cleared⟩

theorem meters_store (stored : reg.store key value = (err, next)) : next.meters = reg.meters := by
  rw [store] at stored
  split at stored
  · rw [← (Prod.mk.inj stored).2]
  · split at stored <;> rw [← (Prod.mk.inj stored).2]

theorem listed_step (named : call.meterId.val ≠ []) (done : reg.perform call = (err, next))
    (distinct : (reg.listed.map (·.meterId)).Nodup) : next.listed = reg.listed ∧
        ((∃ meter, call = .add meter ∧ err = .nomem) ∨ ∃ key value, call = .store key value) ∨
      (∃ id, call = .remove id ∧ next.listed = reg.listed.filter (·.meterId ≠ id)) ∨
      ∃ meter, call = .add meter ∧ err = .ok ∧
        next.listed = reg.listed.filter (·.meterId ≠ meter.meterId) ++ [meter] := by
  cases call with
  | add meter =>
    have named : meter.meterId.val ≠ [] := named
    rcases add_cases named done with ⟨rfl, rfl⟩ | ⟨rfl, listed, -⟩
    · exact .inl ⟨rfl, .inl ⟨meter, rfl, rfl⟩⟩
    · rw [listed_remove distinct named] at listed
      exact .inr (.inr ⟨meter, rfl, rfl, listed⟩)
  | remove id =>
    obtain ⟨rfl, rfl⟩ := Prod.mk.inj done
    exact .inr (.inl ⟨id, rfl, listed_remove distinct named⟩)
  | store key value =>
    exact .inl ⟨congrArg ArrayPrefix.used (meters_store done), .inr ⟨key, value, rfl⟩⟩

/-- Every call keeps the ids of the meters different. -/
theorem distinct_step (named : call.meterId.val ≠ []) (done : reg.perform call = (err, next))
    (distinct : (reg.listed.map (·.meterId)).Nodup) : (next.listed.map (·.meterId)).Nodup := by
  have removed (id : MeterId) : ((reg.listed.filter (·.meterId ≠ id)).map (·.meterId)).Nodup :=
    distinct.sublist (List.filter_sublist.map _)
  rcases listed_step named done distinct with ⟨same, -⟩ | ⟨id, -, without⟩ | ⟨meter, -, -, appended⟩
  · rw [same]
    exact distinct
  · rw [without]
    exact removed _
  · rw [appended, List.map_append, List.nodup_append]
    refine ⟨removed _, by simp, ?_⟩
    intro id member last single
    obtain ⟨other, kept, rfl⟩ := List.mem_map.mp member
    obtain rfl := List.mem_singleton.mp single
    simpa using (List.mem_filter.mp kept).2

/-- A meter is not found among the others, and every other one is. -/
theorem find?_without (gone id : MeterId) (meters : List MeterDescriptor) :
    (meters.filter (·.meterId ≠ gone)).find? (·.meterId = id) =
      if gone = id then none else meters.find? (·.meterId = id) := by
  split
  · next same =>
      subst same
      rw [List.find?_eq_none]
      intro meter member
      simpa using (List.mem_filter.mp member).2
  · next apart =>
      rw [← List.head?_filter, ← List.head?_filter, List.filter_filter_of_imp]
      intro meter named
      simp only [decide_eq_true_eq] at named ⊢
      exact named ▸ Ne.symm apart

/-- The search for a meter follows the additions and removals of its id. -/
theorem find_follows (step : reg.Step event next) (distinct : (reg.listed.map (·.meterId)).Nodup) (id : MeterId) :
    Follows (RegistryEvent.adds id) (RegistryEvent.Removes id) event (reg.find id) (next.find id) := by
  obtain ⟨call, err⟩ := event
  obtain ⟨named, done⟩ := step
  rw [find_eq, find_eq]
  rcases listed_step named done distinct with ⟨same, other⟩ | ⟨gone, removal, without⟩ | ⟨meter, addition, ok, appended⟩
  · have silent : RegistryEvent.adds id (call, err) = none ∧ ¬RegistryEvent.Removes id (call, err) := by
      rcases other with ⟨meter, addition, failed⟩ | ⟨key, value, storing⟩
      · obtain ⟨rfl, rfl⟩ : call = .add meter ∧ err = .nomem := ⟨addition, failed⟩
        exact ⟨rfl, by simp [RegistryEvent.Removes]⟩
      · obtain rfl : call = .store key value := storing
        exact ⟨rfl, by simp [RegistryEvent.Removes]⟩
    constructor
    · intro content written
      simp [silent.1] at written
    · intro _ removed
      exact absurd removed silent.2
    · intro _ _
      rw [same]
  · obtain rfl : call = .remove gone := removal
    rw [without, find?_without]
    constructor
    · intro content written
      cases written
    · intro _ removed
      rw [if_pos (RegistryCall.remove.inj removed)]
    · intro _ stays
      rw [if_neg fun same => stays (congrArg RegistryCall.remove same)]
  · obtain ⟨rfl, rfl⟩ : call = .add meter ∧ err = .ok := ⟨addition, ok⟩
    rw [appended, List.find?_append, find?_without]
    by_cases same : meter.meterId = id
    · have written : RegistryEvent.adds id (.add meter, .ok) = some meter := if_pos same
      rw [if_pos same, Option.none_or, List.find?_cons_of_pos (by simpa using same)]
      constructor
      · intro content put
        exact written ▸ put
      · intro silent
        simp [written] at silent
      · intro silent
        simp [written] at silent
    · have silent : RegistryEvent.adds id (.add meter, .ok) = none := if_neg same
      rw [if_neg same, List.find?_cons_of_neg (by simpa using same), List.find?_nil, Option.or_none]
      constructor
      · intro content put
        simp [silent] at put
      · intro _ removed
        cases removed
      · intro _ _
        rfl

/-! ## The cached values -/

theorem holds_iff {entry : CacheEntry} : entry.holds key = true ↔ entry.used = true ∧ entry.key = key := by
  simp [CacheEntry.holds]

/-- Dropping the values of a meter leaves those of the others. -/
theorem cached_dropCacheFor (reg : MeterRegistry) (id : MeterId) (key : CacheKey) :
    (reg.dropCacheFor id).cached key = if key.meterId = id then none else reg.cached key := by
  rw [cached, dropCacheFor, List.find?_map, Option.map_map]
  split
  · next same =>
      rw [List.find?_eq_none.mpr]
      · rfl
      intro entry _ kept
      simp only [Function.comp_apply] at kept
      split at kept
      · exact absurd (holds_iff.mp kept).1 (by simp)
      · next stays => exact stays ⟨(holds_iff.mp kept).1, (holds_iff.mp kept).2 ▸ same⟩
  · next apart =>
      -- an entry of another meter is not touched, so the search stops where it did
      have untouched (entry : CacheEntry) : entry.holds key = true →
          (if entry.used ∧ entry.key.meterId = id then { entry with used := false } else entry) = entry := by
        intro holds
        rw [if_neg fun dropped => apart ((holds_iff.mp holds).2 ▸ dropped.2)]
      have searched : ((fun entry => CacheEntry.holds key entry) ∘ fun entry =>
          if entry.used ∧ entry.key.meterId = id then { entry with used := false } else entry) =
            fun entry => CacheEntry.holds key entry := by
        funext entry
        rw [Bool.eq_iff_iff]
        constructor
        · intro kept
          simp only [Function.comp_apply] at kept
          split at kept
          · exact absurd (holds_iff.mp kept).1 (by simp)
          · exact kept
        · intro holds
          rw [Function.comp_apply, untouched entry holds]
          exact holds
      rw [searched, cached]
      cases found : reg.cache.find? (·.holds key) with
      | none => rfl
      | some entry =>
        rw [Option.map_some, Option.map_some, Function.comp_apply, untouched entry (List.find?_some found)]

/-- A successful store is found under its key and changes no other. -/
theorem cached_store (stored : reg.store key value = (err, next)) : err = .nomem ∧ next = reg ∨
      err = .ok ∧ ∀ other, next.cached other = if key = other then some value else reg.cached other := by
  have written {i : ℕ} (bound : i < reg.cache.length) (old : ∀ other ≠ key, reg.cache[i].holds other = false)
      (earlier : ∀ (j : ℕ) (before : j < i), reg.cache[j].holds key = false) (other : CacheKey) :
      ((reg.cache.set i ⟨true, key, value⟩).find? (·.holds other)).map CacheEntry.value =
        if key = other then some value else reg.cached other := by
    split
    · next same =>
        subst same
        have holds : CacheEntry.holds key ⟨true, key, value⟩ = true := holds_iff.mpr ⟨rfl, rfl⟩
        rw [List.find?_set_of_pos bound holds earlier, Option.map_some]
    · next apart =>
        rw [List.find?_set_of_neg bound (old other (Ne.symm apart)) (by simp [CacheEntry.holds, apart]), cached]
  rw [store] at stored
  split at stored
  · next i found =>
      obtain ⟨rfl, rfl⟩ := Prod.mk.inj stored
      obtain ⟨bound, holds, earlier⟩ := List.findIdx?_eq_some_iff_getElem.mp found
      obtain ⟨used, named⟩ := holds_iff.mp holds
      refine .inr ⟨rfl, fun other => ?_⟩
      have overwritten : (reg.cache.modify i fun entry => { entry with value := value }) =
          reg.cache.set i ⟨true, key, value⟩ := by
        rw [List.modify_eq_set_getElem?, List.getElem?_eq_getElem bound]
        simp only [Option.map_eq_map, Option.map_some, Option.getD_some, used, named]
      rw [cached, overwritten]
      apply written bound
      · simpa using earlier
      · intro other apart
        simp [CacheEntry.holds, named, Ne.symm apart]
  · next absent =>
      split at stored
      · next i found =>
          obtain ⟨rfl, rfl⟩ := Prod.mk.inj stored
          obtain ⟨bound, free, -⟩ := List.findIdx?_eq_some_iff_getElem.mp found
          refine .inr ⟨rfl, written bound ?_ ?_⟩
          · intro other _
            simp only [Bool.not_eq_true'] at free
            simp [CacheEntry.holds, free]
          · intro j before
            exact List.findIdx?_eq_none_iff.mp absent _ (List.getElem_mem _)
      · obtain ⟨rfl, rfl⟩ := Prod.mk.inj stored
        exact .inl ⟨rfl, rfl⟩

/-- The search for a value follows the stores under its key and the changes of its meter. -/
theorem cached_follows (step : reg.Step event next) (key : CacheKey) :
    Follows (RegistryEvent.stores key) (RegistryEvent.Renews key.meterId) event (reg.cached key) (next.cached key) := by
  obtain ⟨call, err⟩ := event
  obtain ⟨named, done⟩ := step
  -- both adding and removing a meter drop its values
  have renewed {id : MeterId} (dropped : next.cached key = (reg.dropCacheFor id).cached key)
      (silent : RegistryEvent.stores key (call, err) = none)
      (renews : RegistryEvent.Renews key.meterId (call, err) ↔ key.meterId = id) :
      Follows (RegistryEvent.stores key) (RegistryEvent.Renews key.meterId) (call, err) (reg.cached key)
        (next.cached key) := by
    rw [dropped, cached_dropCacheFor]
    constructor
    · intro content written
      simp [silent] at written
    · intro _ clear
      rw [if_pos (renews.mp clear)]
    · intro _ stays
      rw [if_neg (mt renews.mpr stays)]
  cases call with
  | add meter =>
    have same : next.cache = (reg.dropCacheFor meter.meterId).cache := by
      rcases add_cases named done with ⟨-, rfl⟩ | ⟨-, -, cleared⟩
      · rfl
      · exact cleared
    apply renewed
    · rw [cached, cached, same]
    · rfl
    · simp [RegistryEvent.Renews, eq_comm]
  | remove id =>
    obtain ⟨rfl, rfl⟩ := Prod.mk.inj done
    have named : id.val ≠ [] := named
    apply renewed
    · rw [remove, if_neg named]
      rfl
    · rfl
    · simp [RegistryEvent.Renews, eq_comm]
  | store stored value =>
    have stays : ¬RegistryEvent.Renews key.meterId (.store stored value, err) := by simp [RegistryEvent.Renews]
    rcases cached_store done with ⟨rfl, rfl⟩ | ⟨rfl, found⟩
    · constructor
      · intro content written
        cases written
      · intro _ clear
        exact absurd clear stays
      · intro _ _
        rfl
    · rw [found key]
      constructor
      · intro content written
        rw [RegistryEvent.stores] at written
        split at written
        · next same => rw [if_pos same, written]
        · cases written
      · intro _ clear
        exact absurd clear stays
      · intro silent _
        rw [RegistryEvent.stores] at silent
        split at silent
        · cases silent
        · next apart => rw [if_neg apart]

/-! ## Whole histories -/

/-- The registry holds what its history says. -/
structure Holds (seen : List RegistryEvent) (reg : MeterRegistry) : Prop where
  distinct : (reg.listed.map (·.meterId)).Nodup
  found (id : MeterId) (meter : MeterDescriptor) :
    reg.find id = some meter ↔ Latest (RegistryEvent.adds id) (RegistryEvent.Removes id) seen meter
  cached (key : CacheKey) (value : Value) :
    reg.cached key = some value ↔ Latest (RegistryEvent.stores key) (RegistryEvent.Renews key.meterId) seen value

theorem holds_init : Holds [] init where
  distinct := List.nodup_nil
  found id meter := iff_of_false (by simp [find_eq, listed, init, ArrayPrefix.used, ArrayPrefix.empty])
    (not_latest_nil meter)
  cached key value := iff_of_false (by simp [MeterRegistry.cached, init, CacheEntry.holds]) (not_latest_nil value)

theorem Holds.step {seen : List RegistryEvent} (holds : Holds seen reg) (step : reg.Step event next) :
    Holds (seen ++ [event]) next where
  distinct := distinct_step step.1 step.2 holds.distinct
  found id := (find_follows step holds.distinct id).latest (holds.found id)
  cached key := (cached_follows step key).latest (holds.cached key)

/-- After any history of calls from a fresh registry the ids are different, a search finds exactly the
descriptor last added and not removed since, and a cached value is exactly the one last stored since its meter was
last added or removed. The next call leaves the other meters as they are, in their order. -/
theorem registry_refines_map {seen : List RegistryEvent} {reg : MeterRegistry} (history : History Step init seen reg) :
    (reg.listed.map (·.meterId)).Nodup ∧ (∀ id meter, reg.find id = some meter ↔
        Latest (RegistryEvent.adds id) (RegistryEvent.Removes id) seen meter) ∧
      (∀ key value, reg.cached key = some value ↔
        Latest (RegistryEvent.stores key) (RegistryEvent.Renews key.meterId) seen value) ∧
      ∀ event next, reg.Step event next →
        next.listed.filter (·.meterId ≠ event.1.meterId) = reg.listed.filter (·.meterId ≠ event.1.meterId) := by
  have holds : Holds seen reg := by
    apply history.invariant holds_init
    intro seen now event next holds step
    exact holds.step step
  refine ⟨holds.distinct, holds.found, holds.cached, ?_⟩
  rintro ⟨call, err⟩ next step
  -- a call leaves the other meters as they are, in their order
  rcases listed_step step.1 step.2 holds.distinct with ⟨same, -⟩ | ⟨id, rfl, without⟩ | ⟨meter, rfl, -, appended⟩
  · rw [same]
  · rw [without]
    apply List.filter_filter_of_imp
    intro other apart
    exact apart
  · have kept : (reg.listed.filter (·.meterId ≠ meter.meterId)).filter (·.meterId ≠ meter.meterId) =
        reg.listed.filter (·.meterId ≠ meter.meterId) := List.filter_filter_of_imp (fun _ apart => apart) _
    rw [appended, List.filter_append, RegistryCall.meterId, kept]
    simp

theorem noChannels_le : ([] : List MeterChannel).length ≤ 4 := Nat.zero_le 4

def sampleMeter : MeterDescriptor := ⟨BytesUpTo.ofList 32 [1], BytesUpTo.empty 32, ⟨[], noChannels_le⟩⟩

def sampleKey : CacheKey := ⟨sampleMeter.meterId, Vector.replicate 6 1, 2⟩

theorem registry_refines_map_stored : History Step init [(.add sampleMeter, .ok), (.store sampleKey .null, .ok)]
        ((init.add sampleMeter).2.store sampleKey .null).2 ∧
      ((init.add sampleMeter).2.store sampleKey .null).2.cached sampleKey = some .null := by
  have history : History Step init [(.add sampleMeter, .ok), (.store sampleKey .null, .ok)]
      ((init.add sampleMeter).2.store sampleKey .null).2 :=
    (History.start.extend ⟨by decide, rfl⟩).extend ⟨by decide, rfl⟩
  refine ⟨history, ((registry_refines_map history).2.2.1 sampleKey .null).mpr ?_⟩
  exact ⟨[(.add sampleMeter, .ok)], (.store sampleKey .null, .ok), [], rfl, by decide, by simp⟩

end MeterRegistry

end OpenSpodes
