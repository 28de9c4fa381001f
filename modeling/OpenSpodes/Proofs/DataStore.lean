import Mathlib.Order.Interval.Set.Basic
import OpenSpodes.Spec.DataLayout

/-! # What the pool shows after reading

Reading encoded data is storing it: the value and the pool behind are those of `Data.store`. From the layout follows what
every place shows after any number of reads. A place belongs to the last value that reached it, and with it all later
places that its items refer to, since no read skips a place.
-/

namespace OpenSpodes

open Bytes

/-! ## Regions -/

mutual

/-- A value stands for the same data wherever its region is part of a larger one with the same content. -/
theorem Data.Held.congr {region region' : Set ℕ} {memory memory' : ℕ → Value} (larger : region ⊆ region')
    (same : ∀ i ∈ region, memory' i = memory i) : ∀ {data : Data} {value : Value},
    data.Held region memory value → data.Held region' memory' value
  | .null, _, held | .scalar _ _, _, held | .string _ _, _, held | .bits _ _, _, held => held
  | .nest _ _, _, ⟨start, shape, all⟩ => ⟨start, shape, Data.HeldAll.congr larger same all⟩

theorem Data.HeldAll.congr {region region' : Set ℕ} {memory memory' : ℕ → Value} (larger : region ⊆ region')
    (same : ∀ i ∈ region, memory' i = memory i) : ∀ {items : List Data} {pos : ℕ},
    Data.HeldAll region memory items pos → Data.HeldAll region' memory' items pos
  | [], _, _ => trivial
  | _ :: _, pos, ⟨inside, held, all⟩ =>
    ⟨larger inside, same pos inside ▸ Data.Held.congr larger same held, Data.HeldAll.congr larger same all⟩

end

namespace Data

variable {items all : List Data} {pos : ℕ} {item data : Data} {pool : Pool}

/-! ## Lists of data -/

theorem encodeAll_eq (items : List Data) : encodeAll items = items.flatMap encode := by
  induction items with
  | nil => rfl
  | cons item items ih => rw [encodeAll, ih, List.flatMap_cons]

theorem slotsAll_eq (items : List Data) : slotsAll items = (items.map slots).sum := by
  induction items with
  | nil => rfl
  | cons item items ih => rw [slotsAll, ih, List.map_cons, List.sum_cons]

theorem fitAll_iff : FitAll items ↔ ∀ item ∈ items, item.Fits := by
  induction items with
  | nil => simp [FitAll]
  | cons item items ih => rw [FitAll, ih, List.forall_mem_cons]

theorem sizedAll_iff : SizedAll items ↔ ∀ item ∈ items, item.Sized := by
  induction items with
  | nil => simp [SizedAll]
  | cons item items ih => rw [SizedAll, ih, List.forall_mem_cons]

/-! ## The layout -/

mutual

theorem length_places : ∀ data : Data, data.places.length = data.slots
  | null | scalar _ _ | string _ _ | bits _ _ => rfl
  | nest _ items => by rw [places, slots, List.length_append, length_placesAll items]

theorem length_placesAll : ∀ items : List Data, (placesAll items).length = slotsAll items
  | [] => rfl
  | item :: items => by rw [placesAll, slotsAll, List.length_append, length_places item, length_placesAll items]

end

mutual

theorem store_used : ∀ (data : Data) (pool : Pool), (data.store pool).2.used = pool.used + data.slots
  | null, _ | scalar _ _, _ | string _ _, _ | bits _ _, _ => rfl
  | nest _ items, pool => by
      rw [store, storeAll_used, slots, ← Nat.add_assoc]
      rfl

theorem storeAll_used : ∀ (items : List Data) (pos : ℕ) (pool : Pool),
    (storeAll items pos pool).used = pool.used + slotsAll items
  | [], _, _ => rfl
  | item :: items, pos, pool => by
      rw [storeAll, storeAll_used items, slotsAll, ← Nat.add_assoc]
      exact congrArg (· + slotsAll items) (store_used item pool)

end

mutual

/-- Places that the data does not take keep their content. -/
theorem store_kept : ∀ (data : Data) (pool : Pool) {i : ℕ}, i < pool.used ∨ pool.used + data.slots ≤ i →
    (data.store pool).2.slots i = pool.slots i
  | null, _, _, _ | scalar _ _, _, _, _ | string _ _, _, _, _ | bits _ _, _, _, _ => rfl
  | nest _ items, pool, i, outside => by
      rw [slots] at outside
      exact storeAll_kept items pool.used (pool.take items.length) le_rfl
        (by simp only [Pool.take]; omega) (by omega)

theorem storeAll_kept : ∀ (items : List Data) (pos : ℕ) (pool : Pool) {i : ℕ}, pos + items.length ≤ pool.used →
    (i < pool.used ∨ pool.used + slotsAll items ≤ i) → (i < pos ∨ pos + items.length ≤ i) →
    (storeAll items pos pool).slots i = pool.slots i
  | [], _, _, _, _, _, _ => rfl
  | item :: items, pos, pool, i, below, outside, other => by
      rw [List.length_cons] at below other
      rw [slotsAll] at outside
      have used := store_used item pool
      have rest := storeAll_kept items (pos + 1) ((item.store pool).2.put pos (item.store pool).1) (i := i)
        (by change _ ≤ (item.store pool).2.used; omega) (by change i < (item.store pool).2.used ∨ (item.store pool).2.used + _ ≤ i; omega)
        (by omega)
      have first := store_kept item pool (i := i) (by omega)
      rw [storeAll, rest, ← first]
      exact if_neg (by omega)

end

theorem heldAll_iff {region : Set ℕ} {memory : ℕ → Value} : HeldAll region memory items pos ↔
      ∀ k item, items[k]? = some item → pos + k ∈ region ∧ item.Held region memory (memory (pos + k)) := by
  induction items generalizing pos with
  | nil => simp [HeldAll]
  | cons first items ih =>
    rw [HeldAll, ih]
    constructor
    · rintro ⟨inside, held, rest⟩ k item found
      cases k with
      | zero =>
        obtain rfl : first = item := by simpa using found
        exact ⟨inside, held⟩
      | succ k =>
        have later := rest k item (by simpa using found)
        rwa [Nat.add_assoc, Nat.add_comm 1] at later
    · intro all
      obtain ⟨inside, held⟩ := all 0 first rfl
      refine ⟨inside, held, ?_⟩
      intro k item found
      have later := all (k + 1) item (by simpa using found)
      rwa [Nat.add_comm k 1, ← Nat.add_assoc] at later

/-- The part of the memory that an item was stored into stays when the items behind it are stored. -/
theorem storeAll_cons_kept (below : pos + (items.length + 1) ≤ pool.used) {i : ℕ}
    (inside : pool.used ≤ i ∧ i < pool.used + item.slots) :
    (storeAll (item :: items) pos pool).slots i = (item.store pool).2.slots i := by
  have used := store_used item pool
  rw [storeAll, storeAll_kept items (pos + 1) _ (by change _ ≤ (item.store pool).2.used; omega)
    (.inl (by change i < (item.store pool).2.used; omega)) (.inr (by omega))]
  exact if_neg (by omega)

theorem storeAll_cons_head (below : pos + (items.length + 1) ≤ pool.used) :
    (storeAll (item :: items) pos pool).slots pos = (item.store pool).1 := by
  have used := store_used item pool
  rw [storeAll, storeAll_kept items (pos + 1) _ (by change _ ≤ (item.store pool).2.used; omega)
    (.inl (by change pos < (item.store pool).2.used; omega)) (.inl (by omega))]
  exact if_pos rfl

mutual

theorem store_held : ∀ (data : Data) (pool : Pool),
    data.Held (Set.Ico pool.used (pool.used + data.slots)) (data.store pool).2.slots (data.store pool).1
  | null, _ | scalar _ _, _ | string _ _, _ => rfl
  | bits bytes count, _ => ⟨bytes, rfl, padTo_of_length_eq rfl⟩
  | nest _ items, pool => by
      refine ⟨pool.used, rfl, heldAll_iff.mpr ?_⟩
      intro k item found
      have few := (List.getElem?_eq_some_iff.mp found).1
      have held := storeAll_items items pool.used (pool.take items.length) le_rfl found
      rw [slots]
      refine ⟨⟨by omega, by omega⟩, held.congr (Set.Ico_subset_Ico ?_ ?_) fun _ _ => rfl⟩
      · exact Nat.le_add_right _ _
      · exact (Nat.add_assoc _ _ _).le

theorem storeAll_items : ∀ (items : List Data) (pos : ℕ) (pool : Pool), pos + items.length ≤ pool.used →
    ∀ {k : ℕ} {item : Data}, items[k]? = some item →
      item.Held (Set.Ico pool.used (pool.used + slotsAll items)) (storeAll items pos pool).slots
        ((storeAll items pos pool).slots (pos + k))
  | [], _, _, _, _, _, found => by simp at found
  | first :: items, pos, pool, below, 0, item, found => by
      rw [List.length_cons] at below
      obtain rfl : first = item := by simpa using found
      rw [slotsAll, Nat.add_zero, storeAll_cons_head below]
      refine (store_held first pool).congr (Set.Ico_subset_Ico le_rfl (by omega)) ?_
      intro i inside
      exact storeAll_cons_kept below inside
  | first :: items, pos, pool, below, k + 1, item, found => by
      rw [List.length_cons] at below
      have used := store_used first pool
      have behind : pos + 1 + items.length ≤ ((first.store pool).2.put pos (first.store pool).1).used := by
        change _ ≤ (first.store pool).2.used
        omega
      have foundBehind : items[k]? = some item := by simpa using found
      have held := storeAll_items items (pos + 1) _ behind foundBehind
      rw [storeAll, slotsAll, show pos + (k + 1) = pos + 1 + k by omega]
      refine held.congr (Set.Ico_subset_Ico ?_ ?_) fun _ _ => rfl
      · change pool.used ≤ (first.store pool).2.used
        omega
      · change (first.store pool).2.used + _ ≤ _
        omega

end

mutual

/-- Each place holds what the layout lists for it, with its own items in later places. -/
theorem store_places : ∀ (data : Data) (pool : Pool) {k : ℕ} {item : Data}, data.places[k]? = some item →
    item.Held (Set.Ioo (pool.used + k) (pool.used + data.slots)) (data.store pool).2.slots
      ((data.store pool).2.slots (pool.used + k))
  | null, _, _, _, found | scalar _ _, _, _, _, found | string _ _, _, _, _, found | bits _ _, _, _, _, found => by
      simp [places] at found
  | nest _ items, pool, k, item, found => by
      rw [places] at found
      rw [store, slots]
      by_cases early : k < items.length
      · rw [List.getElem?_append_left early] at found
        refine (storeAll_items items pool.used (pool.take items.length) le_rfl found).congr ?_ fun _ _ => rfl
        intro i inside
        have lower : pool.used + items.length ≤ i := inside.1
        have upper : i < pool.used + items.length + slotsAll items := inside.2
        exact ⟨by omega, by omega⟩
      · rw [List.getElem?_append_right (Nat.le_of_not_lt early)] at found
        have held := storeAll_places items pool.used (pool.take items.length) le_rfl found
        have position : (pool.take items.length).used + (k - items.length) = pool.used + k := by
          change pool.used + items.length + _ = _
          omega
        have stop : (pool.take items.length).used + slotsAll items = pool.used + (items.length + slotsAll items) :=
          Nat.add_assoc _ _ _
        rwa [position, stop] at held

theorem storeAll_places : ∀ (items : List Data) (pos : ℕ) (pool : Pool), pos + items.length ≤ pool.used →
    ∀ {k : ℕ} {item : Data}, (placesAll items)[k]? = some item →
      item.Held (Set.Ioo (pool.used + k) (pool.used + slotsAll items)) (storeAll items pos pool).slots
        ((storeAll items pos pool).slots (pool.used + k))
  | [], _, _, _, _, _, found => by simp [placesAll] at found
  | first :: items, pos, pool, below, k, item, found => by
      rw [List.length_cons] at below
      rw [placesAll] at found
      have used := store_used first pool
      have length := length_places first
      by_cases early : k < first.places.length
      · rw [List.getElem?_append_left early] at found
        rw [slotsAll, storeAll_cons_kept below ⟨by omega, by omega⟩]
        refine (store_places first pool found).congr (Set.Ioo_subset_Ioo le_rfl (by omega)) ?_
        intro i inside
        exact storeAll_cons_kept below ⟨by have := inside.1; omega, inside.2⟩
      · rw [List.getElem?_append_right (Nat.le_of_not_lt early)] at found
        have held := storeAll_places items (pos + 1) ((first.store pool).2.put pos (first.store pool).1)
          (by change _ ≤ (first.store pool).2.used; omega) found
        have position : ((first.store pool).2.put pos (first.store pool).1).used + (k - first.places.length) =
            pool.used + k := by
          change (first.store pool).2.used + _ = _
          omega
        have stop : ((first.store pool).2.put pos (first.store pool).1).used + slotsAll items =
            pool.used + (first.slots + slotsAll items) := by
          change (first.store pool).2.used + _ = _
          omega
        rw [position, stop] at held
        rw [storeAll, slotsAll]
        exact held

end

theorem store_root (data : Data) (pool : Pool) : (data.store pool.reset).1 = data.root := by
  cases data <;> rfl

/-! ## Values read one after the other -/

/-- Every place holds what the values, read in this order, leave there. -/
def Shows (all : List Data) (memory : ℕ → Value) : Prop :=
  ∀ place data, shown all place = some data → data.Held (Set.Ioi place) memory (memory place)

theorem shown_concat (seen : List Data) (data : Data) (place : ℕ) :
    shown (seen ++ [data]) place = data.places[place]?.or (shown seen place) := by
  induction seen with
  | nil => simp [shown]
  | cons first seen ih => rw [List.cons_append, shown, ih, shown, Option.or_assoc]

theorem Shows.nil (memory : ℕ → Value) : Shows [] memory := by
  intro place data found
  simp [shown] at found

theorem Shows.tail {later : List Data} {memory : ℕ → Value} (shows : Shows (data :: later) memory) :
    Shows later memory := by
  intro place other found
  exact shows place other (by rw [shown, found, Option.some_or])

/-- One more value from the first place on: the places that it does not reach show what they showed. -/
theorem Shows.store {seen : List Data} (shows : Shows seen pool.slots) (data : Data) :
    Shows (seen ++ [data]) (data.store pool.reset).2.slots := by
  intro place item found
  rw [shown_concat] at found
  cases reached : data.places[place]? with
  | some other =>
    rw [reached, Option.some_or, Option.some_inj] at found
    subst found
    have held := store_places data pool.reset reached
    rw [show pool.reset.used + place = place from Nat.zero_add _] at held
    exact held.congr Set.Ioo_subset_Ioi_self fun _ _ => rfl
  | none =>
    rw [reached, Option.none_or] at found
    rw [List.getElem?_eq_none_iff, length_places] at reached
    have kept (i : ℕ) (behind : place ≤ i) : (data.store pool.reset).2.slots i = pool.slots i :=
      store_kept data pool.reset (.inr (by change 0 + data.slots ≤ i; omega))
    rw [kept place le_rfl]
    exact (shows place item found).congr subset_rfl fun i behind => kept i (le_of_lt behind)

mutual

theorem Fits.places : ∀ {data : Data}, data.Fits → ∀ item ∈ data.places, item.Fits
  | null, _, _, member | scalar _ _, _, _, member | string _ _, _, _, member | bits _ _, _, _, member =>
    absurd member List.not_mem_nil
  | nest _ items, fits, item, member => by
      rcases List.mem_append.mp member with own | inner
      · exact fitAll_iff.mp fits.2 item own
      · exact FitAll.places fits.2 item inner

theorem FitAll.places : ∀ {items : List Data}, FitAll items → ∀ item ∈ placesAll items, item.Fits
  | [], _, _, member => absurd member List.not_mem_nil
  | first :: items, fits, item, member => by
      rcases List.mem_append.mp member with own | inner
      · exact Fits.places fits.1 item own
      · exact FitAll.places fits.2 item inner

end
theorem Fits.shown (fits : ∀ data ∈ all, data.Fits) {place : ℕ} (found : shown all place = some data) : data.Fits := by
  induction all with
  | nil => simp [Data.shown] at found
  | cons first later ih =>
    rw [Data.shown, Option.or_eq_some_iff] at found
    rcases found with behind | ⟨-, here⟩
    · exact ih (fun other member => fits other (List.mem_cons_of_mem _ member)) behind
    · exact (fits first List.mem_cons_self).places data (List.mem_of_getElem? here)

theorem nestValue_inj {kind kind' : NestKind} {start start' count count' : ℕ}
    (same : kind.value start count = kind'.value start' count') : kind = kind' ∧ start = start' ∧ count = count' := by
  cases kind <;> cases kind' <;> simp_all [NestKind.value]

section Unique

variable {region region' : Set ℕ} {memory : ℕ → Value}

mutual

/-- A value in a memory stands for one tree at most. -/
theorem Held.unique : ∀ {data other : Data} {value : Value}, data.Fits → other.Fits →
    data.Held region memory value → other.Held region' memory value → data = other
  | null, other, _, _, _, rfl, held => by
      cases other with
      | null => rfl
      | scalar kind content => cases held
      | string kind bytes => cases kind <;> cases held
      | bits bytes count => obtain ⟨_, shape, -⟩ := held; cases shape
      | nest kind items => obtain ⟨_, shape, -⟩ := held; cases kind <;> cases shape
  | scalar kind content, other, _, _, _, rfl, held => by
      cases other with
      | null => cases held
      | scalar kind' content' => cases held; rfl
      | string kind' bytes => cases kind' <;> cases held
      | bits bytes count => obtain ⟨_, shape, -⟩ := held; cases shape
      | nest kind' items => obtain ⟨_, shape, -⟩ := held; cases kind' <;> cases shape
  | string kind bytes, other, _, _, _, rfl, held => by
      cases other with
      | null => cases kind <;> cases held
      | scalar kind' content => cases kind <;> cases held
      | string kind' bytes' =>
        cases kind <;> cases kind' <;> cases held <;> rfl
      | bits bytes count => obtain ⟨_, shape, -⟩ := held; cases kind <;> cases shape
      | nest kind' items => obtain ⟨_, shape, -⟩ := held; cases kind <;> cases kind' <;> cases shape
  | bits bytes count, other, _, fits, fits', ⟨stored, rfl, same⟩, held => by
      cases other with
      | null => cases held
      | scalar kind content => cases held
      | string kind bytes => cases kind <;> cases held
      | bits bytes' count' =>
        obtain ⟨stored', shape, same'⟩ := held
        cases shape
        rw [fits.2] at same
        rw [fits'.2, same] at same'
        rw [same']
      | nest kind items => obtain ⟨_, shape, -⟩ := held; cases kind <;> cases shape
  | nest kind items, other, _, fits, fits', ⟨start, rfl, all⟩, held => by
      cases other with
      | null => cases kind <;> cases held
      | scalar kind' content => cases kind <;> cases held
      | string kind' bytes => cases kind <;> cases kind' <;> cases held
      | bits bytes count => obtain ⟨_, shape, -⟩ := held; cases kind <;> cases shape
      | nest kind' items' =>
        obtain ⟨start', shape, all'⟩ := held
        obtain ⟨rfl, rfl, length⟩ := nestValue_inj shape
        rw [HeldAll.unique length fits.2 fits'.2 all all']

theorem HeldAll.unique : ∀ {items others : List Data} {pos : ℕ}, items.length = others.length → FitAll items →
    FitAll others → HeldAll region memory items pos → HeldAll region' memory others pos → items = others
  | [], others, _, length, _, _, _, _ => (List.length_eq_zero_iff.mp length.symm).symm
  | item :: items, [], _, length, _, _, _, _ => by simp at length
  | item :: items, other :: others, pos, length, fits, fits', ⟨_, first, rest⟩, ⟨_, first', rest'⟩ => by
      rw [Held.unique fits.1 fits'.1 first first', HeldAll.unique (by simpa using length) fits.2 fits'.2 rest rest']

end

end Unique

/-- The value of data read from the first place on stands for the data when all its items do. -/
theorem root_denotes_iff {memory : Pool} : data.root.Denotes memory data ↔
      ∀ (place : ℕ) (item : Data), data.items[place]? = some item →
        item.Held Set.univ memory.slots (memory.slots place) := by
  cases data with
  | null | scalar | string => simp [Value.Denotes, Held, root, items]
  | bits bytes count => simp [Value.Denotes, Held, root, items, padTo_of_length_eq rfl]
  | nest kind items =>
    have start : (∃ start, kind.value 0 items.length = kind.value start items.length ∧
        HeldAll Set.univ memory.slots items start) ↔ HeldAll Set.univ memory.slots items 0 := by
      constructor
      · rintro ⟨start, same, all⟩
        obtain ⟨-, rfl, -⟩ := nestValue_inj same
        exact all
      · intro all
        exact ⟨0, rfl, all⟩
    change (∃ start, kind.value 0 items.length = kind.value start items.length ∧ _) ↔ _
    rw [start, heldAll_iff]
    simp [Data.items]

theorem places_of_items {place : ℕ} (found : data.items[place]? = some item) : data.places[place]? = some item := by
  cases data with
  | null | scalar | string | bits => simp [items] at found
  | nest kind items =>
    have inside : place < items.length := (List.getElem?_eq_some_iff.mp found).1
    rw [places, List.getElem?_append_left inside]
    exact found

/-- When further values have been read, the values stand for their data exactly when they are undisturbed. -/
theorem Shows.denote_iff {further : List Data} {memory : Pool} (shows : Shows (all ++ further) memory.slots)
    (fits : ∀ data ∈ all ++ further, data.Fits) :
    (∀ data ∈ all, data.root.Denotes memory data) ↔ UndisturbedBy further all := by
  induction all with
  | nil => simp [UndisturbedBy]
  | cons data later ih =>
    rw [List.cons_append] at shows fits
    rw [List.forall_mem_cons, UndisturbedBy, ih shows.tail (List.forall_mem_cons.mp fits).2, root_denotes_iff]
    refine and_congr_left fun _ => ?_
    have fitsData := (List.forall_mem_cons.mp fits).1
    constructor
    · intro held place item found other seen
      have shown : shown (data :: (later ++ further)) place = some other := by rw [Data.shown, seen, Option.some_or]
      have fitsItem := fitsData.places item (List.mem_of_getElem? (places_of_items found))
      exact Held.unique (Fits.shown fits shown) fitsItem (shows place other shown) (held place item found)
    · intro undisturbed place item found
      have shown : shown (data :: (later ++ further)) place = some item := by
        rw [Data.shown]
        cases seen : Data.shown (later ++ further) place with
        | none => rw [Option.none_or, places_of_items found]
        | some other => rw [Option.some_or, undisturbed place item found other seen]
      exact (shows place item shown).congr (Set.subset_univ _) fun _ _ => rfl

/-- Values without items are never disturbed. -/
theorem undisturbed_of_flat (flat : ∀ data ∈ all, data.items = []) : Undisturbed all := by
  rw [Undisturbed]
  induction all with
  | nil => trivial
  | cons data later ih =>
    rw [List.forall_mem_cons] at flat
    refine ⟨?_, ih flat.2⟩
    intro place item found
    simp [flat.1] at found

end Data

end OpenSpodes
