import OpenSpodes.Spec.Data

/-! # Where the pool holds the data

Places are handed out from front to back: first those of a list, then, item by item, those that each item needs.
`Data.store` is that layout as a function, `Data.places` lists what stands in the places it takes. Values that are read
one after the other all start at the first place, so what a place shows in the end is what the last value with so many
places has put there: `Data.shown`. A list of values is undisturbed when every item is still what its place shows.
-/

namespace OpenSpodes

def Pool.reset (pool : Pool) : Pool := { pool with used := 0 }

namespace Data

mutual

/-- The value for the data with its items in the next free places, and the pool behind. -/
def store : Data → Pool → Value × Pool
  | null, pool => (.null, pool)
  | scalar kind content, pool => (.scalar kind content, pool)
  | string kind bytes, pool => (kind.value bytes, pool)
  | bits bytes count, pool => (.bitString bytes count, pool)
  | nest kind items, pool =>
      (kind.value pool.used items.length, storeAll items pool.used (pool.take items.length))

/-- The items in places from `pos` on, each with its own items in the next free ones. -/
def storeAll : List Data → ℕ → Pool → Pool
  | [], _, pool => pool
  | item :: items, pos, pool => storeAll items (pos + 1) ((item.store pool).2.put pos (item.store pool).1)

end

/-- The value for the data at the start of a pool. -/
def root : Data → Value
  | null => .null
  | scalar kind content => .scalar kind content
  | string kind bytes => kind.value bytes
  | bits bytes count => .bitString bytes count
  | nest kind items => kind.value 0 items.length

def items : Data → List Data
  | nest _ items => items
  | _ => []

mutual

/-- What stands in the places that the data takes, in their order. -/
def places : Data → List Data
  | nest _ items => items ++ placesAll items
  | _ => []

def placesAll : List Data → List Data
  | [] => []
  | item :: items => item.places ++ placesAll items

end

/-- What a place shows when the values have been read one after the other. -/
def shown : List Data → ℕ → Option Data
  | [], _ => none
  | data :: later, place => (shown later place).or data.places[place]?

/-- The items of each value are what their places show after the values behind it and some further ones. -/
def UndisturbedBy (further : List Data) : List Data → Prop
  | [] => True
  | data :: later =>
      (∀ place item, data.items[place]? = some item → ∀ other, shown (later ++ further) place = some other → other = item) ∧
        UndisturbedBy further later

/-- The items of each value are what their places show after the later values. -/
def Undisturbed (all : List Data) : Prop := UndisturbedBy [] all

end Data

end OpenSpodes
