import Mathlib.Data.Set.Basic
import OpenSpodes.Model.Value

/-! # The data that values stand for

A tagged value refers to its items by their place in memory, so two values in two memories are compared
through the tree they stand for. `Data` is that tree, `Data.encode` its A-XDR encoding, and `Data.Held` says
that a value stands for a tree with all its items at places of a given region. `Data.Fits` collects the ranges
of the C types and the limits of the decoder, apart from the size of its pool: a tree needs `Data.slots` places.
-/

namespace OpenSpodes

open Bytes

/-- The three kinds of byte strings. -/
inductive StringKind
  | octet | visible | utf8
  deriving DecidableEq, Repr

namespace StringKind

def tag : StringKind → UInt8
  | octet => 9
  | visible => 10
  | utf8 => 12

def maxLen : StringKind → ℕ
  | octet => 256
  | visible | utf8 => 255

def value : StringKind → List UInt8 → Value
  | octet => .octetString
  | visible => .visibleString
  | utf8 => .utf8String

end StringKind

/-- The two kinds of values with items. -/
inductive NestKind
  | array | struct
  deriving DecidableEq, Repr

namespace NestKind

def tag : NestKind → UInt8
  | array => 1
  | struct => 2

def maxLen : NestKind → ℕ
  | array => 32
  | struct => 16

def value : NestKind → ℕ → ℕ → Value
  | array => .array
  | struct => .struct

end NestKind

/-- The content of a tagged value, items included. -/
inductive Data
  | null
  | scalar (kind : ScalarKind) (content : ℕ)
  | string (kind : StringKind) (bytes : List UInt8)
  | bits (bytes : List UInt8) (count : ℕ)
  | nest (kind : NestKind) (items : List Data)

/-- The bytes of a scalar; the last three of a date-time are always the same. -/
def scalarBytes (kind : ScalarKind) (content : ℕ) : List UInt8 :=
  match kind with
  | .datetime => beBytes 5 (content / 256 ^ 4) ++ (beBytes 4 content ++ [0xFF, 0xFF, 0x80])
  | _ => beBytes kind.size content

/-- The number of contents that a scalar can have. -/
def scalarBound (kind : ScalarKind) : ℕ :=
  match kind with
  | .boolean => 2
  | .datetime => 256 ^ 9
  | _ => 256 ^ kind.size

namespace Data

mutual

def encode : Data → List UInt8
  | null => [0]
  | scalar kind content => kind.tag :: scalarBytes kind content
  | string kind bytes => kind.tag :: (dlmsLenBytes bytes.length ++ bytes)
  | bits bytes count =>
      4 :: (dlmsLenBytes (1 + bytes.length) ++ UInt8.ofNat (bytes.length * 8 - count) :: bytes)
  | nest kind items => kind.tag :: (dlmsLenBytes items.length ++ encodeAll items)

/-- The encodings of items, one behind the other. -/
def encodeAll : List Data → List UInt8
  | [] => []
  | item :: items => item.encode ++ encodeAll items

end

mutual

/-- The number of places that the items take, those of items included. -/
def slots : Data → ℕ
  | nest _ items => items.length + slotsAll items
  | _ => 0

def slotsAll : List Data → ℕ
  | [] => 0
  | item :: items => item.slots + slotsAll items

end

mutual

/-- The parts are in the ranges of their types and within the limits of the decoder. -/
def Fits : Data → Prop
  | null => True
  | scalar kind content => content < scalarBound kind
  | string kind bytes => bytes.length ≤ kind.maxLen
  | bits bytes count => count ≤ 256 ∧ bytes.length = (count + 7) / 8
  | nest kind items => items.length ≤ kind.maxLen ∧ FitAll items

def FitAll : List Data → Prop
  | [] => True
  | item :: items => item.Fits ∧ FitAll items

end

mutual

/-- The parts without items are in the ranges of their types and the numbers of items have an encoding. -/
def Sized : Data → Prop
  | nest _ items => items.length ≤ 0xFFFF ∧ SizedAll items
  | data => data.Fits

def SizedAll : List Data → Prop
  | [] => True
  | item :: items => item.Sized ∧ SizedAll items

end

mutual

/-- The value stands for the data, with its items at places of the region. -/
def Held (region : Set ℕ) (memory : ℕ → Value) : Data → Value → Prop
  | null, value => value = .null
  | scalar kind content, value => value = .scalar kind content
  | string kind bytes, value => value = kind.value bytes
  | bits bytes count, value => ∃ stored, value = .bitString stored count ∧ padTo bytes.length stored = bytes
  | nest kind items, value => ∃ start, value = kind.value start items.length ∧ HeldAll region memory items start

def HeldAll (region : Set ℕ) (memory : ℕ → Value) : List Data → ℕ → Prop
  | [], _ => True
  | item :: items, pos => pos ∈ region ∧ Held region memory item (memory pos) ∧ HeldAll region memory items (pos + 1)

end

end Data

def Value.hasItems : Value → Bool
  | .array _ count | .struct _ count => count ≠ 0
  | _ => false

/-- The value in the given memory stands for the data. -/
def Value.Denotes (memory : Pool) (value : Value) (data : Data) : Prop := data.Held Set.univ memory.slots value

end OpenSpodes
