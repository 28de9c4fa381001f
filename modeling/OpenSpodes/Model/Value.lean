import OpenSpodes.Model.Codec

/-! # Tagged values

`osp_value_t` is a tagged union. The items of a decoded array or structure live in one static pool,
which every outermost `osp_value_read` reuses from its start; the value holds their position, so an
older value sees what a later read leaves there. A failed read leaves a partly filled value: blank
except for its tag, or untouched when not even the tag could be read.

Values that objects own are opaque here: the internal reference tags, like arrays in an object's own
memory, only matter through what they write.
-/

namespace OpenSpodes

open Bytes Machine.Fallible

/-- The tags with a fixed number of content bytes. -/
inductive ScalarKind
  | boolean | doubleLong | doubleLongUnsigned | bcd | integer | long | unsigned | longUnsigned
  | long64 | long64Unsigned | enum | float32 | float64 | datetime | date | time
  deriving DecidableEq, Repr

namespace ScalarKind

def tag : ScalarKind → UInt8
  | boolean => 3
  | doubleLong => 5
  | doubleLongUnsigned => 6
  | bcd => 13
  | integer => 15
  | long => 16
  | unsigned => 17
  | longUnsigned => 18
  | long64 => 20
  | long64Unsigned => 21
  | enum => 22
  | float32 => 23
  | float64 => 24
  | datetime => 25
  | date => 26
  | time => 27

def ofTag (tag : UInt8) : Option ScalarKind :=
  match tag with
  | 3 => some boolean
  | 5 => some doubleLong
  | 6 => some doubleLongUnsigned
  | 13 => some bcd
  | 15 => some integer
  | 16 => some long
  | 17 => some unsigned
  | 18 => some longUnsigned
  | 20 => some long64
  | 21 => some long64Unsigned
  | 22 => some enum
  | 23 => some float32
  | 24 => some float64
  | 25 => some datetime
  | 26 => some date
  | 27 => some time
  | _ => none

theorem ofTag_tag (kind : ScalarKind) : ofTag kind.tag = some kind := by
  cases kind <;> rfl

def size : ScalarKind → ℕ
  | boolean | bcd | integer | unsigned | enum => 1
  | long | longUnsigned => 2
  | doubleLong | doubleLongUnsigned | float32 | time => 4
  | long64 | long64Unsigned | float64 => 8
  | datetime => 12
  | date => 5

end ScalarKind

/-- `osp_value_t`. Scalars are the big-endian number of their stored bytes: nine for a date-time,
whose last three are not kept. Items of arrays and structures are `count` pool slots from `start`. -/
inductive Value
  | null
  | scalar (kind : ScalarKind) (content : ℕ)
  | octetString (bytes : List UInt8)
  | visibleString (bytes : List UInt8)
  | utf8String (bytes : List UInt8)
  | bitString (bits : List UInt8) (numBits : ℕ)
  | array (start count : ℕ)
  | struct (start count : ℕ)
  | other (tag : UInt8)
  | owned (tag : UInt8) (pieces : List (List UInt8 × Err)) (outcome : Err)
  deriving DecidableEq, Repr

namespace Value

def tag : Value → UInt8
  | null => 0
  | scalar kind _ => kind.tag
  | octetString _ => 9
  | visibleString _ => 10
  | utf8String _ => 12
  | bitString _ _ => 4
  | array _ _ => 1
  | struct _ _ => 2
  | other tag => tag
  | owned tag _ _ => tag

/-- A zeroed value with its tag set. -/
def blank (tag : UInt8) : Value :=
  match tag, ScalarKind.ofTag tag with
  | 0, _ => null
  | 9, _ => octetString []
  | 10, _ => visibleString []
  | 12, _ => utf8String []
  | 4, _ => bitString [] 0
  | 1, _ => array 0 0
  | 2, _ => struct 0 0
  | _, some kind => scalar kind 0
  | _, none => other tag

end Value

/-- The static pool of nested items and how much of it the current read has handed out. -/
structure Pool where
  slots : ℕ → Value
  used : ℕ

/-- `OSP_VALUE_READ_POOL_LEN`. -/
def poolLen : ℕ := 512

namespace Pool

def empty : Pool := ⟨fun _ => .null, 0⟩

def put (pool : Pool) (pos : ℕ) (value : Value) : Pool :=
  { pool with slots := fun i => if i = pos then value else pool.slots i }

/-- Hand out `count` slots. -/
def take (pool : Pool) (count : ℕ) : Pool := { pool with used := pool.used + count }

end Pool

/-- What a value decoder works on. -/
structure Reader where
  buf : Buf
  pool : Pool

/-- Run a buffer step inside a decoder; a failure is handed to the caller. -/
def Reader.run {α : Type} (step : Read α) : StateM Reader (Except Err α) := fun r =>
  match step r.buf with
  | .ok a b => (.ok a, { r with buf := b })
  | .error e b => (.error e, { r with buf := b })

/-- Keep a decoded part, or the blank value of the tag when the step failed. -/
def keepOr (tag : UInt8) (result : Except Err Value) : Err × Value :=
  match result with
  | .ok value => (.ok, value)
  | .error e => (e, Value.blank tag)

/-- The content of a date-time read as far as it came: date, time, three bytes skipped. -/
def datetimeRead (b : Buf) : Err × ℕ × Buf :=
  match axdrReadUint 5 b with
  | .error e b => (e, 0, b)
  | .ok date b =>
      match axdrReadUint 4 b with
      | .error e b => (e, date * 256 ^ 4, b)
      | .ok time b =>
          let content := date * 256 ^ 4 + time
          match needUnread 3 .invalid b with
          | .error e b => (e, content, b)
          | .ok _ b => (.ok, content, b.skip 3)

/-- The content of a scalar. -/
def scalarRead (kind : ScalarKind) (b : Buf) : Err × ℕ × Buf :=
  match kind with
  | .datetime => datetimeRead b
  | _ =>
      match axdrReadUint kind.size b with
      | .error e b => (e, 0, b)
      | .ok content b => (.ok, if kind = .boolean then min content 1 else content, b)

/-- `osp_axdr_read_length`, whose failure is the plain number -1. -/
def axdrReadLength : Read ℕ := do
  match ← attempt dlmsReadLen with
  | none => throw .nomem
  | some len => return len

/-- A length of at most `maxLen` and that many bytes. -/
def stringRead (readLength : Read ℕ) (maxLen : ℕ) (tooLong : Err) : Read (List UInt8) := do
  let len ← readLength
  failIf (len > maxLen) tooLong
  needUnread len .invalid
  takeBytes len

/-- A bit string: byte count, unused bits, bytes. Nothing bounds the unused bits by the rest. -/
def bitStringRead : Read Value := do
  match ← axdrReadLength with
  | 0 => return .bitString [] 0
  | len + 1 =>
      needUnread (len + 1) .invalid
      let unusedBits ← nextByte
      let totalBits := (len * 8) % 2 ^ 32
      failIf (totalBits > 32 * 8) .nomem
      let bits ← takeBytes len
      return .bitString bits ((totalBits + 2 ^ 32 - unusedBits.toNat) % 2 ^ 32)

/-- `osp_bitstring_read`: the bytes, and a number of bits in which the octet of unused bits counts too. -/
def bitstringRead (maxBits : ℕ) : Read (List UInt8 × ℕ) := do
  let tag ← axdrReadTag
  failIf (tag ≠ 4) .invalid
  match ← dlmsReadLen with
  | 0 => return ([], 0)
  | len + 1 =>
      needUnread (len + 1) .invalid
      failIf (len + 1 > 0x1FFFFFFF) .nomem
      let totalBits := (len + 1) * 8
      failIf (totalBits > maxBits) .nomem
      let unused ← nextByte
      let bits ← takeBytes len
      return (bits, (totalBits + 2 ^ 32 - if len = 0 then 0 else unused.toNat) % 2 ^ 32)

/-- `osp_bitstring_write`. -/
def bitstringWrite (bits : List UInt8) (numBits : ℕ) : Write Unit := do
  axdrWriteU8 4
  let numBytes := (numBits + 7) % 2 ^ 32 / 8
  dlmsWriteLen (1 + numBytes)
  writeBytes (UInt8.ofNat ((numBytes * 8 + 2 ^ 32 - numBits) % 2 ^ 32) :: padTo numBytes bits) .nomem

/-! ## Compact arrays -/

def repeatRead (step : Read Unit) : ℕ → Read Unit
  | 0 => return ()
  | n + 1 => do
      step
      repeatRead step n

/-- `skip_type_description_depth` with the number of levels left. -/
def skipTypeDescription : ℕ → Read Unit
  | 0 => throw .invalid
  | levels + 1 => do
      let tag ← axdrReadU8
      if tag = 2 then repeatRead (skipTypeDescription levels) (← dlmsReadLen)
      else if tag = 1 then
        needUnread 2 .invalid
        modify (·.skip 2)
        skipTypeDescription levels
      else return ()

/-- `osp_axdr_type_size`; the delta types have a size although no reader knows them. -/
def axdrTypeSize (tag : UInt8) : ℕ :=
  match ScalarKind.ofTag tag with
  | some kind => kind.size
  | none =>
      if tag = 28 ∨ tag = 31 then 1 else if tag = 29 ∨ tag = 32 then 2
      else if tag = 30 ∨ tag = 33 then 4 else 0

/-- `skip_packed_value`. -/
def skipPackedValue (tag : UInt8) : Read Unit := do
  let fixed := axdrTypeSize tag
  if fixed > 0 then
    needUnread fixed .invalid
    modify (·.skip fixed)
  else if tag = 0 then return ()
  else if tag = 9 ∨ tag = 10 ∨ tag = 12 then
    let len ← dlmsReadLen
    needUnread len .invalid
    modify (·.skip len)
  else if tag = 4 then
    let len := ((← dlmsReadLen) + 7) % 2 ^ 32 / 8
    needUnread len .invalid
    modify (·.skip len)
  else throw .unsupported

/-- `read_packed_bitstring`. -/
def readPackedBitstring : Read Value := do
  let numBits ← dlmsReadLen
  let numBytes := (numBits + 7) % 2 ^ 32 / 8
  failIf (numBits > 32 * 8 ∨ (← get).unread < numBytes) .invalid
  return .bitString (← takeBytes numBytes) numBits

/-- `read_packed_value`: untagged content, with its own limits and errors for strings. -/
def readPackedValue (tag : UInt8) (b : Buf) : Err × Value × Buf :=
  let run (step : Read Value) : Err × Value × Buf :=
    match step b with
    | .ok value b => (.ok, value, b)
    | .error e b => (e, Value.blank tag, b)
  match ScalarKind.ofTag tag with
  | some kind =>
      let (err, content, b) := scalarRead kind b
      (err, .scalar kind content, b)
  | none =>
      if tag = 0 then (.ok, .null, b)
      else if tag = 9 then run (.octetString <$> stringRead dlmsReadLen 256 .invalid)
      else if tag = 10 then run (.visibleString <$> stringRead dlmsReadLen 255 .invalid)
      else if tag = 12 then run (.utf8String <$> stringRead dlmsReadLen 256 .invalid)
      else if tag = 4 then run readPackedBitstring
      else (.unsupported, Value.blank tag, b)

/-- The two cursors of a compact array and the pool. -/
structure Compact where
  desc : Buf
  contents : Buf
  pool : Pool

/-- Steps of the compact-array decoder. -/
abbrev CompactM := EStateM Err Compact

def onDesc {α : Type} (step : Read α) : CompactM α := fun s =>
  match step s.desc with
  | .ok a b => .ok a { s with desc := b }
  | .error e b => .error e { s with desc := b }

def onContents {α : Type} (step : Read α) : CompactM α := fun s =>
  match step s.contents with
  | .ok a b => .ok a { s with contents := b }
  | .error e b => .error e { s with contents := b }

def rewindDesc (pos : ℕ) : CompactM Unit := modify fun s => { s with desc := { s.desc with rd := pos } }

/-- Run a step for `n` positions from `pos`. -/
def forSlots (step : ℕ → CompactM Unit) : ℕ → ℕ → CompactM Unit
  | 0, _ => return ()
  | n + 1, pos => do
      step pos
      forSlots step n (pos + 1)

/-- `compact_skip_description`; a description byte is read at each level, which bounds the depth. -/
def compactSkipDescription : ℕ → CompactM Unit
  | 0 => throw .invalid
  | fuel + 1 => do
      let tag ← onDesc axdrReadU8
      if tag = 2 then
        forSlots (fun _ => compactSkipDescription fuel) (← onDesc dlmsReadLen) 0
      else if tag = 1 then
        let n ← onDesc axdrReadU16
        let elemDesc := (← get).desc.rd
        forSlots (fun _ => do rewindDesc elemDesc; compactSkipDescription fuel) n 0
      else onContents (skipPackedValue tag)

/-- `compact_count_elements`, at most `left` more elements. -/
def compactCountElements (fuel : ℕ) : ℕ → ℕ → CompactM ℕ
  | 0, count => do
      if (← get).contents.rd < (← get).contents.wr then throw .nomem else return count
  | left + 1, count => do
      if (← get).contents.rd < (← get).contents.wr then
        rewindDesc 0
        compactSkipDescription fuel
        compactCountElements fuel left (count + 1)
      else return count

/-- Take `count` pool slots for items, if there are that many; the first one. -/
def compactTake (count maxLen : ℕ) : CompactM ℕ := do
  let start := (← get).pool.used
  failIf (count > maxLen ∨ start + count > poolLen) .nomem
  modify fun s => { s with pool := s.pool.take count }
  return start

def compactPut (pos : ℕ) (value : Value) : CompactM Unit :=
  modify fun s => { s with pool := s.pool.put pos value }

/-- `compact_walk_description`: decode one element into a pool slot. -/
def compactWalkDescription : ℕ → ℕ → CompactM Unit
  | 0, _ => throw .invalid
  | fuel + 1, pos => do
      let tag ← onDesc axdrReadU8
      if tag = 2 then
        let n ← onDesc dlmsReadLen
        let start ← compactTake n 16
        forSlots (compactWalkDescription fuel) n start
        compactPut pos (.struct start n)
      else if tag = 1 then
        let n ← onDesc axdrReadU16
        let start ← compactTake n 32
        let elemDesc := (← get).desc.rd
        forSlots (fun slot => do rewindDesc elemDesc; compactWalkDescription fuel slot) n start
        compactPut pos (.array start n)
      else
        let (err, value, contents) := readPackedValue tag (← get).contents
        modify fun s => { s with contents := contents, pool := s.pool.put pos value }
        failIf (err ≠ .ok) err

/-- `compact_decode_elements`: count the elements, then decode each from the description's start. -/
def compactDecodeElements (fuel : ℕ) : CompactM Value := do
  let count ← compactCountElements fuel 32 0
  let start ← compactTake count 32
  modify fun s => { s with contents := { s.contents with rd := 0 } }
  forSlots (fun slot => do rewindDesc 0; compactWalkDescription fuel slot) count start
  return .array start count

/-- `read_compact_array`; after its contents' length is known the buffer moves behind them. -/
def readCompactArray : StateM Reader (Except Err Value) := do
  let before := (← get).buf
  match skipTypeDescription 16 before with
  | .error e _ => return .error e
  | .ok _ probe =>
      let descLen := (probe.rd + 2 ^ 32 - before.rd) % 2 ^ 32
      modify fun r => { r with buf := { before with rd := (before.rd + descLen) % 2 ^ 32 } }
      match ← Reader.run (do
          let len ← dlmsReadLen
          needUnread len .invalid
          return len) with
      | .error e => return .error e
      | .ok len =>
          let at' := (← get).buf
          let desc : Buf := ⟨before.buf.drop before.rd, 0, descLen⟩
          let contents : Buf := ⟨at'.buf.drop at'.rd, 0, len⟩
          let pool := (← get).pool
          match compactDecodeElements (descLen + 1) ⟨desc, contents, pool⟩ with
          | .ok value s =>
              set ({ buf := at'.skip len, pool := s.pool } : Reader)
              return .ok value
          | .error e s =>
              set ({ buf := at'.skip len, pool := s.pool } : Reader)
              return .error e

/-! ## Reading and writing -/

/-- Read `n` items into consecutive pool slots. -/
def readItems (read : Value → StateM Reader (Err × Value)) : ℕ → ℕ → StateM Reader Err
  | 0, _ => return .ok
  | n + 1, pos => do
      let (err, value) ← read ((← get).pool.slots pos)
      modify fun r => { r with pool := r.pool.put pos value }
      if err = .ok then readItems read n (pos + 1) else return err

/-- Take pool slots for a tagged array or structure and read its items. -/
def listRead (read : Value → StateM Reader (Err × Value)) (tag : UInt8) (maxLen : ℕ)
    (make : ℕ → ℕ → Value) : StateM Reader (Err × Value) := do
  match ← Reader.run dlmsReadLen with
  | .error e => return (e, Value.blank tag)
  | .ok count =>
      let start := (← get).pool.used
      if count > maxLen ∨ start + count > poolLen then return (.nomem, Value.blank tag)
      else
        modify fun r => { r with pool := r.pool.take count }
        let err ← readItems read count start
        return (err, if err = .ok then make start count else Value.blank tag)

/-- `osp_value_read_impl` on an old value. Every level below the first owns a pool slot, which
bounds the depth. -/
def valueReadImpl : ℕ → Value → StateM Reader (Err × Value)
  | 0, old => return (.invalid, old)
  | fuel + 1, old => do
      match ← Reader.run axdrReadTag with
      | .error e => return (e, old)
      | .ok tag =>
          match ScalarKind.ofTag tag with
          | some kind =>
              let (err, content, buf) := scalarRead kind (← get).buf
              modify fun r => { r with buf := buf }
              return (err, .scalar kind content)
          | none =>
              if tag = 0 then return (.ok, .null)
              else if tag = 9 then string tag .octetString (stringRead dlmsReadLen 256 .nomem)
              else if tag = 10 then string tag .visibleString (stringRead dlmsReadLen 255 .nomem)
              else if tag = 12 then string tag .utf8String (stringRead axdrReadLength 255 .nomem)
              else if tag = 4 then return keepOr tag (← Reader.run bitStringRead)
              else if tag = 1 then listRead (valueReadImpl fuel) tag 32 .array
              else if tag = 2 then listRead (valueReadImpl fuel) tag 16 .struct
              else if tag = 19 then return keepOr tag (← readCompactArray)
              else return (.unsupported, Value.blank tag)
where
  string (tag : UInt8) (make : List UInt8 → Value) (read : Read (List UInt8)) :
      StateM Reader (Err × Value) := do
    return keepOr tag (← Reader.run (make <$> read))

/-- `osp_value_read` from the outermost level: the pool starts over. -/
def valueRead (old : Value) : StateM Reader (Err × Value) := do
  modify fun r => { r with pool := { r.pool with used := 0 } }
  valueReadImpl (poolLen + 2) old

/-- `osp_value_skip`. -/
def valueSkip : StateM Reader Err := do return (← valueRead .null).1

/-- Write the content of a scalar; a date-time is written in three parts, the last one fixed. -/
def scalarWrite (kind : ScalarKind) (content : ℕ) : Write Unit :=
  match kind with
  | .datetime => do
      writeBytes (beBytes 5 (content / 256 ^ 4)) .invalid
      writeBytes (beBytes 4 content) .invalid
      writeBytes [0xFF, 0xFF, 0x80] .nomem
  | _ => writeBytes (beBytes kind.size content) .invalid

/-- Write an object's own view: pieces that each fit or fail, then the view's verdict. -/
def writePieces (outcome : Err) : List (List UInt8 × Err) → Write Unit
  | [] => failIf (outcome ≠ .ok) outcome
  | (bytes, err) :: rest => do
      writeBytes bytes err
      writePieces outcome rest

/-- Write a list of values one after the other. -/
def writeItems (write : Value → Write Unit) (slots : ℕ → Value) : ℕ → ℕ → Write Unit
  | 0, _ => return ()
  | n + 1, pos => do
      write (slots pos)
      writeItems write slots n (pos + 1)

/-- `osp_value_write`; items lie behind the slot that refers to them, which bounds the depth. -/
def valueWriteImpl (pool : Pool) : ℕ → Value → Write Unit
  | 0, _ => throw .invalid
  | fuel + 1, value => do
      match value with
      | .owned _ pieces outcome =>
          -- the placeholder tag is written, taken back and replaced by what the view writes
          needFree 1 .invalid
          writePieces outcome pieces
      | .other tag =>
          if tag ≥ 0xEC then
            needFree 1 .invalid
            throw .invalid
          else
            axdrWriteU8 tag
            throw .unsupported
      | .null => axdrWriteU8 0
      | .scalar kind content =>
          axdrWriteU8 kind.tag
          scalarWrite kind content
      | .octetString bytes =>
          axdrWriteU8 9
          axdrWriteOctetString bytes
      | .visibleString bytes =>
          axdrWriteU8 10
          axdrWriteOctetString bytes
      | .utf8String bytes =>
          axdrWriteU8 12
          axdrWriteOctetString bytes
      | .bitString bits numBits =>
          let numBytes := (numBits + 7) % 2 ^ 32 / 8
          axdrWriteU8 4
          dlmsWriteLen (1 + numBytes)
          writeBytes ([UInt8.ofNat ((numBytes * 8 + 2 ^ 32 - numBits) % 2 ^ 32)] ++ padTo numBytes bits)
            .nomem
      | .array start count =>
          axdrWriteU8 1
          dlmsWriteLen count
          writeItems (valueWriteImpl pool fuel) pool.slots count start
      | .struct start count =>
          axdrWriteU8 2
          dlmsWriteLen count
          writeItems (valueWriteImpl pool fuel) pool.slots count start

/-- `osp_value_write`. -/
def valueWrite (pool : Pool) (value : Value) : Write Unit := valueWriteImpl pool (poolLen + 2) value

end OpenSpodes
