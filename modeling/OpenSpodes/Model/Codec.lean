import OpenSpodes.Machine.Fallible
import OpenSpodes.ToMathlib.Bytes

/-! # Buffers and the length codec

`osp_buf_t` is a memory area with a read and a write position. Readers see the area's bytes, the
two positions as 32-bit numbers, and take what lies between them as unread; since `rd` may have
been moved past `wr` by an unchecked read, the unread count is a 32-bit difference. Writers append,
so a writer is the bytes written so far with the capacity they never exceed.
-/

namespace OpenSpodes

open Bytes Machine.Fallible

/-- `osp_err_t`. -/
inductive Err
  | ok | nomem | io | invalid | unsupported | timeout | security | notFound | disconnected
  deriving DecidableEq, Repr

/-- A buffer being read: memory content, read position and end of the valid data. -/
structure Buf where
  buf : List UInt8
  rd : ℕ
  wr : ℕ
  deriving DecidableEq, Repr

/-- A buffer being written: the bytes written, never more than its size. -/
structure WBuf where
  size : ℕ
  out : List UInt8
  fits : out.length ≤ size
  deriving DecidableEq

namespace Buf

def ofBytes (bytes : List UInt8) : Buf := ⟨bytes, 0, bytes.length⟩

/-- `osp_buf_unread`, a `uint32_t` difference. -/
def unread (b : Buf) : ℕ := if b.rd ≤ b.wr then b.wr - b.rd else b.wr + 2 ^ 32 - b.rd

/-- The byte at an absolute index of the area. -/
def byteAt (b : Buf) (i : ℕ) : UInt8 := b.buf.getD i 0

/-- The `n` bytes from the read position on. -/
def slice (b : Buf) (n : ℕ) : List UInt8 := padTo n (b.buf.drop b.rd)

/-- Move the read position by `n`. -/
def skip (b : Buf) (n : ℕ) : Buf := { b with rd := (b.rd + n) % 2 ^ 32 }

end Buf

namespace WBuf

/-- `osp_buf_init` on an area of the given size. -/
def init (size : ℕ) : WBuf := ⟨size, [], Nat.zero_le size⟩

/-- `osp_buf_free`. -/
def free (b : WBuf) : ℕ := b.size - b.out.length

/-- Append bytes that the caller has checked room for; without room nothing is written. -/
def push (b : WBuf) (bytes : List UInt8) : WBuf :=
  if room : bytes.length ≤ b.free then
    ⟨b.size, b.out ++ bytes, by
      have := b.fits
      simp only [free] at room
      simp only [List.length_append]
      omega⟩
  else b

/-- Replace what was written, when the new content fits. -/
def rewrite (b : WBuf) (out : List UInt8) : WBuf :=
  if room : out.length ≤ b.size then ⟨b.size, out, room⟩ else b

end WBuf

/-- Decoding steps: on failure the read position stays where it was reached. -/
abbrev Read := EStateM Err Buf

/-- Encoding steps: on failure the bytes already written stay. -/
abbrev Write := EStateM Err WBuf

/-- Fail with `err` unless `n` bytes are unread. -/
def needUnread (n : ℕ) (err : Err) : Read Unit := do
  failIf ((← get).unread < n) err

/-- Fail with `err` unless `n` bytes are free. -/
def needFree (n : ℕ) (err : Err) : Write Unit := do
  failIf ((← get).free < n) err

/-- Take the next `n` bytes without a check. -/
def takeBytes (n : ℕ) : Read (List UInt8) :=
  modifyGet fun b => (b.slice n, b.skip n)

/-- Take the next byte without a check. -/
def nextByte : Read UInt8 := modifyGet fun b => (b.byteAt b.rd, b.skip 1)

/-- `osp_axdr_read_u8`. -/
def axdrReadU8 : Read UInt8 := do
  needUnread 1 .invalid
  nextByte

/-- `osp_axdr_read_tag`. -/
def axdrReadTag : Read UInt8 := axdrReadU8

/-- `osp_axdr_read_bool`. -/
def axdrReadBool : Read Bool := return (← axdrReadU8) != 0

/-- A checked big-endian number of `width` bytes. -/
def axdrReadUint (width : ℕ) : Read ℕ := do
  needUnread width .invalid
  return beNat (← takeBytes width)

/-- `osp_axdr_read_u16`. -/
def axdrReadU16 : Read ℕ := axdrReadUint 2

/-- `osp_axdr_read_u32`. -/
def axdrReadU32 : Read ℕ := axdrReadUint 4

/-- `osp_dlms_read_len`, shared by BER and A-XDR. -/
def dlmsReadLen : Read ℕ := do
  needUnread 1 .invalid
  let first ← nextByte
  if first < 0x80 then return first.toNat
  else
    let n := (first &&& 0x7F).toNat
    -- the indefinite form is forbidden
    failIf (n = 0) .unsupported
    failIf (n > 4) .unsupported
    needUnread n .invalid
    return beNat (← takeBytes n)

/-- `osp_axdr_read_octet_string`: tag 9, a length of at most `maxLen`, then the bytes. -/
def axdrReadOctetString (maxLen : ℕ) : Read (List UInt8) := do
  let tag ← axdrReadTag
  failIf (tag ≠ 9) .invalid
  let len ← dlmsReadLen
  failIf (len > maxLen) .nomem
  needUnread len .invalid
  takeBytes len

/-- Append bytes, failing with `err` when they do not fit. -/
def writeBytes (bytes : List UInt8) (err : Err) : Write Unit := do
  needFree bytes.length err
  modify (·.push bytes)

/-- `osp_axdr_write_u8`. -/
def axdrWriteU8 (val : UInt8) : Write Unit := writeBytes [val] .invalid

/-- Write bytes one by one, each write failing on its own. -/
def writeEach (bytes : List UInt8) : Write Unit :=
  bytes.forM fun byte => ignore (axdrWriteU8 byte)

/-- `osp_axdr_write_u16`. -/
def axdrWriteU16 (val : ℕ) : Write Unit := writeBytes (beBytes 2 val) .invalid

/-- `osp_axdr_write_u32`. -/
def axdrWriteU32 (val : ℕ) : Write Unit := writeBytes (beBytes 4 val) .invalid

/-- `osp_axdr_write_bool`. -/
def axdrWriteBool (val : Bool) : Write Unit := axdrWriteU8 (if val then 1 else 0)

/-- `dlms_min_octets_u32`. -/
def dlmsMinOctets (v : ℕ) : ℕ :=
  if v ≤ 0xFF then 1 else if v ≤ 0xFFFF then 2 else if v ≤ 0xFFFFFF then 3 else 4

/-- The bytes of a definite length. -/
def dlmsLenBytes (len : ℕ) : List UInt8 :=
  if len < 0x80 then [UInt8.ofNat len]
  else (0x80 ||| UInt8.ofNat (dlmsMinOctets len)) :: beBytes (dlmsMinOctets len) len

/-- `osp_dlms_write_len`. -/
def dlmsWriteLen (len : ℕ) : Write Unit := writeBytes (dlmsLenBytes len) .nomem

/-- `osp_axdr_write_octet_string`: length and bytes, without a tag. -/
def axdrWriteOctetString (data : List UInt8) : Write Unit := do
  dlmsWriteLen data.length
  writeBytes data .nomem

end OpenSpodes
