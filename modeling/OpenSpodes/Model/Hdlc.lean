import OpenSpodes.Model.Codec

/-! # HDLC frames and the wrapper

A frame is two flags around a format field with length, two variable-length addresses, a control
byte and, when there is information, a header check sequence and the information; a frame check
sequence ends it. The deframer is handed a memory area and a length: where a malformed frame makes it
read on, it reads what the area holds behind the frame.
-/

namespace OpenSpodes

open Bytes

/-- The lookup table of CRC-16/X.25, in sixteen rows of sixteen. -/
def crcTable : Vector (Vector UInt16 16) 16 :=
  #v[
    #v[0x0000, 0x1189, 0x2312, 0x329B, 0x4624, 0x57AD, 0x6536, 0x74BF,
      0x8C48, 0x9DC1, 0xAF5A, 0xBED3, 0xCA6C, 0xDBE5, 0xE97E, 0xF8F7],
    #v[0x1081, 0x0108, 0x3393, 0x221A, 0x56A5, 0x472C, 0x75B7, 0x643E,
      0x9CC9, 0x8D40, 0xBFDB, 0xAE52, 0xDAED, 0xCB64, 0xF9FF, 0xE876],
    #v[0x2102, 0x308B, 0x0210, 0x1399, 0x6726, 0x76AF, 0x4434, 0x55BD,
      0xAD4A, 0xBCC3, 0x8E58, 0x9FD1, 0xEB6E, 0xFAE7, 0xC87C, 0xD9F5],
    #v[0x3183, 0x200A, 0x1291, 0x0318, 0x77A7, 0x662E, 0x54B5, 0x453C,
      0xBDCB, 0xAC42, 0x9ED9, 0x8F50, 0xFBEF, 0xEA66, 0xD8FD, 0xC974],
    #v[0x4204, 0x538D, 0x6116, 0x709F, 0x0420, 0x15A9, 0x2732, 0x36BB,
      0xCE4C, 0xDFC5, 0xED5E, 0xFCD7, 0x8868, 0x99E1, 0xAB7A, 0xBAF3],
    #v[0x5285, 0x430C, 0x7197, 0x601E, 0x14A1, 0x0528, 0x37B3, 0x263A,
      0xDECD, 0xCF44, 0xFDDF, 0xEC56, 0x98E9, 0x8960, 0xBBFB, 0xAA72],
    #v[0x6306, 0x728F, 0x4014, 0x519D, 0x2522, 0x34AB, 0x0630, 0x17B9,
      0xEF4E, 0xFEC7, 0xCC5C, 0xDDD5, 0xA96A, 0xB8E3, 0x8A78, 0x9BF1],
    #v[0x7387, 0x620E, 0x5095, 0x411C, 0x35A3, 0x242A, 0x16B1, 0x0738,
      0xFFCF, 0xEE46, 0xDCDD, 0xCD54, 0xB9EB, 0xA862, 0x9AF9, 0x8B70],
    #v[0x8408, 0x9581, 0xA71A, 0xB693, 0xC22C, 0xD3A5, 0xE13E, 0xF0B7,
      0x0840, 0x19C9, 0x2B52, 0x3ADB, 0x4E64, 0x5FED, 0x6D76, 0x7CFF],
    #v[0x9489, 0x8500, 0xB79B, 0xA612, 0xD2AD, 0xC324, 0xF1BF, 0xE036,
      0x18C1, 0x0948, 0x3BD3, 0x2A5A, 0x5EE5, 0x4F6C, 0x7DF7, 0x6C7E],
    #v[0xA50A, 0xB483, 0x8618, 0x9791, 0xE32E, 0xF2A7, 0xC03C, 0xD1B5,
      0x2942, 0x38CB, 0x0A50, 0x1BD9, 0x6F66, 0x7EEF, 0x4C74, 0x5DFD],
    #v[0xB58B, 0xA402, 0x9699, 0x8710, 0xF3AF, 0xE226, 0xD0BD, 0xC134,
      0x39C3, 0x284A, 0x1AD1, 0x0B58, 0x7FE7, 0x6E6E, 0x5CF5, 0x4D7C],
    #v[0xC60C, 0xD785, 0xE51E, 0xF497, 0x8028, 0x91A1, 0xA33A, 0xB2B3,
      0x4A44, 0x5BCD, 0x6956, 0x78DF, 0x0C60, 0x1DE9, 0x2F72, 0x3EFB],
    #v[0xD68D, 0xC704, 0xF59F, 0xE416, 0x90A9, 0x8120, 0xB3BB, 0xA232,
      0x5AC5, 0x4B4C, 0x79D7, 0x685E, 0x1CE1, 0x0D68, 0x3FF3, 0x2E7A],
    #v[0xE70E, 0xF687, 0xC41C, 0xD595, 0xA12A, 0xB0A3, 0x8238, 0x93B1,
      0x6B46, 0x7ACF, 0x4854, 0x59DD, 0x2D62, 0x3CEB, 0x0E70, 0x1FF9],
    #v[0xF78F, 0xE606, 0xD49D, 0xC514, 0xB1AB, 0xA022, 0x92B9, 0x8330,
      0x7BC7, 0x6A4E, 0x58D5, 0x495C, 0x3DE3, 0x2C6A, 0x1EF1, 0x0F78]]

/-- The table entry for a byte. -/
def crcEntry (byte : UInt8) : UInt16 :=
  (crcTable.get ⟨byte.toNat / 16, Bytes.highNibble_lt byte⟩).get ⟨byte.toNat % 16, Bytes.lowNibble_lt byte⟩

/-- `osp_hdlc_fcs16`. -/
def hdlcFcs16 (data : List UInt8) : UInt16 :=
  let step (fcs : UInt16) (byte : UInt8) : UInt16 := (fcs >>> 8) ^^^ crcEntry (fcs.toUInt8 ^^^ byte)
  data.foldl step 0xFFFF ^^^ 0xFFFF

/-- A check sequence on the wire, low byte first. -/
def fcsBytes (fcs : UInt16) : List UInt8 := [fcs.toUInt8, (fcs >>> 8).toUInt8]

/-- `osp_hdlc_address_t`: up to four bytes, the last one marked by its lowest bit. -/
abbrev HdlcAddress := List UInt8

/-- The base-128 digits of a value, most significant first, at most `n` of them. -/
def base128 : ℕ → ℕ → List ℕ
  | 0, _ => []
  | n + 1, value => if value = 0 then [] else base128 n (value / 128) ++ [value % 128]

/-- `osp_hdlc_address_init`; the length argument is not used. -/
def hdlcAddressInit (value : ℕ) : HdlcAddress :=
  if value = 0 then [1]
  else
    let digits := base128 4 value
    (digits.dropLast.map fun digit => UInt8.ofNat (digit * 2)) ++
      [UInt8.ofNat (digits.getLastD 0 * 2 + 1)]

/-- `osp_hdlc_address_value`. -/
def hdlcAddressValue (addr : HdlcAddress) : ℕ :=
  addr.foldl (fun value byte => value * 128 + byte.toNat / 2 % 128) 0 % 2 ^ 32

/-- `osp_hdlc_frame_type_t`. -/
inductive FrameType
  | i | rr | rnr | rej | sabm | snrm | disc | dm | ua | frmr | ui | xid
  deriving DecidableEq, Repr

/-- `osp_hdlc_control_t`. -/
structure Control where
  type : FrameType
  pollFinal : Bool := true
  sendSeq : UInt8 := 0
  recvSeq : UInt8 := 0
  deriving DecidableEq, Repr

/-- `osp_hdlc_control_encode`. -/
def hdlcControlEncode (ctrl : Control) : UInt8 :=
  let pf : UInt8 := if ctrl.pollFinal then 0x10 else 0x00
  let nr := (ctrl.recvSeq &&& 7) <<< 5
  match ctrl.type with
  | .i => nr ||| pf ||| ((ctrl.sendSeq &&& 7) <<< 1)
  | .rr => nr ||| pf ||| 0x01
  | .rnr => nr ||| pf ||| 0x05
  | .rej => nr ||| pf ||| 0x09
  | .snrm => 0x83 ||| pf
  | .sabm => 0x2F ||| pf
  | .disc => 0x43 ||| pf
  | .ua => 0x63 ||| pf
  | .dm => 0x0F ||| pf
  | .frmr => 0x87 ||| pf
  | .ui => 0x03 ||| pf
  | .xid => 0xAF ||| pf

/-- `osp_hdlc_control_decode`; `none` is an unsupported control byte. -/
def hdlcControlDecode (byte : UInt8) : Option Control :=
  let pf := byte &&& 0x10 != 0
  let nr := byte >>> 5
  let control (type : FrameType) : Option Control := some ⟨type, pf, 0, nr⟩
  if byte &&& 1 = 0 then some ⟨.i, pf, (byte >>> 1) &&& 7, nr⟩
  else if byte &&& 3 = 1 then
    match byte &&& 0x0F with
    | 0x01 => control .rr
    | 0x05 => control .rnr
    | 0x09 => control .rej
    | _ => none
  else
    match byte &&& 0xEF with
    | 0x83 => control .snrm
    | 0x63 => control .ua
    | 0x43 => control .disc
    | 0x0F => control .dm
    | 0x87 => control .frmr
    | 0x03 => control .ui
    | 0xAF => control .xid
    | _ => none

/-- `osp_hdlc_frame_t`. -/
structure HdlcFrame where
  destination : HdlcAddress := []
  source : HdlcAddress := []
  control : Control := { type := .i, pollFinal := false }
  controlRaw : UInt8 := 0
  segmented : Bool := false
  info : List UInt8 := []
  deriving DecidableEq, Repr

/-- `OSP_HDLC_MAX_FRAME_SIZE`. -/
def hdlcMaxFrameSize : ℕ := 1024

/-- `make_frame_length`. -/
def makeFrameLength (f : HdlcFrame) : ℕ :=
  f.destination.length + f.source.length + 1 + (if f.info.length > 0 then 2 + f.info.length else 0) + 4

/-- `osp_hdlc_frame`; the length check counts the format field twice. -/
def hdlcFrame (frame : HdlcFrame) (maxLen : ℕ) : Except Err (List UInt8) :=
  let flen := makeFrameLength frame
  if 1 + 2 + flen + 1 > maxLen then .error .nomem
  else
    let header := [0xA0 ||| (UInt8.ofNat (flen / 256) &&& 7), UInt8.ofNat flen] ++ frame.destination ++
      frame.source ++ [hdlcControlEncode frame.control]
    let content :=
      if frame.info.length > 0 then header ++ fcsBytes (hdlcFcs16 header) ++ frame.info else header
    .ok ([0x7E] ++ content ++ fcsBytes (hdlcFcs16 content) ++ [0x7E])

/-- The bytes of an address: at most `n`, up to and with the first odd one. -/
def hdlcReadAddress : ℕ → List UInt8 → HdlcAddress
  | 0, _ => []
  | _, [] => []
  | n + 1, byte :: rest => if byte &&& 1 ≠ 0 then [byte] else byte :: hdlcReadAddress n rest

/-- A check sequence read from an area. -/
def fcsAt (mem : List UInt8) (pos : ℕ) : List UInt8 := [mem.getD pos 0, mem.getD (pos + 1) 0]

/-- Information field from `pos` on, where the check sequence starts at `fcsStart`; a header check
sequence that runs into the frame's leaves a length of 65535, cut to the array. -/
def hdlcInfo (mem : List UInt8) (fcsStart pos : ℕ) : List UInt8 :=
  padTo (min ((fcsStart + 2 ^ 16 - pos) % 2 ^ 16) hdlcMaxFrameSize) (mem.drop pos)

/-- `osp_hdlc_deframe` on the first `len` bytes of an area. -/
def hdlcDeframe (mem : List UInt8) (len : ℕ) : Err × HdlcFrame :=
  let at' (i : ℕ) : UInt8 := mem.getD i 0
  if len < 6 ∨ at' 0 ≠ 0x7E ∨ at' (len - 1) ≠ 0x7E ∨ at' 1 &&& 0xF0 ≠ 0xA0 then (.invalid, {})
  else
    let flen := (at' 1 &&& 7).toNat * 256 + (at' 2).toNat
    let fcsStart := len - 3
    if flen < 4 ∨ flen + 2 > len then (.invalid, {})
    else if fcsBytes (hdlcFcs16 ((mem.drop 1).take (len - 4))) ≠ fcsAt mem fcsStart then (.invalid, {})
    else
      let destination := hdlcReadAddress 4 ((mem.take fcsStart).drop 3)
      let source := hdlcReadAddress 4 ((mem.take fcsStart).drop (3 + destination.length))
      let idx := 3 + destination.length + source.length
      if idx ≥ fcsStart then (.invalid, {})
      else
        let frame : HdlcFrame :=
          { destination := destination
            source := source
            controlRaw := at' idx
            segmented := at' 1 &&& 8 != 0 }
        match hdlcControlDecode (at' idx) with
        | none => (.unsupported, frame)
        | some control =>
            let idx := idx + 1
            if idx < fcsStart then
              if fcsBytes (hdlcFcs16 ((mem.drop 1).take (idx - 1))) ≠ fcsAt mem idx then (.invalid, {})
              else (.ok, { frame with control := control, info := hdlcInfo mem fcsStart (idx + 2) })
            else (.ok, { frame with control := control })

/-- `osp_wrapper_encode`. -/
def wrapperEncode (source dest : ℕ) (apdu : List UInt8) (maxLen : ℕ) : Except Err (List UInt8) :=
  if apdu.length + 8 > maxLen then .error .nomem
  else .ok ([0x00, 0x01] ++ beBytes 2 source ++ beBytes 2 dest ++ beBytes 2 apdu.length ++ apdu)

/-- `osp_wrapper_decode`. -/
def wrapperDecode (data : List UInt8) : Except Err (List UInt8) :=
  if data.length < 8 then .error .invalid
  else if beNat (data.take 2) ≠ 1 then .error .invalid
  else
    let len := beNat ((data.drop 6).take 2)
    if len + 8 > data.length then .error .invalid else .ok ((data.drop 8).take len)

end OpenSpodes
