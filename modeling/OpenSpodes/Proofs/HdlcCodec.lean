import OpenSpodes.Model.Hdlc

/-! # HDLC frames on the wire

The bytes of a frame with any segmentation bit, as a peer sends them, and what the deframer makes of them: the
same addresses, control field and information, whatever lies behind the frame in the receive buffer.
-/

namespace OpenSpodes

open Bytes

/-- An address as the wire carries it: one to four bytes, of which only the last is odd. -/
structure HdlcAddress.Valid (addr : HdlcAddress) : Prop where
  short : addr.length ≤ 4
  ends : ∃ front last, addr = front ++ [last] ∧ (∀ byte ∈ front, byte &&& 1 = 0) ∧ last &&& 1 ≠ 0

/-- The format byte: the kind of frame, the segmentation bit and the length's high bits. -/
def formatByte (segmented : Bool) (high : ℕ) : UInt8 :=
  (if segmented then 0xA8 else 0xA0) ||| (UInt8.ofNat high &&& 7)

namespace HdlcFrame

/-- The format field, the addresses and the control byte. -/
def header (f : HdlcFrame) : List UInt8 :=
  [formatByte f.segmented (makeFrameLength f / 256), UInt8.ofNat (makeFrameLength f)] ++ f.destination ++
    f.source ++ [hdlcControlEncode f.control]

/-- What stands between the flags, without the frame check sequence. -/
def content (f : HdlcFrame) : List UInt8 :=
  if f.info.length > 0 then f.header ++ fcsBytes (hdlcFcs16 f.header) ++ f.info else f.header

def encoding (f : HdlcFrame) : List UInt8 :=
  [0x7E] ++ f.content ++ fcsBytes (hdlcFcs16 f.content) ++ [0x7E]

/-- The frame without segmentation bit, which is the one that the encoder writes. -/
def unsegmented (f : HdlcFrame) : HdlcFrame := { f with segmented := false }

/-- A frame that can be encoded and is understood: valid addresses, a supported type, and a length that the
format field can hold. -/
structure Valid (f : HdlcFrame) : Prop where
  destination : f.destination.Valid
  source : f.source.Valid
  type : f.control.type ≠ .sabm
  length : makeFrameLength f < 2048

end HdlcFrame

/-! ## Addresses and control bytes -/

theorem hdlcReadAddress_append {front : List UInt8} {last : UInt8} (even : ∀ byte ∈ front, byte &&& 1 = 0)
    (odd : last &&& 1 ≠ 0) (rest : List UInt8) {n : ℕ} (fits : front.length < n) :
    hdlcReadAddress n (front ++ last :: rest) = front ++ [last] := by
  induction front generalizing n with
  | nil =>
    obtain ⟨n, rfl⟩ : ∃ m, n = m + 1 := ⟨n - 1, by simp at fits; omega⟩
    simp [hdlcReadAddress, odd]
  | cons byte front ih =>
    obtain ⟨n, rfl⟩ : ∃ m, n = m + 1 := ⟨n - 1, by simp at fits; omega⟩
    have here : byte &&& 1 = 0 := even byte (by simp)
    have behind := ih (fun b member => even b (by simp [member])) (n := n) (by simpa using fits)
    simp [hdlcReadAddress, here, behind]

theorem HdlcAddress.Valid.read {addr : HdlcAddress} (valid : addr.Valid) (rest : List UInt8) :
    hdlcReadAddress 4 (addr ++ rest) = addr := by
  obtain ⟨front, last, rfl, even, odd⟩ := valid.ends
  have short := valid.short
  simp only [List.length_append, List.length_singleton] at short
  rw [List.append_assoc, List.singleton_append, hdlcReadAddress_append even odd rest (by omega)]

theorem base128_lt (n value : ℕ) : ∀ digit ∈ base128 n value, digit < 128 := by
  induction n generalizing value with
  | zero => simp [base128]
  | succ n ih =>
    intro digit member
    rw [base128] at member
    split at member
    · cases member
    · rcases List.mem_append.mp member with earlier | last
      · exact ih _ digit earlier
      · rw [List.mem_singleton.mp last]
        omega

theorem base128_length (n value : ℕ) : (base128 n value).length ≤ n := by
  induction n generalizing value with
  | zero => exact Nat.le_refl 0
  | succ n ih =>
    rw [base128]
    split
    · exact Nat.zero_le _
    · simpa using ih (value / 128)

theorem hdlcAddressInit_valid (value : ℕ) : (hdlcAddressInit value).Valid := by
  have parity : ∀ digit : Fin 128, UInt8.ofNat (digit * 2) &&& 1 = 0 ∧ UInt8.ofNat (digit * 2 + 1) &&& 1 ≠ 0 := by
    decide
  have some (zero : value ≠ 0) : base128 4 value ≠ [] := by simp [base128, zero]
  unfold hdlcAddressInit
  split
  · exact ⟨by decide, [], 1, rfl, by simp, by decide⟩
  · rename_i zero
    have digits := base128_lt 4 value
    have length := base128_length 4 value
    refine ⟨?_, _, _, rfl, ?_, ?_⟩
    · have := List.length_pos_iff.mpr (some zero)
      simp only [List.length_append, List.length_map, List.length_dropLast, List.length_singleton]
      omega
    · simp only [List.mem_map]
      rintro _ ⟨digit, member, rfl⟩
      exact (parity ⟨digit, digits digit (List.dropLast_subset _ member)⟩).1
    · rw [List.getLastD_eq_getLast?, List.getLast?_eq_some_getLast (some zero), Option.getD_some]
      exact (parity ⟨_, digits _ (List.getLast_mem _)⟩).2

/-- A sequence number on the wire is one of eight. -/
theorem seq_cases (seq : UInt8) : ∃ n : Fin 8, seq &&& 7 = UInt8.ofNat n := by
  refine ⟨⟨seq.toNat % 8, Nat.mod_lt _ (by decide)⟩, ?_⟩
  apply UInt8.toNat_inj.mp
  have low : seq.toNat &&& 7 = seq.toNat % 8 := Nat.and_two_pow_sub_one_eq_mod _ 3
  simp [UInt8.toNat_and, low]
  omega

/-- A control field as the receiver reads it: sequence numbers modulo 8, and where the type has none, the bits
that stand in their place. -/
def Control.received (c : Control) : Control :=
  match c.type with
  | .i => ⟨.i, c.pollFinal, c.sendSeq &&& 7, c.recvSeq &&& 7⟩
  | .rr | .rnr | .rej => ⟨c.type, c.pollFinal, 0, c.recvSeq &&& 7⟩
  | _ => ⟨c.type, c.pollFinal, 0, hdlcControlEncode c >>> 5⟩

theorem Control.type_received (c : Control) : c.received.type = c.type := by
  obtain ⟨type, pollFinal, sendSeq, recvSeq⟩ := c
  cases type <;> rfl

/-- A control field with the sequence numbers that fit the control byte. -/
def Control.masked (c : Control) : Control :=
  { c with sendSeq := c.sendSeq &&& 7, recvSeq := c.recvSeq &&& 7 }

theorem hdlcControlEncode_masked (c : Control) : hdlcControlEncode c.masked = hdlcControlEncode c := by
  obtain ⟨type, pollFinal, sendSeq, recvSeq⟩ := c
  cases type <;> simp only [hdlcControlEncode, Control.masked, UInt8.and_assoc, UInt8.and_self] <;> rfl

theorem Control.received_masked (c : Control) : c.masked.received = c.received := by
  simp only [Control.received, hdlcControlEncode_masked]
  simp only [Control.masked, UInt8.and_assoc, UInt8.and_self]

theorem hdlcControlDecode_encode {c : Control} (supported : c.type ≠ .sabm) :
    hdlcControlDecode (hdlcControlEncode c) = some c.received := by
  rw [← hdlcControlEncode_masked, ← Control.received_masked]
  obtain ⟨type, pollFinal, sendSeq, recvSeq⟩ := c
  obtain ⟨send, sent⟩ := seq_cases sendSeq
  obtain ⟨recv, received⟩ := seq_cases recvSeq
  simp only [Control.masked, sent, received]
  replace supported : type ≠ .sabm := supported
  clear sent received
  revert pollFinal send recv
  cases type with
  | sabm => exact absurd rfl supported
  | i | rr | rnr | rej | snrm | disc | dm | ua | frmr | ui | xid => decide +kernel

/-! ## Whole frames -/

namespace HdlcFrame

def received (f : HdlcFrame) : HdlcFrame :=
  { destination := f.destination
    source := f.source
    control := f.control.received
    controlRaw := hdlcControlEncode f.control
    segmented := f.segmented
    info := f.info.take hdlcMaxFrameSize }

theorem makeFrameLength_le (f : HdlcFrame) :
    makeFrameLength f ≤ f.destination.length + f.source.length + f.info.length + 7 := by
  unfold makeFrameLength
  split <;> omega

theorem length_header (f : HdlcFrame) : f.header.length = f.destination.length + f.source.length + 3 := by
  simp [header]
  omega

theorem length_content (f : HdlcFrame) : f.content.length + 2 = makeFrameLength f := by
  have header := f.length_header
  unfold content makeFrameLength
  split
  · simp only [List.length_append, header, fcsBytes, List.length_cons, List.length_nil]
    omega
  · omega

theorem length_encoding (f : HdlcFrame) : f.encoding.length = makeFrameLength f + 2 := by
  have content := f.length_content
  simp only [encoding, List.length_append, fcsBytes, List.length_cons, List.length_nil]
  omega

end HdlcFrame

/-! ## Reading a frame back

`f.encoding ++ rest` is the receive buffer with a frame at its start; each lemma says what the deframer finds in
one place of it. -/

theorem fcsAt_append (before behind : List UInt8) (fcs : UInt16) :
    fcsAt (before ++ (fcsBytes fcs ++ behind)) before.length = fcsBytes fcs := by
  simp [fcsAt, fcsBytes]

theorem padTo_append {size : ℕ} {bytes : List UInt8} (fits : size ≤ bytes.length) (behind : List UInt8) :
    padTo size (bytes ++ behind) = bytes.take size := by
  rw [padTo, List.take_append_of_le_length fits, Nat.sub_eq_zero_of_le (by simp; omega)]
  simp

theorem formatByte_fields (segmented : Bool) {high : ℕ} (bound : high < 8) :
    formatByte segmented high &&& 0xF0 = 0xA0 ∧ (formatByte segmented high &&& 8 != 0) = segmented ∧
      (formatByte segmented high &&& 7).toNat = high := by
  have cases : ∀ segmented : Bool, ∀ high : Fin 8,
      formatByte segmented high &&& 0xF0 = 0xA0 ∧ (formatByte segmented high &&& 8 != 0) = segmented ∧
        (formatByte segmented high &&& 7).toNat = high := by
    decide
  exact cases segmented ⟨high, bound⟩

namespace HdlcFrame

variable (f : HdlcFrame) (rest : List UInt8)

/-- What stands behind the header: the header check sequence and the information, if there is any. -/
def tail : List UInt8 := if f.info.length > 0 then fcsBytes (hdlcFcs16 f.header) ++ f.info else []

theorem content_eq : f.content = f.header ++ f.tail := by
  unfold content tail
  split <;> simp

theorem encoding_append :
    f.encoding ++ rest = (0x7E :: f.content) ++ (fcsBytes (hdlcFcs16 f.content) ++ (0x7E :: rest)) := by
  simp [encoding]

theorem format_at : (f.encoding ++ rest).getD 1 0 = formatByte f.segmented (makeFrameLength f / 256) := by
  rw [encoding_append, content_eq]
  rfl

theorem length_at (short : makeFrameLength f < 2048) :
    ((f.encoding ++ rest).getD 1 0 &&& 7).toNat * 256 + ((f.encoding ++ rest).getD 2 0).toNat = makeFrameLength f := by
  have low : (f.encoding ++ rest).getD 2 0 = UInt8.ofNat (makeFrameLength f) := by
    rw [encoding_append, content_eq]
    rfl
  obtain ⟨-, -, high⟩ := formatByte_fields f.segmented (show makeFrameLength f / 256 < 8 by omega)
  rw [format_at, low, high, UInt8.toNat_ofNat']
  omega

theorem flag_at : (f.encoding ++ rest).getD (f.content.length + 3) 0 = 0x7E := by
  rw [encoding_append]
  simp [fcsBytes]

theorem content_at : ((f.encoding ++ rest).drop 1).take f.content.length = f.content := by
  rw [encoding_append]
  simp

theorem front_at : (f.encoding ++ rest).take (f.content.length + 1) = 0x7E :: f.content := by
  rw [encoding_append, List.take_left' (by simp)]

theorem fcs_at : fcsAt (f.encoding ++ rest) (f.content.length + 1) = fcsBytes (hdlcFcs16 f.content) :=
  encoding_append f rest ▸ fcsAt_append (0x7E :: f.content) (0x7E :: rest) (hdlcFcs16 f.content)

theorem addresses_at : (0x7E :: f.content).drop 3 =
    f.destination ++ (f.source ++ (hdlcControlEncode f.control :: f.tail)) := by
  rw [content_eq]
  simp [header]

theorem header_at : ((f.encoding ++ rest).drop 1).take f.header.length = f.header := by
  rw [encoding_append, content_eq]
  simp

theorem control_at : (f.encoding ++ rest).getD f.header.length 0 = hdlcControlEncode f.control := by
  have shape : f.encoding ++ rest =
      ([0x7E, formatByte f.segmented (makeFrameLength f / 256), UInt8.ofNat (makeFrameLength f)] ++
        f.destination ++ f.source) ++
        hdlcControlEncode f.control :: (f.tail ++ (fcsBytes (hdlcFcs16 f.content) ++ (0x7E :: rest))) := by
    rw [encoding_append, content_eq]
    simp [header]
  rw [shape, show f.header.length = ([0x7E, formatByte f.segmented (makeFrameLength f / 256),
    UInt8.ofNat (makeFrameLength f)] ++ f.destination ++ f.source).length by simp [header]; omega]
  simp only [List.getD_eq_getElem?_getD, List.getElem?_append_right (Nat.le_refl _), Nat.sub_self]
  rfl

theorem info_at (some : f.info.length > 0) :
    fcsAt (f.encoding ++ rest) (f.header.length + 1) = fcsBytes (hdlcFcs16 f.header) ∧
      (f.encoding ++ rest).drop (f.header.length + 3) =
        f.info ++ (fcsBytes (hdlcFcs16 f.content) ++ (0x7E :: rest)) := by
  have shape : f.encoding ++ rest = (0x7E :: f.header) ++ (fcsBytes (hdlcFcs16 f.header) ++
      (f.info ++ (fcsBytes (hdlcFcs16 f.content) ++ (0x7E :: rest)))) := by
    rw [encoding_append, content_eq, tail, if_pos some]
    simp
  constructor
  · rw [shape]
    exact fcsAt_append (0x7E :: f.header) _ _
  · rw [shape, show f.header.length + 3 = (0x7E :: f.header).length + 2 by simp, ← List.drop_drop, List.drop_left]
    rfl

end HdlcFrame

theorem hdlcInfo_encoding {f : HdlcFrame} (short : makeFrameLength f < 2048) (some : f.info.length > 0)
    (rest : List UInt8) : hdlcInfo (f.encoding ++ rest) (f.content.length + 1) (f.header.length + 3) =
      f.info.take hdlcMaxFrameSize := by
  have length := f.length_content
  have parts : f.content.length = f.header.length + 2 + f.info.length := by
    rw [f.content_eq, HdlcFrame.tail, if_pos some]
    simp [fcsBytes]
    omega
  have size : (f.content.length + 1 + 2 ^ 16 - (f.header.length + 3)) % 2 ^ 16 = f.info.length := by omega
  rw [hdlcInfo, size, (f.info_at rest some).2, padTo_append (by omega)]
  rcases Nat.le_total f.info.length hdlcMaxFrameSize with less | more
  · rw [Nat.min_eq_left less, List.take_length, List.take_of_length_le less]
  · rw [Nat.min_eq_right more]

/-- The deframer reads a frame back, whatever lies behind it in the buffer. -/
theorem hdlcDeframe_encoding {f : HdlcFrame} (valid : f.Valid) (rest : List UInt8) :
    hdlcDeframe (f.encoding ++ rest) f.encoding.length = (.ok, f.received) := by
  have contentLength := f.length_content
  have headerLength := f.length_header
  have length : f.encoding.length = f.content.length + 4 := by
    rw [f.length_encoding]
    omega
  have parts : f.content.length = f.header.length + f.tail.length := by rw [f.content_eq, List.length_append]
  obtain ⟨kind, bit, -⟩ := formatByte_fields f.segmented
    (show makeFrameLength f / 256 < 8 by have := valid.length; omega)
  have destination : hdlcReadAddress 4 ((0x7E :: f.content).drop 3) = f.destination := by
    rw [f.addresses_at, valid.destination.read]
  have source : hdlcReadAddress 4 ((0x7E :: f.content).drop (3 + f.destination.length)) = f.source := by
    rw [← List.drop_drop, f.addresses_at, List.drop_left, valid.source.read]
  have announced := f.length_at rest valid.length
  rw [f.format_at] at announced
  simp only [hdlcDeframe, length, show f.content.length + 4 - 1 = f.content.length + 3 by omega,
    show f.content.length + 4 - 3 = f.content.length + 1 by omega,
    show f.content.length + 4 - 4 = f.content.length by omega, f.flag_at, f.content_at,
    f.fcs_at, f.front_at, destination, source,
    show 3 + f.destination.length + f.source.length = f.header.length by omega, f.control_at,
    hdlcControlDecode_encode valid.type, f.format_at, kind, bit, announced]
  have first : (f.encoding ++ rest).getD 0 0 = 0x7E := by rw [f.encoding_append]; rfl
  rw [if_neg (by rw [first]; simp; omega), if_neg (by omega), if_neg (by simp), if_neg (by omega)]
  by_cases some : f.info.length > 0
  · have tail : f.tail.length = f.info.length + 2 := by
      rw [HdlcFrame.tail, if_pos some]
      simp [fcsBytes]
    rw [if_pos (by omega), Nat.add_sub_cancel, f.header_at, (f.info_at rest some).1, if_neg (by simp),
      hdlcInfo_encoding valid.length some]
    rfl
  · have tail : f.tail = [] := if_neg some
    have empty : f.info = [] := List.eq_nil_of_length_eq_zero (by omega)
    rw [if_neg (by simp [parts, tail])]
    simp [HdlcFrame.received, empty]

theorem hdlcFrame_eq {f : HdlcFrame} {maxLen : ℕ} {bytes : List UInt8} (framed : hdlcFrame f maxLen = .ok bytes) :
    bytes = f.unsegmented.encoding := by
  unfold hdlcFrame at framed
  dsimp only at framed
  split at framed
  · cases framed
  · cases framed
    rfl

end OpenSpodes
