import OpenSpodes.Model.HdlcSession
import OpenSpodes.Proofs.HdlcCodec

/-! # Frames out of a stream of bytes

The receive loop keeps the bytes of an unfinished frame at the start of its buffer. However a frame is cut into
received pieces, the loop asks for more until the frame is there, returns it, and keeps what came behind it. The
first lemmas say what the parser finds in a buffer that holds a part of a frame, or a frame and more; an induction
on the received pieces then gives the frame.
-/

namespace OpenSpodes

open Machine

variable {α : Type} {chunk : List UInt8} {size : ℕ}

/-- The bytes of an event, when it delivers some. -/
def RxEvent.data? : RxEvent → Option (List UInt8)
  | .bytes data => some data
  | _ => none

/-- The link layer with bytes waiting in the session's receive buffer, and the events to come. -/
def Wire.buffering (w : Wire) (bytes stale : List UInt8) (rx : List RxEvent) : Wire :=
  { w with
    hdlc := { w.hdlc with rxBuf := bytes ++ stale, rxPendingLen := bytes.length }
    world := { w.world with rx := rx } }

/-- What the receive calls return, each within the size that was asked for and none of them empty, while the
session has `buffered` bytes in its buffer. -/
inductive Supplied : List UInt8 → List (List UInt8) → Prop
  | stop (buffered : List UInt8) : Supplied buffered []
  | frame {buffered mem : List UInt8} {total : ℕ} {chunks : List (List UInt8)} {err : Err} {f : HdlcFrame} :
      sessionParse (buffered.length + 1) buffered buffered.length = .frame err f mem total →
      Supplied (mem.take total) chunks → Supplied buffered chunks
  | chunk {buffered mem chunk : List UInt8} {total : ℕ} {chunks : List (List UInt8)} :
      sessionParse (buffered.length + 1) buffered buffered.length = .more mem total →
      chunk ≠ [] → chunk.length ≤ sessionBufSize - total → Supplied (mem.take total ++ chunk) chunks →
      Supplied buffered (chunk :: chunks)

/-! ## The parser -/

theorem moveFront_append (skipped kept stale : List UInt8) :
    ∃ stale', moveFront (skipped ++ kept ++ stale) skipped.length (skipped ++ kept).length = kept ++ stale' := by
  refine ⟨(skipped ++ kept ++ stale).drop ((skipped ++ kept).length - skipped.length), ?_⟩
  rw [moveFront, List.take_left, List.drop_left]

/-- The search for a flag stops at the first one, or at the end. -/
theorem findIdx_flag {skipped kept : List UInt8} (clean : 0x7E ∉ skipped)
    (flagged : kept = [] ∨ kept.head? = some 0x7E) : (skipped ++ kept).findIdx (· == 0x7E) = skipped.length := by
  have none : skipped.findIdx (· == 0x7E) = skipped.length := by
    rw [List.findIdx_eq_length]
    intro byte member
    simpa using ne_of_mem_of_not_mem member clean
  rw [List.findIdx_append, none, if_neg (Nat.lt_irrefl _)]
  rcases flagged with rfl | first
  · simp
  · obtain ⟨kept, rfl⟩ : ∃ rest, kept = 0x7E :: rest := by
      cases kept with
      | nil => cases first
      | cons byte rest => exact ⟨rest, by simpa using first⟩
    simp [List.findIdx_cons]

theorem getD_append {bytes stale : List UInt8} {i : ℕ} (inside : i < bytes.length) :
    (bytes ++ stale).getD i 0 = bytes.getD i 0 := by
  simp [List.getD_eq_getElem?_getD, List.getElem?_append_left inside]

/-- Where the buffer holds a part of a frame, more bytes are needed; what is before the flag is dropped. -/
theorem sessionParse_part {f : HdlcFrame} {skipped part : List UInt8} (valid : f.Valid)
    (small : f.encoding.length ≤ sessionBufSize) (clean : 0x7E ∉ skipped) (begun : part <+: f.encoding)
    (short : part.length < f.encoding.length) (stale : List UInt8) (fuel : ℕ) :
    ∃ stale', sessionParse (fuel + 1) (skipped ++ part ++ stale) (skipped ++ part).length =
      .more (part ++ stale') part.length := by
  obtain ⟨rest, whole⟩ := begun
  have flagged : part = [] ∨ part.head? = some 0x7E := by
    cases part with
    | nil => exact .inl rfl
    | cons byte part =>
      have first := congrArg List.head? whole
      exact .inr (by simpa [HdlcFrame.encoding] using first)
  obtain ⟨stale', moved⟩ := moveFront_append skipped part stale
  refine ⟨stale', ?_⟩
  rw [sessionParse]
  simp only [List.take_left, findIdx_flag clean flagged, moved]
  rw [show (skipped ++ part).length - skipped.length = part.length by simp]
  by_cases least : part.length < 3
  · rw [if_pos least]
  · have byte (i : ℕ) (inside : i < 3) : (part ++ stale').getD i 0 = (f.encoding ++ []).getD i 0 := by
      rw [getD_append (by omega), List.append_nil, ← whole, getD_append (by omega)]
    have kind : (part ++ stale').getD 1 0 &&& 0xF0 = 0xA0 := by
      rw [byte 1 (by omega), f.format_at]
      exact (formatByte_fields f.segmented (by have := valid.length; omega)).1
    have need : 1 + (((part ++ stale').getD 1 0 &&& 7).toNat * 256 + ((part ++ stale').getD 2 0).toNat) + 1 =
        f.encoding.length := by
      rw [byte 1 (by omega), byte 2 (by omega), f.length_at [] valid.length, f.length_encoding]
      omega
    rw [if_neg least, need, if_neg (not_or.mpr ⟨not_not.mpr kind, by omega⟩), if_pos short]

/-- Where the buffer holds a whole frame, the parser cuts it out. -/
theorem sessionParse_whole {f : HdlcFrame} {skipped : List UInt8} (valid : f.Valid)
    (small : f.encoding.length ≤ sessionBufSize) (clean : 0x7E ∉ skipped) (behind stale : List UInt8) (fuel : ℕ) :
    ∃ stale', sessionParse (fuel + 1) (skipped ++ (f.encoding ++ behind) ++ stale)
      (skipped ++ (f.encoding ++ behind)).length = .frame .ok f.received (behind ++ stale') behind.length := by
  have length := f.length_encoding
  have content := f.length_content
  have flagged : f.encoding ++ behind = [] ∨ (f.encoding ++ behind).head? = some 0x7E := .inr rfl
  obtain ⟨stale', moved⟩ := moveFront_append skipped (f.encoding ++ behind) stale
  have kind : (f.encoding ++ behind ++ stale').getD 1 0 &&& 0xF0 = 0xA0 := by
    rw [List.append_assoc, f.format_at]
    exact (formatByte_fields f.segmented (by have := valid.length; omega)).1
  have need : 1 + (((f.encoding ++ behind ++ stale').getD 1 0 &&& 7).toNat * 256 +
      ((f.encoding ++ behind ++ stale').getD 2 0).toNat) + 1 = f.encoding.length := by
    rw [List.append_assoc, f.length_at _ valid.length, length]
    omega
  have flag : (f.encoding ++ behind ++ stale').getD (f.encoding.length - 1) 0 = 0x7E := by
    rw [List.append_assoc, show f.encoding.length - 1 = f.content.length + 3 by omega, f.flag_at]
  have deframed : hdlcDeframe (f.encoding ++ behind ++ stale') f.encoding.length = (.ok, f.received) := by
    rw [List.append_assoc, hdlcDeframe_encoding valid]
  have found : sessionParse (fuel + 1) (skipped ++ (f.encoding ++ behind) ++ stale)
      (skipped ++ (f.encoding ++ behind)).length =
      if (f.encoding ++ behind).length > f.encoding.length then
        .frame .ok f.received (moveFront (f.encoding ++ behind ++ stale') f.encoding.length
          (f.encoding ++ behind).length) ((f.encoding ++ behind).length - f.encoding.length)
      else .frame .ok f.received (f.encoding ++ behind ++ stale') 0 := by
    rw [sessionParse]
    simp only [List.take_left, findIdx_flag clean flagged, moved, need, deframed]
    rw [show (skipped ++ (f.encoding ++ behind)).length - skipped.length = (f.encoding ++ behind).length by simp]
    rw [if_neg (by simp; omega), if_neg (not_or.mpr ⟨not_not.mpr kind, by omega⟩), if_neg (by simp),
      if_neg (not_not.mpr flag)]
  rw [found]
  obtain ⟨stale'', cut⟩ := moveFront_append f.encoding behind stale'
  cases behind with
  | nil => exact ⟨f.encoding ++ [] ++ stale', by simp⟩
  | cons byte behind => exact ⟨stale'', by rw [if_pos (by simp), cut]; simp⟩

/-! ## The receive loop -/

theorem session_bind_apply (next : HdlcSession → Program Wire α) (w : Wire) :
    (session >>= next) w = next w.hdlc w := rfl

theorem modifySession_bind_apply (change : HdlcSession → HdlcSession) (next : Unit → Program Wire α) (w : Wire) :
    (modifySession change >>= next) w = next () (w.setHdlc (change w.hdlc)) := rfl

theorem storeRx_bind_apply (mem : List UInt8) (total : ℕ) (next : Unit → Program Wire α) (w : Wire) :
    (storeRx mem total >>= next) w = next () (w.setHdlc { w.hdlc with rxBuf := mem, rxPendingLen := total }) := rfl

theorem nextRx_bytes {w : Wire} {room : ℕ} {rx : List RxEvent} (event : w.world.rx = .bytes chunk :: rx)
    (fits : chunk.length ≤ room) : nextRx room w = some (.bytes chunk, w.setWorld { w.world with rx := rx }) := by
  simp only [nextRx, get_bind_apply, event, modify_bind_apply, pure_apply, List.take_of_length_le fits]

/-- Outside a session one receive call delivers one frame. -/
theorem transportRecvApdu_bytes {w : Wire} {piece : List UInt8} {rest : List RxEvent}
    (arrives : w.world.rx = .bytes piece :: rest) (short : piece.length ≤ framedSize) : transportRecvApdu size w =
      some (unframeApdu w.framing piece size, w.setWorld { w.world with rx := rest }) := by
  have received : transportRecv framedSize w = some (.ok piece, w.setWorld { w.world with rx := rest }) := by
    rw [transportRecv, bind_of_some (nextRx_bytes arrives short)]
    rfl
  rw [transportRecvApdu, bind_of_some received]
  rfl

variable {w : Wire} {forever : Bool} {bytes mem stale : List UInt8} {rx : List RxEvent} {fuel : ℕ}

theorem sessionRecvLoop_parsed {err : Err} {f : HdlcFrame} {behind : List UInt8}
    (parsed : sessionParse (bytes.length + 1) (bytes ++ stale) bytes.length =
      .frame err f (behind ++ mem) behind.length) (supported : err ≠ .unsupported) :
    sessionRecvLoop forever (fuel + 1) (w.buffering bytes stale rx) = some ((err, f), w.buffering behind mem rx) := by
  have parsed : sessionParse ((w.buffering bytes stale rx).hdlc.rxPendingLen + 1)
      (w.buffering bytes stale rx).hdlc.rxBuf (w.buffering bytes stale rx).hdlc.rxPendingLen =
        .frame err f (behind ++ mem) behind.length := parsed
  rw [sessionRecvLoop, session_bind_apply, parsed]
  dsimp only
  rw [storeRx_bind_apply, if_neg supported]
  rfl

theorem sessionRecvLoop_fed {part : List UInt8}
    (parsed : sessionParse (bytes.length + 1) (bytes ++ stale) bytes.length = .more (part ++ mem) part.length)
    (some : chunk ≠ []) (fits : chunk.length ≤ sessionBufSize - part.length) :
    sessionRecvLoop forever (fuel + 1) (w.buffering bytes stale (.bytes chunk :: rx)) =
      sessionRecvLoop forever fuel (w.buffering (part ++ chunk) (mem.drop chunk.length) rx) := by
  have room : ¬part.length ≥ sessionBufSize := by
    have := List.length_pos_iff.mpr some
    omega
  have parsed : sessionParse ((w.buffering bytes stale (.bytes chunk :: rx)).hdlc.rxPendingLen + 1)
      (w.buffering bytes stale (.bytes chunk :: rx)).hdlc.rxBuf
      (w.buffering bytes stale (.bytes chunk :: rx)).hdlc.rxPendingLen = .more (part ++ mem) part.length := parsed
  have content : (part ++ mem).take part.length ++ overwrite ((part ++ mem).drop part.length) chunk =
      part ++ chunk ++ mem.drop chunk.length := by
    simp [overwrite]
  rw [sessionRecvLoop, session_bind_apply, parsed]
  dsimp only
  rw [storeRx_bind_apply, if_neg room, bind_of_some (nextRx_bytes rfl fits)]
  dsimp only
  rw [if_neg (by simpa using some), storeRx_bind_apply, content]
  simp only [Wire.buffering, Wire.setHdlc, Wire.setWorld, List.length_append]

/-! ## What was served -/

/-- Buffered bytes of a stream with a frame: the frame is there, or a part of it behind what is skipped. -/
theorem stream_cases {bytes rest skipped whole behind : List UInt8} (some : 0 < whole.length)
    (stream : bytes ++ rest = skipped ++ (whole ++ behind)) :
    (∃ more, bytes = skipped ++ (whole ++ more) ∧ more ++ rest = behind) ∨
      ∃ before part left, bytes = before ++ part ∧ before <+: skipped ∧ part <+: whole ∧
        part.length < whole.length ∧ left <:+ skipped ∧ part ++ rest = left ++ (whole ++ behind) := by
  rw [← List.append_assoc, List.append_eq_append_iff] at stream
  obtain ⟨missing, cut, rest_eq⟩ | ⟨more, rfl, rfl⟩ := stream
  · cases missing with
    | nil => exact .inl ⟨[], by simpa using cut.symm, by simpa using rest_eq⟩
    | cons byte missing =>
      obtain ⟨part, rfl, rfl⟩ | ⟨left, rfl, at'⟩ := List.append_eq_append_iff.mp cut
      · exact .inr ⟨skipped, part, [], rfl, List.prefix_refl _, List.prefix_append _ _, by simp,
          List.nil_suffix, by simp [rest_eq]⟩
      · exact .inr ⟨bytes, [], left, by simp, List.prefix_append _ _, List.nil_prefix, some,
          List.suffix_append _ _, by simp [rest_eq, at']⟩
  · exact .inl ⟨more, by simp, rfl⟩

section Streams

variable {f : HdlcFrame} {skipped behind : List UInt8} {chunks : List (List UInt8)} {later : List RxEvent}
  (valid : f.Valid) (small : f.encoding.length ≤ sessionBufSize) (clean : 0x7E ∉ skipped)

include valid small clean

theorem Supplied.onward (served : Supplied (skipped ++ (f.encoding ++ behind)) chunks) : Supplied behind chunks := by
  obtain ⟨mem, parsed⟩ := sessionParse_whole valid small clean behind [] (skipped ++ (f.encoding ++ behind)).length
  rw [List.append_nil] at parsed
  cases served with
  | stop => exact .stop behind
  | frame parsed' served =>
    rw [parsed] at parsed'
    cases parsed'
    rwa [List.take_left] at served
  | chunk parsed' =>
    rw [parsed] at parsed'
    cases parsed'

theorem Supplied.part {part chunk : List UInt8} (begun : part <+: f.encoding)
    (short : part.length < f.encoding.length) (served : Supplied (skipped ++ part) (chunk :: chunks)) :
    chunk ≠ [] ∧ chunk.length ≤ sessionBufSize - part.length ∧ Supplied (part ++ chunk) chunks := by
  obtain ⟨mem, parsed⟩ := sessionParse_part valid small clean begun short [] (skipped ++ part).length
  rw [List.append_nil] at parsed
  cases served with
  | frame parsed' served =>
    rw [parsed] at parsed'
    cases parsed'
  | chunk parsed' some fits served =>
    rw [parsed] at parsed'
    cases parsed'
    exact ⟨some, fits, by rwa [List.take_left] at served⟩

/-- The pieces of a stream that holds a frame lead to the frame, and what comes behind it waits. -/
theorem sessionRecvLoop_frame (served : Supplied bytes chunks)
    (stream : bytes ++ chunks.flatten = skipped ++ (f.encoding ++ behind)) (enough : chunks.length < fuel)
    (stale : List UInt8) :
    ∃ bytes' stale' chunks', sessionRecvLoop forever fuel (w.buffering bytes stale (chunks.map .bytes ++ later)) =
        some ((.ok, f.received), w.buffering bytes' stale' (chunks'.map .bytes ++ later)) ∧
      bytes' ++ chunks'.flatten = behind ∧ Supplied bytes' chunks' := by
  induction chunks generalizing bytes stale skipped fuel with
  | nil =>
    obtain ⟨fuel, rfl⟩ : ∃ n, fuel = n + 1 := ⟨fuel - 1, by omega⟩
    obtain rfl : bytes = skipped ++ (f.encoding ++ behind) := by simpa using stream
    obtain ⟨mem, parsed⟩ := sessionParse_whole valid small clean behind stale _
    exact ⟨behind, mem, [], sessionRecvLoop_parsed parsed (by decide), by simp, .stop _⟩
  | cons chunk chunks ih =>
    obtain ⟨fuel, rfl⟩ : ∃ n, fuel = n + 1 := ⟨fuel - 1, by omega⟩
    obtain ⟨more, rfl, rfl⟩ | ⟨before, part, left, rfl, before', part', short, left', stream⟩ :=
      stream_cases (by rw [f.length_encoding]; omega) stream
    · -- the whole frame is buffered: the pieces wait
      obtain ⟨mem, parsed⟩ := sessionParse_whole valid small clean more stale _
      exact ⟨more, mem, chunk :: chunks, sessionRecvLoop_parsed parsed (by decide), rfl,
        Supplied.onward valid small clean served⟩
    · -- a part is buffered: the next piece extends it
      have clean' : 0x7E ∉ before := fun member => clean (before'.subset member)
      obtain ⟨some, fits, served⟩ := Supplied.part valid small clean' part' short served
      obtain ⟨mem, parsed⟩ := sessionParse_part valid small clean' part' short stale _
      have stream : (part ++ chunk) ++ chunks.flatten = left ++ (f.encoding ++ behind) := by simpa using stream
      obtain ⟨bytes', stale', chunks', returned, rest⟩ := ih (fun member => clean (left'.subset member)) served
        stream (by simpa using enough) (mem.drop chunk.length)
      refine ⟨bytes', stale', chunks', ?_, rest⟩
      rw [List.map_cons, List.cons_append, sessionRecvLoop_fed parsed some fits, returned]

/-- `session_recv_frame` returns the next frame of a stream, however it is cut into pieces. -/
theorem sessionRecvFrame_frame (served : Supplied bytes chunks)
    (stream : bytes ++ chunks.flatten = skipped ++ (f.encoding ++ behind)) (stale : List UInt8) :
    ∃ bytes' stale' chunks', sessionRecvFrame forever (w.buffering bytes stale (chunks.map .bytes ++ later)) =
        some ((.ok, f.received), w.buffering bytes' stale' (chunks'.map .bytes ++ later)) ∧
      bytes' ++ chunks'.flatten = behind ∧ Supplied bytes' chunks' := by
  rw [sessionRecvFrame, get_bind_apply]
  refine sessionRecvLoop_frame valid small clean served stream ?_ stale
  simp only [Wire.buffering, List.length_append, List.length_map]
  omega

/-- The bytes that wait in the buffer, and those of the pieces that arrive next, are this stream. -/
def Wire.Arriving (w : Wire) (stream : List UInt8) : Prop :=
  ∃ bytes stale chunks later, w = w.buffering bytes stale (chunks.map .bytes ++ later) ∧
    Supplied bytes chunks ∧ bytes ++ chunks.flatten = stream

/-- The next frame of an arriving stream is returned, and only the receive buffer and the script move on. -/
theorem sessionRecvFrame_arriving (arriving : w.Arriving (skipped ++ (f.encoding ++ behind))) :
    ∃ bytes stale rx, sessionRecvFrame forever w = some ((.ok, f.received), w.buffering bytes stale rx) ∧
      (w.buffering bytes stale rx).Arriving behind := by
  obtain ⟨bytes, stale, chunks, later, here, served, stream⟩ := arriving
  obtain ⟨bytes', stale', chunks', returned, rest, served'⟩ :=
    sessionRecvFrame_frame (w := w) valid small clean served stream stale
  rw [← here] at returned
  exact ⟨bytes', stale', chunks'.map .bytes ++ later, returned, bytes', stale', chunks', later, rfl, served', rest⟩

def sessionHandleFrame (frame : HdlcFrame) (size : ℕ) : Program Wire (Except Err (List UInt8)) := do
  if frame.info.length > 0 ∧ !frameAllowsInfo frame.control.type then
    let _ ← sessionSendFrmr frame.source frame.controlRaw 0x03
    return .error .timeout
  else if frame.control.type = .i then sessionHandleInfo frame size
  else return .error (← sessionHandleControl frame)

/-- A reception on a connected link handles the next frame of the stream. -/
theorem hdlcSessionRecvApdu_arriving (connected : w.hdlc.state = .connected)
    (arriving : w.Arriving (skipped ++ (f.encoding ++ behind))) : ∃ bytes stale rx, hdlcSessionRecvApdu forever size w =
        sessionHandleFrame f.received size (w.buffering bytes stale rx) ∧
      (w.buffering bytes stale rx).Arriving behind := by
  obtain ⟨bytes, stale, rx, received, rest⟩ := sessionRecvFrame_arriving valid small clean arriving
  have intact : sessionRecvIntact forever (w.supply + 1) w =
      some ((.ok, f.received), w.buffering bytes stale rx) := by
    rw [sessionRecvIntact, bind_of_some received, if_neg (by simp)]
    rfl
  refine ⟨bytes, stale, rx, ?_, rest⟩
  rw [hdlcSessionRecvApdu, session_bind_apply, if_neg (not_not.mpr connected), get_bind_apply, bind_of_some intact]
  dsimp only
  rw [if_neg (by simp)]
  rfl

end Streams

/-- A change of the link that leaves the receive buffer and the events alone leaves the arriving stream. -/
theorem Wire.Arriving.congr {after : Wire} {stream : List UInt8} (arriving : w.Arriving stream)
    (buffer : after.hdlc.rxBuf = w.hdlc.rxBuf) (pending : after.hdlc.rxPendingLen = w.hdlc.rxPendingLen)
    (events : after.world.rx = w.world.rx) : after.Arriving stream := by
  obtain ⟨bytes, stale, chunks, later, here, served, rest⟩ := arriving
  refine ⟨bytes, stale, chunks, later, ?_, served, rest⟩
  have buffer' : w.hdlc.rxBuf = bytes ++ stale := congrArg (·.hdlc.rxBuf) here
  have pending' : w.hdlc.rxPendingLen = bytes.length := congrArg (·.hdlc.rxPendingLen) here
  have events' : w.world.rx = chunks.map .bytes ++ later := congrArg (·.world.rx) here
  rw [Wire.buffering, ← buffer', ← pending', ← events', ← buffer, ← pending, ← events]

/-- A session without waiting bytes is one that buffers none. -/
theorem Wire.buffering_nil {w : Wire} (empty : w.hdlc.rxPendingLen = 0) :
    w.buffering [] w.hdlc.rxBuf w.world.rx = w := by
  rw [Wire.buffering, List.length_nil, ← empty]
  rfl

/-- A script of one piece, with nothing waiting before it. -/
theorem Wire.arriving_chunk {w : Wire} (fresh : w.hdlc.rxPendingLen = 0) (events : w.world.rx = [.bytes chunk])
    (some : chunk ≠ []) (small : chunk.length ≤ sessionBufSize) : w.Arriving chunk := by
  refine ⟨[], w.hdlc.rxBuf, [chunk], [], ?_, @Supplied.chunk [] [] _ 0 _ rfl some small (.stop _), by simp⟩
  rw [List.map_singleton, List.append_nil, ← events]
  exact (Wire.buffering_nil fresh).symm

/-! ## Sending a frame -/

/-- A frame is sent or it is not; nothing but the script moves. -/
theorem sessionSendFrame_returns (frame : HdlcFrame) (w : Wire) :
    ∃ result world, sessionSendFrame frame w = some (result, w.setWorld world) ∧ world.rx = w.world.rx ∧
      (result = .ok → ∃ bytes, hdlcFrame frame sessionBufSize = .ok bytes ∧ world.sent = w.world.sent ++ [bytes]) ∧
      (result ≠ .ok → world.sent = w.world.sent) := by
  unfold sessionSendFrame
  cases framed : hdlcFrame frame sessionBufSize with
  | error err =>
    have other : err ≠ .ok := by
      unfold hdlcFrame at framed
      dsimp only at framed
      split at framed
      · cases framed
        decide
      · cases framed
    exact ⟨err, w.world, rfl, rfl, fun same => absurd same other, fun _ => rfl⟩
  | ok bytes =>
    refine ⟨w.world.sends.headD .ok, _, rfl, rfl, fun sent => ⟨bytes, rfl, ?_⟩, fun refused => ?_⟩
    · rw [if_pos sent]
    · rw [if_neg refused]

end OpenSpodes
