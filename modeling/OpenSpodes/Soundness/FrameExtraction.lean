import Mathlib.Data.List.Forall2
import OpenSpodes.Proofs.FrameStream

/-! # Frames are found however the bytes arrive

Frames that the encoder wrote, one behind the other and possibly with noise in front, come out of the session one
by one and in order, for every way in which the receive calls cut the stream.
-/

namespace OpenSpodes

open Machine

/-- What a received frame has of the frame that was encoded: addresses, control field and information. A type
without sequence numbers carries none, and the encoder writes the format of an unsegmented frame. -/
structure HdlcFrame.Conveys (sent got : HdlcFrame) : Prop where
  destination : got.destination = sent.destination
  source : got.source = sent.source
  type : got.control.type = sent.control.type
  pollFinal : got.control.pollFinal = sent.control.pollFinal
  sendSeq : sent.control.type = .i → got.control.sendSeq = sent.control.sendSeq &&& 7
  recvSeq : sent.control.type ∈ [.i, .rr, .rnr, .rej] → got.control.recvSeq = sent.control.recvSeq &&& 7
  segmented : got.segmented = false
  info : got.info = sent.info

theorem HdlcFrame.conveys_received {f : HdlcFrame} (short : f.info.length ≤ 1024) :
    f.Conveys f.unsegmented.received := by
  obtain ⟨destination, source, ⟨type, pollFinal, sendSeq, recvSeq⟩, controlRaw, segmented, info⟩ := f
  have whole : info.take hdlcMaxFrameSize = info := List.take_of_length_le short
  cases type <;> constructor <;> simp [HdlcFrame.unsegmented, HdlcFrame.received, Control.received, whole]

/-- The encoding of an unsegmented frame with a short information field is valid and fits the buffer. -/
theorem HdlcFrame.valid_of_short {f : HdlcFrame} (destination : f.destination.Valid) (source : f.source.Valid)
    (type : f.control.type ≠ .sabm) (short : f.info.length ≤ 1024) :
    f.unsegmented.Valid ∧ f.unsegmented.encoding.length ≤ sessionBufSize := by
  have length : makeFrameLength f.unsegmented ≤ 1039 := by
    have bound : makeFrameLength f.unsegmented ≤ f.destination.length + f.source.length + f.info.length + 7 :=
      f.unsegmented.makeFrameLength_le
    have first := destination.short
    have second := source.short
    omega
  refine ⟨⟨destination, source, type, by omega⟩, ?_⟩
  rw [HdlcFrame.length_encoding]
  simp only [sessionBufSize, hdlcMaxFrameSize]
  omega

/-- As many frames as the stream holds are returned by as many calls. -/
theorem recvFrames_received {frames : List HdlcFrame} {forever : Bool} {later : List RxEvent}
    (valid : ∀ f ∈ frames, f.Valid ∧ f.encoding.length ≤ sessionBufSize) {skipped bytes : List UInt8}
    {chunks : List (List UInt8)} (clean : 0x7E ∉ skipped) (served : Supplied bytes chunks)
    (stream : bytes ++ chunks.flatten = skipped ++ frames.flatMap HdlcFrame.encoding) (w : Wire) (stale : List UInt8) :
    ∃ w', (frames.mapM fun _ => sessionRecvFrame forever) (w.buffering bytes stale (chunks.map .bytes ++ later)) =
      some (frames.map fun f => (Err.ok, f.received), w') := by
  induction frames generalizing skipped bytes chunks stale with
  | nil => exact ⟨_, rfl⟩
  | cons f frames ih =>
    obtain ⟨here, small⟩ := valid f (by simp)
    obtain ⟨bytes', stale', chunks', returned, rest, served'⟩ :=
      sessionRecvFrame_frame here small clean served stream stale
    obtain ⟨w', others⟩ := ih (fun f member => valid f (by simp [member]))
      (show 0x7E ∉ ([] : List UInt8) by simp) served' rest stale'
    refine ⟨w', ?_⟩
    rw [List.mapM_cons, bind_of_some returned, bind_of_some others]
    rfl

theorem encoded_eq {frames : List HdlcFrame} {maxLen : ℕ} {encoded : List (List UInt8)}
    (framed : List.Forall₂ (fun f bytes => hdlcFrame f maxLen = .ok bytes) frames encoded) :
    encoded = (frames.map HdlcFrame.unsegmented).map HdlcFrame.encoding := by
  induction framed with
  | nil => rfl
  | cons here _ ih => rw [hdlcFrame_eq here, ih, List.map_cons, List.map_cons]

/-- For every list of encoded frames, possibly behind bytes without a flag, and every cut of the stream into
pieces that the receive calls may return, as many calls return the frames in order. -/
theorem frames_extracted {w : Wire} {forever : Bool} {frames : List HdlcFrame} {maxLen : ℕ}
    {encoded chunks : List (List UInt8)} {noise : List UInt8} {later : List RxEvent}
    (addressed : ∀ f ∈ frames, f.destination.Valid ∧ f.source.Valid)
    (supported : ∀ f ∈ frames, f.control.type ≠ .sabm) (short : ∀ f ∈ frames, f.info.length ≤ 1024)
    (framed : List.Forall₂ (fun f bytes => hdlcFrame f maxLen = .ok bytes) frames encoded)
    (clean : 0x7E ∉ noise) (stream : chunks.flatten = noise ++ encoded.flatten) (served : Supplied [] chunks)
    (empty : w.hdlc.rxPendingLen = 0) (arrives : w.world.rx = chunks.map .bytes ++ later) :
    ∃ results w', (frames.mapM fun _ => sessionRecvFrame forever) w = some (results, w') ∧
      List.Forall₂ (fun f result => result.1 = Err.ok ∧ f.Conveys result.2) frames results := by
  have valid : ∀ f ∈ frames.map HdlcFrame.unsegmented, f.Valid ∧ f.encoding.length ≤ sessionBufSize := by
    simp only [List.mem_map]
    rintro _ ⟨f, member, rfl⟩
    exact HdlcFrame.valid_of_short (addressed f member).1 (addressed f member).2 (supported f member) (short f member)
  obtain ⟨w', returned⟩ := recvFrames_received valid clean served
    (by rw [List.nil_append, stream, encoded_eq framed]; rfl) w w.hdlc.rxBuf
  rw [← arrives, Wire.buffering_nil empty, List.mapM_map] at returned
  refine ⟨_, w', returned, ?_⟩
  simp only [List.map_map, List.forall₂_map_right_iff, List.forall₂_same]
  exact fun f member => ⟨rfl, HdlcFrame.conveys_received (short f member)⟩

/-- A link with a session and what its transport delivers. -/
def linkOf (hdlc : HdlcSession) (rx : List RxEvent) : Wire :=
  { framing := .hdlc, wrapperSource := 0, wrapperDest := 0, hdlc := hdlc, world := { rx := rx }, txBuf := [],
    rxBuf := [] }

/-- What arrives on a link whose script is one piece. -/
theorem linkOf_arriving {hdlc : HdlcSession} {chunk : List UInt8} (fresh : hdlc.rxPendingLen = 0) (some : chunk ≠ [])
    (small : chunk.length ≤ sessionBufSize) : (linkOf hdlc [.bytes chunk]).Arriving ([] ++ (chunk ++ [])) := by
  rw [List.nil_append, List.append_nil]
  exact Wire.arriving_chunk fresh rfl some small

/-- An acknowledgement, and information with a flag byte in it. -/
def acknowledgedAnswer : List HdlcFrame :=
  [{ destination := [0x21], source := [0x03], control := { type := .rr, recvSeq := 1 } },
    { destination := [0x21], source := [0x03], control := { type := .i }, info := [0xE6, 0xE7, 0x00, 0x7E] }]

def answerBytes : List (List UInt8) := acknowledgedAnswer.map fun f => f.unsegmented.encoding

theorem frames_extracted_cut : ∃ results w', (acknowledgedAnswer.mapM fun _ => sessionRecvFrame false)
        (linkOf (hdlcSessionInitClient 16 1) [.bytes [0x00, 0x7E], .bytes (answerBytes.flatten.drop 1)]) =
          some (results, w') ∧
      List.Forall₂ (fun f result => result.1 = Err.ok ∧ f.Conveys result.2) acknowledgedAnswer results := by
  have client : HdlcAddress.Valid [0x21] := ⟨by decide, [], 0x21, rfl, by simp, by decide⟩
  have server : HdlcAddress.Valid [0x03] := ⟨by decide, [], 0x03, rfl, by simp, by decide⟩
  have served : Supplied [] [[0x00, 0x7E], answerBytes.flatten.drop 1] := by
    refine @Supplied.chunk [] [] _ 0 _ rfl (by simp) (by decide) ?_
    exact @Supplied.chunk _ [0x7E, 0x7E] _ 1 _ rfl (by decide) (by decide) (.stop _)
  have framed : List.Forall₂ (fun f bytes => hdlcFrame f sessionBufSize = .ok bytes) acknowledgedAnswer
      answerBytes := .cons rfl (.cons rfl .nil)
  exact frames_extracted (by simp [acknowledgedAnswer, client, server]) (by decide) (by decide) framed
    (show 0x7E ∉ [0x00] by decide) (by decide) served rfl (List.append_nil _).symm

end OpenSpodes
