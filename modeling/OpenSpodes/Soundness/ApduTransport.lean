import Mathlib.Data.List.Forall2
import OpenSpodes.Proofs.FrameStream
import OpenSpodes.ToMathlib.Chunks

/-! # APDUs without a session

`osp_transport_send_apdu` and `osp_transport_recv_apdu` put one APDU into one frame and take it out again. Each of
the three framings has its own limit; the HDLC framing alone cuts what exceeds it and still reports success.

The receiver makes one call of the transport's `recv` for one APDU and drops what it does not use, while that
call may return any part of a byte stream. The wrapper over a stream therefore works only where each call happens
to return one frame.
-/

namespace OpenSpodes

open Bytes Machine

section Receive

variable {w : Wire} {size : ℕ}

theorem transportRecvApdu_waits (silent : w.world.rx = []) : transportRecvApdu size w = none := by
  have next : nextRx framedSize w = none := by
    simp only [nextRx, get_bind_apply, silent]
    rfl
  change Option.bind (Option.bind (nextRx framedSize w) _) _ = none
  rw [next]
  rfl

theorem transportSendApdu_sent {apdu bytes : List UInt8} {after : Wire}
    (sent : transportSendApdu apdu w = some (.ok, after)) (message : after.world.sent = w.world.sent ++ [bytes]) :
    frameApdu w apdu = .ok bytes := by
  rw [transportSendApdu, get_bind_apply] at sent
  cases framed : frameApdu w apdu with
  | error err =>
    rw [framed] at sent
    cases sent
    simp at message
  | ok frame =>
    rw [framed] at sent
    simp only [transportSend, get_bind_apply, modify_bind_apply, pure_apply, Option.some.injEq, Prod.mk.injEq] at sent
    obtain ⟨taken, rfl⟩ := sent
    simp only [taken, if_true, Wire.setWorld] at message
    rw [List.singleton_inj.mp (List.append_cancel_left message)]

end Receive

/-! ## One frame for one APDU -/

section Wrapper

variable {source dest maxLen : ℕ} {apdu frame data : List UInt8}

theorem wrapperEncode_shape (encoded : wrapperEncode source dest apdu maxLen = .ok frame) :
    apdu.length + 8 ≤ maxLen ∧ ∃ addresses, addresses.length = 4 ∧
      frame = 0x00 :: 0x01 :: (addresses ++ (beBytes 2 apdu.length ++ apdu)) := by
  unfold wrapperEncode at encoded
  split at encoded
  · cases encoded
  · cases encoded
    exact ⟨by omega, beBytes 2 source ++ beBytes 2 dest, by simp, by simp⟩

theorem wrapperEncode_length (encoded : wrapperEncode source dest apdu maxLen = .ok frame) :
    frame.length = apdu.length + 8 := by
  obtain ⟨-, addresses, four, rfl⟩ := wrapperEncode_shape encoded
  simp only [List.length_cons, List.length_append, length_beBytes, four]
  omega

theorem wrapperDecode_encode (small : apdu.length < 2 ^ 16)
    (encoded : wrapperEncode source dest apdu maxLen = .ok frame) : wrapperDecode frame = .ok apdu := by
  have length := wrapperEncode_length encoded
  obtain ⟨-, addresses, four, rfl⟩ := wrapperEncode_shape encoded
  have announced : beNat (beBytes 2 apdu.length) = apdu.length := beNat_beBytes small
  have field : (addresses ++ (beBytes 2 apdu.length ++ apdu)).drop 4 = beBytes 2 apdu.length ++ apdu :=
    List.drop_left' four
  have content : (addresses ++ (beBytes 2 apdu.length ++ apdu)).drop 6 = apdu := by
    rw [← List.append_assoc]
    exact List.drop_left' (by simp [four])
  rw [wrapperDecode, if_neg (by omega), if_neg (by simp [beNat])]
  simp only [List.drop_succ_cons, field, content, List.take_left' (length_beBytes 2 apdu.length), announced]
  rw [if_neg (by omega), List.take_length]

theorem length_le_of_wrapperDecode (decoded : wrapperDecode data = .ok apdu) : apdu.length + 8 ≤ data.length := by
  unfold wrapperDecode at decoded
  dsimp only at decoded
  split_ifs at decoded
  cases decoded
  rw [List.length_take, List.length_drop]
  omega

end Wrapper

def bareFrame (apdu : List UInt8) : HdlcFrame :=
  { destination := hdlcAddressInit 1
    source := hdlcAddressInit 1
    control := { type := .i }
    info := apdu.take hdlcMaxFrameSize }

theorem bareFrame_length (apdu : List UInt8) : makeFrameLength (bareFrame apdu).unsegmented ≤ 1033 := by
  have length := (bareFrame apdu).unsegmented.makeFrameLength_le
  have field : (bareFrame apdu).unsegmented.info.length ≤ 1024 := List.length_take_le _ _
  have address : (hdlcAddressInit 1).length = 1 := by decide
  change _ ≤ (hdlcAddressInit 1).length + (hdlcAddressInit 1).length + _ + 7 at length
  omega

theorem bareFrame_valid (apdu : List UInt8) : (bareFrame apdu).unsegmented.Valid where
  destination := hdlcAddressInit_valid 1
  source := hdlcAddressInit_valid 1
  type := by simp [HdlcFrame.unsegmented, bareFrame]
  length := (bareFrame_length apdu).trans_lt (by decide)

theorem frameApdu_hdlc {w : Wire} (framing : w.framing = .hdlc) (apdu : List UInt8) :
    frameApdu w apdu = .ok (bareFrame apdu).unsegmented.encoding := by
  have length : makeFrameLength (bareFrame apdu) ≤ 1033 := bareFrame_length apdu
  simp only [frameApdu, framing]
  change hdlcFrame (bareFrame apdu) framedSize = _
  unfold hdlcFrame
  dsimp only
  rw [if_neg (by simp only [framedSize, hdlcMaxFrameSize]; omega)]
  rfl

/-- What the receiver makes of a frame, in the three framings. -/
theorem unframeApdu_frameApdu {w : Wire} {apdu bytes : List UInt8} {size : ℕ} (framed : frameApdu w apdu = .ok bytes)
    (room : apdu.length ≤ size) : bytes.length ≤ framedSize ∧ unframeApdu w.framing bytes size =
      .ok (if w.framing = .hdlc then apdu.take hdlcMaxFrameSize else apdu) := by
  cases framing : w.framing with
  | none =>
    simp only [frameApdu, framing] at framed
    split at framed
    · cases framed
    · cases framed
      simp only [unframeApdu, if_neg (Nat.not_lt.mpr room), reduceCtorEq, if_false, and_true]
      omega
  | wrapper =>
    simp only [frameApdu, framing] at framed
    have length := wrapperEncode_length framed
    have fits := (wrapperEncode_shape framed).1
    have small : apdu.length < 2 ^ 16 := by simp only [framedSize, hdlcMaxFrameSize] at fits; omega
    simp only [unframeApdu, wrapperDecode_encode small framed, if_neg (Nat.not_lt.mpr room), reduceCtorEq, if_false,
      and_true]
    omega
  | hdlc =>
    simp only [frameApdu, framing] at framed
    have encoding := hdlcFrame_eq framed
    change bytes = (bareFrame apdu).unsegmented.encoding at encoding
    have deframed := hdlcDeframe_encoding (bareFrame_valid apdu) []
    rw [List.append_nil, ← encoding] at deframed
    have field : (bareFrame apdu).unsegmented.received.info = apdu.take hdlcMaxFrameSize := by
      simp [HdlcFrame.received, HdlcFrame.unsegmented, bareFrame, List.take_take]
    have fits : ¬(apdu.take hdlcMaxFrameSize).length > size :=
      Nat.not_lt.mpr ((List.length_take_le' _ _).trans room)
    have length : bytes.length ≤ framedSize := by
      rw [encoding, HdlcFrame.length_encoding]
      have := bareFrame_length apdu
      simp only [framedSize, hdlcMaxFrameSize]
      omega
    simp only [unframeApdu, deframed, field, if_neg fits, if_true, and_true]
    exact length

/-- A session-less APDU arrives as it was sent, unless the HDLC framing has cut it. -/
theorem apdu_transported {w after w' : Wire} {apdu bytes : List UInt8} {size : ℕ} {rest : List RxEvent}
    (sent : transportSendApdu apdu w = some (.ok, after))
    (message : after.world.sent = w.world.sent ++ [bytes]) (same : w'.framing = w.framing)
    (delivered : w'.world.rx = .bytes bytes :: rest) (room : apdu.length ≤ size) :
    (∃ w'', transportRecvApdu size w' = some (.ok apdu, w'')) ↔
      (w.framing = .hdlc → apdu.length ≤ hdlcMaxFrameSize) := by
  obtain ⟨short, unframed⟩ := unframeApdu_frameApdu (transportSendApdu_sent sent message) room
  rw [transportRecvApdu_bytes delivered short, same, unframed]
  by_cases framing : w.framing = .hdlc
  · have whole : apdu.take hdlcMaxFrameSize = apdu ↔ apdu.length ≤ hdlcMaxFrameSize :=
      ⟨fun cut => cut ▸ List.length_take_le _ _, List.take_of_length_le⟩
    simp [framing, whole]
  · simp [framing]

def bareLink (framing : Framing) (rx : List RxEvent) : Wire :=
  { framing := framing, wrapperSource := 1, wrapperDest := 16, hdlc := hdlcSessionInitServer 1 16, world := { rx := rx },
    txBuf := [], rxBuf := [] }

def bareLinkSent (framing : Framing) (message : List UInt8) : Wire :=
  (bareLink framing []).setWorld { rx := [], sent := [message] }

theorem apdu_transported_short : (transportSendApdu [0xC0, 0x01] (bareLink .wrapper []) =
        some (.ok, bareLinkSent .wrapper [0, 1, 0, 1, 0, 16, 0, 2, 0xC0, 0x01])) ∧
      ((∃ after, transportRecvApdu 2 (bareLink .wrapper [.bytes [0, 1, 0, 1, 0, 16, 0, 2, 0xC0, 0x01]]) =
        some (.ok [0xC0, 0x01], after)) ↔ (Framing.wrapper = .hdlc → [0xC0, 0x01].length ≤ hdlcMaxFrameSize)) := by
  have sent : transportSendApdu [0xC0, 0x01] (bareLink .wrapper []) =
      some (.ok, bareLinkSent .wrapper [0, 1, 0, 1, 0, 16, 0, 2, 0xC0, 0x01]) := rfl
  exact ⟨sent, apdu_transported sent rfl rfl rfl (by decide)⟩

/-- One byte more than the field takes: the sender reports success, the receiver returns an APDU without its end. -/
theorem long_apdu_cut : ∃ message,
      transportSendApdu (List.replicate 1025 0) (bareLink .hdlc []) = some (.ok, bareLinkSent .hdlc message) ∧
        ∃ after, transportRecvApdu 1025 (bareLink .hdlc [.bytes message]) =
          some (.ok (List.replicate 1024 0), after) := by
  have framed := frameApdu_hdlc (w := bareLink .hdlc []) rfl (List.replicate 1025 0)
  have room : (List.replicate 1025 (0 : UInt8)).length ≤ 1025 := by rw [List.length_replicate]
  obtain ⟨short, unframed⟩ := unframeApdu_frameApdu framed room
  have cut : (List.replicate 1025 (0 : UInt8)).take hdlcMaxFrameSize = List.replicate 1024 0 := by
    rw [List.take_replicate]
    rfl
  change unframeApdu Framing.hdlc _ _ = Except.ok (if Framing.hdlc = Framing.hdlc then _ else _) at unframed
  rw [if_pos rfl, cut] at unframed
  refine ⟨(bareFrame (List.replicate 1025 0)).unsegmented.encoding, ?_, bareLink .hdlc [], ?_⟩
  · rw [transportSendApdu, get_bind_apply, framed]
    rfl
  · rw [transportRecvApdu_bytes rfl short]
    change some (unframeApdu Framing.hdlc _ _, _) = _
    rw [unframed]
    rfl

/-! ## The wrapper over a byte stream -/

/-- Successive calls of `osp_transport_recv_apdu`. -/
def recvApdus (size : ℕ) : ℕ → Program Wire (List (Except Err (List UInt8)))
  | 0 => return []
  | calls + 1 => do
      let first ← transportRecvApdu size
      let rest ← recvApdus size calls
      return first :: rest

/-- The calls return exactly the given APDUs when as many pieces arrive and each one is taken for its APDU. -/
theorem recvApdus_eq_some_iff {size : ℕ} {apdus pieces : List (List UInt8)} {w : Wire}
    (short : ∀ piece ∈ pieces, piece.length ≤ framedSize) (arrive : w.world.rx = pieces.map .bytes) :
    (∃ after, recvApdus size apdus.length w = some (apdus.map .ok, after)) ↔ apdus.length ≤ pieces.length ∧
        ∀ pair ∈ pieces.zip apdus, unframeApdu w.framing pair.1 size = .ok pair.2 := by
  induction apdus generalizing pieces w with
  | nil => simp [recvApdus]
  | cons apdu apdus ih =>
    cases pieces with
    | nil =>
      have waits : recvApdus size (apdus.length + 1) w = none := by
        change Option.bind (transportRecvApdu size w) _ = none
        rw [transportRecvApdu_waits arrive]
        rfl
      simp [waits]
    | cons piece pieces =>
      have first : transportRecvApdu size w =
          some (unframeApdu w.framing piece size, w.setWorld { w.world with rx := pieces.map .bytes }) :=
        transportRecvApdu_bytes arrive (short piece (by simp))
      have later := ih (w := w.setWorld { w.world with rx := pieces.map .bytes })
        (fun piece member => short piece (by simp [member])) rfl
      simp only [List.length_cons, recvApdus, bind_of_some first, bind_eq_some, pure_apply, Option.some.injEq,
        Prod.mk.injEq, List.map_cons, List.zip_cons_cons, List.forall_mem_cons, Nat.add_le_add_iff_right]
      constructor
      · rintro ⟨after, results, t, calls, same, rfl⟩
        obtain ⟨head, tail⟩ := List.cons.inj same
        obtain ⟨enough, taken⟩ := later.mp ⟨t, tail ▸ calls⟩
        exact ⟨enough, head, taken⟩
      · rintro ⟨enough, head, taken⟩
        obtain ⟨after, calls⟩ := later.mpr ⟨enough, taken⟩
        exact ⟨after, _, after, calls, by rw [head], rfl⟩

private theorem encoded_of_zip {α β γ : Type} {related : β → γ → Prop} {xs : List α} {ys : List β} {zs : List γ}
    (all : List.Forall₂ related ys zs) {x : α} {z : γ} (member : (x, z) ∈ xs.zip zs) :
    ∃ y, (x, y) ∈ xs.zip ys ∧ related y z := by
  induction all generalizing xs with
  | nil => simp at member
  | cons head tail ih =>
    cases xs with
    | nil => simp at member
    | cons first rest =>
      simp only [List.zip_cons_cons, List.mem_cons, Prod.mk.injEq] at member ⊢
      rcases member with ⟨rfl, rfl⟩ | later
      · exact ⟨_, .inl ⟨rfl, rfl⟩, head⟩
      · obtain ⟨y, member, holds⟩ := ih later
        exact ⟨y, .inr member, holds⟩

/-- The wrapper over a stream: the calls return the APDUs when, and only when, each `recv` of the transport returns
one whole frame. -/
theorem wrapper_stream {apdus frames pieces : List (List UInt8)} {size : ℕ} {w : Wire} (framing : w.framing = .wrapper)
    (sizes : ∀ apdu ∈ apdus, 1 ≤ apdu.length ∧ apdu.length ≤ 1000 ∧ apdu.length ≤ size)
    (encoded : List.Forall₂ (fun apdu frame => ∃ source dest maxLen,
      wrapperEncode source dest apdu maxLen = .ok frame) apdus frames) (stream : pieces.flatten = frames.flatten)
    (parts : ∀ piece ∈ pieces, piece ≠ [] ∧ piece.length ≤ framedSize) (arrive : w.world.rx = pieces.map .bytes) :
    (∃ after, recvApdus size apdus.length w = some (apdus.map .ok, after)) ↔ pieces = frames := by
  rw [recvApdus_eq_some_iff (fun piece member => (parts piece member).2) arrive, framing]
  constructor
  · rintro ⟨enough, taken⟩
    apply List.eq_of_flatten_eq stream fun piece member => (parts piece member).1
    · rwa [← encoded.length_eq]
    · rintro ⟨piece, frame⟩ member
      obtain ⟨apdu, member, source, dest, maxLen, encodes⟩ := encoded_of_zip encoded member
      have decoded : wrapperDecode piece = .ok apdu := by
        have unframed := taken _ member
        simp only [unframeApdu] at unframed
        cases decoded : wrapperDecode piece with
        | error err => simp [decoded] at unframed
        | ok content =>
          simp only [decoded] at unframed
          split at unframed
          · cases unframed
          · exact unframed
      rw [wrapperEncode_length encodes]
      exact length_le_of_wrapperDecode decoded
  · rintro rfl
    refine ⟨encoded.length_eq.le, fun pair member => ?_⟩
    obtain ⟨source, dest, maxLen, encodes⟩ := List.forall₂_zip encoded.flip member
    have bounds := sizes pair.2 (List.of_mem_zip member).2
    have decoded := wrapperDecode_encode (by omega) encodes
    simp only [unframeApdu, decoded]
    rw [if_neg (by omega)]

theorem wrapper_stream_whole : (∃ after, recvApdus 16 2 (bareLink .wrapper
        [.bytes [0, 1, 0, 1, 0, 16, 0, 1, 0xC0], .bytes [0, 1, 0, 1, 0, 16, 0, 2, 0xC1, 0x01]]) =
      some ([.ok [0xC0], .ok [0xC1, 0x01]], after)) ↔
      [[0, 1, 0, 1, 0, 16, 0, 1, 0xC0], [0, 1, 0, 1, 0, 16, 0, 2, 0xC1, 0x01]] =
        ([[0, 1, 0, 1, 0, 16, 0, 1, 0xC0], [0, 1, 0, 1, 0, 16, 0, 2, 0xC1, 0x01]] : List (List UInt8)) :=
  @wrapper_stream [[0xC0], [0xC1, 0x01]] _ _ 16 _ rfl (by decide)
    (.cons ⟨1, 16, 64, rfl⟩ (.cons ⟨1, 16, 64, rfl⟩ .nil)) rfl (by decide) rfl

/-- A frame that comes in two pieces: its header alone is refused, and so is the rest. -/
theorem split_frame_refused :
    [[0, 1, 0, 1, 0, 16, 0, 1], [0xC0]].flatten = ([0, 1, 0, 1, 0, 16, 0, 1, 0xC0] : List UInt8) ∧
      wrapperEncode 1 16 [0xC0] framedSize = .ok [0, 1, 0, 1, 0, 16, 0, 1, 0xC0] ∧
      (recvApdus 16 2 (bareLink .wrapper [.bytes [0, 1, 0, 1, 0, 16, 0, 1], .bytes [0xC0]])).map Prod.fst =
        some [.error .invalid, .error .invalid] := by
  refine ⟨rfl, rfl, rfl⟩

end OpenSpodes
