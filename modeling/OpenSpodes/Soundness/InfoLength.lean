import OpenSpodes.Proofs.InfoFrames
import OpenSpodes.Soundness.SessionBounds

/-! # The negotiated information length

A client announces that it receives up to 1280 bytes, but the array behind a received frame and the reassembly
buffer hold 1024. A longer field is cut or the frame is never recognised, so a frame that keeps to the negotiated
length arrives whole exactly when its field is within 1024 bytes.
-/

namespace OpenSpodes

open Machine

/-- The LLC headers of a command and of a response. -/
def IsLlc (llc : List UInt8) : Prop := llc = [0xE6, 0xE6, 0x00] ∨ llc = [0xE6, 0xE7, 0x00]

theorem IsLlc.length {llc : List UInt8} (header : IsLlc llc) : llc.length = 3 := by
  rcases header with rfl | rfl
  · rfl
  · rfl

theorem stripLlc_append {llc : List UInt8} (header : IsLlc llc) (apdu : List UInt8) :
    stripLlc (llc ++ apdu) = apdu := by
  rcases header with rfl | rfl
  · rfl
  · rfl

theorem length_le_stripLlc (msdu : List UInt8) : msdu.length ≤ (stripLlc msdu).length + 3 := by
  unfold stripLlc
  split
  · rw [List.length_drop]
    omega
  · omega

theorem assembled_eq_ok {size : ℕ} {msdu apdu : List UInt8} :
    assembled size msdu = .ok apdu ↔ 3 ≤ msdu.length ∧ apdu.length ≤ size ∧ stripLlc msdu = apdu := by
  unfold assembled
  split_ifs with short big
  · simp [Nat.not_le.mpr short]
  · constructor
    · intro absent
      cases absent
    · rintro ⟨-, room, rfl⟩
      omega
  · simp only [Except.ok.injEq]
    constructor
    · rintro rfl
      exact ⟨not_lt.mp short, not_lt.mp big, rfl⟩
    · exact fun whole => whole.2.2

/-- The last frame of a unit that fits completes it. -/
theorem InfoOutcome.returns {s hdlc : HdlcSession} {frame : HdlcFrame} {size : ℕ} {result : Except Err (List UInt8)}
    {llc apdu : List UInt8} (outcome : InfoOutcome s frame size result hdlc) (expected : s.Expects frame)
    (unsegmented : frame.segmented = false) (header : IsLlc llc) (whole : s.reassembly ++ frame.info = llc ++ apdu)
    (short : (llc ++ apdu).length ≤ hdlcMaxFrameSize) (room : apdu.length ≤ size) : result = .ok apdu := by
  have collected := congrArg List.length whole
  rw [List.length_append] at collected
  cases outcome with
  | refused unexpected => exact absurd expected unexpected
  | overflown _ excess => omega
  | segment _ _ segmented => exact absurd (segmented.symm.trans unsegmented) (by decide)
  | completed =>
    rw [whole]
    exact assembled_eq_ok.mpr ⟨by simp [header.length], room, stripLlc_append header apdu⟩

/-- A frame with at most 1024 bytes of information and a few more fits into the receive buffer. -/
theorem HdlcFrame.Valid.small {f : HdlcFrame} (valid : f.Valid) (short : f.info.length ≤ hdlcMaxFrameSize + 47) :
    f.encoding.length ≤ sessionBufSize := by
  have bound := f.makeFrameLength_le
  have first := valid.destination.short
  have second := valid.source.short
  rw [f.length_encoding]
  unfold sessionBufSize
  omega

variable {w : Wire} {forever : Bool} {size : ℕ} {f : HdlcFrame} {llc apdu noise behind : List UInt8}

/-- What is returned as a whole was within the arrays, with nothing collected before it. -/
theorem short_of_returned {after : Wire} (valid : f.Valid) (type : f.control.type = .i) (header : IsLlc llc)
    (info : f.info = llc ++ apdu) (connected : w.hdlc.state = .connected) (clean : 0x7E ∉ noise)
    (arriving : w.Arriving (noise ++ (f.encoding ++ behind)))
    (returned : hdlcSessionRecvApdu forever size w = some (.ok apdu, after)) :
    f.info.length ≤ hdlcMaxFrameSize ∧ w.hdlc.reassembly = [] := by
  have length : f.info.length = apdu.length + 3 := by
    rw [info, List.length_append, header.length]
    omega
  have fits : apdu.length ≤ hdlcMaxFrameSize := (hdlcSessionRecvApdu_fits forever size w _ _ returned apdu rfl).1
  obtain ⟨result, hdlc, world, bytes, stale, rx, received, outcome, -⟩ :=
    hdlcSessionRecvApdu_outcome forever size valid (valid.small (by omega)) clean connected type arriving
  rw [returned] at received
  obtain ⟨rfl, -⟩ : .ok apdu = result ∧ _ := by simpa using received
  obtain ⟨-, room, -, whole, -⟩ := outcome.of_ok
  obtain ⟨-, -, stripped⟩ := assembled_eq_ok.mp whole
  replace room : w.hdlc.reassembly.length + (f.info.take hdlcMaxFrameSize).length ≤ hdlcMaxFrameSize := room
  replace stripped : stripLlc (w.hdlc.reassembly ++ f.info.take hdlcMaxFrameSize) = apdu := stripped
  rw [List.length_take] at room
  cases collected : w.hdlc.reassembly with
  | nil =>
    -- the field was cut to the array behind its header
    have cut : f.info.take hdlcMaxFrameSize = llc ++ apdu.take (hdlcMaxFrameSize - 3) := by
      rw [info, List.take_append, header.length, List.take_of_length_le (by rw [header.length]; decide)]
    rw [collected, List.nil_append, cut, stripLlc_append header] at stripped
    have kept := congrArg List.length stripped
    rw [List.length_take] at kept
    have size : hdlcMaxFrameSize = 1024 := rfl
    exact ⟨by omega, rfl⟩
  | cons first rest =>
    -- the unit would hold more than the field
    have longer := length_le_stripLlc (w.hdlc.reassembly ++ f.info.take hdlcMaxFrameSize)
    rw [stripped, List.length_append, List.length_take] at longer
    rw [collected, List.length_cons] at longer room
    omega

/-- A frame that keeps to the negotiated length is returned whole exactly when its information field is within the
session's arrays and no segments were collected before it. -/
theorem info_length_honoured (connected : w.hdlc.state = .connected) (valid : f.Valid) (type : f.control.type = .i)
    (unsegmented : f.segmented = false)
    (numbered : f.control.sendSeq &&& 7 = w.hdlc.recvSeq ∧ f.control.recvSeq &&& 7 = w.hdlc.sendSeq)
    (header : IsLlc llc) (info : f.info = llc ++ apdu) (allowed : f.info.length ≤ w.hdlc.xid.maxInfoRx)
    (room : apdu.length ≤ size) (clean : 0x7E ∉ noise) (arriving : w.Arriving (noise ++ (f.encoding ++ behind))) :
    (∃ after, hdlcSessionRecvApdu forever size w = some (.ok apdu, after)) ↔
      f.info.length ≤ hdlcMaxFrameSize ∧ w.hdlc.reassembly = [] := by
  constructor
  · rintro ⟨after, returned⟩
    exact short_of_returned valid type header info connected clean arriving returned
  · rintro ⟨short, fresh⟩
    obtain ⟨result, hdlc, world, bytes, stale, rx, received, outcome, -⟩ :=
      hdlcSessionRecvApdu_outcome forever size valid (valid.small (by omega)) clean connected type arriving
    have length : f.info.length = apdu.length + 3 := by
      rw [info, List.length_append, header.length]
      omega
    have limit : infoLimit w.hdlc.xid.maxInfoRx = w.hdlc.xid.maxInfoRx := if_pos (by omega)
    have expected : (w.buffering bytes stale rx).hdlc.Expects f.received :=
      HdlcSession.expects_received type numbered (allowed.trans limit.ge)
    have whole : (w.buffering bytes stale rx).hdlc.reassembly ++ f.received.info = llc ++ apdu := by
      change w.hdlc.reassembly ++ f.info.take hdlcMaxFrameSize = _
      rw [fresh, List.nil_append, List.take_of_length_le short, info]
    have returned := outcome.returns expected unsegmented header whole (by rwa [← info]) room
    rw [returned] at received
    exact ⟨_, received⟩

/-- A client connected with the parameters of its initialisation. -/
def connectedClient : HdlcSession := { hdlcSessionInitClient 16 1 with state := .connected }

/-- A response of the server to the client of the examples. -/
def response (apdu : List UInt8) : HdlcFrame := frameToClient { type := .i } ([0xE6, 0xE7, 0x00] ++ apdu)

theorem length_response (apdu : List UInt8) : (response apdu).info.length = apdu.length + 3 := rfl

theorem response_valid {apdu : List UInt8} (short : apdu.length ≤ 1064) :
    (response apdu).Valid ∧ (response apdu).encoding.length ≤ sessionBufSize := by
  have info := length_response apdu
  have size : hdlcMaxFrameSize = 1024 := rfl
  have valid : (response apdu).Valid := by
    refine ⟨hdlcAddressInit_valid 16, hdlcAddressInit_valid 1, by simp [response, frameToClient], ?_⟩
    have bound := (response apdu).makeFrameLength_le
    have first := (hdlcAddressInit_valid 16).short
    have second := (hdlcAddressInit_valid 1).short
    change _ ≤ (hdlcAddressInit 16).length + (hdlcAddressInit 1).length + _ + _ at bound
    omega
  exact ⟨valid, valid.small (by omega)⟩

theorem response_some (apdu : List UInt8) : (response apdu).encoding ≠ [] := by
  intro empty
  have length := (response apdu).length_encoding
  rw [empty, List.length_nil] at length
  omega

theorem info_length_honoured_short :
    ∃ after, hdlcSessionRecvApdu false 16 (linkOf connectedClient [.bytes (response [0xC4]).encoding]) =
      some (.ok [0xC4], after) := by
  have valid := response_valid (show [0xC4].length ≤ 1064 by decide)
  exact (info_length_honoured rfl valid.1 rfl rfl (by decide) (.inr rfl) rfl (by decide) (by decide)
    List.not_mem_nil (linkOf_arriving rfl (response_some _) valid.2)).mpr (by decide)

/-- The content of a response of 1025 bytes with its LLC header. -/
def longContent : List UInt8 := List.replicate 1022 0

/-- The field is one byte longer than the arrays and far below what was announced, and the response is not
returned. -/
theorem announced_length_lost : connectedClient.xid.maxInfoRx = 1280 ∧ (response longContent).info.length = 1025 ∧
      ¬∃ after, hdlcSessionRecvApdu false 2048 (linkOf connectedClient [.bytes (response longContent).encoding]) =
        some (.ok longContent, after) := by
  have length : longContent.length = 1022 := List.length_replicate
  have valid := response_valid (show longContent.length ≤ 1064 by omega)
  have info : (response longContent).info.length = 1025 := by rw [length_response, length]
  refine ⟨rfl, info, ?_⟩
  rintro ⟨after, returned⟩
  have short := (short_of_returned valid.1 rfl (.inr rfl) rfl rfl List.not_mem_nil
    (linkOf_arriving rfl (response_some _) valid.2) returned).1
  rw [info] at short
  exact absurd short (by decide)

end OpenSpodes
