import OpenSpodes.Machine.Segments
import OpenSpodes.Soundness.InfoLength

/-! # Reassembly of whole messages

A peer sends the segments of its messages one at a time and repeats a segment until the receiver's number has gone
beyond it. The receiver is then at the segment that is being sent or just behind it, and holds the segments of the
current message. An overflow of the buffer breaks that: it drops what is held and keeps the number, so the repeated
segment starts a message of its own.
-/

namespace OpenSpodes

open Machine Machine.Segments

variable {taken position : ℕ} {w after : Wire}

/-- The number of a segment, counted on from that of the first one. -/
def segmentNumber (first : UInt8) : ℕ → UInt8
  | 0 => first
  | position + 1 => (segmentNumber first position + 1) &&& 7

/-- An information frame with the segment of a message. -/
structure HdlcFrame.Carrying (f : HdlcFrame) (seq : UInt8) (segment : Segment UInt8) : Prop where
  valid : f.Valid
  type : f.control.type = .i
  sendSeq : f.control.sendSeq &&& 7 = seq
  info : f.info = segment.1
  segmented : f.segmented = segment.2

/-- The receiver's side of the link is where it was. -/
structure SameReception (w after : Wire) : Prop where
  state : after.hdlc.state = w.hdlc.state
  recvSeq : after.hdlc.recvSeq = w.hdlc.recvSeq
  reassembly : after.hdlc.reassembly = w.hdlc.reassembly

/-- A receiver at work with a peer that sends messages: the link, the position of the segment that the peer sends,
and the APDUs that were returned. The peer goes on when the receiver's number is beyond the segment, and may repeat
it at any time; calls without a segment and APDUs of the receiver come in between. -/
inductive PeerRun (messages : List (List (List UInt8))) (origin : Wire) : Wire → ℕ → List (List UInt8) → Prop
  | start : PeerRun messages origin origin 0 []
  | script {w : Wire} {position : ℕ} {delivered : List (List UInt8)} (world : World) :
      PeerRun messages origin w position delivered → PeerRun messages origin (w.setWorld world) position delivered
  | received {w after : Wire} {position size : ℕ} {delivered : List (List UInt8)} {segment : Segment UInt8}
      {f : HdlcFrame} {behind : List UInt8} {forever : Bool} {result : Except Err (List UInt8)} :
      PeerRun messages origin w position delivered → (messages.flatMap segmentsOf)[position]? = some segment →
      f.Carrying (segmentNumber origin.hdlc.recvSeq position) segment → w.Arriving (f.encoding ++ behind) →
      hdlcSessionRecvApdu forever size w = some (result, after) →
      PeerRun messages origin after position (delivered ++ result.toOption.toList)
  | acknowledged {w : Wire} {position : ℕ} {delivered : List (List UInt8)} :
      PeerRun messages origin w position delivered →
      w.hdlc.recvSeq = segmentNumber origin.hdlc.recvSeq (position + 1) →
      PeerRun messages origin w (position + 1) delivered
  | waited {w after : Wire} {position size : ℕ} {delivered : List (List UInt8)} {forever : Bool} {err : Err} :
      PeerRun messages origin w position delivered →
      hdlcSessionRecvApdu forever size w = some (.error err, after) → SameReception w after →
      PeerRun messages origin after position delivered
  | sent {w after : Wire} {position : ℕ} {delivered : List (List UInt8)} {apdu : List UInt8} {result : Err} :
      PeerRun messages origin w position delivered → hdlcSessionSendApdu apdu w = some (result, after) →
      PeerRun messages origin after position delivered

theorem next_number_ne (seq : UInt8) : (seq + 1) &&& 7 ≠ seq := by
  intro same
  have value := congrArg UInt8.toNat same
  rw [UInt8.toNat_and, UInt8.toNat_add, show (7 : UInt8).toNat = 2 ^ 3 - 1 from rfl,
    Nat.and_two_pow_sub_one_eq_mod] at value
  change (seq.toNat + 1) % 2 ^ 8 % 2 ^ 3 = seq.toNat at value
  omega

/-- The receiver has taken that many segments. -/
structure HdlcSession.HasTaken (s : HdlcSession) (segments : List (Segment UInt8)) (first : UInt8) (taken : ℕ) :
    Prop where
  connected : s.state = .connected
  number : s.recvSeq = segmentNumber first taken
  holds : s.reassembly = held (segments.take taken)

/-- The APDU is the content of a message behind its LLC header. -/
def WholeMessage (messages : List (List (List UInt8))) (apdu : List UInt8) : Prop :=
  ∃ parts ∈ messages, ∃ llc, IsLlc llc ∧ parts.flatten = llc ++ apdu

variable {messages : List (List (List UInt8))} {segment : Segment UInt8} {first : UInt8} {s : HdlcSession}
  {segments : List (Segment UInt8)}

/-- The segment behind those that were taken is taken: the next is expected, and this one joins what is held. -/
theorem HdlcSession.HasTaken.next {seq : UInt8} (has : s.HasTaken segments first taken)
    (here : segments[taken]? = some segment) (numbered : seq = s.recvSeq) {reassembly : List UInt8}
    (joined : reassembly = collect s.reassembly segment) :
    HasTaken { s with reassembly := reassembly, recvSeq := (seq + 1) &&& 7 } segments first (taken + 1) := by
  constructor
  · exact has.connected
  · change (seq + 1) &&& 7 = (segmentNumber first taken + 1) &&& 7
    rw [numbered, has.number]
  · change reassembly = _
    rw [joined, has.holds, List.take_add_one, here, Option.toList_some, held_concat]

/-- What is held with the next segment is within the buffer, and a message at its last segment. -/
theorem segment_begun {n : ℕ} (short : ∀ parts ∈ messages, parts.flatten.length ≤ hdlcMaxFrameSize)
    (here : (messages.flatMap segmentsOf)[n]? = some segment) :
    (held ((messages.flatMap segmentsOf).take n)).length + segment.1.length ≤ hdlcMaxFrameSize ∧
      (segment.2 = false → ∃ parts ∈ messages,
        held ((messages.flatMap segmentsOf).take n) ++ segment.1 = parts.flatten) := by
  obtain ⟨bound, at'⟩ := List.getElem?_eq_some_iff.mp here
  have cut : messages.flatMap segmentsOf = (messages.flatMap segmentsOf).take n ++
      segment :: (messages.flatMap segmentsOf).drop (n + 1) := by
    rw [← at', List.getElem_cons_drop, List.take_append_drop]
  obtain ⟨parts, member, begins, whole⟩ := held_begun cut
  have length := begins.length_le.trans (short parts member)
  rw [List.length_append] at length
  exact ⟨length, fun last => ⟨parts, member, whole last⟩⟩

variable {f : HdlcFrame}

/-- A segment is taken, or the receiver stays where it is; what it returns is a message. -/
theorem InfoOutcome.takes {hdlc : HdlcSession} {size : ℕ} {result : Except Err (List UInt8)}
    (sound : ∀ parts ∈ messages, ∃ llc apdu, IsLlc llc ∧ parts.flatten = llc ++ apdu)
    (short : ∀ parts ∈ messages, parts.flatten.length ≤ hdlcMaxFrameSize)
    (here : (messages.flatMap segmentsOf)[position]? = some segment)
    (carrying : f.Carrying (segmentNumber first position) segment)
    (has : s.HasTaken (messages.flatMap segmentsOf) first taken) (near : taken = position ∨ taken = position + 1)
    (outcome : InfoOutcome s f.received size result hdlc) : (∃ taken', (taken' = position ∨ taken' = position + 1) ∧
      hdlc.HasTaken (messages.flatMap segmentsOf) first taken') ∧
        ∀ apdu, result = .ok apdu → WholeMessage messages apdu := by
  have sendSeq : f.received.control.sendSeq = segmentNumber first position := by
    rw [← carrying.sendSeq]
    simp only [HdlcFrame.received, Control.received, carrying.type]
  -- a segment that was taken before has another number than the one that is expected
  have at' (expected : s.Expects f.received) : taken = position := by
    rcases near with same | beyond
    · exact same
    · have again := expected.next
      rw [sendSeq, has.number, beyond] at again
      exact absurd again.symm (next_number_ne _)
  have part : taken = position → f.received.info = segment.1 ∧
      s.reassembly.length + segment.1.length ≤ hdlcMaxFrameSize ∧
        (segment.2 = false → ∃ parts ∈ messages, s.reassembly ++ segment.1 = parts.flatten) := by
    rintro rfl
    obtain ⟨fits, whole⟩ := segment_begun short here
    rw [← has.holds] at fits whole
    refine ⟨?_, fits, whole⟩
    rw [← carrying.info]
    exact List.take_of_length_le (by rw [carrying.info]; omega)
  cases outcome with
  | refused unexpected => exact ⟨⟨taken, near, has⟩, by simp⟩
  | overflown expected excess =>
    obtain ⟨info, fits, -⟩ := part (at' expected)
    rw [info] at excess
    omega
  | segment expected fits segmented =>
    obtain rfl := at' expected
    have more : segment.2 = true := carrying.segmented.symm.trans segmented
    refine ⟨⟨taken + 1, .inr rfl, has.next here expected.next ?_⟩, by simp⟩
    rw [(part rfl).1, collect, if_pos more]
  | completed expected fits unsegmented =>
    obtain rfl := at' expected
    have last : segment.2 = false := carrying.segmented.symm.trans unsegmented
    refine ⟨⟨taken + 1, .inr rfl, has.next here expected.next (by simp [collect, last])⟩, ?_⟩
    intro apdu returned
    obtain ⟨info, -, whole⟩ := part rfl
    obtain ⟨parts, member, joined⟩ := whole last
    obtain ⟨llc, content, header, message⟩ := sound parts member
    obtain ⟨-, -, stripped⟩ := assembled_eq_ok.mp returned
    rw [info, joined, message, stripLlc_append header] at stripped
    exact ⟨parts, member, llc, header, by rw [message, stripped]⟩

/-- Sending leaves the receiver's side alone. -/
theorem hdlcSessionSendApdu_keeps (apdu : List UInt8) : Keeps SameReception (hdlcSessionSendApdu apdu) := by
  intro w result after returned
  obtain ⟨_, hdlc, world, sends, -, cases⟩ := hdlcSessionSendApdu_outcome apdu w
  rw [returned] at sends
  obtain ⟨-, rfl⟩ : _ ∧ after = _ := by simpa using sends
  rcases cases with ⟨-, rfl, -⟩ | ⟨-, rfl, -⟩
  · exact ⟨rfl, rfl, rfl⟩
  · exact ⟨rfl, rfl, rfl⟩

theorem SameReception.hasTaken (same : SameReception w after) (has : w.hdlc.HasTaken segments first taken) :
    after.hdlc.HasTaken segments first taken :=
  ⟨same.state.trans has.connected, same.recvSeq.trans has.number, same.reassembly.trans has.holds⟩

/-- As long as no message with its LLC header is longer than the reassembly buffer, every APDU that a receiver
returns is the content of one whole message. -/
theorem whole_messages {origin w : Wire} {position : ℕ} {delivered : List (List UInt8)}
    (sound : ∀ parts ∈ messages, ∃ llc apdu, IsLlc llc ∧ parts.flatten = llc ++ apdu)
    (short : ∀ parts ∈ messages, parts.flatten.length ≤ hdlcMaxFrameSize)
    (connected : origin.hdlc.state = .connected) (fresh : origin.hdlc.reassembly = [])
    (run : PeerRun messages origin w position delivered) : ∀ apdu ∈ delivered, WholeMessage messages apdu := by
  suffices both : (∃ taken, (taken = position ∨ taken = position + 1) ∧
      w.hdlc.HasTaken (messages.flatMap segmentsOf) origin.hdlc.recvSeq taken) ∧
        ∀ apdu ∈ delivered, WholeMessage messages apdu from both.2
  induction run with
  | start => exact ⟨⟨0, .inl rfl, connected, rfl, fresh⟩, by simp⟩
  | script world _ ih => exact ih
  | @received w after position size delivered segment f behind forever result _ here carrying arriving returned ih =>
    obtain ⟨⟨taken, near, has⟩, whole⟩ := ih
    have small : f.encoding.length ≤ sessionBufSize := by
      have fits := (segment_begun short here).1
      rw [← carrying.info] at fits
      exact carrying.valid.small (by omega)
    obtain ⟨result', hdlc, world, bytes, stale, rx, received, outcome, -⟩ := hdlcSessionRecvApdu_outcome forever size
      carrying.valid small List.not_mem_nil has.connected carrying.type (by simpa using arriving)
    rw [returned] at received
    obtain ⟨rfl, rfl⟩ : result = result' ∧ after = _ := by simpa using received
    have has' : (w.buffering bytes stale rx).hdlc.HasTaken (messages.flatMap segmentsOf) origin.hdlc.recvSeq taken :=
      ⟨has.connected, has.number, has.holds⟩
    obtain ⟨taken', message⟩ := outcome.takes sound short here carrying has' near
    refine ⟨taken', ?_⟩
    intro apdu member
    rcases List.mem_append.mp member with earlier | now
    · exact whole apdu earlier
    · apply message
      cases result with
      | error err => simp [Except.toOption] at now
      | ok returned => simpa [Except.toOption, eq_comm] using now
  | @acknowledged w position delivered _ beyond ih =>
    obtain ⟨⟨taken, near, has⟩, whole⟩ := ih
    rcases near with rfl | rfl
    · exact absurd (has.number.symm.trans beyond).symm (next_number_ne _)
    · exact ⟨⟨position + 1, .inl rfl, has⟩, whole⟩
  | waited _ _ same ih =>
    obtain ⟨⟨taken, near, has⟩, whole⟩ := ih
    exact ⟨⟨taken, near, same.hasTaken has⟩, whole⟩
  | sent _ returned ih =>
    obtain ⟨⟨taken, near, has⟩, whole⟩ := ih
    exact ⟨⟨taken, near, (hdlcSessionSendApdu_keeps _ _ _ _ returned).hasTaken has⟩, whole⟩

/-! ## Two messages -/

/-- The receiver's next call, with one frame in the script; what is returned, the number and the waiting bytes. -/
def takeFrame (f : HdlcFrame) : Program Wire (Option (List UInt8) × UInt8 × ℕ) := do
  modify (·.setWorld { rx := [.bytes f.encoding] })
  let received ← hdlcSessionRecvApdu false 2048
  return (received.toOption, (← session).recvSeq, (← session).rxPendingLen)

theorem PeerRun.takes {origin : Wire} {delivered : List (List UInt8)} {returned : Option (List UInt8) × UInt8 × ℕ}
    (run : PeerRun messages origin w position delivered)
    (here : (messages.flatMap segmentsOf)[position]? = some segment)
    (carrying : f.Carrying (segmentNumber origin.hdlc.recvSeq position) segment)
    (small : f.encoding.length ≤ sessionBufSize) (fresh : w.hdlc.rxPendingLen = 0)
    (taken : takeFrame f w = some (returned, after)) :
    PeerRun messages origin after position (delivered ++ returned.1.toList) ∧ after.hdlc.recvSeq = returned.2.1 ∧
      after.hdlc.rxPendingLen = returned.2.2 := by
  obtain ⟨_, scripted, set, taken⟩ := bind_eq_some.mp taken
  cases set
  obtain ⟨received, middle, first, rest⟩ := bind_eq_some.mp taken
  cases rest
  have some : f.encoding ≠ [] := by
    intro empty
    have length := f.length_encoding
    rw [empty, List.length_nil] at length
    omega
  have arriving : (w.setWorld { rx := [.bytes f.encoding] }).Arriving (f.encoding ++ []) := by
    rw [List.append_nil]
    exact Wire.arriving_chunk fresh rfl some small
  exact ⟨(run.script _).received here carrying arriving first, rfl, rfl⟩

def segmentFrame (seq : UInt8) (segment : Segment UInt8) : HdlcFrame :=
  { frameToClient { type := .i, sendSeq := seq } segment.1 with segmented := segment.2 }

theorem segmentFrame_carrying (seq : UInt8) (segment : Segment UInt8) (number : seq &&& 7 = seq)
    (short : segment.1.length ≤ hdlcMaxFrameSize) :
    (segmentFrame seq segment).Carrying seq segment ∧ (segmentFrame seq segment).encoding.length ≤ sessionBufSize := by
  have size : hdlcMaxFrameSize = 1024 := rfl
  have valid : (segmentFrame seq segment).Valid := by
    refine ⟨hdlcAddressInit_valid 16, hdlcAddressInit_valid 1, by simp [segmentFrame, frameToClient], ?_⟩
    have bound := (segmentFrame seq segment).makeFrameLength_le
    have first := (hdlcAddressInit_valid 16).short
    have second := (hdlcAddressInit_valid 1).short
    change _ ≤ (hdlcAddressInit 16).length + (hdlcAddressInit 1).length + segment.1.length + _ at bound
    omega
  have info : (segmentFrame seq segment).info = segment.1 := rfl
  exact ⟨⟨valid, rfl, number, rfl, rfl⟩, valid.small (by rw [info]; omega)⟩

def twoSegments : List (List UInt8) := [[0xE6, 0xE7, 0x00, 0xC4], [0x01]]

theorem whole_messages_two_segments : ∃ w, PeerRun [twoSegments] (linkOf connectedClient []) w 1 [[0xC4, 0x01]] ∧
    ∀ apdu ∈ [[0xC4, 0x01]], WholeMessage [twoSegments] apdu := by
  have runs : ((do
      let first ← takeFrame (segmentFrame 0 ([0xE6, 0xE7, 0x00, 0xC4], true))
      let second ← takeFrame (segmentFrame 1 ([0x01], false))
      return (first, second)) (linkOf connectedClient [])).map Prod.fst =
        some ((none, 1, 0), (some [0xC4, 0x01], 2, 0)) := by decide +kernel
  obtain ⟨⟨results, w⟩, both, rfl⟩ := Option.map_eq_some_iff.mp runs
  obtain ⟨first, middle, took, rest⟩ := bind_eq_some.mp both
  obtain ⟨second, final, took', last⟩ := bind_eq_some.mp rest
  cases last
  have one := segmentFrame_carrying 0 ([0xE6, 0xE7, 0x00, 0xC4], true) (by decide) (by decide)
  have two := segmentFrame_carrying 1 ([0x01], false) (by decide) (by decide)
  obtain ⟨run, number, fresh⟩ := (@PeerRun.start [twoSegments] _).takes rfl one.1 one.2 rfl took
  obtain ⟨run, -⟩ := (run.acknowledged number).takes rfl two.1 two.2 fresh took'
  refine ⟨w, run, whole_messages ?_ ?_ rfl rfl run⟩
  · intro parts member
    obtain rfl := List.mem_singleton.mp member
    exact ⟨_, [0xC4, 0x01], .inr rfl, rfl⟩
  · intro parts member
    obtain rfl := List.mem_singleton.mp member
    decide

def longMessage : List (List UInt8) := [[0xE6, 0xE7, 0x00] ++ List.replicate 1000 0, List.replicate 30 0]

/-- The second segment overflows the buffer; repeated, it is returned as if it were a message. -/
theorem fragment_delivered : ∃ w, PeerRun [longMessage] (linkOf connectedClient []) w 1 [List.replicate 30 0] ∧
    ¬WholeMessage [longMessage] (List.replicate 30 0) := by
  have runs : ((do
      let first ← takeFrame (segmentFrame 0 ([0xE6, 0xE7, 0x00] ++ List.replicate 1000 0, true))
      let second ← takeFrame (segmentFrame 1 (List.replicate 30 0, false))
      let third ← takeFrame (segmentFrame 1 (List.replicate 30 0, false))
      return [first, second, third]) (linkOf connectedClient [])).map Prod.fst =
        some [(none, 1, 0), (none, 1, 0), (some (List.replicate 30 0), 2, 0)] := by decide +kernel
  obtain ⟨⟨results, w⟩, all, rfl⟩ := Option.map_eq_some_iff.mp runs
  obtain ⟨first, middle, took, rest⟩ := bind_eq_some.mp all
  obtain ⟨second, repeated, took', rest⟩ := bind_eq_some.mp rest
  obtain ⟨third, final, took'', last⟩ := bind_eq_some.mp rest
  cases last
  have one := segmentFrame_carrying 0 ([0xE6, 0xE7, 0x00] ++ List.replicate 1000 0, true) (by decide)
    (by rw [List.length_append, List.length_replicate]; decide)
  have two := segmentFrame_carrying 1 (List.replicate 30 0, false) (by decide) (by decide)
  obtain ⟨run, number, fresh⟩ := (@PeerRun.start [longMessage] _).takes rfl one.1 one.2 rfl took
  obtain ⟨run, -, fresh⟩ := (run.acknowledged number).takes rfl two.1 two.2 fresh took'
  obtain ⟨run, -⟩ := run.takes rfl two.1 two.2 fresh took''
  refine ⟨w, run, ?_⟩
  rintro ⟨parts, member, llc, header, joined⟩
  obtain rfl := List.mem_singleton.mp member
  have length := congrArg List.length joined
  have total : longMessage.flatten.length = 1033 := by decide +kernel
  rw [List.length_append, header.length, total, List.length_replicate] at length
  exact absurd length (by decide)

end OpenSpodes
