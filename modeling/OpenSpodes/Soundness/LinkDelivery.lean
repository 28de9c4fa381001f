import Mathlib.Logic.Function.Basic
import OpenSpodes.Machine.LossyQueue
import OpenSpodes.Proofs.WholeFrames
import OpenSpodes.Soundness.WholeMessages

/-! # Delivery over a link that loses and repeats frames

Two connected sessions exchange frames through a channel in each direction that keeps the order, may lose a frame
and may deliver it twice in a row. Sequence numbers are small, but a number that was just taken is never the one
expected next, and that is all the order of delivery needs: each side's APDUs arrive without repetition and in order.
-/

namespace OpenSpodes

open Machine Machine.LossyQueue

variable {size : ℕ} {result : Except Err (List UInt8)} {side : Bool} {α : Type} {events : List RxEvent}

/-- Two sessions, the frames on their way to each of them, and the APDUs that each side's sending accepted and that
each side's receiving returned; `true` is the client. -/
structure LinkPair where
  wire : Bool → Wire
  toward : Bool → List (List UInt8)
  accepted : Bool → List (List UInt8)
  delivered : Bool → List (List UInt8)

def Wire.feeding (w : Wire) (events : List RxEvent) : Wire := w.setWorld { w.world with rx := w.world.rx ++ events }

namespace LinkPair

/-- A call of one side; what it sent goes on its way to the other. -/
def calling (l : LinkPair) (side : Bool) (after : Wire) : LinkPair :=
  { l with
    wire := Function.update l.wire side after
    toward := Function.update l.toward (!side)
      (l.toward (!side) ++ after.world.sent.drop (l.wire side).world.sent.length) }

def accepting (l : LinkPair) (side : Bool) (apdus : List (List UInt8)) : LinkPair :=
  { l with accepted := Function.update l.accepted side (l.accepted side ++ apdus) }

def returning (l : LinkPair) (side : Bool) (apdus : List (List UInt8)) : LinkPair :=
  { l with delivered := Function.update l.delivered side (l.delivered side ++ apdus) }

/-- Events for one side, with these frames left on their way to it. -/
def feeding (l : LinkPair) (side : Bool) (toward : List (List UInt8)) (events : List RxEvent) : LinkPair :=
  { l with
    wire := Function.update l.wire side ((l.wire side).feeding events)
    toward := Function.update l.toward side toward }

end LinkPair

/-- One step of the pair: a call of either side, or the channel loses the first frame on its way to a side, delivers
it once or twice, or the transport reports a timeout or a failure. -/
inductive LinkStep (l : LinkPair) : LinkPair → Prop
  | send (side : Bool) {apdu : List UInt8} {result : Err} {after : Wire} :
      hdlcSessionSendApdu apdu (l.wire side) = some (result, after) →
      LinkStep l ((l.calling side after).accepting side (if result = .ok then [apdu] else []))
  | recv (side : Bool) {forever : Bool} {size : ℕ} {result : Except Err (List UInt8)} {after : Wire} :
      hdlcSessionRecvApdu forever size (l.wire side) = some (result, after) →
      LinkStep l ((l.calling side after).returning side result.toOption.toList)
  | lose (side : Bool) {bytes : List UInt8} {rest : List (List UInt8)} : l.toward side = bytes :: rest →
      LinkStep l (l.feeding side rest [])
  | deliver (side : Bool) {bytes : List UInt8} {rest : List (List UInt8)} : l.toward side = bytes :: rest →
      LinkStep l (l.feeding side rest [.bytes bytes])
  | deliverTwice (side : Bool) {bytes : List UInt8} {rest : List (List UInt8)} : l.toward side = bytes :: rest →
      LinkStep l (l.feeding side rest [.bytes bytes, .bytes bytes])
  | idle (side : Bool) {event : RxEvent} : event.data? = none →
      LinkStep l (l.feeding side (l.toward side) [event])

/-- A side of a link behind its set-up. -/
structure HdlcSession.SetUp (s : HdlcSession) (isClient : Bool) : Prop where
  role : s.isClient = isClient
  connected : s.state = .connected
  sendSeq : s.sendSeq = 0
  recvSeq : s.recvSeq = 0
  reassembly : s.reassembly = []
  pending : s.rxPendingLen = 0
  own : s.ownAddr.Valid
  peer : s.peerAddr.Valid

/-- A pair whose sessions were just set up, with nothing under way. -/
structure LinkPair.Fresh (l : LinkPair) : Prop where
  setUp : ∀ side, (l.wire side).hdlc.SetUp side
  events : ∀ side, (l.wire side).world.rx = []
  toward : ∀ side, l.toward side = []
  accepted : ∀ side, l.accepted side = []
  delivered : ∀ side, l.delivered side = []

/-! ## Frames of a connected link -/

/-- What connected sessions send: information, acknowledgements and frame rejects, never segmented. -/
structure HdlcFrame.Ordinary (f : HdlcFrame) : Prop where
  valid : f.Valid
  unsegmented : f.segmented = false
  short : f.info.length ≤ hdlcMaxFrameSize
  type : f.control.type = .i ∨ f.control.type = .rr ∨ f.control.type = .frmr

variable {f : HdlcFrame}

theorem HdlcFrame.ordinary (destination : f.destination.Valid) (source : f.source.Valid)
    (unsegmented : f.segmented = false) (short : f.info.length ≤ hdlcMaxFrameSize)
    (type : f.control.type = .i ∨ f.control.type = .rr ∨ f.control.type = .frmr) : f.Ordinary := by
  refine ⟨⟨destination, source, ?_, ?_⟩, unsegmented, short, type⟩
  · rcases type with type | type | type
    · simp [type]
    · simp [type]
    · simp [type]
  · have bound := f.makeFrameLength_le
    have first := destination.short
    have second := source.short
    have size : hdlcMaxFrameSize = 1024 := rfl
    omega

/-- The frame that a receiver with this number takes, by its kind and number. -/
def Expected (seq : UInt8) (f : HdlcFrame) : Prop := f.control.type = .i ∧ f.control.sendSeq &&& 7 = seq

def HdlcFrame.apdu (f : HdlcFrame) : List UInt8 := stripLlc f.info

/-- A frame with information for the receiver's caller. -/
def HdlcFrame.isInfo (f : HdlcFrame) : Bool := f.control.type = .i

/-- One direction of a link, with the frames that were sent, taken, are in the channel and have arrived. -/
structure Transfer (receiver : Wire) (toward accepted delivered : List (List UInt8))
    (sent taken queue arrived : List HdlcFrame) : Prop where
  transit : InTransit Expected receiver.hdlc.recvSeq sent taken queue arrived
  queued : toward = queue.map HdlcFrame.encoding
  waiting : receiver.world.rx.filterMap RxEvent.data? = arrived.map HdlcFrame.encoding
  ordinary : ∀ f ∈ queue ++ arrived, f.Ordinary
  infos : ∀ f ∈ taken, f.isInfo
  accepts : (sent.filter HdlcFrame.isInfo).map HdlcFrame.apdu = accepted
  delivers : List.Sublist delivered (taken.map HdlcFrame.apdu)

def Direction (receiver : Wire) (toward accepted delivered : List (List UInt8)) : Prop :=
  ∃ sent taken queue arrived, Transfer receiver toward accepted delivered sent taken queue arrived

/-- A side of a connected link between calls. -/
structure HdlcSession.Between (s : HdlcSession) : Prop where
  connected : s.state = .connected
  reassembly : s.reassembly = []
  pending : s.rxPendingLen = 0
  own : s.ownAddr.Valid
  peer : s.peerAddr.Valid

variable {w after : Wire} {toward accepted delivered : List (List UInt8)}

namespace Direction

theorem sublist (direction : Direction w toward accepted delivered) : List.Sublist delivered accepted := by
  obtain ⟨sent, taken, _, _, transfer⟩ := direction
  have taken_eq : taken.filter HdlcFrame.isInfo = taken := List.filter_eq_self.mpr transfer.infos
  have order := (transfer.transit.sublist.filter HdlcFrame.isInfo).map HdlcFrame.apdu
  rw [taken_eq, transfer.accepts] at order
  exact transfer.delivers.trans order

theorem congr (direction : Direction w toward accepted delivered) (recvSeq : after.hdlc.recvSeq = w.hdlc.recvSeq)
    (events : after.world.rx.filterMap RxEvent.data? = w.world.rx.filterMap RxEvent.data?) :
    Direction after toward accepted delivered := by
  obtain ⟨sent, taken, queue, arrived, transfer⟩ := direction
  exact ⟨sent, taken, queue, arrived,
    { transfer with transit := recvSeq ▸ transfer.transit, waiting := events.trans transfer.waiting }⟩

theorem put {f : HdlcFrame} (ordinary : f.Ordinary) (direction : Direction w toward accepted delivered) :
    Direction w (toward ++ [f.encoding]) (accepted ++ if f.isInfo then [f.apdu] else []) delivered := by
  obtain ⟨sent, taken, queue, arrived, transfer⟩ := direction
  refine ⟨sent ++ [f], taken, queue ++ [f], arrived,
    { transfer with transit := transfer.transit.put f, queued := ?_, ordinary := ?_, accepts := ?_ }⟩
  · simp [transfer.queued]
  · intro g member
    have cases : g ∈ queue ++ arrived ∨ g = f := by
      simp only [List.mem_append, List.mem_singleton] at member ⊢
      tauto
    rcases cases with earlier | rfl
    · exact transfer.ordinary g earlier
    · exact ordinary
  · rw [List.filter_append, List.map_append, transfer.accepts]
    by_cases info : f.isInfo = true
    · simp [info]
    · simp [info]

theorem head {bytes : List UInt8} (direction : Direction w (bytes :: toward) accepted delivered) :
    ∃ sent taken f queue arrived, Transfer w (bytes :: toward) accepted delivered sent taken (f :: queue) arrived ∧
      bytes = f.encoding ∧ toward = queue.map HdlcFrame.encoding := by
  obtain ⟨sent, taken, queue, arrived, transfer⟩ := direction
  cases queue with
  | nil => exact absurd transfer.queued (by simp)
  | cons f queue =>
    obtain ⟨first, rest⟩ := List.cons_eq_cons.mp transfer.queued
    exact ⟨sent, taken, f, queue, arrived, transfer, first, rest⟩

theorem lose {bytes : List UInt8} (direction : Direction w (bytes :: toward) accepted delivered) :
    Direction w toward accepted delivered := by
  obtain ⟨sent, taken, f, queue, arrived, transfer, -, rest⟩ := direction.head
  refine ⟨sent, taken, queue, arrived,
    { transfer with transit := transfer.transit.lose, queued := rest, ordinary := ?_ }⟩
  intro g member
  exact transfer.ordinary g (List.mem_cons_of_mem _ member)

/-- The channel delivers a frame, once or twice. -/
theorem arrive {bytes : List UInt8} {events : List RxEvent}
    (direction : Direction w (bytes :: toward) accepted delivered)
    (copies : events = [.bytes bytes] ∨ events = [.bytes bytes, .bytes bytes]) :
    Direction (w.feeding events) toward accepted delivered := by
  obtain ⟨sent, taken, f, queue, arrived, transfer, rfl, rest⟩ := direction.head
  have ordinary : ∀ g, g ∈ queue ∨ g ∈ arrived ∨ g = f → g.Ordinary := by
    intro g member
    apply transfer.ordinary
    simp only [List.mem_append, List.mem_cons]
    tauto
  rcases copies with rfl | rfl
  · refine ⟨sent, taken, queue, arrived ++ [f],
      { transfer with transit := transfer.transit.arrive, queued := rest, waiting := ?_, ordinary := ?_ }⟩
    · simp [Wire.feeding, Wire.setWorld, transfer.waiting, RxEvent.data?]
    · intro g member
      exact ordinary g (by simpa using member)
  · refine ⟨sent, taken, queue, arrived ++ [f, f],
      { transfer with transit := transfer.transit.arriving (.twice .nil), queued := rest, waiting := ?_, ordinary := ?_ }⟩
    · simp [Wire.feeding, Wire.setWorld, transfer.waiting, RxEvent.data?]
    · intro g member
      exact ordinary g (by simpa using member)

end Direction

/-! ## Calls -/

variable {sent taken queue arrived : List HdlcFrame}

theorem Transfer.whole (transfer : Transfer w toward accepted delivered sent taken queue arrived) :
    WholeFrames w.world.rx := by
  intro bytes member
  have data : bytes ∈ arrived.map HdlcFrame.encoding := by
    rw [← transfer.waiting]
    exact List.mem_filterMap.mpr ⟨_, member, rfl⟩
  obtain ⟨f, arrived, rfl⟩ := List.mem_map.mp data
  have ordinary := transfer.ordinary f (List.mem_append_right _ arrived)
  have short := ordinary.short
  exact ⟨f, ordinary.valid, ordinary.valid.small (by omega), rfl⟩

/-- The receiver passes over a frame. -/
theorem Transfer.refuse (transfer : Transfer w toward accepted delivered sent taken queue (f :: arrived))
    (recvSeq : after.hdlc.recvSeq = w.hdlc.recvSeq)
    (waiting : after.world.rx.filterMap RxEvent.data? = arrived.map HdlcFrame.encoding) :
    Direction after toward accepted delivered := by
  refine ⟨sent, taken, queue, arrived,
    { transfer with transit := ?_, waiting := waiting, ordinary := ?_ }⟩
  · rw [recvSeq]
    exact transfer.transit.refuse
  · intro g member
    apply transfer.ordinary
    simp only [List.mem_append, List.mem_cons] at member ⊢
    tauto

/-- The receiver takes a frame, and what it returns is the APDU of the frame, if anything. -/
theorem Transfer.take {returned : List (List UInt8)}
    (transfer : Transfer w toward accepted delivered sent taken queue (f :: arrived))
    (expected : Expected w.hdlc.recvSeq f) (recvSeq : after.hdlc.recvSeq = (w.hdlc.recvSeq + 1) &&& 7)
    (waiting : after.world.rx.filterMap RxEvent.data? = arrived.map HdlcFrame.encoding)
    (apdu : List.Sublist returned [f.apdu]) : Direction after toward accepted (delivered ++ returned) := by
  have next : ¬Expected after.hdlc.recvSeq f := by
    rintro ⟨-, again⟩
    rw [recvSeq, expected.2] at again
    exact next_number_ne _ again.symm
  refine ⟨sent, taken ++ [f], queue, arrived,
    { transfer with
      transit := transfer.transit.take expected next
      waiting := waiting
      ordinary := ?_
      infos := ?_
      delivers := ?_ }⟩
  · intro g member
    apply transfer.ordinary
    simp only [List.mem_append, List.mem_cons] at member ⊢
    tauto
  · intro g member
    rcases List.mem_append.mp member with earlier | now
    · exact transfer.infos g earlier
    · obtain rfl := List.mem_singleton.mp now
      simp [HdlcFrame.isInfo, expected.1]
  · rw [List.map_append]
    exact transfer.delivers.append apdu

/-- What a side sends by itself is ordinary and carries no information. -/
theorem Wire.Replied.ordinary {destination : HdlcAddress} {world : World} (replied : w.Replied destination world)
    (own : w.hdlc.ownAddr.Valid) (peer : destination.Valid) :
    ∃ replies : List HdlcFrame, world.sent = w.world.sent ++ replies.map HdlcFrame.encoding ∧
      ∀ f ∈ replies, f.Ordinary ∧ f.isInfo = false := by
  rcases replied.sent with silent | ⟨reply, bytes, isReply, framed, sent⟩
  · exact ⟨[], by simp [silent], by simp⟩
  · refine ⟨[reply.unsegmented], by rw [sent, hdlcFrame_eq framed]; rfl, ?_⟩
    intro f member
    obtain rfl := List.mem_singleton.mp member
    have size : hdlcMaxFrameSize = 1024 := rfl
    have info := isReply.info
    constructor
    · refine HdlcFrame.ordinary ?_ ?_ rfl ?_ (.inr isReply.type)
      · exact isReply.destination ▸ peer
      · exact isReply.source ▸ own
      · change reply.info.length ≤ _
        omega
    · rcases isReply.type with type | type
      · simp [HdlcFrame.isInfo, HdlcFrame.unsegmented, type]
      · simp [HdlcFrame.isInfo, HdlcFrame.unsegmented, type]

theorem assembled_sublist (size : ℕ) (msdu : List UInt8) :
    List.Sublist (assembled size msdu).toOption.toList [stripLlc msdu] := by
  unfold assembled
  split_ifs
  · exact List.nil_sublist _
  · exact List.nil_sublist _
  · exact List.Sublist.refl _

variable {s : HdlcSession}

/-- What an information frame does to the receiver and to the direction it came in. -/
theorem InfoOutcome.transfers (outcome : InfoOutcome s f.received size result after.hdlc) (between : s.Between)
    (seq : s.recvSeq = w.hdlc.recvSeq) (ordinary : f.Ordinary) (type : f.control.type = .i)
    (transfer : Transfer w toward accepted delivered sent taken queue (f :: arrived))
    (waiting : after.world.rx.filterMap RxEvent.data? = arrived.map HdlcFrame.encoding) :
    after.hdlc.Between ∧ Direction after toward accepted (delivered ++ result.toOption.toList) := by
  have sendSeq : f.received.control.sendSeq = f.control.sendSeq &&& 7 := by
    simp only [HdlcFrame.received, Control.received, type]
  obtain ⟨connected, reassembly, pending, own, peer⟩ := between
  generalize same : after.hdlc = hdlc at outcome
  cases outcome with
  | refused =>
    have kept : Direction after toward accepted delivered := transfer.refuse (by rw [same, seq]) waiting
    exact ⟨⟨connected, reassembly, pending, own, peer⟩, by simpa [Except.toOption] using kept⟩
  | overflown =>
    have kept : Direction after toward accepted delivered := transfer.refuse (by rw [same, ← seq]) waiting
    exact ⟨⟨connected, rfl, pending, own, peer⟩, by simpa [Except.toOption] using kept⟩
  | segment _ _ segmented => exact absurd (segmented.symm.trans ordinary.unsegmented) (by decide)
  | completed expected =>
    have numbered : f.control.sendSeq &&& 7 = w.hdlc.recvSeq := (sendSeq.symm.trans expected.next).trans seq
    have whole : s.reassembly ++ f.received.info = f.info := by
      rw [reassembly, List.nil_append]
      exact List.take_of_length_le ordinary.short
    refine ⟨⟨connected, rfl, pending, own, peer⟩, transfer.take ⟨type, numbered⟩ ?_ waiting ?_⟩
    · rw [same, ← seq, ← expected.next]
    · rw [whole]
      exact assembled_sublist size f.info

/-- What an acknowledgement or a frame reject does. -/
theorem Transfer.replied {hdlc : HdlcSession} (settled : hdlc = s ∨ hdlc = { s with hasPendingRetransmit := false })
    (between : s.Between) (seq : s.recvSeq = w.hdlc.recvSeq) (same : after.hdlc = hdlc)
    (transfer : Transfer w toward accepted delivered sent taken queue (f :: arrived))
    (waiting : after.world.rx.filterMap RxEvent.data? = arrived.map HdlcFrame.encoding) :
    after.hdlc.Between ∧ Direction after toward accepted delivered := by
  obtain ⟨connected, reassembly, pending, own, peer⟩ := between
  rw [same]
  rcases settled with rfl | rfl
  · exact ⟨⟨connected, reassembly, pending, own, peer⟩, transfer.refuse (by rw [same, seq]) waiting⟩
  · exact ⟨⟨connected, reassembly, pending, own, peer⟩, transfer.refuse (by rw [same, ← seq]) waiting⟩

/-- A reception keeps a side between calls, takes at most one frame of its direction and sends replies only. -/
theorem receive_keeps {forever : Bool} (between : w.hdlc.Between) (direction : Direction w toward accepted delivered)
    (returned : hdlcSessionRecvApdu forever size w = some (result, after)) :
    (after.hdlc.Between ∧ Direction after toward accepted (delivered ++ result.toOption.toList)) ∧
      ∃ replies : List HdlcFrame, after.world.sent = w.world.sent ++ replies.map HdlcFrame.encoding ∧
        ∀ f ∈ replies, f.Ordinary ∧ f.isInfo = false := by
  obtain ⟨sent, taken, queue, arrived, transfer⟩ := direction
  obtain ⟨idle, quiet, ended⟩ := hdlcSessionRecvApdu_waited between.connected between.pending transfer.whole returned
  have none : idle.filterMap RxEvent.data? = [] := List.filterMap_eq_nil_iff.mpr quiet
  have moved (mem : List UInt8) (rest : List RxEvent) : (w.buffering [] mem rest).hdlc.Between :=
    ⟨between.connected, between.reassembly, rfl, between.own, between.peer⟩
  rcases ended with ⟨err, rest, mem, rfl, split, rfl⟩ | ⟨f, rest, mem, split, valid, handled⟩
  · have events : rest.filterMap RxEvent.data? = w.world.rx.filterMap RxEvent.data? := by
      rw [split, List.filterMap_append, none, List.nil_append]
    have direction : Direction w toward accepted delivered := ⟨sent, taken, queue, arrived, transfer⟩
    have kept : Direction (w.buffering [] mem rest) toward accepted delivered := direction.congr rfl events
    exact ⟨⟨moved mem rest, by simpa [Except.toOption] using kept⟩, [], (List.append_nil _).symm, by simp⟩
  · have waiting := transfer.waiting
    rw [split, List.filterMap_append, none, List.nil_append] at waiting
    change f.encoding :: rest.filterMap RxEvent.data? = _ at waiting
    cases arrived with
    | nil => cases waiting
    | cons g arrived =>
      obtain ⟨same, behind⟩ := List.cons_eq_cons.mp waiting
      have ordinary := transfer.ordinary g (by simp)
      have read := hdlcDeframe_encoding valid []
      rw [same, hdlcDeframe_encoding ordinary.valid []] at read
      rw [← (Prod.mk.inj read).2] at handled
      have seq : (w.buffering [] mem rest).hdlc.recvSeq = w.hdlc.recvSeq := rfl
      rcases ordinary.type with type | type
      · have type' : g.received.control.type = .i := by simp [HdlcFrame.received, Control.received, type]
        rw [sessionHandleFrame_info type'] at handled
        obtain ⟨result', hdlc, world, took, outcome, replied, -⟩ :=
          sessionHandleInfo_outcome g.received size (w.buffering [] mem rest)
        rw [handled] at took
        obtain ⟨rfl, rfl⟩ : result = result' ∧ after = _ := by simpa using took
        have outcome : InfoOutcome (w.buffering [] mem rest).hdlc g.received size result
            (((w.buffering [] mem rest).setHdlc hdlc).setWorld world).hdlc := outcome
        refine ⟨outcome.transfers (moved mem rest) seq ordinary type transfer ?_, ?_⟩
        · exact (congrArg (List.filterMap RxEvent.data?) replied.rx).trans behind
        · exact replied.ordinary between.own ordinary.valid.source
      · have type' : g.received.control.type = .rr ∨ g.received.control.type = .frmr := by
          rcases type with type | type
          · simp [HdlcFrame.received, Control.received, type]
          · simp [HdlcFrame.received, Control.received, type]
        obtain ⟨err, hdlc, world, took, settled, replied⟩ :=
          sessionHandleFrame_reply size (w.buffering [] mem rest) type'
        rw [handled] at took
        obtain ⟨rfl, rfl⟩ : result = .error err ∧ after = _ := by simpa using took
        have kept := transfer.replied settled (moved mem rest) seq
          (show (((w.buffering [] mem rest).setHdlc hdlc).setWorld world).hdlc = hdlc from rfl)
          ((congrArg (List.filterMap RxEvent.data?) replied.rx).trans behind)
        refine ⟨⟨kept.1, by simpa [Except.toOption] using kept.2⟩, ?_⟩
        exact replied.ordinary between.own ordinary.valid.source

/-- Sending keeps a side between calls and, when it is accepted, sends one frame with the APDU. -/
theorem send_keeps {apdu : List UInt8} {result : Err} (between : w.hdlc.Between)
    (returned : hdlcSessionSendApdu apdu w = some (result, after)) :
    after.hdlc.Between ∧ after.hdlc.recvSeq = w.hdlc.recvSeq ∧ after.world.rx = w.world.rx ∧
      (result ≠ .ok ∧ after.world.sent = w.world.sent ∨ result = .ok ∧ ∃ f, HdlcFrame.Ordinary f ∧ f.isInfo = true ∧
        f.apdu = apdu ∧ after.world.sent = w.world.sent ++ [f.encoding]) := by
  obtain ⟨connected, reassembly, pending, own, peer⟩ := between
  obtain ⟨result', hdlc, world, sends, rx, outcome⟩ := hdlcSessionSendApdu_outcome apdu w
  rw [returned] at sends
  obtain ⟨rfl, rfl⟩ : result = result' ∧ after = _ := by simpa using sends
  rcases outcome with ⟨failed, rfl, silent⟩ | ⟨done, rfl, short, bytes, framed, sent⟩
  · exact ⟨⟨connected, reassembly, pending, own, peer⟩, rfl, rx, .inl ⟨failed, silent⟩⟩
  · refine ⟨⟨connected, reassembly, pending, own, peer⟩, rfl, rx, .inr ⟨done,
      w.hdlc.infoFrame w.hdlc.sendSeq (w.hdlc.withLlc apdu), ?_, rfl, ?_, ?_⟩⟩
    · exact HdlcFrame.ordinary peer own rfl short (.inl rfl)
    · have header : IsLlc (if w.hdlc.isClient then [0xE6, 0xE6, 0x00] else [0xE6, 0xE7, 0x00]) := by
        unfold IsLlc
        split
        · exact .inl rfl
        · exact .inr rfl
      exact stripLlc_append header apdu
    · exact sent.trans (by rw [hdlcFrame_eq framed]; rfl)

/-! ## The pair -/

theorem Direction.puts {replies : List HdlcFrame} (ordinary : ∀ f ∈ replies, f.Ordinary ∧ f.isInfo = false)
    (direction : Direction w toward accepted delivered) :
    Direction w (toward ++ replies.map HdlcFrame.encoding) accepted delivered := by
  induction replies generalizing toward with
  | nil => simpa using direction
  | cons f replies ih =>
    obtain ⟨first, rest⟩ := List.forall_mem_cons.mp ordinary
    have sent := direction.put first.1
    rw [first.2, if_neg (by decide), List.append_nil] at sent
    simpa using ih rest sent

/-- Both sides are between calls, and both directions keep their order. -/
def LinkPair.Ordered (l : LinkPair) : Prop :=
  ∀ side, (l.wire side).hdlc.Between ∧
    Direction (l.wire side) (l.toward side) (l.accepted (!side)) (l.delivered side)

variable {l : LinkPair}

theorem LinkPair.Fresh.ordered (fresh : l.Fresh) : l.Ordered := by
  intro side
  obtain ⟨_, connected, _, _, reassembly, pending, own, peer⟩ := fresh.setUp side
  refine ⟨⟨connected, reassembly, pending, own, peer⟩, [], [], [], [], .start, ?_, ?_, by simp, by simp, ?_, ?_⟩
  · simp [fresh.toward]
  · simp [fresh.events]
  · simp [fresh.accepted]
  · simp [fresh.delivered]

theorem other_side {other : Bool} (different : other ≠ side) : other = !side := by
  cases side <;> cases other <;> simp_all

theorem update_other (f : Bool → α) (side : Bool) (value : α) : Function.update f side value (!side) = f (!side) :=
  Function.update_of_ne (by simp) _ _

theorem update_not (f : Bool → α) (side : Bool) (value : α) : Function.update f (!side) value side = f side :=
  Function.update_of_ne (by simp) _ _

/-- Events without bytes say nothing about the frames that arrived. -/
theorem Direction.feeding (quiet : ∀ event ∈ events, event.data? = none)
    (direction : Direction w toward accepted delivered) : Direction (w.feeding events) toward accepted delivered := by
  refine direction.congr rfl ?_
  change (w.world.rx ++ events).filterMap RxEvent.data? = _
  rw [List.filterMap_append, List.filterMap_eq_nil_iff.mpr quiet, List.append_nil]

/-- The channel acts on one direction only. -/
theorem LinkPair.Ordered.feeding {rest : List (List UInt8)} (ordered : l.Ordered)
    (direction : Direction ((l.wire side).feeding events) rest (l.accepted (!side)) (l.delivered side)) :
    (l.feeding side rest events).Ordered := by
  intro other
  by_cases same : other = side
  · subst same
    simp only [LinkPair.feeding, Function.update_self]
    obtain ⟨⟨connected, reassembly, pending, own, peer⟩, -⟩ := ordered other
    exact ⟨⟨connected, reassembly, pending, own, peer⟩, direction⟩
  · obtain rfl := other_side same
    simp only [LinkPair.feeding, update_other]
    exact ordered _

theorem LinkStep.ordered {next : LinkPair} (step : LinkStep l next) (ordered : l.Ordered) : next.Ordered := by
  cases step with
  | @send actor apdu result after returned =>
    obtain ⟨between, recvSeq, rx, outcome⟩ := send_keeps (ordered actor).1 returned
    intro side
    by_cases same : side = actor
    · subst same
      simp only [LinkPair.accepting, LinkPair.calling, Function.update_self, update_not, update_other]
      exact ⟨between, (ordered side).2.congr recvSeq (by rw [rx])⟩
    · obtain rfl := other_side same
      simp only [LinkPair.accepting, LinkPair.calling, Function.update_self, update_other, Bool.not_not]
      refine ⟨(ordered _).1, ?_⟩
      have direction := (ordered (!actor)).2
      rw [Bool.not_not] at direction
      rcases outcome with ⟨failed, silent⟩ | ⟨done, f, ordinary, info, apdu', sent⟩
      · rw [silent, List.drop_length, List.append_nil, if_neg failed, List.append_nil]
        exact direction
      · rw [sent, List.drop_left, if_pos done, ← apdu']
        simpa [info] using direction.put ordinary
  | @recv actor forever size result after returned =>
    obtain ⟨kept, replies, sent, ordinary⟩ := receive_keeps (ordered actor).1 (ordered actor).2 returned
    intro side
    by_cases same : side = actor
    · subst same
      simp only [LinkPair.returning, LinkPair.calling, Function.update_self, update_not]
      exact kept
    · obtain rfl := other_side same
      simp only [LinkPair.returning, LinkPair.calling, Function.update_self, update_other]
      rw [sent, List.drop_left]
      exact ⟨(ordered _).1, (ordered _).2.puts ordinary⟩
  | lose actor first =>
    have direction := (ordered actor).2
    rw [first] at direction
    exact ordered.feeding (direction.lose.feeding (by simp))
  | deliver actor first =>
    have direction := (ordered actor).2
    rw [first] at direction
    exact ordered.feeding (direction.arrive (.inl rfl))
  | deliverTwice actor first =>
    have direction := (ordered actor).2
    rw [first] at direction
    exact ordered.feeding (direction.arrive (.inr rfl))
  | idle actor quiet => exact ordered.feeding ((ordered actor).2.feeding (by simpa using quiet))

/-- From two sessions that were just set up, whatever calls they make and whatever their channels lose or repeat, the
APDUs that a side returns are a subsequence of those that the other side accepted. -/
theorem link_delivery {origin l : LinkPair} (fresh : origin.Fresh) (run : Relation.ReflTransGen LinkStep origin l)
    (side : Bool) : List.Sublist (l.delivered side) (l.accepted (!side)) := by
  have ordered : l.Ordered := by
    induction run with
    | refl => exact fresh.ordered
    | tail _ step ih => exact step.ordered ih
  exact (ordered side).2.sublist

def freshPair : LinkPair where
  wire side := if side then linkOf connectedClient [] else
    linkOf { hdlcSessionInitServer 1 16 with state := .connected } []
  toward _ := []
  accepted _ := []
  delivered _ := []

theorem freshPair_fresh : freshPair.Fresh where
  setUp side := by
    cases side with
    | true => exact ⟨rfl, rfl, rfl, rfl, rfl, rfl, hdlcAddressInit_valid 16, hdlcAddressInit_valid 1⟩
    | false => exact ⟨rfl, rfl, rfl, rfl, rfl, rfl, hdlcAddressInit_valid 1, hdlcAddressInit_valid 16⟩
  events side := by cases side <;> rfl
  toward _ := rfl
  accepted _ := rfl
  delivered _ := rfl

def firstFrame : List UInt8 := (connectedClient.infoFrame 0 (connectedClient.withLlc [0xC0, 0x01])).encoding

theorem link_delivery_repeated : ∃ l, Relation.ReflTransGen LinkStep freshPair l ∧
    l.delivered false = [[0xC0, 0x01]] ∧ List.Sublist (l.delivered false) (l.accepted (!false)) := by
  have sends : (hdlcSessionSendApdu [0xC0, 0x01] (freshPair.wire true)).map (fun r => (r.1, r.2.world.sent)) =
      some (.ok, [firstFrame]) := by decide +kernel
  have takes : (hdlcSessionRecvApdu false 16 ((freshPair.wire false).feeding
      [.bytes firstFrame, .bytes firstFrame])).map Prod.fst = some (.ok [0xC0, 0x01]) := by decide +kernel
  obtain ⟨⟨_, client⟩, sent, accepted⟩ := Option.map_eq_some_iff.mp sends
  obtain ⟨rfl, logged⟩ := Prod.mk.inj accepted
  obtain ⟨⟨_, server⟩, received, rfl⟩ := Option.map_eq_some_iff.mp takes
  let offered := (freshPair.calling true client).accepting true [[0xC0, 0x01]]
  let copied := offered.feeding false [] [.bytes firstFrame, .bytes firstFrame]
  have one : LinkStep freshPair offered := .send true sent
  have first : offered.toward false = [firstFrame] := logged
  have two : LinkStep offered copied := .deliverTwice false first
  have wire : copied.wire false = (freshPair.wire false).feeding [.bytes firstFrame, .bytes firstFrame] := by
    simp only [copied, offered, LinkPair.feeding, LinkPair.accepting, LinkPair.calling, Function.update_self]
    rw [Function.update_of_ne (by decide)]
  rw [← wire] at received
  have three : LinkStep copied ((copied.calling false server).returning false [[0xC0, 0x01]]) := .recv false received
  have run := ((Relation.ReflTransGen.single one).tail two).tail three
  exact ⟨_, run, rfl, link_delivery freshPair_fresh run false⟩

end OpenSpodes
