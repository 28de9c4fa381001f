import OpenSpodes.Proofs.GetBlocks
import OpenSpodes.Proofs.SampleServer
import OpenSpodes.ToMathlib.Chunks

/-! # Long GETs

A value that is too long for one response leaves block by block, and between two blocks the server may serve
anything else. `LongGet` follows a server through such a run: the encoding of the value that the latest long
GET read, and the blocks that were handed to the link since. The blocks are chunks of the encoding as long as
the size of a block stays what it was when the GET started and no GET of a value that cannot be encoded
overwrites the data: the position of a block is recomputed from its number and from the size at the time.
-/

namespace OpenSpodes

open Bytes Machine Machine.Fallible

variable {σ : Type}

/-! ## Runs -/

/-- What can happen to a server between the blocks of a long GET. -/
inductive ServerInput
  | get (req : GetRequest)
  | set (req : SetRequest)
  | action (req : ActionRequest)
  /-- A set-up frame on the open link. -/
  | snrm (frame : HdlcFrame)
  | maxPdu (n : ℕ)

namespace ServerInput

def setUp (frame : HdlcFrame) : HdlcFrame := { frame with control := { frame.control with type := .snrm } }

def handle (env : Env σ) : ServerInput → Program (Server σ) Err
  | get req => handleGet env req
  | set req => handleSet env req
  | action req => handleAction env req
  | snrm frame => onWire (sessionHandleControl (setUp frame))
  | maxPdu n => do
      modify (·.setMaxPdu n)
      return .ok

/-- The encoding of the value that a long GET reads, when the input starts one. -/
def starts (env : Env σ) (s : Server σ) : ServerInput → Option (List UInt8)
  | get req => (blockwiseValue env req s).bind encodingOf
  | _ => none

/-- The session's parameters behind a set-up frame. -/
def renegotiated (frame : HdlcFrame) (s : Server σ) : Server σ :=
  if s.wire.hdlc.addressed (setUp frame) then
    { s with wire.hdlc.xid := negotiateXid s.wire.hdlc.xidConfigured frame.info }
  else s

/-- The input leaves a long GET in progress alone: the size of a block stays the same, and a value that is
to be sent in blocks can be encoded. -/
def Spares (env : Env σ) (s : Server σ) : ServerInput → Prop
  | get req => ∀ value ∈ blockwiseValue env req s, (encodingOf value).isSome = true
  | snrm frame => (renegotiated frame s).sendPayloadMax = s.sendPayloadMax
  | maxPdu n => (s.setMaxPdu n).sendPayloadMax = s.sendPayloadMax
  | _ => True

end ServerInput

/-- The encoding of the value that the latest long GET read, and the blocks handed to the link since. -/
structure LongGet where
  encoding : List UInt8 := []
  blocks : List GetBlock := []

/-- The same behind an input that took the server from `s` to `t`. -/
def LongGet.next (g : LongGet) (env : Env σ) (input : ServerInput) (s t : Server σ) : LongGet :=
  match input.starts env s with
  | some encoding => ⟨encoding, blocksSince s t⟩
  | none => { g with blocks := g.blocks ++ blocksSince s t }

/-- A run in which every input spares a long GET that is in progress. -/
inductive LongGetRun (hal : Hal) (behaviour : Behaviour σ) (origin : Server σ) : LongGet → Server σ → Prop
  | start : LongGetRun hal behaviour origin {} origin
  | input {g : LongGet} {s t : Server σ} {stack : Stack} {result : Err} (input : ServerInput) :
      LongGetRun hal behaviour origin g s →
      (s.pendingGet.active = true → input.Spares ⟨hal, behaviour, stack⟩ s) →
      input.handle ⟨hal, behaviour, stack⟩ s = some (result, t) →
      LongGetRun hal behaviour origin (g.next ⟨hal, behaviour, stack⟩ input s t) t

/-- Every block is a part of the encoding, of at most 256 bytes, and the blocks from number 1 to the one that
is flagged as the last are the encoding. -/
structure LongGet.Faithful (g : LongGet) : Prop where
  inside : ∀ block ∈ g.blocks, ∃ start stop, start ≤ stop ∧ stop ≤ g.encoding.length ∧ stop - start ≤ 256 ∧
    block.bytes = (g.encoding.drop start).take (stop - start)
  whole : ∀ n, g.blocks.map GetBlock.number = List.range' 1 n →
    (∃ block ∈ g.blocks, block.last = true) → g.blocks.flatMap GetBlock.bytes = g.encoding

/-! ## The invariant of a run -/

/-- The block is the chunk of the encoding with its number, and no chunk follows the last one. -/
structure IsChunk (encoding : List UInt8) (size : ℕ) (block : GetBlock) : Prop where
  numbered : 1 ≤ block.number
  begins : (block.number - 1) * size ≤ encoding.length
  bytes : block.bytes = encoding.chunk size block.number
  last : block.last = true → encoding.length ≤ block.number * size

/-- The long GET in progress has the encoding in its buffer, and its next block begins inside. -/
structure Delivers (encoding : List UInt8) (size : ℕ) (s : Server σ) : Prop where
  data : s.pendingGet.data.take encoding.length = encoding
  dataLen : s.pendingGet.dataLen = encoding.length
  small : encoding.length ≤ serverPendingMax
  payload : s.sendPayloadMax = size
  numbered : 1 ≤ s.pendingGet.nextBlock
  begins : (s.pendingGet.nextBlock - 1) * size ≤ encoding.length

/-- The next block of a long GET, and whether it is the last. -/
def nextBlock (encoding : List UInt8) (size number : ℕ) : GetBlock :=
  ⟨decide (encoding.length ≤ number * size), number, encoding.chunk size number⟩

section Block

variable {encoding : List UInt8} {size : ℕ} {s t : Server σ}

theorem Delivers.number_le (delivers : Delivers encoding size s) (positive : 1 ≤ size) :
    s.pendingGet.nextBlock ≤ 32769 := by
  have := Nat.le_mul_of_pos_right (s.pendingGet.nextBlock - 1) positive
  have := delivers.begins
  have := delivers.small
  simp only [serverPendingMax] at this
  omega

/-- The bytes that `handle_get_next` cuts out are the chunk with the number of the block. -/
theorem Delivers.block (delivers : Delivers encoding size s) (positive : 1 ≤ size) (bounded : size ≤ 256) :
    s.pendingGet.block s.sendPayloadMax = ((nextBlock encoding size s.pendingGet.nextBlock).bytes,
        (nextBlock encoding size s.pendingGet.nextBlock).last) := by
  have few := delivers.number_le positive
  have small := delivers.small
  have numbered := delivers.numbered
  have begins := delivers.begins
  simp only [serverPendingMax] at small
  obtain ⟨k, number⟩ : ∃ k, s.pendingGet.nextBlock = k + 1 := ⟨_, (Nat.sub_add_cancel numbered).symm⟩
  rw [number] at begins few
  simp only [Nat.add_sub_cancel] at begins
  have first : (k + 1 + 2 ^ 32 - 1) % 2 ^ 32 * size % 2 ^ 32 = k * size := by
    rw [show (k + 1 + 2 ^ 32 - 1) % 2 ^ 32 = k by omega]
    omega
  have stop : min ((k * size + size) % 2 ^ 32) encoding.length = min (k * size + size) encoding.length := by
    rw [Nat.mod_eq_of_lt (by omega)]
  simp only [BlockOut.block, nextBlock, delivers.payload, delivers.dataLen, number, first, stop, Prod.mk.injEq]
  refine ⟨?_, ?_⟩
  · have taken : (min (k * size + size) encoding.length + 2 ^ 32 - k * size) % 2 ^ 32 =
        min size (encoding.length - k * size) := by omega
    rw [taken, List.chunk, Nat.add_sub_cancel]
    nth_rewrite 2 [← delivers.data]
    rw [List.drop_take, List.take_take]
  · rw [Nat.succ_mul]
    simp

theorem sendPayloadMax_congr (hdlcActive : t.hdlcActive = s.hdlcActive) (maxPdu : t.maxPdu = s.maxPdu)
    (limits : SameLimits s.wire t.wire) : t.sendPayloadMax = s.sendPayloadMax := by
  simp only [Server.sendPayloadMax, hdlcActive, maxPdu, limits.1]

theorem sendPayloadMax_bounds (s : Server σ) : 1 ≤ s.sendPayloadMax ∧ s.sendPayloadMax ≤ 256 := by
  simp only [Server.sendPayloadMax]
  split_ifs <;> omega

/-- The rest of a long GET behind a block that was cut out. -/
theorem Delivers.advance (delivers : Delivers encoding size s) (positive : 1 ≤ size)
    (more : (nextBlock encoding size s.pendingGet.nextBlock).last = false)
    (payload : t.sendPayloadMax = s.sendPayloadMax) (pending : t.pendingGet = s.pendingGet.advance false) :
    Delivers encoding size t := by
  have few := delivers.number_le positive
  have number : t.pendingGet.nextBlock = s.pendingGet.nextBlock + 1 := by
    rw [pending, BlockOut.advance, Nat.mod_eq_of_lt (by omega)]
  refine ⟨?_, ?_, delivers.small, payload.trans delivers.payload, by omega, ?_⟩
  · rw [pending]
    exact delivers.data
  · rw [pending]
    exact delivers.dataLen
  · rw [number, Nat.add_sub_cancel]
    exact Nat.le_of_not_le (of_decide_eq_false more)

/-- The blocks since `s` are chunks, and what is still in progress delivers the rest. -/
structure Continues (encoding : List UInt8) (size : ℕ) (s t : Server σ) : Prop where
  room : 268 ≤ t.wire.txBuf.length
  log : ∃ new, t.log = s.log ++ new ∧ ∀ block ∈ new.filterMap Event.block, IsChunk encoding size block
  delivers : t.pendingGet.active = true → Delivers encoding size t

theorem Aside.continues (room : 268 ≤ s.wire.txBuf.length)
    (delivers : s.pendingGet.active = true → Delivers encoding size s) (aside : Aside s t) :
    Continues encoding size s t := by
  obtain ⟨new, log, none⟩ := aside.log
  refine ⟨room.trans aside.limits.2, ⟨new, log, by simp [none]⟩, fun active => ?_⟩
  have same := aside.pendingGet
  have before := delivers (same ▸ active)
  have payload := sendPayloadMax_congr aside.hdlcActive aside.maxPdu aside.limits
  exact ⟨same ▸ before.data, same ▸ before.dataLen, before.small, payload.trans before.payload,
    same ▸ before.numbered, same ▸ before.begins⟩

/-- The message is the response with this block, or has none. -/
def OnlyBlock (block : GetBlock) (plain : List UInt8) : Prop :=
  getBlockOf plain = none ∨ getBlockOf plain = some block

theorem NotBlock.only {plain : List UInt8} (none : NotBlock plain) (block : GetBlock) : OnlyBlock block plain :=
  .inl none

theorem allows_onlyBlock (block : GetBlock) : Allows (OnlyBlock block) where
  notification pool dn size c wrote := (allows_notBlock.notification pool dn size c wrote).only block
  setResponse id resp size c wrote := (allows_notBlock.setResponse id resp size c wrote).only block
  actionResponse pool id resp size c wrote := (allows_notBlock.actionResponse pool id resp size c wrote).only block

theorem blocks_of_onlyBlock {block : GetBlock} {new : List Event}
    (reply : ∀ event ∈ new, event.IsReply (OnlyBlock block)) : ∀ other ∈ new.filterMap Event.block, other = block := by
  intro other member
  obtain ⟨event, inside, same⟩ := List.mem_filterMap.mp member
  cases event with
  | emitted plain sent =>
    have same : getBlockOf plain = some other := same
    rcases reply _ inside with none | only
    · rw [none] at same
      cases same
    · exact Option.some.inj (same.symm.trans only)
  | _ => cases same

/-- What `handle_get_next` sends is the next chunk, or an error. -/
theorem handleGetNext_continues (env : Env σ) (invoke : UInt8) (ackedBlock : ℕ)
    (positive : 1 ≤ size) (bounded : size ≤ 256) (room : 268 ≤ s.wire.txBuf.length)
    (delivers : s.pendingGet.active = true → Delivers encoding size s) :
    wp (handleGetNext env invoke ackedBlock) (fun _ t => Continues encoding size s t) s := by
  have refuses (result : Dar) :
      wp (sendGetResponse env invoke (.dataError result)) (fun _ t => Continues encoding size s t) s :=
    (aside_sendGetError env invoke result s).mono fun _ _ => Aside.continues room delivers
  rw [handleGetNext, wp_bind, wp_get]
  simp only [wp_ite]
  refine ⟨fun _ => refuses _, fun active => ⟨fun _ => refuses _, fun _ => ?_⟩⟩
  have before := delivers (by simpa using active)
  have few := before.number_le positive
  rw [before.block positive bounded, wp_bind, wp_set]
  let block := nextBlock encoding size s.pendingGet.nextBlock
  let taken : Server σ := { s with pendingGet := s.pendingGet.advance block.last }
  have replied : KeepsAt (Replies (OnlyBlock block)) taken
      (sendGetResponse env invoke (.block block.last block.number block.bytes)) := by
    refine sendGetResponse_repliesAt env (allows_onlyBlock block) fun c wrote => .inr ?_
    have small : block.bytes.length ≤ 256 := (List.length_chunk_le _ _ _).trans bounded
    have length : (getBlockBytes invoke block).length ≤ taken.wire.txBuf.length := by
      have := dlmsLenBytes_length_le (small.trans (by decide : 256 ≤ 0xFFFF))
      simp [getBlockBytes, taken]
      omega
    obtain ⟨d, same, out⟩ := (getResponseEncode_block_puts taken.objects.pool invoke block).init length
    obtain rfl : d = c := by simpa using same.symm.trans wrote
    rw [out]
    exact getBlockOf_getBlockBytes invoke (few.trans_lt (by norm_num)) small
  refine replied.mono fun _ t replies => ⟨room.trans replies.limits.2, ?_, fun active => ?_⟩
  · obtain ⟨new, log, reply⟩ := replies.log
    refine ⟨new, log, fun other member => ?_⟩
    obtain rfl := blocks_of_onlyBlock reply other member
    exact ⟨before.numbered, before.begins, rfl, of_decide_eq_true⟩
  · have pending : t.pendingGet = s.pendingGet.advance block.last := replies.pendingGet
    have more : block.last = false := by
      rw [pending, BlockOut.advance] at active
      cases last : block.last with
      | false => rfl
      | true => simp [last] at active
    rw [more] at pending
    exact before.advance positive more
      (sendPayloadMax_congr replies.hdlcActive replies.maxPdu replies.limits) pending

/-- What was done before and does not concern the long GET. -/
theorem Continues.after_aside {middle : Server σ} (aside : Aside s middle)
    (continues : Continues encoding size middle t) : Continues encoding size s t := by
  obtain ⟨new, log, none⟩ := aside.log
  obtain ⟨more, log', chunks⟩ := continues.log
  refine ⟨continues.room, ⟨new ++ more, by rw [log', log, List.append_assoc], ?_⟩, continues.delivers⟩
  simpa [List.filterMap_append, none] using chunks

end Block

/-- The blocks so far are chunks of the encoding, and what is in progress delivers the rest of it. -/
structure LongGet.Tells (g : LongGet) (s : Server σ) (size : ℕ) : Prop where
  positive : 1 ≤ size
  bounded : size ≤ 256
  room : 268 ≤ s.wire.txBuf.length
  chunks : ∀ block ∈ g.blocks, IsChunk g.encoding size block
  delivers : s.pendingGet.active = true → Delivers g.encoding size s

section Steps

variable {env : Env σ} {input : ServerInput} {g : LongGet} {size : ℕ} {s t : Server σ} {req : GetRequest}
  {result : Err} {encoding : List UInt8}

theorem LongGet.Tells.continued (tells : g.Tells s size) (none : input.starts env s = none)
    (continues : Continues g.encoding size s t) : (g.next env input s t).Tells t size := by
  obtain ⟨new, log, chunks⟩ := continues.log
  simp only [LongGet.next, none, blocksSince_of_append log]
  refine ⟨tells.positive, tells.bounded, continues.room, fun block member => ?_, continues.delivers⟩
  rcases List.mem_append.mp member with before | since
  · exact tells.chunks block before
  · exact chunks block since

theorem LongGet.Tells.started (starts : input.starts env s = some encoding)
    (continues : Continues encoding s.sendPayloadMax s t) : (g.next env input s t).Tells t s.sendPayloadMax := by
  obtain ⟨new, log, chunks⟩ := continues.log
  simp only [LongGet.next, starts, blocksSince_of_append log]
  exact ⟨(sendPayloadMax_bounds s).1, (sendPayloadMax_bounds s).2, continues.room, chunks, continues.delivers⟩

theorem starts_of_single (single : blockwiseValue env req s = none) : (ServerInput.get req).starts env s = none := by
  simp [ServerInput.starts, single]

theorem encodingOf_length_le {value : Pool × Value} (encodes : encodingOf value = some encoding) :
    encoding.length ≤ serverPendingMax := by
  rw [encodingOf] at encodes
  cases written : valueWrite value.1 value.2 (WBuf.init serverPendingMax) with
  | error e buf => simp [written] at encodes
  | ok u buf =>
    obtain rfl : buf.out = encoding := by simpa [written] using encodes
    have size : buf.size = serverPendingMax := ((extends_valueWrite _ _).of_ok written).2
    exact buf.fits.trans_eq size

/-- The first block of a long GET, behind the call that read the value. -/
theorem started_continues {value : Value} {u : Server σ} (room : 268 ≤ s.wire.txBuf.length) (aside : Aside s u)
    (encodes : encodingOf (u.objects.pool, value) = some encoding)
    (returned : handleGetNext env req.invokeIdPriority 0
      { u with pendingGet := ⟨true, overwrite u.pendingGet.data encoding, encoding.length, 1⟩ } = some (result, t)) :
    Continues encoding s.sendPayloadMax s t := by
  have payload := sendPayloadMax_congr aside.hdlcActive aside.maxPdu aside.limits
  have small := encodingOf_length_le encodes
  have delivers : Delivers encoding s.sendPayloadMax
      { u with pendingGet := ⟨true, overwrite u.pendingGet.data encoding, encoding.length, 1⟩ } :=
    ⟨by simp [overwrite], rfl, small, payload, le_rfl, by simp⟩
  have continues := handleGetNext_continues
    (s := { u with pendingGet := ⟨true, overwrite u.pendingGet.data encoding, encoding.length, 1⟩ })
    env req.invokeIdPriority 0 (sendPayloadMax_bounds s).1 (sendPayloadMax_bounds s).2
    (room.trans aside.limits.2) (fun _ => delivers) _ _ returned
  exact .after_aside aside ⟨continues.room, continues.log, continues.delivers⟩

/-- A GET goes on with the long GET that is in progress, or starts one. -/
theorem handleGet_tells (tells : g.Tells s size)
    (spares : s.pendingGet.active = true → (ServerInput.get req).Spares env s)
    (returned : handleGet env req s = some (result, t)) : ∃ size, (g.next env (.get req) s t).Tells t size := by
  have aside {program : Program (Server σ) Err} (kept : KeepsAt Aside s program)
      (ran : program s = some (result, t)) : Continues g.encoding size s t :=
    (kept _ _ ran).continues tells.room tells.delivers
  cases kind : req.kind with
  | withBlock =>
    simp only [handleGet, kind] at returned
    refine ⟨size, tells.continued (starts_of_single (by simp [blockwiseValue, kind])) ?_⟩
    exact handleGetNext_continues env _ _ tells.positive tells.bounded tells.room tells.delivers _ _ returned
  | withList =>
    simp only [handleGet, kind] at returned
    refine ⟨size, tells.continued (starts_of_single (by simp [blockwiseValue, kind])) ?_⟩
    refine aside (Keeps.bind (aside_sendList env (fun attr => ?_) (fun attr s => ?_) _)
      (fun _ => (aside_service env).serverFlushDeferred _) s) returned
    · exact .bind ((aside_service env).dispatchGetAttr _) fun _ => .bind .get fun _ => .pure _
    · simp only [wp_bind, wp_get, wp_pure]
      intro item t _
      exact extends_getResultItemEncode _ _
  | normal =>
    obtain ⟨read, u, reads, -⟩ := readAttribute_asked env req s
    have before : Aside s u := aside_readAttribute env req s _ _ reads
    rcases handleGet_of_attribute kind reads with ⟨dar, rfl, handled⟩ | ⟨value, rfl, handled⟩
    · rw [handled] at returned
      refine ⟨size, tells.continued (starts_of_single (by simp [blockwiseValue, kind, reads])) ?_⟩
      have after := aside_sendGetError env _ _ _ _ _ returned
      exact (before.trans after).continues tells.room tells.delivers
    · rw [handled] at returned
      cases needs : u.needsBlocks req.invokeIdPriority value with
      | false =>
        refine ⟨size, tells.continued (starts_of_single (by simp [blockwiseValue, kind, reads, needs])) ?_⟩
        exact (before.trans (sendGetData_single needs _ _ returned)).continues tells.room tells.delivers
      | true =>
        have blockwise : blockwiseValue env req s = some (u.objects.pool, value) := by
          simp [blockwiseValue, kind, reads, needs]
        rcases sendGetData_blocks env needs with ⟨encoding, encodes, handled⟩ | ⟨encodes, data, handled⟩
        · rw [handled] at returned
          have starts : (ServerInput.get req).starts env s = some encoding := by
            simp [ServerInput.starts, blockwise, encodes]
          exact ⟨s.sendPayloadMax, .started starts (started_continues tells.room before encodes returned)⟩
        · -- spared: no long GET is in progress, so that the buffer is nobody's
          have idle : s.pendingGet.active = false := by
            cases active : s.pendingGet.active with
            | false => rfl
            | true =>
              have encodable := spares active _ blockwise
              simp [encodes] at encodable
          rw [handled] at returned
          have after := aside_sendGetError env _ _ _ _ _ returned
          have still : t.pendingGet.active = false := by rw [after.pendingGet, ← idle, ← before.pendingGet]
          refine ⟨size, tells.continued (by simp [ServerInput.starts, blockwise, encodes]) ?_⟩
          refine .after_aside before ⟨?_, ?_, by simp [still]⟩
          · exact (tells.room.trans before.limits.2).trans after.limits.2
          · obtain ⟨new, log, none⟩ := after.log
            exact ⟨new, log, by simp [none]⟩

theorem Aside.tells (tells : g.Tells s size) (none : input.starts env s = none) (aside : Aside s t) :
    ∃ size, (g.next env input s t).Tells t size :=
  ⟨size, tells.continued none (aside.continues tells.room tells.delivers)⟩

/-- A change of the block size that a long GET in progress does not notice. -/
theorem resized_tells (tells : g.Tells s size) (none : input.starts env s = none)
    (room : s.wire.txBuf.length ≤ t.wire.txBuf.length) (pendingGet : t.pendingGet = s.pendingGet)
    (log : ∃ new, t.log = s.log ++ new ∧ new.filterMap Event.block = [])
    (payload : s.pendingGet.active = true → t.sendPayloadMax = s.sendPayloadMax) :
    ∃ size, (g.next env input s t).Tells t size := by
  obtain ⟨new, log, silent⟩ := log
  refine ⟨size, tells.continued none ⟨tells.room.trans room, ⟨new, log, by simp [silent]⟩, fun active => ?_⟩⟩
  rw [pendingGet] at active
  have before := tells.delivers active
  exact ⟨pendingGet ▸ before.data, pendingGet ▸ before.dataLen, before.small,
    (payload active).trans before.payload, pendingGet ▸ before.numbered, pendingGet ▸ before.begins⟩

/-- A set-up frame on the open link sets the parameters anew, from the configured ones. -/
theorem snrm_limits (frame : HdlcFrame) (w : Wire) : wp (sessionHandleControl (ServerInput.setUp frame))
      (fun _ after => w.txBuf.length ≤ after.txBuf.length ∧
        after.hdlc.xid = if w.hdlc.addressed (ServerInput.setUp frame) then
          negotiateXid w.hdlc.xidConfigured frame.info else w.hdlc.xid) w := by
  have snrm : (ServerInput.setUp frame).control.type = .snrm := rfl
  unfold sessionHandleControl
  simp only [session, bind_assoc, pure_bind, wp_bind, wp_get, snrm]
  simp only [wp_ite, wp_bind, wp_pure, modifySession, wp_modify]
  refine ⟨fun addressed => ?_, fun other => ⟨le_rfl, by rw [if_neg other]⟩⟩
  refine (keeps_sessionSendUaXid limitsLink _ _).mono fun _ middle limits => ⟨limits.2, ?_⟩
  rw [if_pos addressed]
  exact limits.1

/-- What a set-up frame on the open link does to the block size. -/
theorem snrm_payload (frame : HdlcFrame) (s : Server σ) : wp (onWire (sessionHandleControl (ServerInput.setUp frame)))
      (fun _ t => s.wire.txBuf.length ≤ t.wire.txBuf.length ∧ t.pendingGet = s.pendingGet ∧
        (∃ new, t.log = s.log ++ new ∧ new.filterMap Event.block = []) ∧
        t.sendPayloadMax = (ServerInput.renegotiated frame s).sendPayloadMax) s := by
  rw [onWire, wp_zoom]
  refine (snrm_limits frame _).mono fun _ w limits => ⟨limits.1, rfl, ⟨w.links.map Event.link, rfl, ?_⟩, ?_⟩
  · rw [List.filterMap_map]
    exact List.filterMap_eq_nil_iff.mpr fun _ _ => rfl
  · unfold ServerInput.renegotiated
    split
    case isTrue addressed => simp only [Server.sendPayloadMax, limits.2.trans (if_pos addressed)]
    case isFalse other => simp only [Server.sendPayloadMax, limits.2.trans (if_neg other)]

/-- Every input keeps what the blocks tell. -/
theorem handle_tells (tells : g.Tells s size) (spares : s.pendingGet.active = true → input.Spares env s)
    (returned : input.handle env s = some (result, t)) : ∃ size, (g.next env input s t).Tells t size := by
  cases input with
  | get req => exact handleGet_tells tells spares returned
  | set req => exact Aside.tells tells rfl ((aside_service env).handleSet req _ _ _ returned)
  | action req => exact Aside.tells tells rfl (aside_handleAction env req _ _ _ returned)
  | snrm frame =>
    obtain ⟨room, pendingGet, log, payload⟩ := snrm_payload frame s _ _ returned
    exact resized_tells tells rfl room pendingGet log fun active => payload.trans (spares active)
  | maxPdu n =>
    cases returned
    exact resized_tells tells rfl le_rfl rfl ⟨[], by simp [Server.setMaxPdu], rfl⟩ spares

end Steps

theorem LongGetRun.tells {hal : Hal} {behaviour : Behaviour σ} {origin s : Server σ} {g : LongGet}
    (idle : origin.pendingGet.active = false) (room : origin.wire.txBuf.length = 1024)
    (run : LongGetRun hal behaviour origin g s) : ∃ size, g.Tells s size := by
  induction run with
  | start => exact ⟨1, le_rfl, by norm_num, by omega, by simp, by simp [idle]⟩
  | input input _ spares returned ih =>
    obtain ⟨size, tells⟩ := ih
    exact handle_tells tells spares returned

theorem LongGet.Tells.faithful {g : LongGet} {s : Server σ} {size : ℕ} (tells : g.Tells s size) : g.Faithful where
  inside block member := by
    obtain ⟨numbered, begins, bytes, -⟩ := tells.chunks block member
    refine ⟨(block.number - 1) * size, min ((block.number - 1) * size + size) g.encoding.length,
      by omega, by omega, by have := tells.bounded; omega, ?_⟩
    rw [bytes, List.chunk, List.take_eq_take_iff]
    simp
    omega
  whole n numbers := by
    rintro ⟨block, member, last⟩
    have number : block.number ≤ n := by
      have inside : block.number ∈ List.range' 1 n := numbers ▸ List.mem_map_of_mem member
      rw [List.mem_range'_1] at inside
      omega
    have covers : g.encoding.length ≤ n * size :=
      ((tells.chunks block member).last last).trans (Nat.mul_le_mul_right size number)
    calc g.blocks.flatMap GetBlock.bytes
        = g.blocks.flatMap fun block => g.encoding.chunk size block.number :=
          List.flatMap_congr fun block member => (tells.chunks block member).bytes
      _ = (g.blocks.map GetBlock.number).flatMap (g.encoding.chunk size) := by rw [List.flatMap_map]
      _ = g.encoding.take (n * size) := by rw [numbers, List.flatMap_chunk_range']
      _ = g.encoding := List.take_of_length_le covers

/-- In every run of an idle server whose inputs spare a long GET in progress, the blocks are parts of the
encoding of the value that was read, and all of them together are this encoding. -/
theorem long_get_faithful {hal : Hal} {behaviour : Behaviour σ} {origin s : Server σ} {g : LongGet}
    (idle : origin.pendingGet.active = false) (room : origin.wire.txBuf.length = 1024)
    (run : LongGetRun hal behaviour origin g s) : g.Faithful := by
  obtain ⟨size, tells⟩ := run.tells idle room
  exact tells.faithful

/-! ## A server with a long value -/

def followAll (env : Env σ) : List ServerInput → LongGet → Server σ → Option (LongGet × Server σ)
  | [], g, s => some (g, s)
  | input :: rest, g, s =>
      (input.handle env s).bind fun returned => followAll env rest (g.next env input s returned.2) returned.2

/-- Every attribute reads the bytes from 0 to 99. -/
def longBehaviour : Behaviour Unit :=
  { sampleBehaviour with
    get := fun _ _ _ objects => ((.ok, .octetString ((List.range 100).map UInt8.ofNat)), objects) }

def longEnv : Env Unit := ⟨sampleHal, longBehaviour, sampleStack⟩

/-- A server in an association, with blocks of 64 bytes. -/
def longServer : Server Unit :=
  let s := sampleServer .none []
  { s with aa.associated := true, aa.association := some 0, maxPdu := 64 }

def longRequest : GetRequest := ⟨.normal, 0xC1, sampleAttr, ⟨.none, 0, 0⟩, 0, []⟩

/-- The request for the block behind the one with the given number. -/
def nextRequest (number : ℕ) : GetRequest := ⟨.withBlock, 0xC1, .zero, ⟨.none, 0, 0⟩, number, []⟩

theorem long_get_faithful_orderly :
    ∃ g s, followAll longEnv [.get longRequest, .get (nextRequest 1)] {} longServer = some (g, s) ∧
      g.blocks.map GetBlock.number = [1, 2] ∧ g.Faithful := by
  have follows : ((followAll longEnv [.get longRequest, .get (nextRequest 1)] {} longServer).map fun reached =>
      reached.1.blocks.map GetBlock.number) = some [1, 2] := by decide +kernel
  obtain ⟨⟨g, s⟩, reached, numbers⟩ := Option.map_eq_some_iff.mp follows
  obtain ⟨⟨_, s₁⟩, first, rest⟩ := Option.bind_eq_some_iff.mp reached
  obtain ⟨⟨_, s₂⟩, second, rest⟩ := Option.bind_eq_some_iff.mp rest
  cases rest
  have started : LongGetRun longEnv.hal longEnv.behaviour longServer _ s₁ :=
    LongGetRun.start.input (.get longRequest) (fun active => by cases active) first
  have run := started.input (.get (nextRequest 1))
    (fun _ => by simp [ServerInput.Spares, blockwiseValue, nextRequest]) second
  exact ⟨_, _, reached, numbers, long_get_faithful rfl (by decide +kernel) run⟩

/-- The block size is halved behind the first block: the same bytes are sent twice, and what the client puts
together is not the encoding. -/
theorem long_get_resized :
    ((followAll longEnv [.get longRequest, .maxPdu 32, .get (nextRequest 1), .get (nextRequest 2),
        .get (nextRequest 3)] {} longServer).map fun reached =>
      (reached.1.blocks.map GetBlock.number, reached.1.blocks.map GetBlock.last,
        decide (reached.1.blocks.flatMap GetBlock.bytes = reached.1.encoding))) =
      some ([1, 2, 3, 4], [false, false, false, true], false) := by
  decide +kernel

end OpenSpodes
