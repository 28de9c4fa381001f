import OpenSpodes.Proofs.ServiceFrame

/-! # Responses with a block, and what does not concern a long GET

`getBlockOf` reads the block out of a message that was handed to the link, so that `blocksSince` are the blocks
that left between two states. `Aside` holds of everything that neither sends a block nor touches the long GET
in progress: all of SET and ACTION, list requests, errors, and the part of a GET that reads the value.
-/

namespace OpenSpodes

open Bytes Machine Machine.Fallible

variable {σ : Type} {invoke : UInt8}

/-! ## The blocks in the record -/

/-- A block of a GET response. -/
structure GetBlock where
  last : Bool
  number : ℕ
  bytes : List UInt8
  deriving DecidableEq, Repr

def getBlockRead : Read GetBlock := do
  let tag ← axdrReadU8
  failIf (tag ≠ 0xC4) .invalid
  let type ← axdrReadU8
  failIf (type ≠ 2) .invalid
  let _ ← axdrReadU8
  let last ← axdrReadBool
  let number ← axdrReadU32
  let choice ← axdrReadU8
  failIf (choice ≠ 0) .invalid
  let len ← dlmsReadLen
  needUnread len .invalid
  return ⟨last, number, ← takeBytes len⟩

/-- The block in a message, if it is a GET response with one. -/
def getBlockOf (plain : List UInt8) : Option GetBlock := outcome getBlockRead (Buf.ofBytes plain)

def Event.block : Event → Option GetBlock
  | .emitted plain _ => getBlockOf plain
  | _ => none

/-- The blocks of GET responses handed to the link between two states. -/
def blocksSince (s t : Server σ) : List GetBlock := (t.log.drop s.log.length).filterMap Event.block

def getBlockBytes (invokeIdPriority : UInt8) (block : GetBlock) : List UInt8 :=
  [0xC4, 2, invokeIdPriority, if block.last then 1 else 0] ++ beBytes 4 block.number ++ [0] ++
    dlmsLenBytes block.bytes.length ++ block.bytes

theorem getResponseEncode_block_puts (pool : Pool) (invoke : UInt8) (block : GetBlock) :
    Puts (getResponseEncode pool invoke (.block block.last block.number block.bytes)) (getBlockBytes invoke block) := by
  have header := writeEach_puts [0xC4, 2, invoke, if block.last then 1 else 0]
  have number := (writeBytes_puts (beBytes 4 block.number) .invalid).ignore
  have length := (writeBytes_puts (dlmsLenBytes block.bytes.length) .nomem).ignore
  simp only [getBlockBytes, List.append_assoc]
  exact header.andThen (number.andThen ((writeEach_puts [0]).andThen
    (length.andThen (writeEach_puts block.bytes))))

/-- A block that was encoded is read back. -/
theorem getBlockRead_takes (invoke : UInt8) {block : GetBlock} (numbered : block.number < 2 ^ 32)
    (small : block.bytes.length ≤ 256) : Takes getBlockRead (getBlockBytes invoke block) block := by
  have content := (Takes.checked (n := block.bytes.length) rfl .invalid).map
    fun bytes => (⟨block.last, block.number, bytes⟩ : GetBlock)
  rw [bind_assoc] at content
  simp only [getBlockBytes, List.cons_append, List.nil_append, List.append_assoc]
  refine (Takes.u8 0xC4).bind (.check (by simp) ((Takes.u8 2).bind (.check (by simp) ?_)))
  refine (Takes.u8 invoke).bind ((Takes.bool block.last).bind ((Takes.uint numbered).bind ?_))
  refine (Takes.u8 0).bind (.check (by simp) ((Takes.len (by omega)).bind content))

theorem getBlockOf_getBlockBytes (invoke : UInt8) {block : GetBlock}
    (numbered : block.number < 2 ^ 32) (small : block.bytes.length ≤ 256) :
    getBlockOf (getBlockBytes invoke block) = some block := by
  have bounded : (getBlockBytes invoke block).length < 2 ^ 32 := by
    have := dlmsLenBytes_length_le (small.trans (by decide : 256 ≤ 0xFFFF))
    simp [getBlockBytes]
    omega
  obtain ⟨c, read⟩ := (getBlockRead_takes invoke numbered small).ofBytes bounded
  simp only [getBlockOf, outcome, read]

theorem getBlockOf_other {plain : List UInt8}
    (other : plain.length < 2 ∨ plain.getD 0 0 ≠ 0xC4 ∨ plain.getD 1 0 ≠ 2) : getBlockOf plain = none := by
  rw [getBlockOf, Option.eq_none_iff_forall_ne_some]
  intro block read
  unfold outcome at read
  split at read
  case h_2 => cases read
  case h_1 a c success =>
    obtain ⟨tag, _, first, rest⟩ := bind_ok_iff.mp success
    obtain ⟨isGet, rest⟩ := failIf_bind_ok_iff.mp rest
    obtain ⟨type, _, second, rest⟩ := bind_ok_iff.mp rest
    obtain ⟨isBlock, -⟩ := failIf_bind_ok_iff.mp rest
    obtain ⟨some, rfl, rfl⟩ := axdrReadU8_ok_iff.mp first
    obtain ⟨more, rfl, rfl⟩ := axdrReadU8_ok_iff.mp second
    have long : 2 ≤ plain.length := by
      have nonempty : 1 ≤ plain.length := by simpa [Buf.unread, Buf.ofBytes] using some
      have rest : 1 ≤ plain.length - 1 := by
        simpa [Buf.unread, Buf.skip, Buf.ofBytes, nonempty] using more
      omega
    rcases other with short | notGet | notBlock
    · omega
    · exact isGet notGet
    · exact isBlock notBlock

def NotBlock (plain : List UInt8) : Prop := getBlockOf plain = none

section Messages

variable {first second : UInt8} {more : List UInt8} {rest : Write Unit}

theorem notBlock_of_header (other : first ≠ 0xC4 ∨ second ≠ 2) (leaves : Leaves Extends rest) :
    Emits NotBlock (do writeEach (first :: second :: more); rest) := by
  intro size c wrote
  rcases starts_of_writeEach leaves wrote with short | ⟨behind, starts⟩
  · exact getBlockOf_other (.inl short)
  · exact getBlockOf_other (.inr (by simpa [starts] using other))

theorem notBlock_of_bytes (other : first ≠ 0xC4 ∨ second ≠ 2) :
    Emits NotBlock (writeEach (first :: second :: more)) := by
  have emits : Emits NotBlock (do writeEach (first :: second :: more); pure ()) :=
    notBlock_of_header other (.pure ())
  simpa using emits

theorem allows_notBlock : Allows NotBlock :=
  allows_foreign.mono fun _ foreign => getBlockOf_other (foreign.imp_right .inl)

theorem getResponse_notBlock (pool : Pool) (invoke : UInt8) (value : Value) :
    Emits NotBlock (getResponseEncode pool invoke (.data value)) :=
  notBlock_of_header (.inr (by decide)) (extends_writeValue _ _)

theorem getError_notBlock (pool : Pool) (invoke : UInt8) (result : Dar) :
    Emits NotBlock (getResponseEncode pool invoke (.dataError result)) :=
  notBlock_of_bytes (.inr (by decide))

end Messages

/-! ## Everything but a long GET -/

/-- The long GET is as it was, and no block was handed to the link. -/
structure Aside (s t : Server σ) : Prop where
  hdlcActive : t.hdlcActive = s.hdlcActive
  maxPdu : t.maxPdu = s.maxPdu
  limits : SameLimits s.wire t.wire
  pendingGet : t.pendingGet = s.pendingGet
  log : ∃ new, t.log = s.log ++ new ∧ new.filterMap Event.block = []

theorem blocksSince_of_append {s t : Server σ} {new : List Event} (log : t.log = s.log ++ new) :
    blocksSince s t = new.filterMap Event.block := by
  rw [blocksSince, log, List.drop_left]

theorem Aside.trans {s t u : Server σ} (first : Aside s t) (second : Aside t u) : Aside s u := by
  obtain ⟨new, log, none⟩ := first.log
  obtain ⟨more, log', none'⟩ := second.log
  refine ⟨second.hdlcActive.trans first.hdlcActive, second.maxPdu.trans first.maxPdu,
    trans_of SameLimits first.limits second.limits, second.pendingGet.trans first.pendingGet, new ++ more, ?_, ?_⟩
  · rw [log', log, List.append_assoc]
  · rw [List.filterMap_append, none, none', List.append_nil]

instance : IsPreorder (Server σ) Aside where
  refl s := ⟨rfl, rfl, refl_of SameLimits s.wire, rfl, [], by simp, rfl⟩
  trans _ _ _ := Aside.trans

theorem Aside.quiet {s t : Server σ} (hdlcActive : t.hdlcActive = s.hdlcActive) (maxPdu : t.maxPdu = s.maxPdu)
    (wire : t.wire = s.wire) (pendingGet : t.pendingGet = s.pendingGet) (log : t.log = s.log) : Aside s t :=
  ⟨hdlcActive, maxPdu, wire ▸ refl_of SameLimits s.wire, pendingGet, [], by rw [log, List.append_nil], rfl⟩

theorem Aside.of_replies {s t : Server σ} (replies : Replies NotBlock s t) : Aside s t := by
  obtain ⟨new, log, reply⟩ := replies.log
  refine ⟨replies.hdlcActive, replies.maxPdu, replies.limits, replies.pendingGet, new, log, ?_⟩
  refine List.filterMap_eq_nil_iff.mpr fun event member => ?_
  cases event with
  | emitted plain sent => exact reply _ member
  | _ => rfl

section Others

variable (env : Env σ) {α : Type}

theorem aside_of_replies {program : Program (Server σ) α} (kept : Keeps (Replies NotBlock) program) :
    Keeps Aside program :=
  kept.mono fun _ _ => Aside.of_replies

/-- Only a GET does something to the long GET. -/
theorem aside_service : ServiceRelation env Aside where
  toSendRelation := (replies_send env allows_notBlock).mono fun _ _ => Aside.of_replies
  objects _ _ := .quiet rfl rfl rfl rfl rfl
  pendingSet _ _ := .quiet rfl rfl rfl rfl rfl
  pendingActionIn _ _ := .quiet rfl rfl rfl rfl rfl
  queued _ _ := .quiet rfl rfl rfl rfl rfl
  dispatched s _ _ := ⟨rfl, rfl, refl_of SameLimits s.wire, rfl, _, rfl, rfl⟩

theorem listResponseHeader_starts {tag : UInt8} {count size : ℕ} {c : WBuf}
    (wrote : listResponseHeader tag invoke count (WBuf.init size) = .ok () c) : [tag, 3] <+: c.out := by
  obtain ⟨⟨⟩, b, first, rest⟩ := bind_ok_iff.mp wrote
  obtain ⟨⟨⟩, d, second, rest⟩ := bind_ok_iff.mp rest
  have leaves : Leaves Extends (do axdrWriteU8 invoke; dlmsWriteLen count) :=
    .bind (extends_writeBytes _ _) fun _ => extends_writeBytes _ _
  have starts := (leaves.of_ok rest).1
  rwa [writeBytes_ok second, writeBytes_ok first] at starts

/-- Encoding the entries of a list calls the dispatcher and appends. -/
theorem encodeList_spec {encode : α → Program (Server σ) (Write Unit)} (kept : ∀ entry, Keeps Aside (encode entry))
    (writes : ∀ entry s, wp (encode entry) (fun write _ => Leaves Extends write) s) (items : List α) (buf : WBuf)
    (s : Server σ) : wp (encodeList encode items buf) (fun result t => Aside s t ∧ ∀ c ∈ result, Extends buf c) s := by
  induction items generalizing buf s with
  | nil => simpa [encodeList] using ⟨refl_of Aside s, refl_of Extends buf⟩
  | cons entry rest ih =>
    rw [encodeList, wp_bind]
    refine ((kept entry s).and (writes entry s)).mono fun write t ⟨aside, extends'⟩ => ?_
    cases written : write buf with
    | error e c => simpa using aside
    | ok u c =>
      refine (ih c t).mono fun result u ⟨later, rest⟩ => ⟨aside.trans later, fun d member => ?_⟩
      exact trans_of Extends (extends'.of_ok written) (rest d member)

theorem aside_sendList {tag : UInt8} {encode : α → Program (Server σ) (Write Unit)}
    (kept : ∀ entry, Keeps Aside (encode entry))
    (writes : ∀ entry s, wp (encode entry) (fun write _ => Leaves Extends write) s) (items : List α) :
    Keeps Aside (sendList env tag invoke encode items) := by
  intro s
  rw [KeepsAt, sendList, wp_bind, wp_get]
  cases header : listResponseHeader tag invoke items.length (WBuf.init s.wire.txBuf.length) with
  | error e buf => simpa using refl_of Aside s
  | ok u buf =>
    simp only [wp_bind]
    refine (encodeList_spec kept writes items buf s).mono fun result t encoded => ?_
    obtain ⟨aside, extends'⟩ := encoded
    cases result with
    | none => simpa using aside
    | some c =>
      obtain ⟨behind, starts⟩ := (listResponseHeader_starts header).trans (extends' c rfl).1
      have notBlock : NotBlock c.out := getBlockOf_other (.inr (.inr (by simp [← starts])))
      have filled : wp (onWire (modify (·.fillTx c.out)))
          (fun _ u => Aside t u ∧ u.wire.txBuf = overwrite t.wire.txBuf c.out) t := by
        refine (aside_of_replies (onWire_replies (keeps_fillTx limitsLink _)) t).and ?_
        simp [onWire, Wire.fillTx]
      simp only [wp_bind]
      refine filled.mono fun _ u after => ?_
      obtain ⟨later, holds⟩ := after
      refine (serverSend_replies (P := NotBlock) env ?_).mono fun _ v replies =>
        (aside.trans later).trans (.of_replies replies)
      rwa [ApduSource.bytes, holds, padTo_overwrite]

theorem extends_actionResultEncode (pool : Pool) (result : Dar) (value : Value) :
    Leaves Extends (actionResultEncode pool result value) := by
  refine .bind (extends_writeBytes _ _) fun _ => .ite ?_ (extends_writeBytes _ _)
  exact .bind (extends_writeBytes _ _) fun _ => .bind (extends_writeBytes _ _) fun _ => extends_writeValue _ _

theorem aside_handleAction (req : ActionRequest) : Keeps Aside (handleAction env req) := by
  refine (aside_service env).handleAction req (aside_sendList env (fun item => ?_) (fun item s => ?_) _)
  · exact .bind ((aside_service env).dispatchAction _ _ _) fun _ => .bind .get fun _ => .pure _
  · simp only [wp_bind, wp_get, wp_pure]
    intro result t _
    exact extends_actionResultEncode _ _ _

theorem extends_getResultItemEncode (pool : Pool) (item : GetResult) :
    Leaves Extends (getResultItemEncode pool item) := by
  cases item with
  | data value => exact .bind (extends_writeBytes _ _) fun _ => extends_writeValue _ _
  | accessResult result => exact .bind (extends_writeBytes _ _) fun _ => extends_writeBytes _ _

theorem aside_sendGetError (invoke : UInt8) (result : Dar) :
    Keeps Aside (sendGetResponse env invoke (.dataError result)) :=
  fun _ => (sendGetResponse_repliesAt env allows_notBlock (getError_notBlock _ _ _ _)).mono fun _ _ => .of_replies

end Others

/-! ## What a GET does to the long GET -/

/-- The value that a GET request reads, with the selective access that is applied to it. -/
def readAttribute (env : Env σ) (req : GetRequest) : Program (Server σ) (Option Value) := do
  match ← dispatchGetAttr env req.attr with
  | .accessResult _ => return none
  | .data value => return some (← selectValue env req.accessSelection req.attr.id value)

/-- The response to a value that was read is sent in blocks. -/
def Server.needsBlocks (s : Server σ) (invokeIdPriority : UInt8) (value : Value) : Bool :=
  match getResponseEncode s.objects.pool invokeIdPriority (.data value) (WBuf.init 1024) with
  | .error _ _ => true
  | .ok _ buf =>
      decide (buf.out.length > s.sendPayloadMax ∧ ¬(s.gbtEnabled ∧ buf.out.length > s.gbtPayloadMax))

/-- The value, with the pool it lies in, that a GET request delivers in blocks. -/
def blockwiseValue (env : Env σ) (req : GetRequest) (s : Server σ) : Option (Pool × Value) :=
  if req.kind = .normal then
    match readAttribute env req s with
    | some (some value, t) =>
        if t.needsBlocks req.invokeIdPriority value then some (t.objects.pool, value) else none
    | _ => none
  else none

/-- The encoding of a value, when there is room for it. -/
def encodingOf (value : Pool × Value) : Option (List UInt8) :=
  match valueWrite value.1 value.2 (WBuf.init serverPendingMax) with
  | .ok _ buf => some buf.out
  | .error _ _ => none

section Get

variable {env : Env σ} {req : GetRequest} {s t u : Server σ} {value : Value}

theorem aside_readAttribute (env : Env σ) (req : GetRequest) : Keeps Aside (readAttribute env req) := by
  refine .bind ((aside_service env).dispatchGetAttr _) fun result => ?_
  cases result with
  | accessResult result => exact .pure _
  | data value => exact .bind ((aside_service env).selectValue _ _ _) fun _ => .pure _

/-- A call of the dispatcher, and nothing else that matters to sending. -/
structure Server.Asked (service : Service) (target : Descriptor) (s t : Server σ) : Prop where
  aa : t.aa = s.aa
  wire : t.wire = s.wire
  gbtEnabled : t.gbtEnabled = s.gbtEnabled
  hdlcActive : t.hdlcActive = s.hdlcActive
  maxPdu : t.maxPdu = s.maxPdu
  log : t.log = s.log ++ [.dispatched service target s.aa.association]

theorem readAttribute_asked (env : Env σ) (req : GetRequest) (s : Server σ) :
    ∃ read t, readAttribute env req s = some (read, t) ∧ s.Asked .get req.attr t ∧ t.pendingPush = s.pendingPush := by
  obtain ⟨result, t, called, asked, push⟩ : ∃ result t, dispatchGetAttr env req.attr s = some (result, t) ∧
      s.Asked .get req.attr t ∧ t.pendingPush = s.pendingPush := ⟨_, _, rfl, ⟨rfl, rfl, rfl, rfl, rfl, rfl⟩, rfl⟩
  rw [readAttribute, bind_of_some called]
  cases result with
  | accessResult result => exact ⟨none, t, rfl, asked, push⟩
  | data value =>
    obtain ⟨selected, u, select, objects⟩ : ∃ selected u,
        selectValue env req.accessSelection req.attr.id value t = some (selected, u) ∧
          ∃ objects, u = { t with objects := objects } := by
      unfold selectValue
      split
      · cases value <;> exact ⟨_, _, rfl, _, rfl⟩
      · exact ⟨_, _, rfl, t.objects, rfl⟩
    obtain ⟨objects, rfl⟩ := objects
    exact ⟨some selected, _, bind_of_some select,
      ⟨asked.aa, asked.wire, asked.gbtEnabled, asked.hdlcActive, asked.maxPdu, asked.log⟩, push⟩

theorem handleGet_of_attribute {read : Option Value} (normal : req.kind = .normal)
    (reads : readAttribute env req s = some (read, t)) :
    (∃ dar, read = none ∧ handleGet env req s = sendGetResponse env req.invokeIdPriority (.dataError dar) t) ∨
      ∃ value, read = some value ∧ handleGet env req s = sendGetData env req.invokeIdPriority value t := by
  obtain ⟨result, u, called, rest⟩ := bind_eq_some.mp reads
  simp only [handleGet, normal]
  rw [bind_of_some called]
  cases result with
  | accessResult dar =>
    cases rest
    exact .inl ⟨dar, rfl, rfl⟩
  | data old =>
    obtain ⟨selected, v, select, rest⟩ := bind_eq_some.mp rest
    cases rest
    exact .inr ⟨selected, rfl, bind_of_some select⟩

theorem sendGetData_single (single : s.needsBlocks invoke value = false) :
    KeepsAt Aside s (sendGetData env invoke value) := by
  rw [KeepsAt, sendGetData, wp_bind, wp_get]
  rw [Server.needsBlocks] at single
  cases encoded : getResponseEncode s.objects.pool invoke (.data value) (WBuf.init 1024) with
  | error e buf => simp [encoded] at single
  | ok u buf =>
    rw [encoded] at single
    refine KeepsAt.ite (fun long => .ite (fun _ => ?_) fun short => ?_) fun _ => ?_
    · have notBlock : NotBlock (ApduSource.bytes s.wire (.own buf.out)) :=
        getResponse_notBlock _ _ _ _ _ encoded
      exact (serverSend_replies env notBlock).mono fun _ _ => .of_replies
    · exact absurd ⟨long, short⟩ (of_decide_eq_false single)
    · exact (sendGetResponse_repliesAt env allows_notBlock (getResponse_notBlock _ _ _ _)).mono
        fun _ _ => .of_replies

variable (env) in
/-- A value that needs blocks is written to the buffer of the long GET, and its first block is sent; if it cannot be
written, its bytes are left there. -/
theorem sendGetData_blocks (blocks : s.needsBlocks invoke value = true) :
    (∃ encoding, encodingOf (s.objects.pool, value) = some encoding ∧ sendGetData env invoke value s =
      handleGetNext env invoke 0
        { s with pendingGet := ⟨true, overwrite s.pendingGet.data encoding, encoding.length, 1⟩ }) ∨
    encodingOf (s.objects.pool, value) = none ∧ ∃ data, sendGetData env invoke value s =
      sendGetResponse env invoke (.dataError .temporaryFailure)
        { s with pendingGet := { s.pendingGet with data := data } } := by
  rw [Server.needsBlocks] at blocks
  rw [sendGetData, get_bind_apply, encodingOf]
  cases encoded : getResponseEncode s.objects.pool invoke (.data value) (WBuf.init 1024) with
  | error e buf' =>
    cases valueWrite s.objects.pool value (WBuf.init serverPendingMax) with
    | ok u buf => exact .inl ⟨_, rfl, rfl⟩
    | error e buf => exact .inr ⟨rfl, _, rfl⟩
  | ok u buf' =>
    rw [encoded] at blocks
    obtain ⟨long, notGbt⟩ := of_decide_eq_true blocks
    simp only [if_pos long, if_neg notGbt]
    cases valueWrite s.objects.pool value (WBuf.init serverPendingMax) with
    | ok u buf => exact .inl ⟨_, rfl, rfl⟩
    | error e buf => exact .inr ⟨rfl, _, rfl⟩

end Get

end OpenSpodes
