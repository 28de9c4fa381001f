import OpenSpodes.Proofs.GbtBlocks
import OpenSpodes.Proofs.MessageCodec

/-! # Which encoders notice a full buffer

The encoders of the services write byte after byte and drop those that do not fit. What is checked is the value of a GET
response, each result of its list and the header of a general block. A response with data or with results is therefore
refused wherever it does not fit, a general block only where its header does not, and every other message is cut short
with the return code of success.
-/

namespace OpenSpodes

open Bytes Machine.Fallible

variable {memory : Pool} {reply : GetReply}

/-! ## Encoders that drop what does not fit -/

theorem writeEach_succeeds (bytes : List UInt8) : Succeeds (writeEach bytes) := .forM (fun _ => .ignore _) bytes

theorem writeEach_then {α : Type} {bytes : List UInt8} {rest : Write α} (succeeds : Succeeds rest) :
    Succeeds (do writeEach bytes; rest) :=
  (writeEach_succeeds bytes).bind fun _ => succeeds

theorem ignore_then {α β : Type} {step : Write α} {rest : Write β} (succeeds : Succeeds rest) :
    Succeeds (do ignore step; rest) :=
  (Succeeds.ignore step).bind fun _ => succeeds

theorem attributeWrite_succeeds (attr : Descriptor) : Succeeds (attributeWrite attr) :=
  ignore_then <| writeEach_succeeds _

theorem invocationWrite_succeeds (memory : Pool) (method : Descriptor) (data : Value) :
    Succeeds (invocationWrite memory method data) :=
  ignore_then <| .ite (writeEach_succeeds _) (writeEach_then <| .ignore _)

theorem actionResultWrite_succeeds (memory : Pool) (result : UInt8) (returnData : Value) :
    Succeeds (actionResultWrite memory result returnData) :=
  writeEach_then <| .ite (writeEach_then <| .ignore _) (writeEach_succeeds _)

theorem getRequestEncode_succeeds (req : GetRequest) : Succeeds (getRequestEncode req) := by
  rw [getRequestEncode]
  cases req.kind with
  | normal => exact writeEach_then <| attributeWrite_succeeds _
  | withBlock => exact writeEach_then <| .ignore _
  | withList =>
    exact writeEach_then <| ignore_then <|
      .forM attributeWrite_succeeds _

theorem setRequestEncode_succeeds (memory : Pool) (req : SetRequest) : Succeeds (setRequestEncode memory req) := by
  rw [setRequestEncode]
  cases req.kind with
  | normal => exact writeEach_then <| (attributeWrite_succeeds _).bind fun _ => .ignore _
  | withFirstDatablock => exact writeEach_then <| (attributeWrite_succeeds _).bind fun _ => .ignore _
  | withDatablock => exact writeEach_then <| .ignore _
  | withList =>
    exact writeEach_then <| ignore_then <|
      (Succeeds.forM (fun _ => attributeWrite_succeeds _) _).bind fun _ => ignore_then <|
        .forM (fun _ => .ignore _) _

theorem setReplyEncode_succeeds (reply : SetReply) : Succeeds (setReplyEncode reply) := by
  rw [setReplyEncode]
  cases reply.kind with
  | normal => exact writeEach_succeeds _
  | datablock | lastDatablock => exact writeEach_then <| .ignore _
  | withList => exact writeEach_then <| ignore_then <| writeEach_succeeds _

theorem actionRequestEncode_succeeds (memory : Pool) (req : ActionRequest) :
    Succeeds (actionRequestEncode memory req) := by
  rw [actionRequestEncode]
  cases req.kind with
  | normal => exact writeEach_then <| invocationWrite_succeeds _ _ _
  | nextParamBlock | withParamBlock => exact writeEach_then <| .ignore _
  | withList =>
    exact writeEach_then <| ignore_then <|
      .forM (fun _ => invocationWrite_succeeds _ _ _) _
  | withFirstParamBlock => exact writeEach_then <| ignore_then <| .ignore _

theorem actionReplyEncode_succeeds (memory : Pool) (reply : ActionReply) :
    Succeeds (actionReplyEncode memory reply) := by
  rw [actionReplyEncode]
  cases reply.kind with
  | normal => exact writeEach_then <| actionResultWrite_succeeds _ _ _
  | withParamBlock | nextParamBlock => exact writeEach_then <| .ignore _
  | withList =>
    exact writeEach_then <| ignore_then <|
      .forM (fun _ => actionResultWrite_succeeds _ _ _) _

/-! ## Values -/

/-- Where the writer succeeds, it appends bytes that it appends with more room too. -/
def Steady (write : Write Unit) : Prop :=
  ∀ b c, write b = .ok () c → ∃ bytes, c.out = b.out ++ bytes ∧ c.size = b.size ∧
    ∀ d : WBuf, b.free ≤ d.free → ∃ e, write d = .ok () e ∧ e.out = d.out ++ bytes ∧ e.size = d.size

namespace Steady

theorem of_writes {write : Write Unit} {bytes : List UInt8} (writes : Writes write bytes) : Steady write := by
  intro b c wrote
  obtain ⟨room, out, size⟩ := writes.of_ok wrote
  exact ⟨bytes, out, size, fun e more => writes.appends e (room.trans more)⟩

theorem pure : Steady (pure ()) := of_writes .pure

theorem writeBytes (bytes : List UInt8) (err : Err) : Steady (writeBytes bytes err) := of_writes (writeBytes_writes _ _)

theorem throw (err : Err) : Steady (throw err) := by
  intro b c wrote
  cases wrote

theorem andThen {first second : Write Unit} (steady : Steady first) (steadyMore : Steady second) :
    Steady (do first; second) := by
  intro b d wrote
  obtain ⟨⟨⟩, c, wroteFirst, wroteSecond⟩ := bind_ok_iff.mp wrote
  obtain ⟨bytes, out, size, again⟩ := steady b c wroteFirst
  obtain ⟨more, outMore, sizeMore, againMore⟩ := steadyMore c d wroteSecond
  refine ⟨bytes ++ more, by rw [outMore, out, List.append_assoc], sizeMore.trans size, ?_⟩
  intro e room
  obtain ⟨f, wroteF, outF, sizeF⟩ := again e room
  have left : c.free ≤ f.free := by
    simp only [WBuf.free, out, size, outF, sizeF, List.length_append] at room ⊢
    omega
  obtain ⟨g, wroteG, outG, sizeG⟩ := againMore f left
  refine ⟨g, ?_, by rw [outG, outF, List.append_assoc], sizeG.trans sizeF⟩
  rw [bind_of_ok wroteF]
  exact wroteG

theorem needFree (n : ℕ) (err : Err) : Steady (needFree n err) := by
  intro b c checked
  have passed (d : WBuf) (room : n ≤ d.free) : OpenSpodes.needFree n err d = .ok () d := by
    have passes : ¬d.free < n := Nat.not_lt.mpr room
    simp [OpenSpodes.needFree, failIf, passes]
  have room : n ≤ b.free := by
    by_contra full
    have failed : OpenSpodes.needFree n err b = .error err b := by
      simp [OpenSpodes.needFree, failIf, Nat.lt_of_not_le full]
    exact absurd (checked.symm.trans failed) (by simp)
  obtain rfl : b = c := by simpa using (passed b room).symm.trans checked
  refine ⟨[], (List.append_nil _).symm, rfl, ?_⟩
  intro d more
  exact ⟨d, passed d (room.trans more), (List.append_nil _).symm, rfl⟩

theorem failIf (c : Prop) [Decidable c] (err : Err) : Steady (failIf c err) := by
  unfold Machine.Fallible.failIf
  split
  · exact throw err
  · exact pure

end Steady

theorem writePieces_steady (outcome : Err) (pieces : List (List UInt8 × Err)) :
    Steady (writePieces outcome pieces) := by
  induction pieces with
  | nil => exact .failIf _ _
  | cons piece rest ih => exact (Steady.writeBytes _ _).andThen ih

theorem writeItems_steady {write : Value → Write Unit} (steady : ∀ value, Steady (write value)) (slots : ℕ → Value)
    (n pos : ℕ) : Steady (writeItems write slots n pos) := by
  induction n generalizing pos with
  | zero => exact .pure
  | succ n ih => exact (steady _).andThen (ih _)

theorem axdrWriteOctetString_steady (bytes : List UInt8) : Steady (axdrWriteOctetString bytes) :=
  (Steady.writeBytes _ _).andThen (.writeBytes _ _)

theorem valueWriteImpl_steady (pool : Pool) (fuel : ℕ) (value : Value) : Steady (valueWriteImpl pool fuel value) := by
  induction fuel generalizing value with
  | zero => exact .throw _
  | succ fuel ih =>
    unfold valueWriteImpl
    cases value with
    | owned tag pieces outcome => exact (Steady.needFree _ _).andThen (writePieces_steady _ _)
    | other tag =>
      dsimp only
      split
      · exact (Steady.needFree _ _).andThen (.throw _)
      · exact (Steady.writeBytes _ _).andThen (.throw _)
    | null => exact .writeBytes _ _
    | scalar kind content => exact (Steady.writeBytes _ _).andThen (.of_writes (scalarWrite_writes _ _))
    | octetString bytes | visibleString bytes | utf8String bytes =>
      exact (Steady.writeBytes _ _).andThen (axdrWriteOctetString_steady _)
    | bitString bits numBits =>
      exact (Steady.writeBytes _ _).andThen ((Steady.writeBytes _ _).andThen (.writeBytes _ _))
    | array start count | struct start count =>
      exact (Steady.writeBytes _ _).andThen ((Steady.writeBytes _ _).andThen (writeItems_steady ih _ _ _))

/-- Without room for a byte no value is written. -/
theorem valueWrite_refused (memory : Pool) (value : Value) {b : WBuf} (full : b.free = 0) :
    ∃ e c, valueWrite memory value b = .error e c := by
  have tagged (byte : UInt8) (rest : Write Unit) : ∃ e c, (do axdrWriteU8 byte; rest) b = .error e c := by
    obtain ⟨e, c, failed⟩ := (axdrWriteU8_writes byte).refuses b (by simp [full])
    exact ⟨e, c, bind_of_error failed⟩
  have checked (rest : Write Unit) : ∃ e c, (do needFree 1 .invalid; rest) b = .error e c := by
    have failed : needFree 1 .invalid b = .error .invalid b := by simp [needFree, failIf, full]
    exact ⟨_, _, bind_of_error failed⟩
  unfold valueWrite valueWriteImpl
  cases value with
  | owned tag pieces outcome => exact checked _
  | other tag =>
    dsimp only
    split
    · exact checked _
    · exact tagged _ _
  | null => exact (axdrWriteU8_writes 0).refuses b (by simp [full])
  | scalar | octetString | visibleString | utf8String | bitString | array | struct => exact tagged _ _

theorem writeValue_of_error {value : Value} {b c : WBuf} {e : Err} (failed : valueWrite memory value b = .error e c) :
    writeValue memory value b = .error .invalid c := by
  have tried : attempt (valueWrite memory value) b = .ok none c := by simp only [attempt, failed]
  exact bind_of_ok tried

theorem writeValue_of_ok {value : Value} {b c : WBuf} (wrote : valueWrite memory value b = .ok () c) :
    writeValue memory value b = .ok () c := by
  have tried : attempt (valueWrite memory value) b = .ok (some ()) c := by simp only [attempt, wrote]
  exact bind_of_ok tried

theorem writeValue_steady (memory : Pool) (value : Value) : Steady (writeValue memory value) := by
  intro b c wrote
  cases result : valueWrite memory value b with
  | error e d => exact absurd (wrote.symm.trans (writeValue_of_error result)) (by simp)
  | ok u d =>
    obtain rfl : c = d := by simpa using wrote.symm.trans (writeValue_of_ok result)
    obtain ⟨bytes, out, size, again⟩ := valueWriteImpl_steady memory _ value b c result
    refine ⟨bytes, out, size, ?_⟩
    intro d more
    obtain ⟨e, wroteMore, rest⟩ := again d more
    exact ⟨e, writeValue_of_ok wroteMore, rest⟩

/-! ## Responses with data -/

/-- Bytes in front of a message, written as far as they fit; with less room for all of them, less than `left` is free
behind. -/
structure Leads (write : Write Unit) (bytes : List UInt8) (left : ℕ) : Prop where
  puts : Puts write bytes
  fills : ∀ b : WBuf, b.free < bytes.length → ∃ c, write b = .ok () c ∧ c.free < left

theorem ignore_refused {bytes : List UInt8} {err : Err} {b : WBuf} (full : b.free < bytes.length) :
    ignore (writeBytes bytes err) b = .ok () b := by
  have checked : needFree bytes.length err b = .error err b := by simp [needFree, failIf, full]
  have failed : writeBytes bytes err b = .error err b := bind_of_error checked
  have tried : attempt (writeBytes bytes err) b = .ok none b := by simp only [attempt, failed]
  exact bind_of_ok tried

theorem writeEach_leads (bytes : List UInt8) : Leads (writeEach bytes) bytes 1 where
  puts := writeEach_puts bytes
  fills := by
    induction bytes with
    | nil =>
      intro b full
      exact absurd full (Nat.not_lt_zero _)
    | cons byte bytes ih =>
      intro b full
      rw [List.length_cons] at full
      by_cases room : 1 ≤ b.free
      · obtain ⟨c, wrote, out, size⟩ := (writeBytes_puts [byte] .invalid).ignore b room
        have left : c.free < bytes.length := by
          simp only [WBuf.free, out, size, List.length_append, List.length_singleton] at full room ⊢
          omega
        obtain ⟨d, wroteRest, none⟩ := ih c left
        refine ⟨d, ?_, none⟩
        exact (bind_of_ok wrote).trans wroteRest
      · have none : b.free < 1 := Nat.lt_of_not_le room
        have dropped : (do ignore (axdrWriteU8 byte); writeEach bytes) b = writeEach bytes b :=
          bind_of_ok (@ignore_refused [byte] _ b none)
        cases bytes with
        | nil => exact ⟨b, dropped, none⟩
        | cons next bytes =>
          obtain ⟨d, wroteRest, left⟩ := ih b (by rw [List.length_cons]; omega)
          exact ⟨d, dropped.trans wroteRest, left⟩

theorem listLead_leads (header : List UInt8) (count : ℕ) :
    Leads (do writeEach header; ignore (dlmsWriteLen count)) (header ++ dlmsLenBytes count)
      (dlmsLenBytes count).length where
  puts := (writeEach_puts header).andThen (writeBytes_puts _ _).ignore
  fills := by
    intro b full
    rw [List.length_append] at full
    have some : 0 < (dlmsLenBytes count).length := by
      rw [dlmsLenBytes]
      split <;> simp
    by_cases room : header.length ≤ b.free
    · obtain ⟨c, wrote, out, size⟩ := writeEach_puts header b room
      have left : c.free < (dlmsLenBytes count).length := by
        simp only [WBuf.free, out, size, List.length_append] at full room ⊢
        omega
      exact ⟨c, (bind_of_ok wrote).trans (ignore_refused left), left⟩
    · obtain ⟨c, wrote, none⟩ := (writeEach_leads header).fills b (Nat.lt_of_not_le room)
      have left : c.free < (dlmsLenBytes count).length := by omega
      exact ⟨c, (bind_of_ok wrote).trans (ignore_refused left), left⟩

/-- Behind its lead, a message that needs more than what is left there is refused where it does not fit. -/
theorem Leads.refuses {lead write : Write Unit} {bytes whole : List UInt8} {left : ℕ} (leads : Leads lead bytes left)
    (steady : Steady write) (needs : ∀ b : WBuf, b.free < left → ∃ e c, write b = .error e c)
    (full : Puts (do lead; write) whole) {b : WBuf} (small : b.free < whole.length) :
    ∃ e c, (do lead; write) b = .error e c := by
  by_cases room : bytes.length ≤ b.free
  · obtain ⟨c, wrote, out, size⟩ := leads.puts b room
    cases result : write c with
    | error e d => exact ⟨e, d, (bind_of_ok wrote).trans result⟩
    | ok u d =>
      obtain ⟨more, outMore, sizeMore, again⟩ := steady c d result
      -- in an area for both, the message would be the lead and these bytes, which were no more than fit here
      obtain ⟨e, wroteAll, outAll⟩ := @Puts.init _ _ full (b.free + whole.length) (Nat.le_add_left _ _)
      obtain ⟨f, wroteLead, outLead, sizeLead⟩ := leads.puts (WBuf.init (b.free + whole.length)) (by
        simp only [WBuf.free, WBuf.init, List.length_nil] at room ⊢
        omega)
      have bigger : c.free ≤ f.free := by
        simp only [WBuf.free, WBuf.init, out, size, outLead, sizeLead, List.length_append, List.length_nil]
        omega
      obtain ⟨g, wroteRest, outRest, -⟩ := again f bigger
      obtain rfl : g = e := by
        rw [bind_of_ok wroteLead, wroteRest] at wroteAll
        simpa using wroteAll
      have length : whole.length = bytes.length + more.length := by
        rw [← outAll, outRest, outLead]
        simp [WBuf.init]
      have fits := d.fits
      rw [outMore, sizeMore, out, size, List.length_append, List.length_append] at fits
      simp only [WBuf.free] at small
      omega
  · obtain ⟨c, wrote, few⟩ := leads.fills b (Nat.lt_of_not_le room)
    obtain ⟨e, d, failed⟩ := needs c few
    exact ⟨e, d, (bind_of_ok wrote).trans failed⟩

theorem replyItemEncode_steady (memory : Pool) (item : ReplyItem) : Steady (replyItemEncode memory item) := by
  rw [replyItemEncode]
  split
  · exact (Steady.writeBytes _ _).andThen (writeValue_steady _ _)
  · exact (Steady.writeBytes _ _).andThen (.writeBytes _ _)

theorem grows_of_choice {choice : UInt8} {rest : Write Unit} (steady : Steady rest) {b c : WBuf}
    (wrote : (do axdrWriteU8 choice; rest) b = .ok () c) : b.out.length < c.out.length := by
  obtain ⟨⟨⟩, d, first, more⟩ := bind_ok_iff.mp wrote
  obtain ⟨bytes, out, -, -⟩ := steady d c more
  rw [out, writeBytes_ok first]
  simp

theorem replyItemEncode_grows {item : ReplyItem} {b c : WBuf} (wrote : replyItemEncode memory item b = .ok () c) :
    b.out.length < c.out.length := by
  rw [replyItemEncode] at wrote
  split at wrote
  · exact grows_of_choice (writeValue_steady _ _) wrote
  · exact grows_of_choice (.writeBytes _ _) wrote

section Items

variable {α : Type} {write : α → Write Unit}

theorem forM_steady (steady : ∀ item, Steady (write item)) (items : List α) : Steady (items.forM write) := by
  induction items with
  | nil => exact .pure
  | cons item items ih => exact (steady item).andThen ih

/-- Items that take a byte each. -/
theorem forM_grows (grows : ∀ item b c, write item b = .ok () c → b.out.length < c.out.length) {items : List α}
    {b c : WBuf} (wrote : items.forM write b = .ok () c) : b.out.length + items.length ≤ c.out.length := by
  induction items generalizing b with
  | nil =>
    obtain rfl : b = c := by simpa using wrote
    exact le_rfl
  | cons item items ih =>
    obtain ⟨⟨⟩, d, first, rest⟩ := bind_ok_iff.mp wrote
    have one := grows item b d first
    have others := ih rest
    rw [List.length_cons]
    omega

end Items

theorem dlmsLenBytes_length_le_self {count : ℕ} (some : 0 < count) : (dlmsLenBytes count).length ≤ count := by
  have octets : dlmsMinOctets count ≤ 4 := by
    rw [dlmsMinOctets]
    split_ifs <;> omega
  rw [dlmsLenBytes]
  split
  · rw [List.length_singleton]
    exact some
  · rw [List.length_cons, length_beBytes]
    omega

/-- A GET response with data is refused where it does not fit. -/
theorem getReplyEncode_data_refused (data : reply.kind = .data) {bytes : List UInt8}
    (full : Puts (getReplyEncode memory reply) bytes) {b : WBuf} (small : b.free < bytes.length) :
    ∃ e c, getReplyEncode memory reply b = .error e c := by
  rw [getReplyEncode, data] at full ⊢
  refine (writeEach_leads _).refuses (writeValue_steady memory reply.data) ?_ full small
  intro c none
  obtain ⟨e, d, failed⟩ := valueWrite_refused memory reply.data (Nat.lt_one_iff.mp none)
  exact ⟨_, _, writeValue_of_error failed⟩

/-- So is one with results. -/
theorem getReplyEncode_list_refused (list : reply.kind = .withList) (some : reply.items ≠ []) {bytes : List UInt8}
    (full : Puts (getReplyEncode memory reply) bytes) {b : WBuf} (small : b.free < bytes.length) :
    ∃ e c, getReplyEncode memory reply b = .error e c := by
  have count := dlmsLenBytes_length_le_self (List.length_pos_iff.mpr some)
  have split : getReplyEncode memory reply = (do
      (do writeEach [0xC4, 3, reply.invokeIdPriority]; ignore (dlmsWriteLen reply.items.length))
      reply.items.forM (replyItemEncode memory)) := by
    rw [getReplyEncode, list, bind_assoc]
  rw [split] at full ⊢
  refine (listLead_leads _ _).refuses (forM_steady (replyItemEncode_steady memory) reply.items) ?_ full small
  intro c few
  cases result : reply.items.forM (replyItemEncode memory) c with
  | error e d => exact ⟨e, d, rfl⟩
  | ok u d =>
    have grown := forM_grows (fun _ _ _ => replyItemEncode_grows) result
    obtain ⟨more, -, size, -⟩ := forM_steady (replyItemEncode_steady memory) reply.items c d result
    have fits := d.fits
    simp only [WBuf.free] at few
    omega

theorem getReplyEncode_succeeds (data : reply.kind ≠ .data) (empty : reply.kind = .withList → reply.items = []) :
    Succeeds (getReplyEncode memory reply) := by
  rw [getReplyEncode]
  cases kind : reply.kind with
  | data => exact absurd kind data
  | dataError => exact writeEach_succeeds _
  | block | blockLast =>
    exact writeEach_then <| ignore_then <| writeEach_then <|
      ignore_then <| writeEach_succeeds _
  | withList =>
    rw [empty kind]
    exact writeEach_then <| ignore_then <| .pure _

/-! ## General blocks -/

def GeneralBlock.header (gbt : GeneralBlock) : List UInt8 :=
  [0xE0, gbt.control] ++ (beBytes 2 gbt.blockNumber ++ (beBytes 2 gbt.blockNumberAck ++
    dlmsLenBytes gbt.blockData.length))

theorem gbtEncode_error_iff (gbt : GeneralBlock) (b : WBuf) :
    (∃ e c, gbtEncode gbt b = .error e c) ↔ b.free < gbt.header.length := by
  have header := (axdrWriteU8_writes 0xE0).andThen ((axdrWriteU8_writes gbt.control).andThen
    ((writeBytes_writes (beBytes 2 gbt.blockNumber) .invalid).andThen
      ((writeBytes_writes (beBytes 2 gbt.blockNumberAck) .invalid).andThen (dlmsWriteLen_writes gbt.blockData.length))))
  have split : gbtEncode gbt = (do
      (do
        axdrWriteU8 0xE0
        axdrWriteU8 gbt.control
        writeBytes (beBytes 2 gbt.blockNumber) .invalid
        writeBytes (beBytes 2 gbt.blockNumberAck) .invalid
        dlmsWriteLen gbt.blockData.length)
      writeEach gbt.blockData) := by
    simp only [bind_assoc]
    rfl
  rw [split]
  constructor
  · rintro ⟨e, c, failed⟩
    by_contra room
    obtain ⟨d, wrote, -, -⟩ := header.appends b (Nat.le_of_not_lt room)
    obtain ⟨u, f, done⟩ := writeEach_succeeds gbt.blockData d
    rw [bind_of_ok wrote, done] at failed
    cases failed
  · intro small
    obtain ⟨e, c, failed⟩ := header.refuses b small
    exact ⟨e, c, bind_of_error failed⟩

/-! ## All messages -/

/-- A structure to encode. -/
inductive ServiceMessage
  | getRequest (req : GetRequest)
  | getResponse (reply : GetReply)
  | setRequest (req : SetRequest)
  | setResponse (reply : SetReply)
  | actionRequest (req : ActionRequest)
  | actionResponse (reply : ActionReply)
  | generalBlock (gbt : GeneralBlock)

namespace ServiceMessage

/-- The encoder of the structure, for values whose items lie in the given memory. -/
def encode (memory : Pool) : ServiceMessage → Write Unit
  | getRequest req => getRequestEncode req
  | getResponse reply => getReplyEncode memory reply
  | setRequest req => setRequestEncode memory req
  | setResponse reply => setReplyEncode reply
  | actionRequest req => actionRequestEncode memory req
  | actionResponse reply => actionReplyEncode memory reply
  | generalBlock gbt => gbtEncode gbt

/-- The messages whose encoder looks at the room: GET responses with data or with results, and the header of a general
block. -/
def Checked (free : ℕ) : ServiceMessage → Prop
  | getResponse reply => reply.kind = .data ∨ reply.kind = .withList ∧ reply.items ≠ []
  | generalBlock gbt => free < 6 + (dlmsLenBytes gbt.blockData.length).length
  | _ => False

end ServiceMessage

theorem not_error_of_succeeds {write : Write Unit} (succeeds : Succeeds write) (b : WBuf) :
    (∃ e c, write b = .error e c) ↔ False := by
  constructor
  · rintro ⟨e, c, failed⟩
    obtain ⟨u, d, done⟩ := succeeds b
    exact absurd (failed.symm.trans done) (by simp)
  · exact False.elim

/-- In front of an area with fewer free bytes than the message has, the encoder fails exactly for the messages that it
checks. -/
theorem encoder_reports_iff (memory : Pool) (message : ServiceMessage) {bytes : List UInt8}
    (full : Puts (message.encode memory) bytes) {b : WBuf} (small : b.free < bytes.length) :
    (∃ e c, message.encode memory b = .error e c) ↔ message.Checked b.free := by
  cases message with
  | getRequest req => exact not_error_of_succeeds (getRequestEncode_succeeds req) b
  | setRequest req => exact not_error_of_succeeds (setRequestEncode_succeeds memory req) b
  | setResponse reply => exact not_error_of_succeeds (setReplyEncode_succeeds reply) b
  | actionRequest req => exact not_error_of_succeeds (actionRequestEncode_succeeds memory req) b
  | actionResponse reply => exact not_error_of_succeeds (actionReplyEncode_succeeds memory reply) b
  | generalBlock gbt =>
    refine (gbtEncode_error_iff gbt b).trans ?_
    have length : gbt.header.length = 6 + (dlmsLenBytes gbt.blockData.length).length := by
      simp only [GeneralBlock.header, List.length_append, List.length_cons, List.length_nil, length_beBytes]
      omega
    rw [length]
    rfl
  | getResponse reply =>
    constructor
    · intro failed
      by_contra unchecked
      obtain ⟨data, list⟩ := not_or.mp unchecked
      have succeeds : Succeeds (getReplyEncode memory reply) :=
        getReplyEncode_succeeds data fun kind => not_not.mp fun some => list ⟨kind, some⟩
      exact (not_error_of_succeeds succeeds b).mp failed
    · rintro (data | ⟨list, some⟩)
      · exact getReplyEncode_data_refused data full small
      · exact getReplyEncode_list_refused list some full small

/-- A GET response with an octet string of three bytes. -/
def smallReply : GetReply :=
  ⟨.data, 0xC1, .octetString [1, 2, 3], 0, 0, false, Vector.replicate 256 0, 0, []⟩

theorem encoder_reports_iff_data :
    ∃ bytes : List UInt8, bytes.length = 9 ∧ Puts ((ServiceMessage.getResponse smallReply).encode Pool.empty) bytes ∧
      ∃ e c, (ServiceMessage.getResponse smallReply).encode Pool.empty (WBuf.init 8) = .error e c := by
  have full : Puts ((ServiceMessage.getResponse smallReply).encode Pool.empty) [0xC4, 1, 0xC1, 0, 9, 3, 1, 2, 3] :=
    (writeEach_puts [0xC4, 1, 0xC1, 0]).andThen (writeValue_puts ((writeBytes_puts [9] _).andThen
      ((writeBytes_puts [3] _).andThen (writeBytes_puts [1, 2, 3] _))))
  exact ⟨_, rfl, full, (encoder_reports_iff _ _ full (by decide)).mpr (.inl rfl)⟩

/-- A SET response of four bytes is encoded into an area of three, without an error. -/
theorem set_response_cut_short :
    ∃ c, setReplyEncode ⟨.normal, 0xC1, 3, 0, []⟩ (WBuf.init 3) = .ok () c ∧ c.out = [0xC5, 1, 0xC1] ∧
      Puts (setReplyEncode ⟨.normal, 0xC1, 3, 0, []⟩) [0xC5, 1, 0xC1, 3] :=
  ⟨_, rfl, rfl, writeEach_puts _⟩

end OpenSpodes
