import OpenSpodes.Proofs.MessageCodec

/-! # Lists of values on the wire

A list message holds one value for each entry, and every value is read from the first place of the pool on. So what the
decoded entries stand for is decided when the last of them has been read: all their values refer to the pool as the last
ones left it. `Deposits` follows one entry, `Deposits.entries` the whole list, and the four lists of the protocol carry
what was encoded exactly when no value is disturbed by a later one.
-/

namespace OpenSpodes

open Bytes Machine Machine.Fallible

variable {item : Type} {results : List GetResultMessage}

/-! ## One entry -/

def SamePool (r t : Reader) : Prop := t.pool = r.pool

instance : IsPreorder Reader SamePool where
  refl _ := rfl
  trans _ _ _ first second := second.trans first

theorem onBuf_samePool {α : Type} (step : Read α) : Leaves SamePool (onBuf step) := by
  intro r
  cases outcome : step r.buf with
  | ok a b =>
    rw [finalState_of_ok (show onBuf step r = .ok a { r with buf := b } by simp only [onBuf, outcome])]
    rfl
  | error e b =>
    rw [finalState_of_error (show onBuf step r = .error e { r with buf := b } by simp only [onBuf, outcome])]
    rfl

theorem descriptorRead_samePool (old : Descriptor) : Leaves SamePool (descriptorRead old) := by
  apply (onBuf_samePool _).attempt.bind
  rintro (_ | classId)
  · exact .pure _
  apply (onBuf_samePool _).attempt.bind
  rintro (_ | instanceId)
  · exact .pure _
  apply (onBuf_samePool _).attempt.bind
  rintro (_ | id)
  · exact .pure _
  · exact .pure _

/-- In front of the bytes the decoder consumes them, succeeds and stores the data from the first place of the pool on. -/
def Deposits {α : Type} (decode : Decode α) (bytes : List UInt8) (data : Data) (good : α → Prop) : Prop :=
  ∀ (r : Reader) (rest : List UInt8), r.buf.Offers (bytes ++ rest) →
    ∃ a after, decode r = .ok a after ∧ after.buf.Offers rest ∧
      after.pool.slots = (data.store r.pool.reset).2.slots ∧ good a

namespace Deposits

variable {α β : Type} {bytes more : List UInt8} {data : Data} {good : α → Prop} {after : β → Prop} {decode : Decode α}

/-- A value is known by the data, whatever was there before. -/
theorem value (fits : data.FitsPool) (old : Value) : Deposits (readValue old) data.encode data (· = data.root) := by
  intro r rest offers
  obtain ⟨c, read, left, -⟩ := valueRead_stores_offered fits.1 fits.2 offers old
  refine ⟨data.root, ⟨c, (data.store r.pool.reset).2⟩, ?_, left, rfl, rfl⟩
  simp only [readValue, read]

/-- A first step that leaves the pool alone. -/
theorem behind {first : Decode α} {next : α → Decode β} {a : α} (leads : Restores first bytes fun a' _ => a' = a)
    (same : Leaves SamePool first) (rest : Deposits (next a) more data after) :
    Deposits (first >>= next) (bytes ++ more) data after := by
  intro r behind offers
  rw [List.append_assoc] at offers
  obtain ⟨a', s, done, left, rfl⟩ := leads r _ offers
  obtain ⟨b, t, doneNext, final, slots, holds⟩ := rest s behind left
  rw [show s.pool = r.pool from same.of_ok done] at slots
  exact ⟨b, t, (bind_of_ok done).trans doneNext, final, slots, holds⟩

theorem pure {a : α} (holds : good a) : Deposits (pure a) [] .null good :=
  fun r _ offers => ⟨a, r, rfl, offers, rfl, holds⟩

theorem check {c : Prop} [Decidable c] {err : Err} {next : Unit → Decode β} (passes : ¬c)
    (second : Deposits (next ()) bytes data after) : Deposits (failIf c err >>= next) bytes data after := by
  intro r rest offers
  rw [failIf_bind_of_not passes]
  exact second r rest offers

/-- Steps that leave the pool alone. -/
theorem nothing (restores : Restores decode bytes fun a _ => good a) (same : Leaves SamePool decode) :
    Deposits decode bytes .null good := by
  intro r rest offers
  obtain ⟨a, t, done, left, holds⟩ := restores r rest offers
  have kept : t.pool = r.pool := same.of_ok done
  exact ⟨a, t, done, left, show t.pool.slots = r.pool.slots by rw [kept], holds⟩

/-- The last step, which leaves the pool alone. -/
theorem last {first : Decode α} {next : α → Decode β} {a : α} (leads : Restores first bytes fun a' _ => a' = a)
    (same : Leaves SamePool first) (rest : Deposits (next a) [] data after) :
    Deposits (first >>= next) bytes data after := by
  have both := Deposits.behind leads same rest
  rwa [List.append_nil] at both

theorem map {f : α → β} (first : Deposits decode bytes data good) (holds : ∀ a, good a → after (f a)) :
    Deposits (decode >>= fun a => Pure.pure (f a)) bytes data after := by
  intro r rest offers
  obtain ⟨a, t, done, left, slots, known⟩ := first r rest offers
  exact ⟨f a, t, bind_of_ok done, left, slots, holds a known⟩

/-- A single entry carries what was encoded. -/
theorem denotes {value : α → Value} (deposits : Deposits decode bytes data good)
    (known : ∀ a, good a → value a = data.root) :
    Restores decode bytes fun a pool => good a ∧ (value a).Denotes pool data := by
  intro r rest offers
  obtain ⟨a, t, done, left, slots, holds⟩ := deposits r rest offers
  refine ⟨a, t, done, left, holds, ?_⟩
  rw [known a holds, Value.Denotes, slots, ← data.store_root r.pool]
  exact (data.store_held r.pool.reset).congr (Set.subset_univ _) fun _ _ => rfl

/-- Entry by entry: the pool shows all their data, read in this order. -/
theorem entries {item : Type} {read : ℕ → Decode α} {encode : item → List UInt8} {content : item → Data}
    {stands : α → item → Prop} {items : List item}
    (each : ∀ i, ∀ x ∈ items, Deposits (read i) (encode x) (content x) fun a => stands a x) (index : ℕ) :
    Restores (readEntries read items.length index) (items.flatMap encode)
      fun results pool => List.Forall₂ stands results items ∧ Data.Shows (items.map content) pool.slots := by
  intro r rest offers
  -- The induction is over the entries to come, for any data that the pool shows already.
  suffices ∀ seen, Data.Shows seen r.pool.slots → ∃ results after,
      readEntries read items.length index r = .ok results after ∧ after.buf.Offers rest ∧
        List.Forall₂ stands results items ∧ Data.Shows (seen ++ items.map content) after.pool.slots from
    this [] (.nil _)
  induction items generalizing index r with
  | nil =>
    intro seen shows
    exact ⟨[], r, rfl, offers, .nil, by simpa using shows⟩
  | cons x items ih =>
    intro seen shows
    rw [List.flatMap_cons, List.append_assoc] at offers
    obtain ⟨a, s, done, left, slots, first⟩ := each index x List.mem_cons_self r _ offers
    have stored := shows.store (content x)
    rw [← slots] at stored
    obtain ⟨results, t, doneRest, final, all, shown⟩ :=
      ih (fun i y member => each i y (List.mem_cons_of_mem x member)) (index + 1) s left _ stored
    refine ⟨a :: results, t, ?_, final, .cons first all, by simpa using shown⟩
    rw [List.length_cons, readEntries, bind_of_ok done, bind_of_ok doneRest]
    rfl

end Deposits

/-- Entries whose values are known by their data carry it when no value is disturbed. -/
theorem Data.Shows.carried_iff {α : Type} {content : item → Data} {stands carried : α → item → Prop}
    {results : List α} {items : List item} {memory : Pool} (shows : Data.Shows (items.map content) memory.slots)
    (all : List.Forall₂ stands results items) (fits : ∀ x ∈ items, (content x).Fits)
    (each : ∀ a x, stands a x → (carried a x ↔ (content x).root.Denotes memory (content x))) :
    List.Forall₂ carried results items ↔ Data.Undisturbed (items.map content) := by
  rw [← List.append_nil (items.map content)] at shows
  rw [Data.Undisturbed, ← shows.denote_iff (by simpa using fits), List.forall_mem_map]
  clear shows fits
  induction all with
  | nil => simp
  | cons first _ ih => rw [List.forall₂_cons, List.forall_mem_cons, ih, each _ _ first]

/-! ## GET responses -/

theorem requestHeader_samePool (tag : UInt8) : Leaves SamePool (requestHeader tag) := by
  apply (onBuf_samePool _).bind
  intro read
  refine (Leaves.failIf _ _).bind ?_
  intro _
  apply (onBuf_samePool _).bind
  intro type
  exact (onBuf_samePool _).bind fun _ => .pure _

theorem rawDataRead_samePool (left i : ℕ) (memory : Vector UInt8 256) : Leaves SamePool (rawDataRead left i memory) := by
  induction left generalizing i memory with
  | zero => exact .pure _
  | succ left ih =>
    apply (onBuf_samePool _).attempt.bind
    rintro (_ | byte)
    · exact ih _ _
    · exact ih _ _

section Responses

variable {invokeId : UInt8} (old : GetReply)

theorem getResponseDecode_data {data : Data} (fits : data.FitsPool) :
    Deposits (getResponseDecode old) (GetResponseMessage.encode invokeId (.data data)) data
      fun reply => reply.invokeIdPriority = invokeId ∧ reply.kind = .data ∧ reply.data = data.root := by
  apply Deposits.behind (requestHeader_decodes 0xC4 1 invokeId) (requestHeader_samePool _)
  apply Deposits.behind (.u8 0) (onBuf_samePool _)
  exact (Deposits.value fits old.data).map fun _ known => ⟨rfl, rfl, known⟩

/-- Errors and blocks leave the pool as it is. -/
theorem getResponseDecode_dataError (code : UInt8) :
    Deposits (getResponseDecode old) (GetResponseMessage.encode invokeId (.dataError code)) .null
      fun reply => ∀ memory, reply.Carries memory invokeId (.dataError code) := by
  change Deposits _ ([0xC4, 1, invokeId] ++ ([1] ++ [code])) _ _
  apply Deposits.behind (requestHeader_decodes 0xC4 1 invokeId) (requestHeader_samePool _)
  apply Deposits.behind (.u8 1) (onBuf_samePool _)
  exact .last (.u8 code) (onBuf_samePool _) (.pure fun _ => ⟨rfl, rfl, rfl⟩)

theorem getResponseDecode_block {last : Bool} {number : ℕ} {raw : BytesUpTo 256} (small : number < 2 ^ 32) :
    Deposits (getResponseDecode old) (GetResponseMessage.encode invokeId (.block last number raw)) .null
      fun reply => ∀ memory, reply.Carries memory invokeId (.block last number raw) := by
  have bounded := raw.property
  have flag : decide ((if last then (1 : UInt8) else 0) ≠ 0) = last := by cases last <;> rfl
  apply Deposits.behind (requestHeader_decodes 0xC4 2 invokeId) (requestHeader_samePool _)
  apply Deposits.behind (.u8 (if last then 1 else 0)) (onBuf_samePool _)
  apply Deposits.behind (Restores.u32 small).attempt (onBuf_samePool _).attempt
  apply Deposits.behind (.u8 0) (onBuf_samePool _)
  apply Deposits.check (not_not.mpr rfl)
  apply Deposits.behind (.len (show raw.val.length ≤ 0xFFFF by omega)) (onBuf_samePool _)
  apply Deposits.check (show ¬raw.val.length > 256 by omega)
  apply (Deposits.nothing (rawDataRead_decodes raw.val (show 0 + raw.val.length ≤ 256 by omega) old.rawData)
    (rawDataRead_samePool _ _ _)).map
  intro stored same memory
  refine ⟨rfl, ?_, flag, rfl, rfl, ?_⟩
  · cases last <;> rfl
  · simpa [GetReply.raw] using same

end Responses

/-! ## The four lists -/

section Entries

variable {data : Data} {result : GetResultMessage}

theorem actionParameter_deposits (fits : data.FitsPool) (old : Value) :
    Deposits (actionParameter old) (data.encodeOptional [1]) data (· = data.root) := by
  by_cases absent : data = .null
  · subst absent
    exact .last (.u8 0) (onBuf_samePool _) (.pure rfl)
  · rw [Data.encodeOptional_of_some absent]
    exact .behind (.u8 1) (onBuf_samePool _) (.value fits old)

theorem actionResultRead_deposits (code : UInt8) (fits : data.FitsPool) (old : Value) :
    Deposits (actionResultRead old) (encodeActionResult (code, data)) data (· = (code, data.root)) := by
  apply Deposits.behind (.u8 code) (onBuf_samePool _)
  by_cases absent : data = .null
  · subst absent
    exact .last (.u8 0) (onBuf_samePool _) (.pure rfl)
  · change Deposits _ (data.encodeOptional [1, 0]) _ _
    rw [Data.encodeOptional_of_some absent]
    apply Deposits.behind (.u8 1) (onBuf_samePool _)
    apply Deposits.behind (.u8 0) (onBuf_samePool _)
    exact (Deposits.value fits old).map fun _ known => congrArg _ known

/-- The item of a list, with the value that was read for its data. -/
def ReplyItem.Holds (item : ReplyItem) : GetResultMessage → Prop
  | .data data => item.isData = true ∧ item.data = data.root
  | .accessResult code => item.isData = false ∧ item.accessResult = code

theorem getResultRead_deposits (fits : result.content.FitsPool) (old : ReplyItem) :
    Deposits (getResultRead old) result.encode result.content fun item => item.Holds result := by
  cases result with
  | data content =>
    apply Deposits.behind (Restores.u8 0).attempt (onBuf_samePool _).attempt
    exact (Deposits.value fits old.data).map fun _ known => ⟨rfl, known⟩
  | accessResult code =>
    change Deposits _ ([1] ++ [code]) _ _
    apply Deposits.behind (Restores.u8 1).attempt (onBuf_samePool _).attempt
    exact .last (Restores.u8 code).attempt (onBuf_samePool _).attempt (.pure ⟨rfl, rfl⟩)

theorem ReplyItem.Holds.carries_iff {item : ReplyItem} (holds : item.Holds result) (memory : Pool) :
    item.Carries memory result ↔ result.content.root.Denotes memory result.content := by
  cases result with
  | data content =>
    obtain ⟨isData, value⟩ := holds
    change item.isData = true ∧ item.data.Denotes memory content ↔ content.root.Denotes memory content
    rw [value, and_iff_right isData]
  | accessResult code => exact iff_of_true holds rfl

end Entries

/-- The number of a list and its entries, behind which nothing is read. -/
theorem list_deposits {α β : Type} {read : ℕ → Decode α} {encode : item → List UInt8} {content : item → Data}
    {stands : α → item → Prop} {carried : Pool → α → item → Prop} {items : List item} {next : List α → β}
    {good : β → Pool → Prop} (few : items.length ≤ xdlmsMaxList) (fits : ∀ x ∈ items, (content x).FitsPool)
    (each : ∀ i, ∀ x ∈ items, Deposits (read i) (encode x) (content x) fun a => stands a x)
    (known : ∀ memory a x, stands a x → (carried memory a x ↔ (content x).root.Denotes memory (content x)))
    (holds : ∀ results pool,
      (List.Forall₂ (carried pool) results items ↔ Data.Undisturbed (items.map content)) → good (next results) pool) :
    Restores (do
      let count ← listCount
      let results ← readEntries read count 0
      return next results) (encodeEntries encode items) good := by
  apply (listCount_decodes few).bind
  apply (Deposits.entries each 0).map
  rintro results pool ⟨all, shows⟩
  exact holds results pool (shows.carried_iff all (fun x member => (fits x member).1) (known pool))

theorem carriesItem_iff {α : Type} (memory : Pool) (item : α × Value) (content : α × Data)
    (holds : item = (content.1, content.2.root)) :
    CarriesItem memory item content ↔ content.2.root.Denotes memory content.2 := by
  rw [holds]
  exact and_iff_right rfl

variable {memory : Pool} {invokeId : UInt8}

theorem getReplyEncode_list {reply : GetReply} (fits : ∀ result ∈ results, result.content.FitsPool)
    (carries : reply.Carries memory invokeId (.withList results)) :
    Puts (getReplyEncode memory reply) (GetResponseMessage.encode invokeId (.withList results)) := by
  obtain ⟨rfl, kind, all⟩ := carries
  rw [getReplyEncode, kind]
  apply (writeEach_puts _).andThen
  exact .list all fun item result member carried => replyItemEncode_puts (fits result member) carried

theorem getResponseDecode_list (few : results.length ≤ xdlmsMaxList)
    (fits : ∀ result ∈ results, result.content.FitsPool) (old : GetReply) :
    Restores (getResponseDecode old) (GetResponseMessage.encode invokeId (.withList results)) fun reply pool =>
      reply.Carries pool invokeId (.withList results) ↔ Data.Undisturbed (results.map GetResultMessage.content) := by
  apply (requestHeader_decodes 0xC4 3 invokeId).bind
  refine list_deposits few fits (fun i result member => getResultRead_deposits (fits result member) _)
    (fun memory item result holds => holds.carries_iff memory) fun items pool carried => ?_
  rw [← carried]
  exact ⟨fun carries => carries.2.2, fun all => ⟨rfl, rfl, all⟩⟩

variable {items : List (Descriptor × Data)}

theorem setRequestEncode_list {req : SetRequest} (fits : ∀ item ∈ items, item.2.FitsPool)
    (carries : req.Carries memory invokeId (.withList items)) :
    Puts (setRequestEncode memory req) (SetRequestMessage.encode invokeId (.withList items)) := by
  obtain ⟨rfl, kind, all⟩ := carries
  have attrs : Puts (do ignore (dlmsWriteLen req.items.length); req.items.forM fun item => attributeWrite item.1)
      (encodeEntries (fun item => item.1.encodeUnselected) items) := by
    refine .list all fun item content _ carried => ?_
    rw [← carried.1]
    exact attributeWrite_puts item.1
  have values : Puts (do
        ignore (dlmsWriteLen req.items.length)
        req.items.forM fun item => ignore (valueWrite memory item.2)) (encodeEntries (fun item => item.2.encode) items) :=
    .list all fun _ content member carried => (carried.2.puts (fits content member)).ignore
  have both := (writeEach_puts [0xC1, 4, req.invokeIdPriority]).andThen (attrs.andThen values)
  rw [setRequestEncode, kind]
  simp only [bind_assoc] at both
  exact both

/-- Descriptors and values that were read apart. -/
theorem forall₂_zip_root {values : List Value}
    (all : List.Forall₂ (fun value item => value = item.2.root) values items) :
    List.Forall₂ (fun entry item => entry = (item.1, item.2.root)) ((items.map Prod.fst).zip values) items := by
  induction all with
  | nil => exact .nil
  | cons first _ ih => exact .cons (by rw [first]) ih

theorem setListDecode_decodes (few : items.length ≤ xdlmsMaxList)
    (fits : ∀ item ∈ items, item.1.Fits ∧ item.2.FitsPool) (old : List (Descriptor × Value)) :
    Restores (setListDecode old) (encodeEntries (fun item => item.1.encodeUnselected) items ++
        encodeEntries (fun item => item.2.encode) items)
      fun results pool => List.Forall₂ (CarriesItem pool) results items ↔ Data.Undisturbed (items.map Prod.snd) := by
  have attrs (index : ℕ) : Restores (readEntries (fun i => do
      let attr ← descriptorRead (old.getD i (.zero, .null)).1
      ignore skipAccessSelection
      return attr) items.length index) (items.flatMap fun item => item.1.encodeUnselected)
        fun results _ => results = items.map Prod.fst := by
    refine (Restores.entries items (fun i item member => unselected_last (fits item member).1 _) index).mono ?_
    intro results _ all
    rw [← List.forall₂_eq_eq_eq, List.forall₂_map_right_iff]
    exact all
  rw [encodeEntries, encodeEntries, List.append_assoc]
  apply (listCount_decodes few).bind
  apply (attrs 0).bind
  apply (Restores.len (few.trans (by decide))).attempt.bind
  apply Restores.check (not_not.mpr rfl)
  apply (Deposits.entries (fun i item member =>
    Deposits.value (fits item member).2 (old.getD i (.zero, .null)).2) 0).map
  rintro values pool ⟨all, shows⟩
  exact shows.carried_iff (forall₂_zip_root all) (fun item member => (fits item member).2.1) (carriesItem_iff pool)

theorem setRequestDecode_list (few : items.length ≤ xdlmsMaxList)
    (fits : ∀ item ∈ items, item.1.Fits ∧ item.2.FitsPool) (old : SetRequest) :
    Restores (setRequestDecode old) (SetRequestMessage.encode invokeId (.withList items)) fun req pool =>
      req.Carries pool invokeId (.withList items) ↔ Data.Undisturbed (items.map Prod.snd) := by
  apply (requestHeader_decodes 0xC1 4 invokeId).bind
  apply (setListDecode_decodes few fits old.items).map
  intro results pool carried
  rw [← carried]
  exact ⟨fun carries => carries.2.2, fun all => ⟨rfl, rfl, all⟩⟩

theorem actionRequestEncode_list {req : ActionRequest} (fits : ∀ item ∈ items, item.2.FitsPool)
    (carries : req.Carries memory invokeId (.withList items)) :
    Puts (actionRequestEncode memory req) (ActionRequestMessage.encode invokeId (.withList items)) := by
  obtain ⟨rfl, kind, all⟩ := carries
  rw [actionRequestEncode, kind]
  apply (writeEach_puts _).andThen
  refine .list all fun item content member carried => ?_
  rw [carried.1]
  exact invocationWrite_puts content.1 carried.2 (fits content member)

theorem actionRequestDecode_list (few : items.length ≤ xdlmsMaxList)
    (fits : ∀ item ∈ items, item.1.Fits ∧ item.2.FitsPool) (old : ActionRequest) :
    Restores (actionRequestDecode old) (ActionRequestMessage.encode invokeId (.withList items)) fun req pool =>
      req.Carries pool invokeId (.withList items) ↔ Data.Undisturbed (items.map Prod.snd) := by
  have entry (i : ℕ) (item : Descriptor × Data) (member : item ∈ items) : Deposits (do
      let method ← descriptorRead (old.items.getD i (.zero, .null)).1
      let data ← actionParameter (old.items.getD i (.zero, .null)).2
      return (method, data)) (encodeInvocation item) item.2 fun a => a = (item.1, item.2.root) := by
    apply Deposits.behind (descriptorRead_decodes (fits item member).1 _) (descriptorRead_samePool _)
    exact (actionParameter_deposits (fits item member).2 _).map fun _ known => congrArg _ known
  apply (requestHeader_decodes 0xC3 3 invokeId).bind
  refine list_deposits few (fun item member => (fits item member).2) entry carriesItem_iff fun results pool carried => ?_
  rw [← carried]
  exact ⟨fun carries => carries.2.2, fun all => ⟨rfl, rfl, all⟩⟩

theorem actionReplyEncode_list {reply : ActionReply} {items : List (UInt8 × Data)}
    (fits : ∀ item ∈ items, item.2.FitsPool) (carries : reply.Carries memory invokeId (.withList items)) :
    Puts (actionReplyEncode memory reply) (ActionResponseMessage.encode invokeId (.withList items)) := by
  obtain ⟨rfl, kind, all⟩ := carries
  rw [actionReplyEncode, kind]
  apply (writeEach_puts _).andThen
  refine .list all fun item content member carried => ?_
  rw [carried.1]
  exact actionResultWrite_puts content.1 carried.2 (fits content member)

theorem actionResponseDecode_list {items : List (UInt8 × Data)} (few : items.length ≤ xdlmsMaxList)
    (fits : ∀ item ∈ items, item.2.FitsPool) (old : ActionReply) :
    Restores (actionResponseDecode old) (ActionResponseMessage.encode invokeId (.withList items)) fun reply pool =>
      reply.Carries pool invokeId (.withList items) ↔ Data.Undisturbed (items.map Prod.snd) := by
  apply (requestHeader_decodes 0xC7 3 invokeId).bind
  refine list_deposits few fits (fun i item member => actionResultRead_deposits item.1 (fits item member) _)
    carriesItem_iff fun results pool carried => ?_
  rw [← carried]
  exact ⟨fun carries => carries.2.2, fun all => ⟨rfl, rfl, all⟩⟩

end OpenSpodes
