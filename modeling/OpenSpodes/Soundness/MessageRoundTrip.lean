import OpenSpodes.Proofs.ListCodec
import OpenSpodes.Soundness.ValueRoundTrip

/-! # Messages survive the wire

For each of the six messages: the encoder of a structure that carries it puts its bytes, and the decoder in front of
these bytes fills a structure that carries it, whatever that held before. There is one member that no decoder fills:
the access selection of a normal GET request is skipped, so the request that was decoded has the selection that lay in
its memory.
-/

namespace OpenSpodes

open Bytes Machine Machine.Fallible

variable {memory : Pool} {invokeId : UInt8} {α : Type} {message : GetRequestMessage} {req : GetRequest}
  {decode : Decode α} {bytes : List UInt8} {good : α → Pool → Prop}

/-! ## Lists without items -/

theorem Data.FitsList.items_eq {data : Data} (fits : data.FitsList) : data.items = [] := by
  cases data with
  | nest kind items => exact fits.2.elim
  | null | scalar | string | bits => rfl

theorem GetResultMessage.Fits.fitsPool {result : GetResultMessage} (fits : result.Fits) : result.content.FitsPool := by
  cases result with
  | data content => exact Data.FitsList.fitsPool fits
  | accessResult code => exact ⟨trivial, Nat.zero_le _⟩

theorem GetResultMessage.Fits.flat {result : GetResultMessage} (fits : result.Fits) : result.content.items = [] := by
  cases result with
  | data content => exact Data.FitsList.items_eq fits
  | accessResult code => rfl

theorem undisturbed_map {content : α → Data} {items : List α} (flat : ∀ item ∈ items, (content item).items = []) :
    Data.Undisturbed (items.map content) :=
  Data.undisturbed_of_flat (by simpa using flat)

/-! ## GET -/

theorem getRequestEncode_puts (names : req.Names invokeId message) :
    Puts (getRequestEncode req) (message.encode invokeId) := by
  obtain ⟨rfl, names⟩ := names
  cases message with
  | normal attr =>
    obtain ⟨kind, rfl⟩ := names
    rw [getRequestEncode, kind]
    exact (writeEach_puts _).andThen (attributeWrite_puts _)
  | next blockNumber =>
    obtain ⟨kind, rfl⟩ := names
    rw [getRequestEncode, kind]
    exact (writeEach_puts _).andThen (writeBytes_puts _ _).ignore
  | withList attrs =>
    obtain ⟨kind, rfl⟩ := names
    rw [getRequestEncode, kind]
    apply (writeEach_puts _).andThen
    refine .list (List.forall₂_eq_eq_eq ▸ rfl) fun attr _ _ same => ?_
    rw [← same]
    exact attributeWrite_puts attr

theorem getRequestDecode_decodes (fits : message.Fits) (old : GetRequest) :
    Restores (getRequestDecode old) (message.encode invokeId) fun req _ =>
      req.Names invokeId message ∧ ∀ attr, message = .normal attr → req.accessSelection = old.accessSelection := by
  cases message with
  | normal attr =>
    apply (requestHeader_decodes 0xC0 1 invokeId).bind
    apply (descriptorRead_decodes fits old.attr).bind
    exact skipAccessSelection_decodes.last (.pure fun _ => ⟨⟨rfl, rfl, rfl⟩, fun _ _ => rfl⟩)
  | next blockNumber =>
    apply (requestHeader_decodes 0xC0 2 invokeId).bind
    exact (Restores.u32 fits).attempt.last (.pure fun _ => ⟨⟨rfl, rfl, rfl⟩, by simp⟩)
  | withList attrs =>
    apply (requestHeader_decodes 0xC0 3 invokeId).bind
    refine list_decodes fits.1 (fun i attr member => unselected_last (fits.2 attr member) _) fun items _ all => ?_
    obtain rfl : items = attrs := List.forall₂_eq_eq_eq ▸ all
    exact ⟨⟨rfl, rfl, rfl⟩, by simp⟩

theorem getReplyEncode_puts {reply : GetReply} {message : GetResponseMessage} (fits : message.Fits)
    (carries : reply.Carries memory invokeId message) : Puts (getReplyEncode memory reply) (message.encode invokeId) := by
  cases message with
  | data content =>
    obtain ⟨rfl, kind, held⟩ := carries
    rw [getReplyEncode, kind]
    exact (writeEach_puts _).andThen (writeValue_puts (held.puts fits))
  | dataError code =>
    obtain ⟨rfl, kind, rfl⟩ := carries
    rw [getReplyEncode, kind]
    exact writeEach_puts _
  | block last blockNumber rawData =>
    obtain ⟨rfl, kind, -, rfl, -, raw⟩ := carries
    have puts : Puts (getResponseEncode memory reply.invokeIdPriority (.block last reply.blockNumber rawData.val)) _ :=
      (writeEach_puts _).andThen ((writeBytes_puts _ _).ignore.andThen ((writeEach_puts [0]).andThen
        ((writeBytes_puts _ _).ignore.andThen (writeEach_puts _))))
    rw [getReplyEncode, kind, raw]
    cases last
    · exact puts
    · exact puts
  | withList results => exact getReplyEncode_list (fun result member => (fits.2 result member).fitsPool) carries

theorem getResponseDecode_decodes {message : GetResponseMessage} (fits : message.Fits) (old : GetReply) :
    Restores (getResponseDecode old) (message.encode invokeId) fun reply pool =>
      reply.Carries pool invokeId message := by
  cases message with
  | data content =>
    apply ((getResponseDecode_data old fits).denotes fun _ known => known.2.2).mono
    intro reply pool ⟨known, held⟩
    exact ⟨known.1, known.2.1, held⟩
  | dataError code =>
    apply ((getResponseDecode_dataError old code).denotes fun _ _ => rfl).mono
    intro reply pool known
    exact known.1 pool
  | block last blockNumber rawData =>
    apply ((getResponseDecode_block old fits).denotes fun _ _ => rfl).mono
    intro reply pool known
    exact known.1 pool
  | withList results =>
    apply (getResponseDecode_list fits.1 (fun result member => (fits.2 result member).fitsPool) old).mono
    intro reply pool carries
    exact carries.mpr (undisturbed_map fun result member => (fits.2 result member).flat)

/-! ## SET -/

theorem setRequestEncode_puts {req : SetRequest} {message : SetRequestMessage} (fits : message.Fits)
    (carries : req.Carries memory invokeId message) : Puts (setRequestEncode memory req) (message.encode invokeId) := by
  cases message with
  | normal attr data =>
    obtain ⟨rfl, kind, rfl, held⟩ := carries
    rw [setRequestEncode, kind]
    exact (writeEach_puts _).andThen ((attributeWrite_puts _).andThen (held.puts fits.2).ignore)
  | firstDatablock attr block =>
    obtain ⟨rfl, kind, rfl, rfl⟩ := carries
    rw [setRequestEncode, kind]
    exact (writeEach_puts _).andThen ((attributeWrite_puts _).andThen (dataBlockWrite_puts _))
  | datablock block =>
    obtain ⟨rfl, kind, rfl⟩ := carries
    rw [setRequestEncode, kind]
    exact (writeEach_puts _).andThen (dataBlockWrite_puts _)
  | withList items => exact setRequestEncode_list (fun item member => (fits.2 item member).2.fitsPool) carries

theorem setRequestDecode_decodes {message : SetRequestMessage} (fits : message.Fits) (old : SetRequest) :
    Restores (setRequestDecode old) (message.encode invokeId) fun req pool => req.Carries pool invokeId message := by
  cases message with
  | normal attr data =>
    apply (requestHeader_decodes 0xC1 1 invokeId).bind
    apply unselected_decodes fits.1 old.attr
    exact (Restores.value fits.2.1 fits.2.2 old.data).map fun _ _ held => ⟨rfl, rfl, rfl, held⟩
  | firstDatablock attr block =>
    apply (requestHeader_decodes 0xC1 2 invokeId).bind
    apply unselected_decodes fits.1 old.attr
    exact (dataBlockSaDecode_decodes fits.2 old.datablock).last (.pure fun _ => ⟨rfl, rfl, rfl, rfl⟩)
  | datablock block =>
    apply (requestHeader_decodes 0xC1 3 invokeId).bind
    exact (dataBlockSaDecode_decodes fits old.datablock).last (.pure fun _ => ⟨rfl, rfl, rfl⟩)
  | withList items =>
    apply (setRequestDecode_list fits.1 (fun item member => (fits.2 item member).imp_right (·.fitsPool)) old).mono
    intro req pool carries
    exact carries.mpr (undisturbed_map fun item member => (fits.2 item member).2.items_eq)

theorem setReplyEncode_puts {reply : SetReply} {message : SetResponseMessage} (carries : reply.Carries invokeId message) :
    Puts (setReplyEncode reply) (message.encode invokeId) := by
  obtain ⟨rfl, carries⟩ := carries
  cases message with
  | normal code =>
    obtain ⟨kind, rfl⟩ := carries
    rw [setReplyEncode, kind]
    exact writeEach_puts _
  | datablock blockNumber =>
    obtain ⟨kind, rfl⟩ := carries
    rw [setReplyEncode, kind]
    exact (writeEach_puts _).andThen (writeBytes_puts _ _).ignore
  | lastDatablock code blockNumber =>
    obtain ⟨kind, rfl, rfl⟩ := carries
    rw [setReplyEncode, kind]
    exact (writeEach_puts _).andThen (writeBytes_puts _ _).ignore
  | withList codes =>
    obtain ⟨kind, rfl⟩ := carries
    rw [setReplyEncode, kind]
    have codes : reply.results.flatMap (fun code => [code]) = reply.results := by simp
    change Puts _ (_ ++ (dlmsLenBytes _ ++ reply.results.flatMap fun code => [code]))
    rw [codes]
    exact (writeEach_puts _).andThen ((writeBytes_puts _ _).ignore.andThen (writeEach_puts _))

theorem setResponseDecode_decodes {message : SetResponseMessage} (fits : message.Fits) (old : SetReply) :
    Restores (setResponseDecode old) (message.encode invokeId) fun reply _ => reply.Carries invokeId message := by
  cases message with
  | normal code =>
    change Restores _ ([0xC5, 1, invokeId] ++ [code]) _
    apply (requestHeader_decodes 0xC5 1 invokeId).bind
    exact (Restores.u8 code).last (.pure fun _ => ⟨rfl, rfl, rfl⟩)
  | datablock blockNumber =>
    apply (requestHeader_decodes 0xC5 2 invokeId).bind
    exact (Restores.u32 fits).attempt.last (.pure fun _ => ⟨rfl, rfl, rfl⟩)
  | lastDatablock code blockNumber =>
    change Restores _ ([0xC5, 3, invokeId] ++ ([code] ++ beBytes 4 blockNumber)) _
    apply (requestHeader_decodes 0xC5 3 invokeId).bind
    apply (Restores.u8 code).bind
    exact (Restores.u32 fits).attempt.last (.pure fun _ => ⟨rfl, rfl, rfl, rfl⟩)
  | withList codes =>
    apply (requestHeader_decodes 0xC5 5 invokeId).bind
    refine list_decodes fits (fun _ code _ => Restores.u8 code) fun results _ all => ?_
    obtain rfl : results = codes := List.forall₂_eq_eq_eq ▸ all
    exact ⟨rfl, rfl, rfl⟩

/-! ## ACTION -/

theorem actionRequestEncode_puts {req : ActionRequest} {message : ActionRequestMessage} (fits : message.Fits)
    (carries : req.Carries memory invokeId message) :
    Puts (actionRequestEncode memory req) (message.encode invokeId) := by
  cases message with
  | normal method data =>
    obtain ⟨rfl, kind, rfl, held⟩ := carries
    rw [actionRequestEncode, kind]
    exact (writeEach_puts _).andThen (invocationWrite_puts _ held fits.2)
  | nextParamBlock blockNumber =>
    obtain ⟨rfl, kind, rfl⟩ := carries
    rw [actionRequestEncode, kind]
    exact (writeEach_puts _).andThen (writeBytes_puts _ _).ignore
  | withList items => exact actionRequestEncode_list (fun item member => (fits.2 item member).2.fitsPool) carries
  | firstParamBlock method block =>
    obtain ⟨rfl, kind, rfl, rfl⟩ := carries
    rw [actionRequestEncode, kind]
    exact (writeEach_puts _).andThen ((descriptorWrite_puts _).ignore.andThen (dataBlockWrite_puts _))
  | paramBlock block =>
    obtain ⟨rfl, kind, rfl⟩ := carries
    rw [actionRequestEncode, kind]
    exact (writeEach_puts _).andThen (dataBlockWrite_puts _)

theorem actionRequestDecode_decodes {message : ActionRequestMessage} (fits : message.Fits) (old : ActionRequest) :
    Restores (actionRequestDecode old) (message.encode invokeId) fun req pool => req.Carries pool invokeId message := by
  cases message with
  | normal method data =>
    apply (requestHeader_decodes 0xC3 1 invokeId).bind
    apply (descriptorRead_decodes fits.1 old.method).bind
    exact ((actionParameter_deposits fits.2 old.data).denotes fun _ known => known).map
      fun _ _ held => ⟨rfl, rfl, rfl, held.2⟩
  | nextParamBlock blockNumber =>
    apply (requestHeader_decodes 0xC3 2 invokeId).bind
    exact (Restores.u32 fits).attempt.last (.pure fun _ => ⟨rfl, rfl, rfl⟩)
  | withList items =>
    apply (actionRequestDecode_list fits.1 (fun item member => (fits.2 item member).imp_right (·.fitsPool)) old).mono
    intro req pool carries
    exact carries.mpr (undisturbed_map fun item member => (fits.2 item member).2.items_eq)
  | firstParamBlock method block =>
    apply (requestHeader_decodes 0xC3 4 invokeId).bind
    apply (descriptorRead_decodes fits.1 old.method).bind
    exact (dataBlockSaDecode_decodes fits.2 old.paramBlock).last (.pure fun _ => ⟨rfl, rfl, rfl, rfl⟩)
  | paramBlock block =>
    apply (requestHeader_decodes 0xC3 6 invokeId).bind
    exact (dataBlockSaDecode_decodes fits old.paramBlock).last (.pure fun _ => ⟨rfl, rfl, rfl⟩)

theorem actionReplyEncode_puts {reply : ActionReply} {message : ActionResponseMessage} (fits : message.Fits)
    (carries : reply.Carries memory invokeId message) :
    Puts (actionReplyEncode memory reply) (message.encode invokeId) := by
  cases message with
  | normal code data =>
    obtain ⟨rfl, kind, rfl, held⟩ := carries
    rw [actionReplyEncode, kind]
    exact (writeEach_puts _).andThen (actionResultWrite_puts _ held fits)
  | paramBlock block =>
    obtain ⟨rfl, kind, rfl⟩ := carries
    rw [actionReplyEncode, kind]
    exact (writeEach_puts _).andThen (dataBlockWrite_puts _)
  | withList items => exact actionReplyEncode_list (fun item member => (fits.2 item member).fitsPool) carries
  | nextParamBlock blockNumber =>
    obtain ⟨rfl, kind, rfl⟩ := carries
    rw [actionReplyEncode, kind]
    exact (writeEach_puts _).andThen (writeBytes_puts _ _).ignore

theorem actionResponseDecode_decodes {message : ActionResponseMessage} (fits : message.Fits) (old : ActionReply) :
    Restores (actionResponseDecode old) (message.encode invokeId) fun reply pool =>
      reply.Carries pool invokeId message := by
  cases message with
  | normal code data =>
    apply (requestHeader_decodes 0xC7 1 invokeId).bind
    apply ((actionResultRead_deposits code fits old.returnData).denotes fun _ known => congrArg Prod.snd known).map
    rintro result pool ⟨rfl, held⟩
    exact ⟨rfl, rfl, rfl, held⟩
  | paramBlock block =>
    apply (requestHeader_decodes 0xC7 2 invokeId).bind
    exact (dataBlockSaDecode_decodes fits old.paramBlock).last (.pure fun _ => ⟨rfl, rfl, rfl⟩)
  | withList items =>
    apply (actionResponseDecode_list fits.1 (fun item member => (fits.2 item member).fitsPool) old).mono
    intro reply pool carries
    exact carries.mpr (undisturbed_map fun item member => (fits.2 item member).items_eq)
  | nextParamBlock blockNumber =>
    apply (requestHeader_decodes 0xC7 4 invokeId).bind
    exact (Restores.u32 fits).attempt.last (.pure fun _ => ⟨rfl, rfl, rfl⟩)

/-! ## Round trips -/

/-- Where there is room for the bytes they are written, and they are read back completely with a result of which `good`
holds. -/
def RoundTrips {α : Type} (encode : Write Unit) (decode : Decode α) (bytes : List UInt8) (good : α → Pool → Prop) :
    Prop :=
  ∀ b : WBuf, bytes.length ≤ b.free → ∃ c, encode b = .ok () c ∧ c.out = b.out ++ bytes ∧
    ∀ r : Reader, r.buf.Offers bytes → ∃ a after, decode r = .ok a after ∧ after.buf.unread = 0 ∧ good a after.pool

theorem Restores.whole (restores : Restores decode bytes good) {r : Reader} (offers : r.buf.Offers bytes) :
    ∃ a after, decode r = .ok a after ∧ after.buf.unread = 0 ∧ good a after.pool := by
  rw [← List.append_nil bytes] at offers
  obtain ⟨a, after, done, left, holds⟩ := restores r [] offers
  exact ⟨a, after, done, left.unread, holds⟩

theorem RoundTrips.of_puts {encode : Write Unit} (puts : Puts encode bytes) (restores : Restores decode bytes good) :
    RoundTrips encode decode bytes good := by
  intro b room
  obtain ⟨c, wrote, out, -⟩ := puts b room
  exact ⟨c, wrote, out, fun r offers => restores.whole offers⟩

theorem getRequest_round_trip_iff {old : GetRequest} (carries : req.Carries invokeId message) (fits : message.Fits) :
    RoundTrips (getRequestEncode req) (getRequestDecode old) (message.encode invokeId)
        (fun decoded _ => decoded.Carries invokeId message) ↔
      ((∃ attr, message = .normal attr) → old.accessSelection.type = .none) := by
  have puts := getRequestEncode_puts carries.1
  have restores := @getRequestDecode_decodes invokeId message fits old
  constructor
  · rintro trips ⟨attr, rfl⟩
    have short : (GetRequestMessage.encode invokeId (.normal attr)).length < 2 ^ 32 := by
      simp [GetRequestMessage.encode, Descriptor.encodeUnselected, Descriptor.encode]
    have offers := Buf.Offers.ofBytes short
    obtain ⟨c, -, -, reads⟩ := trips (WBuf.init _) (show _ ≤ _ - 0 from le_rfl)
    obtain ⟨decoded, after, read, -, -, selection⟩ := reads ⟨_, Pool.empty⟩ offers
    obtain ⟨decoded', after', read', -, -, kept⟩ := restores.whole (r := ⟨_, Pool.empty⟩) offers
    obtain ⟨rfl, -⟩ : decoded = decoded' ∧ after = after' := by simpa using read.symm.trans read'
    rw [← kept attr rfl]
    exact selection attr rfl
  · intro unselected
    apply RoundTrips.of_puts puts
    apply restores.mono
    intro decoded _ known
    refine ⟨known.1, fun attr normal => ?_⟩
    rw [known.2 attr normal]
    exact unselected ⟨attr, normal⟩

/-- Every message of every choice within the limits of the decoder is encoded and decoded to itself, into any structure;
for a normal GET request this takes a structure without an access selection. -/
theorem messages_round_trip (memory : Pool) (invokeId : UInt8) :
    (∀ req message old, GetRequest.Carries req invokeId message → message.Fits →
      (RoundTrips (getRequestEncode req) (getRequestDecode old) (message.encode invokeId)
          (fun decoded _ => decoded.Carries invokeId message) ↔
        ((∃ attr, message = .normal attr) → old.accessSelection.type = .none))) ∧
    (∀ reply message old, GetReply.Carries memory reply invokeId message → message.Fits →
      RoundTrips (getReplyEncode memory reply) (getResponseDecode old) (message.encode invokeId)
        fun decoded pool => decoded.Carries pool invokeId message) ∧
    (∀ req message old, SetRequest.Carries memory req invokeId message → message.Fits →
      RoundTrips (setRequestEncode memory req) (setRequestDecode old) (message.encode invokeId)
        fun decoded pool => decoded.Carries pool invokeId message) ∧
    (∀ reply message old, SetReply.Carries reply invokeId message → message.Fits →
      RoundTrips (setReplyEncode reply) (setResponseDecode old) (message.encode invokeId)
        fun decoded _ => decoded.Carries invokeId message) ∧
    (∀ req message old, ActionRequest.Carries memory req invokeId message → message.Fits →
      RoundTrips (actionRequestEncode memory req) (actionRequestDecode old) (message.encode invokeId)
        fun decoded pool => decoded.Carries pool invokeId message) ∧
    (∀ reply message old, ActionReply.Carries memory reply invokeId message → message.Fits →
      RoundTrips (actionReplyEncode memory reply) (actionResponseDecode old) (message.encode invokeId)
        fun decoded pool => decoded.Carries pool invokeId message) := by
  refine ⟨?_, ?_, ?_, ?_, ?_, ?_⟩
  · intro req message old carries fits
    exact getRequest_round_trip_iff carries fits
  · intro reply message old carries fits
    exact .of_puts (getReplyEncode_puts fits carries) (getResponseDecode_decodes fits old)
  · intro req message old carries fits
    exact .of_puts (setRequestEncode_puts fits carries) (setRequestDecode_decodes fits old)
  · intro reply message old carries fits
    exact .of_puts (setReplyEncode_puts carries) (setResponseDecode_decodes fits old)
  · intro req message old carries fits
    exact .of_puts (actionRequestEncode_puts fits carries) (actionRequestDecode_decodes fits old)
  · intro reply message old carries fits
    exact .of_puts (actionReplyEncode_puts fits carries) (actionResponseDecode_decodes fits old)

/-- The current value of a register, asked for without access selection. -/
def unselectedGet : GetRequest := { GetRequest.zero with invokeIdPriority := 0xC1, attr := ⟨3, Vector.replicate 6 1, 2⟩ }

/-- A request for the first two entries that was in the memory before. -/
def rangeGet : GetRequest := { GetRequest.zero with accessSelection := ⟨.byEntry, 1, 2⟩ }

theorem unselectedGet_carries : unselectedGet.Carries 0xC1 (.normal unselectedGet.attr) := ⟨⟨rfl, rfl, rfl⟩, fun _ _ => rfl⟩

theorem messages_round_trip_samples :
    RoundTrips (getRequestEncode unselectedGet) (getRequestDecode .zero) (GetRequestMessage.encode 0xC1 (.normal unselectedGet.attr))
        (fun decoded _ => decoded.Carries 0xC1 (.normal unselectedGet.attr)) ∧
      RoundTrips (setRequestEncode sampleMemory ⟨.normal, 0xC1, unselectedGet.attr, .struct 0 3, .zero, []⟩)
        (setRequestDecode .zero) (SetRequestMessage.encode 0xC1 (.normal unselectedGet.attr sampleTree))
        (fun decoded pool => decoded.Carries pool 0xC1 (.normal unselectedGet.attr sampleTree)) := by
  have fits : unselectedGet.attr.Fits := show 3 < 2 ^ 16 by decide
  constructor
  · exact ((messages_round_trip sampleMemory 0xC1).1 unselectedGet _ .zero unselectedGet_carries fits).mpr fun _ => rfl
  · exact (messages_round_trip sampleMemory 0xC1).2.2.1 _ (.normal unselectedGet.attr sampleTree) .zero
      ⟨rfl, rfl, rfl, sampleTree_denoted⟩ ⟨fits, sampleTree_fits, by decide⟩

/-- The request without selection is decoded completely, and its structure still asks for two entries. -/
theorem selection_left_over : (∃ c, getRequestEncode unselectedGet (WBuf.init 13) = .ok () c ∧
      c.out = [0xC0, 1, 0xC1, 0, 3, 1, 1, 1, 1, 1, 1, 2, 0]) ∧ ∃ decoded after, getRequestDecode rangeGet
        ⟨Buf.ofBytes [0xC0, 1, 0xC1, 0, 3, 1, 1, 1, 1, 1, 1, 2, 0], Pool.empty⟩ = .ok decoded after ∧
      after.buf.unread = 0 ∧ decoded.accessSelection = ⟨.byEntry, 1, 2⟩ ∧
      ¬decoded.Carries 0xC1 (.normal unselectedGet.attr) :=
  ⟨⟨_, rfl, rfl⟩, ⟨_, _, rfl, rfl, rfl, fun carries => absurd (carries.2 _ rfl) (by decide)⟩⟩

end OpenSpodes
