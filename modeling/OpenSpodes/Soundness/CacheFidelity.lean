import Mathlib.Data.List.ReduceOption
import OpenSpodes.Model.Concentrator
import OpenSpodes.Soundness.ListedValues
import OpenSpodes.Soundness.RegistryMap
import OpenSpodes.Soundness.ResponseMatching

/-! # What the concentrator's cache holds

A poll copies the values that it reads into the cache of the registry. The copies are kept, under their keys, whatever is
polled later; but the items of an array or a structure are in the pool of the decoder, and every later read, of the same
meter or of another one, starts again at the first place of that pool. So a cached value is still the one that was read
exactly when the later values have put the same items into its places.
-/

namespace OpenSpodes

open Machine

variable {result : Option Data} {data : Data} {acc apdu : List UInt8} {taken : List (List UInt8)} {gbtEnabled : Bool}
  {results : List (Option Data)}

/-! ## What a meter answers -/

/-- What the responses of a block transfer deliver, behind the raw data that was collected before. -/
inductive BlocksDeliver : List UInt8 → List (List UInt8) → Option Data → Prop
  | stopped {acc : List UInt8} : BlocksDeliver acc [] none
  | refused {acc : List UInt8} {invokeId code : UInt8} :
      BlocksDeliver acc [GetResponseMessage.encode invokeId (.dataError code)] none
  | block {acc : List UInt8} {invokeId : UInt8} {number : ℕ} {raw : BytesUpTo 256} {taken : List (List UInt8)}
      {result : Option Data} : number < 2 ^ 32 → (acc ++ raw.val).length ≤ clientReassembleMax →
      BlocksDeliver (acc ++ raw.val) taken result →
      BlocksDeliver acc (GetResponseMessage.encode invokeId (.block false number raw) :: taken) result
  | tooLong {acc : List UInt8} {invokeId : UInt8} {last : Bool} {number : ℕ} {raw : BytesUpTo 256} :
      number < 2 ^ 32 → clientReassembleMax < (acc ++ raw.val).length →
      BlocksDeliver acc [GetResponseMessage.encode invokeId (.block last number raw)] none
  | last {acc : List UInt8} {invokeId : UInt8} {number : ℕ} {raw : BytesUpTo 256} {data : Data} :
      number < 2 ^ 32 → acc ++ raw.val = data.encode → data.FitsPool → data.encode.length ≤ clientReassembleMax →
      BlocksDeliver acc [GetResponseMessage.encode invokeId (.block true number raw)] (some data)

/-- What the responses to one read deliver: data within the limits of the decoder, in one response or in blocks, or
nothing. -/
inductive GetDelivers (gbtEnabled : Bool) : List (List UInt8) → Option Data → Prop
  | silent : GetDelivers gbtEnabled [] none
  | refused {invokeId code : UInt8} : GetDelivers gbtEnabled [GetResponseMessage.encode invokeId (.dataError code)] none
  | data {invokeId : UInt8} {data : Data} : data.FitsPool →
      GetDelivers gbtEnabled [GetResponseMessage.encode invokeId (.data data)] (some data)
  | unexpected {invokeId : UInt8} {last : Bool} {number : ℕ} {raw : BytesUpTo 256} : gbtEnabled = true →
      number < 2 ^ 32 → GetDelivers gbtEnabled [GetResponseMessage.encode invokeId (.block last number raw)] none
  | blocks {taken : List (List UInt8)} {result : Option Data} : gbtEnabled = false → BlocksDeliver [] taken result →
      GetDelivers gbtEnabled taken result

/-- How a read ends that was delivered something: without data it fails and leaves the pool, with data it returns and
stores them. -/
def Got (before : Pool) : Option Data → Err × Value → Pool → Prop
  | none, returned, after => returned.1 ≠ .ok ∧ after.slots = before.slots
  | some data, returned, after =>
      data.FitsPool ∧ returned = (.ok, data.root) ∧ after.slots = (data.store before.reset).2.slots

theorem Got.of_slots {before before' after : Pool} {returned : Err × Value} (same : before.slots = before'.slots)
    (got : Got before result returned after) : Got before' result returned after := by
  cases result with
  | none => exact ⟨got.1, got.2.trans same⟩
  | some data =>
    have reset : before.reset = before'.reset := by rw [Pool.reset, Pool.reset, same]
    rw [Got, ← reset]
    exact got

/-! ## One read -/

/-- A decoder at the bytes of a message, whatever the pool holds. -/
theorem Deposits.decoded {α : Type} {decode : Decode α} {bytes : List UInt8} {good : α → Prop}
    (deposits : Deposits decode bytes data good) (short : bytes.length < 2 ^ 32) (pool : Pool) :
    ∃ a reader, decode ⟨Buf.ofBytes bytes, pool⟩ = .ok a reader ∧
      reader.pool.slots = (data.store pool.reset).2.slots ∧ good a := by
  have offers : (Buf.ofBytes bytes).Offers (bytes ++ []) := by simpa using .ofBytes short
  obtain ⟨a, reader, done, -, slots, holds⟩ := deposits ⟨_, pool⟩ [] offers
  exact ⟨a, reader, done, slots, holds⟩

theorem length_block_lt (invokeId : UInt8) (last : Bool) (number : ℕ) (raw : BytesUpTo 256) :
    (GetResponseMessage.encode invokeId (.block last number raw)).length < 2 ^ 32 := by
  have bounded := raw.property
  have length := dlmsLenBytes_length_le (show raw.val.length ≤ 0xFFFF by omega)
  simp only [GetResponseMessage.encode, List.length_append, List.length_cons, List.length_nil, Bytes.length_beBytes]
  omega

theorem length_data_lt (invokeId : UInt8) (fits : data.FitsPool) :
    (GetResponseMessage.encode invokeId (.data data)).length < 2 ^ 32 := by
  have few : data.slots ≤ 512 := fits.2
  have length := Data.length_encode_le fits.1
  simp only [GetResponseMessage.encode, List.length_append, List.length_cons, List.length_nil]
  omega

/-- The situation of the block loop at a response, with the responses still to come. -/
inductive Pending (acc : List UInt8) (resp : GetReply) : List (List UInt8) → Option Data → Prop
  | refused : resp.kind = .dataError → Pending acc resp [] none
  | tooLong : clientReassembleMax < (acc ++ resp.raw).length → Pending acc resp [] none
  | block {taken : List (List UInt8)} {result : Option Data} : resp.kind = .block → resp.lastBlock = false →
      (acc ++ resp.raw).length ≤ clientReassembleMax → BlocksDeliver (acc ++ resp.raw) taken result →
      Pending acc resp taken result
  | last {data : Data} : resp.kind = .blockLast → resp.lastBlock = true → acc ++ resp.raw = data.encode → data.FitsPool →
      data.encode.length ≤ clientReassembleMax → Pending acc resp [] (some data)

/-- The next response of a block transfer is decoded and leaves the pool alone. -/
theorem BlocksDeliver.next (delivers : BlocksDeliver acc (apdu :: taken) result) (old : GetReply) (pool : Pool) :
    ∃ reply reader, getResponseDecode old ⟨Buf.ofBytes apdu, pool⟩ = .ok reply reader ∧ reader.pool.slots = pool.slots ∧
      Pending acc reply taken result ∧ reply.kind ≠ .data := by
  cases delivers with
  | refused =>
    obtain ⟨reply, reader, done, slots, carries⟩ := (getResponseDecode_dataError old _).decoded (show 5 < 2 ^ 32 by decide) pool
    exact ⟨reply, reader, done, slots, .refused (carries pool).2.1, by simp [(carries pool).2.1]⟩
  | block small room rest =>
    obtain ⟨reply, reader, done, slots, carries⟩ :=
      (getResponseDecode_block old small).decoded (length_block_lt _ _ _ _) pool
    obtain ⟨-, kind, flag, -, -, raw⟩ := carries pool
    rw [← raw] at room rest
    exact ⟨reply, reader, done, slots, .block kind flag room rest, by simp [kind]⟩
  | tooLong small long =>
    obtain ⟨reply, reader, done, slots, carries⟩ :=
      (getResponseDecode_block old small).decoded (length_block_lt _ _ _ _) pool
    obtain ⟨-, kind, flag, -, -, raw⟩ := carries pool
    rw [← raw] at long
    exact ⟨reply, reader, done, slots, .tooLong long, by rw [kind]; split <;> simp⟩
  | last small whole fits short =>
    obtain ⟨reply, reader, done, slots, carries⟩ :=
      (getResponseDecode_block old small).decoded (length_block_lt _ _ _ _) pool
    obtain ⟨-, kind, flag, -, -, raw⟩ := carries pool
    rw [← raw] at whole
    exact ⟨reply, reader, done, slots, .last kind flag whole fits short, by simp [kind]⟩

theorem Pending.of_dataError {resp : GetReply} (pending : Pending acc resp taken result)
    (kind : resp.kind = .dataError) : result = none := by
  cases pending with
  | refused | tooLong => rfl
  | block other | last other => simp [kind] at other

theorem GetDelivers.of_nil (delivers : GetDelivers gbtEnabled [] result) : result = none := by
  cases delivers with
  | silent => rfl
  | blocks _ blocks =>
    cases blocks
    rfl

/-- The first response has data, which were stored, or it left the pool alone and is the end or the start of a block
transfer. -/
def FirstReply (gbtEnabled : Bool) (taken : List (List UInt8)) (result : Option Data) (pool : Pool) (reply : GetReply)
    (after : Pool) : Prop :=
  (reply.kind = .data ∧ Got pool result (.ok, reply.data) after) ∨
    reply.kind ≠ .data ∧ after.slots = pool.slots ∧
      (result = none ∧ (reply.kind = .dataError ∨ gbtEnabled = true) ∨ gbtEnabled = false ∧ Pending [] reply taken result)

theorem GetDelivers.first (delivers : GetDelivers gbtEnabled (apdu :: taken) result) (old : GetReply) (pool : Pool) :
    ∃ reply reader, getResponseDecode old ⟨Buf.ofBytes apdu, pool⟩ = .ok reply reader ∧
      FirstReply gbtEnabled taken result pool reply reader.pool := by
  cases delivers with
  | refused =>
    obtain ⟨reply, reader, done, slots, carries⟩ :=
      (getResponseDecode_dataError old _).decoded (show 5 < 2 ^ 32 by decide) pool
    have kind := (carries pool).2.1
    exact ⟨reply, reader, done, .inr ⟨by simp [kind], slots, .inl ⟨rfl, .inl kind⟩⟩⟩
  | data fits =>
    obtain ⟨reply, reader, done, slots, -, kind, value⟩ :=
      (getResponseDecode_data old fits).decoded (length_data_lt _ fits) pool
    exact ⟨reply, reader, done, .inl ⟨kind, fits, by rw [value], slots⟩⟩
  | unexpected gbt small =>
    obtain ⟨reply, reader, done, slots, carries⟩ :=
      (getResponseDecode_block old small).decoded (length_block_lt _ _ _ _) pool
    have kind := (carries pool).2.1
    exact ⟨reply, reader, done, .inr ⟨by rw [kind]; split <;> simp, slots, .inl ⟨rfl, .inr gbt⟩⟩⟩
  | blocks plain blocks =>
    obtain ⟨reply, reader, done, slots, pending, kind⟩ := blocks.next old pool
    exact ⟨reply, reader, done, .inr ⟨kind, slots, .inr ⟨plain, pending⟩⟩⟩

section Read

variable {hal : Hal} {stale : List UInt8} {c after : Client} {returned : Err × Value} {old : Value}

/-- The value behind a block transfer is read like that of a single response. -/
theorem clientReadValue_got (fits : data.FitsPool) (short : data.encode.length ≤ clientReassembleMax)
    (read : clientReadValue old data.encode c = some (returned, after)) :
    Got c.pool (some data) returned after.pool := by
  have offers : (Buf.ofBytes data.encode).Offers (data.encode ++ []) := by
    simpa using .ofBytes (short.trans_lt (by decide))
  obtain ⟨d, stored, -, -⟩ := valueRead_stores_offered (r := ⟨Buf.ofBytes data.encode, c.pool⟩) fits.1 fits.2 offers old
  simp only [clientReadValue, get_bind_apply, stored, set_bind_apply, pure_apply, Option.some.injEq,
    Prod.mk.injEq] at read
  obtain ⟨rfl, rfl⟩ := read
  exact ⟨fits, rfl, rfl⟩

/-- The block loop takes responses, and ends as what they deliver demands. -/
theorem clientGetBlocks_got {invoke : UInt8} {rounds : ℕ} {resp : GetReply}
    (loop : clientGetBlocks (Port.alone hal stale) invoke old rounds resp acc c = some (returned, after)) :
    ∃ taken, after.responses = c.responses ++ taken ∧
      ∀ result, Pending acc resp taken result → Got c.pool result returned after.pool := by
  induction rounds using Nat.strong_induction_on generalizing resp acc c with
  | _ rounds ih =>
    unfold clientGetBlocks at loop
    dsimp only at loop
    split_ifs at loop with isBlock long flagged isLast
    · obtain ⟨rfl, rfl⟩ : (Err.nomem, old) = returned ∧ c = after := by simpa using loop
      refine ⟨[], by simp, fun result pending => ?_⟩
      cases pending with
      | refused kind => simp [kind] at isBlock
      | tooLong => exact ⟨by simp, rfl⟩
      | block _ _ room => omega
      | last _ _ whole _ short => rw [← whole] at short; omega
    · rw [Port.alone_run] at loop
      refine ⟨[], by simpa using (clientReadValue_responses loop).1, fun result pending => ?_⟩
      cases pending with
      | refused kind => simp [kind] at isBlock
      | tooLong more => omega
      | block _ notLast => simp [notLast] at flagged
      | last _ _ whole fits short =>
        rw [whole] at loop
        exact clientReadValue_got fits short loop
    · obtain ⟨rfl, rfl⟩ : (Err.invalid, old) = returned ∧ c = after := by simpa using loop
      refine ⟨[], by simp, fun result pending => ?_⟩
      cases pending with
      | refused kind => exact ⟨by simp, rfl⟩
      | tooLong more => omega
      | block _ notLast => simp [notLast] at flagged
      | last kind => exact absurd kind isLast
    · cases rounds with
      | zero => cases loop
      | succ rounds =>
        obtain ⟨answer, t, exchanged, rest⟩ := bind_eq_some.mp loop
        rcases exchange_concluded exchanged with ⟨err, rfl, bad, none⟩ | ⟨apdu, taken, -, decoded⟩
        · obtain ⟨rfl, rfl⟩ : (err, old) = returned ∧ t = after := by simpa using rest
          refine ⟨[], by simpa using none.responses, fun result pending => ?_⟩
          cases pending with
          | refused kind => exact ⟨bad, by rw [none.pool]⟩
          | tooLong more => omega
          | block _ _ _ delivers =>
            cases delivers
            exact ⟨bad, by rw [none.pool]⟩
          | last _ isLast => simp [isLast] at flagged
        · rcases decoded with ⟨reply, reader, decoded, rfl, pool⟩ | ⟨e, reader, decoded, rfl, -⟩
          · obtain ⟨more, takenMore, got⟩ := ih rounds (Nat.lt_succ_self rounds) rest
            refine ⟨apdu :: more, by simp [takenMore, taken], fun result pending => ?_⟩
            cases pending with
            | block _ _ _ delivers =>
              obtain ⟨reply', reader', done, slots, pending, -⟩ := delivers.next resp c.pool
              obtain ⟨rfl, rfl⟩ : reply' = reply ∧ reader' = reader := by simpa using done.symm.trans decoded
              rw [← pool] at slots
              exact (got result pending).of_slots slots
          · obtain ⟨rfl, rfl⟩ : (Err.invalid, old) = returned ∧ t = after := by simpa using rest
            refine ⟨[apdu], taken, fun result pending => ?_⟩
            cases pending with
            | block _ _ _ delivers =>
              obtain ⟨reply, reader', done, -⟩ := delivers.next resp c.pool
              cases done.symm.trans decoded
    · obtain ⟨rfl, rfl⟩ : (Err.invalid, old) = returned ∧ c = after := by simpa using loop
      refine ⟨[], by simp, fun result pending => ?_⟩
      cases pending with
      | refused | tooLong => exact ⟨by simp, rfl⟩
      | block kind => exact absurd (.inl kind) isBlock
      | last kind => exact absurd (.inr kind) isBlock

theorem GetDelivers.first_of_decoded {stack reply : GetReply} {reader : Reader} {pool : Pool}
    (delivers : GetDelivers gbtEnabled (apdu :: taken) result)
    (decoded : getResponseDecode stack ⟨Buf.ofBytes apdu, pool⟩ = .ok reply reader) :
    FirstReply gbtEnabled taken result pool reply reader.pool := by
  obtain ⟨reply', reader', done, ends⟩ := delivers.first stack pool
  obtain ⟨rfl, rfl⟩ : reply' = reply ∧ reader' = reader := by simpa using done.symm.trans decoded
  exact ends

/-- A read takes responses, and ends as what they deliver demands. -/
theorem clientGet_got {stack : GetReply} {rounds : ℕ} {attr : Descriptor}
    (called : clientGet (Port.alone hal stale) stack rounds attr old c = some (returned, after)) :
    ∃ taken, after.responses = c.responses ++ taken ∧
      ∀ result, GetDelivers c.gbtEnabled taken result → Got c.pool result returned after.pool := by
  simp only [clientGet, get_bind_apply] at called
  split_ifs at called with associated
  · obtain ⟨rfl, rfl⟩ : (Err.invalid, old) = returned ∧ c = after := by simpa using called
    refine ⟨[], by simp, fun result delivers => ?_⟩
    rw [delivers.of_nil]
    exact ⟨by simp, rfl⟩
  rw [Port.alone_run] at called
  obtain ⟨invoke, t, counted, called⟩ := bind_eq_some.mp called
  have same : Unanswered c t := by
    cases counted
    exact ⟨rfl, rfl, rfl⟩
  obtain ⟨answer, u, exchanged, called⟩ := bind_eq_some.mp called
  rcases exchange_concluded exchanged with ⟨err, rfl, bad, none⟩ | ⟨apdu, taken, gbt, decoded⟩
  · obtain ⟨rfl, rfl⟩ : (err, old) = returned ∧ u = after := by simpa using called
    have none := same.trans none
    refine ⟨[], by simpa using none.responses, fun result delivers => ?_⟩
    rw [delivers.of_nil]
    exact ⟨bad, by rw [none.pool]⟩
  rw [same.responses] at taken
  rw [same.gbtEnabled] at gbt
  rw [same.pool] at decoded
  rcases decoded with ⟨reply, reader, decoded, rfl, pool⟩ | ⟨e, reader, decoded, rfl, -⟩
  · cases kind : reply.kind with
    | data =>
      obtain ⟨rfl, rfl⟩ : (Err.ok, reply.data) = returned ∧ u = after := by simpa [kind] using called
      refine ⟨[apdu], taken, fun result delivers => ?_⟩
      rcases delivers.first_of_decoded decoded with ⟨-, got⟩ | ⟨other, -⟩
      · rw [pool]
        exact got
      · exact absurd kind other
    | dataError =>
      obtain ⟨rfl, rfl⟩ : (Err.notFound, old) = returned ∧ u = after := by simpa [kind] using called
      refine ⟨[apdu], taken, fun result delivers => ?_⟩
      rcases delivers.first_of_decoded decoded with ⟨other, -⟩ | ⟨-, slots, ends⟩
      · simp [kind] at other
      · obtain rfl : result = none := by
          rcases ends with ⟨none, -⟩ | ⟨-, pending⟩
          · exact none
          · exact pending.of_dataError kind
        exact ⟨by simp, by rw [pool, slots]⟩
    | block | blockLast | withList =>
      simp only [kind, get_bind_apply] at called
      split_ifs at called with enabled
      · obtain ⟨rfl, rfl⟩ : (Err.invalid, old) = returned ∧ u = after := by simpa using called
        have enabled : c.gbtEnabled = true := gbt ▸ enabled
        refine ⟨[apdu], taken, fun result delivers => ?_⟩
        rcases delivers.first_of_decoded decoded with ⟨other, -⟩ | ⟨-, slots, ends⟩
        · simp [kind] at other
        · rcases ends with ⟨rfl, -⟩ | ⟨plain, -⟩
          · exact ⟨by simp, by rw [pool, slots]⟩
          · simp [enabled] at plain
      · obtain ⟨more, takenMore, got⟩ := clientGetBlocks_got called
        refine ⟨apdu :: more, by simp [takenMore, taken], fun result delivers => ?_⟩
        rcases delivers.first_of_decoded decoded with ⟨other, -⟩ | ⟨-, slots, ends⟩
        · simp [kind] at other
        · rcases ends with ⟨-, refused | on⟩ | ⟨-, pending⟩
          · simp [kind] at refused
          · exact absurd (gbt.trans on) enabled
          · exact (got result pending).of_slots (by rw [pool, slots])
  · obtain ⟨rfl, rfl⟩ : (Err.invalid, old) = returned ∧ u = after := by simpa using called
    refine ⟨[apdu], taken, fun result delivers => ?_⟩
    obtain ⟨reply, reader', done, -⟩ := delivers.first stack c.pool
    cases done.symm.trans decoded

end Read

/-! ## One poll -/

namespace MeterRegistry

/-- The entries of the cache that are not in use. -/
def free (reg : MeterRegistry) : ℕ := reg.cache.countP (!·.used)

variable {reg : MeterRegistry} {key : CacheKey} {value : Value}

/-- How many entries a key takes that are not in use. -/
def taking (reg : MeterRegistry) (key : CacheKey) : ℕ := if (reg.cached key).isNone then 1 else 0

/-- A value is stored over the one of its key or in an entry that is not in use, if there is one. -/
theorem store_room : (reg.store key value).1 = .ok ∧ reg.free = (reg.store key value).2.free + reg.taking key ∨
    reg.free < reg.taking key ∧ (reg.store key value).2 = reg := by
  rw [store]
  cases found : reg.cache.findIdx? (·.holds key) with
  | some i =>
    have held : reg.taking key = 0 := by
      obtain ⟨bound, holds, -⟩ := List.findIdx?_eq_some_iff_getElem.mp found
      have some := List.find?_isSome.mpr ⟨_, List.getElem_mem bound, holds⟩
      rw [taking, cached, Option.isNone_map, if_neg]
      simpa using some
    have same := @List.countP_modify_of_eq CacheEntry (!·.used) (fun entry => { entry with value := value })
      (fun _ => rfl) reg.cache i
    rw [held]
    exact .inl ⟨rfl, same.symm⟩
  | none =>
    have absent : reg.taking key = 1 := by
      rw [taking, cached, List.find?_eq_none.mpr]
      · rfl
      · simpa using List.findIdx?_eq_none_iff.mp found
    rw [absent]
    cases unused : reg.cache.findIdx? (!·.used) with
    | some i =>
      obtain ⟨bound, free, -⟩ := List.findIdx?_eq_some_iff_getElem.mp unused
      have some : 0 < reg.free := List.countP_pos_iff.mpr ⟨_, List.getElem_mem bound, free⟩
      refine .inl ⟨rfl, ?_⟩
      rw [MeterRegistry.free] at some
      simp only [MeterRegistry.free, List.countP_set bound, free, Bool.not_true, Bool.false_eq_true, if_true, if_false]
      omega
    | none =>
      have full : reg.free = 0 := List.countP_eq_zero.mpr (by simpa using List.findIdx?_eq_none_iff.mp unused)
      exact .inr ⟨by omega, rfl⟩

end MeterRegistry

/-- What a read that ended well or not has delivered. -/
def PollRead.Delivered (read : PollRead) (result : Option Data) : Prop := GetDelivers read.gbtEnabled read.taken result

/-- The read failed without data, or returned data that its value stood for at that moment. -/
def PollRead.Returned (read : PollRead) : Option Data → Prop
  | none => read.returned.1 ≠ .ok
  | some data => data.FitsPool ∧ read.returned = (.ok, data.root) ∧ data.root.Denotes read.memory data

namespace Poll

/-- The steps of a poll: each read, and the store behind a successful one. -/
inductive Runs (poll : Poll) : List Descriptor → Client → MeterRegistry → List PollRead → Client → MeterRegistry → Prop
  | nil {c : Client} {reg : MeterRegistry} : Runs poll [] c reg [] c reg
  | cons {attr : Descriptor} {attributes : List Descriptor} {c after final : Client} {reg last : MeterRegistry}
      {returned : Err × Value} {reads : List PollRead} {i : ℕ} :
      clientGet (Port.alone poll.hal poll.stale) (poll.residue i).1 poll.rounds attr (poll.residue i).2 c =
        some (returned, after) →
      Runs poll attributes after (if returned.1 = .ok then (reg.store (poll.key attr) returned.2).2 else reg) reads final
        last →
      Runs poll (attr :: attributes) c reg (poll.record attr c returned after :: reads) final last

theorem runs_of_run {poll : Poll} {attributes : List Descriptor} {i count : ℕ} {p q : Poller}
    (ran : poll.run i attributes p = some (count, q)) :
    ∃ reads, q.reads = p.reads ++ reads ∧ poll.Runs attributes p.client p.registry reads q.client q.registry := by
  induction attributes generalizing i count p with
  | nil =>
    obtain ⟨-, rfl⟩ : 0 = count ∧ p = q := by simpa [run] using ran
    exact ⟨[], by simp, .nil⟩
  | cons attr attributes ih =>
    obtain ⟨returned, t, readAttr, rest⟩ := bind_eq_some.mp ran
    rw [read, get_bind_apply] at readAttr
    obtain ⟨returned', u, zoomed, logged⟩ := bind_eq_some.mp readAttr
    obtain ⟨⟨⟨err, value⟩, after⟩, called, same⟩ := Option.map_eq_some_iff.mp zoomed
    obtain ⟨rfl, rfl⟩ : (err, value) = returned' ∧ { p with client := after } = u := by simpa using same
    obtain ⟨rfl, rfl⟩ : (err, value) = returned ∧
        { p with client := after, reads := p.reads ++ [poll.record attr p.client (err, value) after] } = t := by
      simpa using logged
    by_cases ok : err = .ok
    · simp only [if_pos ok, get_bind_apply, modify_bind_apply] at rest
      obtain ⟨left, v, further, counted⟩ := bind_eq_some.mp rest
      obtain rfl : v = q := by simpa using (Prod.mk.inj (Option.some.inj counted)).2
      obtain ⟨reads, logged, runs⟩ := ih further
      refine ⟨poll.record attr p.client (err, value) after :: reads, by simpa using logged, .cons called ?_⟩
      rw [if_pos ok]
      exact runs
    · simp only [if_neg ok] at rest
      obtain ⟨reads, logged, runs⟩ := ih rest
      refine ⟨poll.record attr p.client (err, value) after :: reads, by simpa using logged, .cons called ?_⟩
      rw [if_neg ok]
      exact runs

section Runs

variable {poll : Poll} {attributes : List Descriptor} {c final : Client} {reg last : MeterRegistry}
  {reads : List PollRead} {key : CacheKey}

theorem Runs.keys (runs : poll.Runs attributes c reg reads final last) :
    reads.map PollRead.key = attributes.map poll.key := by
  induction runs with
  | nil => rfl
  | cons _ _ ih => rw [List.map_cons, List.map_cons, ih]; rfl

/-- A store is found under its key and changes no other. -/
theorem cached_of_store {other : CacheKey} {value : Value} :
    (other ≠ key → (reg.store key value).2.cached other = reg.cached other) ∧
      ((reg.store key value).1 = .ok → (reg.store key value).2.cached key = some value) := by
  rcases MeterRegistry.cached_store (Prod.eta (reg.store key value)).symm with ⟨failed, same⟩ | ⟨-, found⟩
  · exact ⟨fun _ => by rw [same], fun ok => by simp [ok] at failed⟩
  · exact ⟨fun apart => by rw [found, if_neg (Ne.symm apart)], fun _ => by rw [found, if_pos rfl]⟩

theorem Runs.others (runs : poll.Runs attributes c reg reads final last) (other : key ∉ attributes.map poll.key) :
    last.cached key = reg.cached key := by
  induction runs with
  | nil => rfl
  | cons _ _ ih =>
    rw [List.map_cons, List.mem_cons, not_or] at other
    rw [ih other.2]
    split
    · exact cached_of_store.1 other.1
    · rfl

/-- How many entries the values that were read take. -/
def wanted (reg : MeterRegistry) (reads : List PollRead) : ℕ :=
  reads.countP fun read => decide (read.returned.1 = .ok) && (reg.cached read.key).isNone

/-- A store changes nothing for the keys of the other reads. -/
theorem wanted_store {value : Value} (distinct : key ∉ reads.map PollRead.key) :
    wanted (reg.store key value).2 reads = wanted reg reads := by
  apply List.countP_congr
  intro read member
  have apart : read.key ≠ key := fun same => distinct (List.mem_map.mpr ⟨read, member, same⟩)
  rw [cached_of_store.1 apart]

/-- The values that were read are cached if there was room for all of them, and found only then. -/
theorem Runs.cached (runs : poll.Runs attributes c reg reads final last) (distinct : (attributes.map poll.key).Nodup) :
    (wanted reg reads ≤ reg.free →
      ∀ read ∈ reads, read.returned.1 = .ok → last.cached read.key = some read.returned.2) ∧
    ((∀ read ∈ reads, read.returned.1 = .ok → (last.cached read.key).isSome) → wanted reg reads ≤ reg.free) := by
  induction runs with
  | nil => simp [wanted]
  | @cons attr attributes c after final reg last returned reads i _ rest ih =>
    rw [List.map_cons, List.nodup_cons] at distinct
    obtain ⟨cached, room⟩ := ih distinct.2
    have counted : wanted reg (poll.record attr c returned after :: reads) =
        wanted reg reads + if returned.1 = .ok then reg.taking (poll.key attr) else 0 := by
      by_cases ok : returned.1 = .ok <;> simp [wanted, List.countP_cons, record, ok, MeterRegistry.taking]
    rw [counted, List.forall_mem_cons, List.forall_mem_cons]
    by_cases ok : returned.1 = .ok
    · rw [if_pos ok] at rest cached room ⊢
      rw [wanted_store (rest.keys ▸ distinct.1)] at cached room
      rw [show (poll.record attr c returned after).key = poll.key attr from rfl, rest.others distinct.1]
      rcases @MeterRegistry.store_room reg (poll.key attr) returned.2 with ⟨stored, left⟩ | ⟨full, same⟩
      · refine ⟨fun fits => ⟨fun _ => ?_, cached (by omega)⟩, fun found => ?_⟩
        · exact (@cached_of_store reg _ (poll.key attr) returned.2).2 stored
        · have later := room found.2
          omega
      · -- nothing is stored, and no later store is for this key
        refine ⟨fun fits => by omega, fun found => ?_⟩
        have now := found.1 ok
        have later := room found.2
        rw [same] at now
        have held : ¬(reg.cached (poll.key attr)).isNone := by
          simpa [Option.isSome_iff_ne_none] using now
        rw [MeterRegistry.taking, if_neg held] at full
        omega
    · rw [if_neg ok] at cached room ⊢
      exact ⟨fun fits => ⟨fun found => absurd found ok, cached fits⟩, fun found => room found.2⟩

/-- The pool shows what the reads have delivered, in their order. -/
theorem Runs.shows (runs : poll.Runs attributes c reg reads final last)
    (delivered : List.Forall₂ PollRead.Delivered reads results) :
    List.Forall₂ PollRead.Returned reads results ∧ ∀ seen, Data.Shows seen c.pool.slots →
      Data.Shows (seen ++ results.reduceOption) final.pool.slots := by
  induction runs generalizing results with
  | nil =>
    cases delivered
    exact ⟨.nil, fun seen shows => by simpa [List.reduceOption] using shows⟩
  | @cons attr attributes c after final reg last returned reads i called rest ih =>
    obtain ⟨result, results, first, others, rfl⟩ := List.forall₂_cons_left_iff.mp delivered
    obtain ⟨returnedAll, shown⟩ := ih others
    obtain ⟨taken, responses, got⟩ := clientGet_got called
    have same : (poll.record attr c returned after).taken = taken := by
      rw [record, responses, List.drop_left]
    have got := got result (same ▸ first)
    cases result with
    | none =>
      refine ⟨.cons got.1 returnedAll, fun seen shows => ?_⟩
      rw [← got.2] at shows
      simpa [List.reduceOption_cons_of_none] using shown seen shows
    | some data =>
      obtain ⟨fits, ended, slots⟩ := got
      have held : data.root.Denotes after.pool data := by
        rw [Value.Denotes, slots, ← data.store_root c.pool]
        exact (data.store_held c.pool.reset).congr (Set.subset_univ _) fun _ _ => rfl
      refine ⟨.cons ⟨fits, ended, held⟩ returnedAll, fun seen shows => ?_⟩
      have stored := shows.store data
      rw [← slots] at stored
      simpa [List.reduceOption_cons_of_some] using shown _ stored

end Runs

end Poll

/-! ## Whole runs -/

/-- Each read of a poll that succeeded is cached with a value that still stands for the data that was read. -/
def Concentrator.Faithful (now : Concentrator) (reads : List PollRead) : Prop :=
  ∀ read ∈ reads, read.returned.1 = .ok → ∃ value, now.registry.cached read.key = some value ∧
    ∀ data, data.Fits → read.returned.2.Denotes read.memory data → value.Denotes now.pool data

theorem Concentrator.faithful_iff {now : Concentrator} {reads : List PollRead}
    (returned : List.Forall₂ PollRead.Returned reads results)
    (cached : ∀ read ∈ reads, read.returned.1 = .ok → now.registry.cached read.key = some read.returned.2) :
    now.Faithful reads ↔ ∀ data ∈ results.reduceOption, data.root.Denotes now.pool data := by
  induction returned with
  | nil => simp [Faithful, List.reduceOption]
  | @cons read result reads results first _ ih =>
    rw [List.forall_mem_cons] at cached
    rw [Faithful, List.forall_mem_cons]
    change _ ∧ now.Faithful reads ↔ _
    rw [ih cached.2]
    cases result with
    | none =>
      rw [List.reduceOption_cons_of_none]
      exact and_iff_right fun ok => absurd ok first
    | some data =>
      obtain ⟨fits, ended, held⟩ := first
      have found := cached.1 (by rw [ended])
      rw [List.reduceOption_cons_of_some, List.forall_mem_cons, found, ended]
      refine and_congr_left fun _ => ⟨fun stays => ?_, fun stays _ => ⟨data.root, rfl, ?_⟩⟩
      · obtain ⟨value, same, holds⟩ := stays rfl
        obtain rfl : data.root = value := Option.some.inj same
        exact holds data fits.1 held
      · intro other fitsOther heldOther
        rw [Data.Held.unique fitsOther fits.1 heldOther held]
        exact stays

theorem Returned.fits {reads : List PollRead} (returned : List.Forall₂ PollRead.Returned reads results) :
    ∀ data ∈ results.reduceOption, data.Fits := by
  induction returned with
  | nil => simp [List.reduceOption]
  | @cons read result reads results first _ ih =>
    cases result with
    | none => rwa [List.reduceOption_cons_of_none]
    | some data =>
      rw [List.reduceOption_cons_of_some, List.forall_mem_cons]
      exact ⟨first.1.1, ih⟩

/-- Polls of other meters keep what is cached, and the pool shows what they read. -/
theorem polls_further {now later : Concentrator} {polls : List (Poll × List PollRead)}
    (further : History Concentrator.Polls now polls later) :
    (∀ key : CacheKey, (∀ other ∈ polls, other.1.meter ≠ key.meterId) →
      later.registry.cached key = now.registry.cached key) ∧
    ∀ more, List.Forall₂ PollRead.Delivered (polls.flatMap Prod.snd) more →
      List.Forall₂ PollRead.Returned (polls.flatMap Prod.snd) more ∧
        ∀ seen, Data.Shows seen now.pool.slots → Data.Shows (seen ++ more.reduceOption) later.pool.slots := by
  induction further with
  | start =>
    refine ⟨fun _ _ => rfl, fun more delivered => ?_⟩
    cases delivered
    exact ⟨.nil, fun seen shows => by simpa [List.reduceOption] using shows⟩
  | @extend polls middle next polled _ step ih =>
    obtain ⟨count, q, ran, logged, rfl⟩ := step
    obtain ⟨reads, log, runs⟩ := Poll.runs_of_run ran
    rw [List.nil_append] at log
    obtain rfl : polled.2 = reads := logged.trans log
    constructor
    · intro key others
      rw [List.forall_mem_append] at others
      rw [← ih.1 key others.1]
      apply runs.others
      intro member
      obtain ⟨attr, -, same⟩ := List.mem_map.mp member
      exact others.2 polled List.mem_cons_self (congrArg CacheKey.meterId same)
    · intro more delivered
      rw [List.flatMap_append, List.flatMap_singleton] at delivered ⊢
      have deliveredEarlier := (List.forall₂_take_append more _ _ delivered.flip).flip
      have deliveredHere := (List.forall₂_drop_append more _ _ delivered.flip).flip
      rw [← List.take_append_drop (polls.flatMap Prod.snd).length more]
      obtain ⟨returnedEarlier, shownEarlier⟩ := ih.2 _ deliveredEarlier
      obtain ⟨returned, shown⟩ := runs.shows deliveredHere
      refine ⟨List.rel_append returnedEarlier returned, fun seen shows => ?_⟩
      rw [List.reduceOption_append, ← List.append_assoc]
      exact shown _ (shownEarlier seen shows)

/-- How many entries of the cache a poll takes if its reads deliver `results`. -/
def Poll.entries (poll : Poll) (reg : MeterRegistry) (results : List (Option Data)) : ℕ :=
  ((poll.attributes.map poll.key).zip results).countP fun read => read.2.isSome && (reg.cached read.1).isNone

theorem Returned.wanted {reads : List PollRead} (reg : MeterRegistry)
    (returned : List.Forall₂ PollRead.Returned reads results) : Poll.wanted reg reads =
      ((reads.map PollRead.key).zip results).countP fun read => read.2.isSome && (reg.cached read.1).isNone := by
  induction returned with
  | nil => rfl
  | @cons read result reads results first _ ih =>
    have same : decide (read.returned.1 = .ok) = result.isSome := by
      cases result with
      | none => exact decide_eq_false first
      | some data => simp [first.2.1]
    rw [Poll.wanted, List.map_cons, List.zip_cons_cons, List.countP_cons, List.countP_cons, ← ih, same]
    rfl

/-- The cache is faithful to a poll, then and after every further run of polls of other meters, exactly when it had the
entries for what the reads delivered and nothing that was read later has put other items into their places. -/
theorem cached_values_stay_iff {before now later : Concentrator} {poll : Poll} {reads : List PollRead}
    {polls : List (Poll × List PollRead)} {results more : List (Option Data)}
    (polled : before.Polls (poll, reads) now) (distinct : (poll.attributes.map poll.key).Nodup)
    (delivered : List.Forall₂ PollRead.Delivered reads results)
    (further : History Concentrator.Polls now polls later) (others : ∀ other ∈ polls, other.1.meter ≠ poll.meter)
    (deliveredFurther : List.Forall₂ PollRead.Delivered (polls.flatMap Prod.snd) more) :
    later.Faithful reads ↔ poll.entries before.registry results ≤ before.registry.free ∧
      Data.UndisturbedBy more.reduceOption results.reduceOption := by
  obtain ⟨count, q, ran, logged, rfl⟩ := polled
  obtain ⟨reads', log, runs⟩ := Poll.runs_of_run ran
  rw [List.nil_append] at log
  obtain rfl : reads = reads' := logged.trans log
  obtain ⟨returned, shown⟩ := runs.shows delivered
  obtain ⟨stays, later'⟩ := polls_further further
  obtain ⟨returnedFurther, shownFurther⟩ := later' more deliveredFurther
  have shows : Data.Shows (results.reduceOption ++ more.reduceOption) later.pool.slots :=
    shownFurther _ (shown [] (.nil _))
  have fits : ∀ data ∈ results.reduceOption ++ more.reduceOption, data.Fits :=
    List.forall_mem_append.mpr ⟨Returned.fits returned, Returned.fits returnedFurther⟩
  have same : ∀ read ∈ reads, later.registry.cached read.key = q.registry.cached read.key := by
    intro read member
    apply stays
    have key : read.key ∈ poll.attributes.map poll.key := runs.keys ▸ List.mem_map_of_mem member
    obtain ⟨attr, -, named⟩ := List.mem_map.mp key
    rw [← named]
    exact others
  have entries : poll.entries before.registry results = Poll.wanted before.registry reads := by
    rw [Returned.wanted before.registry returned, runs.keys, Poll.entries]
  rw [entries]
  constructor
  · intro faithful
    have room : Poll.wanted before.registry reads ≤ before.registry.free := by
      apply (runs.cached distinct).2
      intro read member ok
      obtain ⟨value, found, -⟩ := faithful read member ok
      rw [← same read member, found, Option.isSome_some]
    have cached := (runs.cached distinct).1 room
    refine ⟨room, (shows.denote_iff fits).mp ?_⟩
    apply (Concentrator.faithful_iff returned ?_).mp faithful
    intro read member ok
    exact (same read member).trans (cached read member ok)
  · rintro ⟨room, undisturbed⟩
    have cached := (runs.cached distinct).1 room
    refine (Concentrator.faithful_iff returned ?_).mpr ((shows.denote_iff fits).mpr undisturbed)
    intro read member ok
    exact (same read member).trans (cached read member ok)

/-- A poll of two attributes of a meter that answers the first with an array of 1 and the second with an array of 2. -/
def arraysPoll (meter : MeterId) : Poll where
  hal := sampleHal
  stale := []
  client := listeningClient [(GetResponseMessage.data (arrayOf 1)).encode 1, (GetResponseMessage.data (arrayOf 2)).encode 1]
  meter := meter
  attributes := [⟨1, Vector.replicate 6 0, 2⟩, ⟨1, Vector.replicate 6 0, 3⟩]
  residue := fun _ => (.blank, .null)
  rounds := 1

def meterOne : MeterId := ⟨[1], by decide⟩
def meterTwo : MeterId := ⟨[2], by decide⟩

def freshConcentrator : Concentrator := ⟨.init, Pool.empty⟩

def arraysPolled (meter : MeterId) (before : Concentrator) : Option Poller :=
  ((arraysPoll meter).run 0 (arraysPoll meter).attributes
    ⟨{ (arraysPoll meter).client with pool := before.pool }, before.registry, []⟩).map Prod.snd

theorem polls_of_arraysPolled {meter : MeterId} {before : Concentrator} {q : Poller}
    (polled : arraysPolled meter before = some q) :
    before.Polls (arraysPoll meter, q.reads) ⟨q.registry, q.client.pool⟩ := by
  obtain ⟨⟨count, q⟩, ran, rfl⟩ := Option.map_eq_some_iff.mp polled
  exact ⟨count, q, ran, rfl, rfl⟩

def arraysAnswers : List (Bool × List (List UInt8)) :=
  [(false, [(GetResponseMessage.data (arrayOf 1)).encode 1]), (false, [(GetResponseMessage.data (arrayOf 2)).encode 1])]

theorem arrayOf_fitsPool {content : ℕ} (small : content < 256) : (arrayOf content).FitsPool := by
  simpa [arrayOf, Data.FitsPool, Data.Fits, Data.FitAll, Data.slots, Data.slotsAll, scalarBound, ScalarKind.size,
    NestKind.maxLen, poolLen] using small

theorem delivered_of_answers {reads : List PollRead}
    (answered : reads.map (fun read => (read.gbtEnabled, read.taken)) = arraysAnswers) :
    List.Forall₂ PollRead.Delivered reads [some (arrayOf 1), some (arrayOf 2)] := by
  obtain ⟨first, rest, rfl, one, others⟩ := List.map_eq_cons_iff.mp answered
  obtain ⟨second, rest, rfl, two, none⟩ := List.map_eq_cons_iff.mp others
  obtain rfl := List.map_eq_nil_iff.mp none
  obtain ⟨-, takenOne⟩ := Prod.mk.inj one
  obtain ⟨-, takenTwo⟩ := Prod.mk.inj two
  refine .cons ?_ (.cons ?_ .nil)
  · rw [PollRead.Delivered, takenOne]
    exact .data (arrayOf_fitsPool (by decide))
  · rw [PollRead.Delivered, takenTwo]
    exact .data (arrayOf_fitsPool (by decide))

theorem arrays_polled : ∃ first second, arraysPolled meterOne freshConcentrator = some first ∧
    arraysPolled meterTwo ⟨first.registry, first.client.pool⟩ = some second ∧
    first.reads.map (fun read => (read.gbtEnabled, read.taken)) = arraysAnswers ∧
    second.reads.map (fun read => (read.gbtEnabled, read.taken)) = arraysAnswers := by
  have ran : ((arraysPolled meterOne freshConcentrator).bind fun first =>
      (arraysPolled meterTwo ⟨first.registry, first.client.pool⟩).map fun second =>
        (first.reads.map (fun read => (read.gbtEnabled, read.taken)),
          second.reads.map (fun read => (read.gbtEnabled, read.taken)))) = some (arraysAnswers, arraysAnswers) := by
    decide +kernel
  obtain ⟨first, polledFirst, rest⟩ := Option.bind_eq_some_iff.mp ran
  obtain ⟨second, polledSecond, answers⟩ := Option.map_eq_some_iff.mp rest
  obtain ⟨answersFirst, answersSecond⟩ := Prod.mk.inj answers
  exact ⟨first, second, polledFirst, polledSecond, answersFirst, answersSecond⟩

/-- Both meters are polled from a fresh concentrator. -/
theorem cached_values_stay_iff_arrays : ∃ now later reads others,
    freshConcentrator.Polls (arraysPoll meterOne, reads) now ∧ now.Polls (arraysPoll meterTwo, others) later ∧
      (later.Faithful reads ↔ (arraysPoll meterOne).entries .init [some (arrayOf 1), some (arrayOf 2)] ≤ 32 ∧
        Data.UndisturbedBy [arrayOf 1, arrayOf 2] [arrayOf 1, arrayOf 2]) := by
  obtain ⟨first, second, polledFirst, polledSecond, answersFirst, answersSecond⟩ := arrays_polled
  refine ⟨_, _, _, _, polls_of_arraysPolled polledFirst, polls_of_arraysPolled polledSecond, ?_⟩
  exact cached_values_stay_iff (polls_of_arraysPolled polledFirst) (by decide) (delivered_of_answers answersFirst)
    (History.start.extend (polls_of_arraysPolled polledSecond))
    (fun other member => by rw [List.mem_singleton.mp member]; exact show meterTwo ≠ meterOne by decide)
    (by simpa using delivered_of_answers answersSecond)

/-- The first array is cached, but it has the item of the second one. -/
theorem first_cached_array_overwritten : ∃ reads now, freshConcentrator.Polls (arraysPoll meterOne, reads) now ∧
    reads.map (fun read => (read.returned, read.memory.slots 0)) =
      [((.ok, .array 0 1), .scalar .unsigned 1), ((.ok, .array 0 1), .scalar .unsigned 2)] ∧
    now.registry.cached ⟨meterOne, Vector.replicate 6 0, 2⟩ = some (.array 0 1) ∧
    now.pool.slots 0 = .scalar .unsigned 2 ∧ ¬now.Faithful reads := by
  have ran : (arraysPolled meterOne freshConcentrator).map (fun q =>
      (q.reads.map (fun read => (read.key, read.returned, read.memory.slots 0)),
        q.registry.cached ⟨meterOne, Vector.replicate 6 0, 2⟩, q.client.pool.slots 0)) =
      some ([(⟨meterOne, Vector.replicate 6 0, 2⟩, (.ok, .array 0 1), .scalar .unsigned 1),
        (⟨meterOne, Vector.replicate 6 0, 3⟩, (.ok, .array 0 1), .scalar .unsigned 2)],
        some (.array 0 1), .scalar .unsigned 2) := by
    decide +kernel
  obtain ⟨q, polled, results⟩ := Option.map_eq_some_iff.mp ran
  obtain ⟨logged, found, place⟩ : _ ∧ _ ∧ _ := by simpa only [Prod.mk.injEq] using results
  refine ⟨q.reads, _, polls_of_arraysPolled polled, ?_, found, place, ?_⟩
  · have projected := congrArg (List.map Prod.snd) logged
    rw [List.map_map] at projected
    exact projected
  · intro faithful
    obtain ⟨first, rest, reads, one, -⟩ := List.map_eq_cons_iff.mp logged
    obtain ⟨key, returned, memory⟩ : _ ∧ _ ∧ _ := by simpa only [Prod.mk.injEq] using one
    have member : first ∈ q.reads := by rw [reads]; exact List.mem_cons_self
    obtain ⟨value, cached, same⟩ := faithful first member (by rw [returned])
    rw [key, found, Option.some_inj] at cached
    have held : first.returned.2.Denotes first.memory (arrayOf 1) := by
      rw [returned]
      exact ⟨0, rfl, trivial, memory, trivial⟩
    obtain ⟨start, shape, -, item, -⟩ := same (arrayOf 1) (arrayOf_fitsPool (by decide)).1 held
    rw [← cached] at shape
    cases shape
    cases place.symm.trans item

end OpenSpodes
