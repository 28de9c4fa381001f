import OpenSpodes.Proofs.DataRead
import OpenSpodes.Proofs.RequestLocal

/-! # Decoding what lies in front of other bytes

A decoder works in an area that may go on behind the valid data. Since no decoder looks there, what it makes of given
bytes can be said for any bytes behind them and any old content behind the end: `Restores` is that statement, with what
is then known of the result and of the pool. It composes along the text of a decoder.
-/

namespace OpenSpodes

open Bytes Machine Machine.Fallible

variable {rest : List UInt8} {data : Data} {r : Reader}

namespace Buf.Offers

variable {b : Buf} {bytes : List UInt8}

/-- The same buffer with its area cut at the end of the data. -/
theorem cut_holds (offers : b.Offers bytes) : Buf.Holds { b with buf := b.buf.take b.wr } bytes where
  content := offers.content
  inside := offers.inside
  whole := by simpa using offers.area
  bounded := offers.bounded

theorem cut_agree (offers : b.Offers bytes) : Buf.Agree b.rd b.wr b { b with buf := b.buf.take b.wr } where
  rd := rfl
  wr := rfl
  wr' := rfl
  from_start := le_rfl
  inside := offers.inside
  short := offers.bounded
  bytes := by rw [List.take_take, Nat.min_self]

end Buf.Offers

theorem Buf.Agree.offers {start stop : ℕ} {b b' : Buf} (agree : Buf.Agree start stop b b') (holds : b'.Holds rest) :
    b.Offers rest := by
  have whole : (b'.buf.take stop).length = stop := by
    rw [List.take_of_length_le (by rw [← holds.whole, agree.wr'])]
    rw [← holds.whole, agree.wr']
  constructor
  case content =>
    rw [agree.wr, ← agree.bytes, ← agree.rd, List.take_of_length_le (by rw [← holds.whole, agree.wr'])]
    exact holds.content
  case inside =>
    rw [agree.wr]
    exact agree.inside
  case area =>
    rw [agree.bytes, List.length_take] at whole
    rw [agree.wr]
    omega
  case bounded =>
    rw [agree.wr]
    exact agree.short

/-- Encoded data in front of any bytes is stored, whatever the area holds behind the valid data. -/
theorem valueRead_stores_offered (fits : data.Fits) (few : data.slots ≤ poolLen)
    (offers : r.buf.Offers (data.encode ++ rest)) (old : Value) :
    ∃ c, valueRead old r = ((.ok, data.root), ⟨c, (data.store r.pool.reset).2⟩) ∧ c.Offers rest ∧ c.wr = r.buf.wr := by
  have room : r.pool.reset.used + data.slots ≤ poolLen := by simpa [Pool.reset] using few
  obtain ⟨d, read, behind⟩ := (@Data.readWithin data (poolLen + 2) old ⟨_, r.pool.reset⟩ rest fits.sized
    offers.cut_holds (Nat.zero_le _) (.inr ⟨fits, room, by omega⟩)).2.2
  change valueRead old ⟨_, r.pool⟩ = _ at read
  have alike := @valueRead_local r.buf.rd r.buf.wr old r ⟨_, r.pool⟩ ⟨offers.cut_agree, rfl⟩
  rw [TwinStateAt, read] at alike
  obtain ⟨same, agree⟩ := alike
  refine ⟨(valueRead old r).2.buf, Prod.ext ?_ ?_, agree.buf.offers behind, agree.buf.wr⟩
  · rw [same, data.store_root]
  · have pool : (data.store r.pool.reset).2 = (valueRead old r).2.pool := agree.pool
    rw [pool]

/-- Encoded data in front of any bytes is read back. -/
theorem valueRead_of_offers (fits : data.Fits) (few : data.slots ≤ poolLen)
    (offers : r.buf.Offers (data.encode ++ rest)) (old : Value) :
    ∃ value after, valueRead old r = ((.ok, value), after) ∧ after.buf.Offers rest ∧
      after.buf.rd = r.buf.rd + data.encode.length ∧ value.Denotes after.pool data := by
  obtain ⟨c, read, left, wr⟩ := valueRead_stores_offered fits few offers old
  have total := offers.length
  have length := left.length
  rw [List.length_append] at total
  refine ⟨_, _, read, left, by change c.rd = _; omega, ?_⟩
  rw [← data.store_root r.pool]
  exact (data.store_held r.pool.reset).congr (Set.subset_univ _) fun _ _ => rfl

/-- Encoded data that is read lies within the limits, and the value stands for it. -/
theorem valueRead_denotes (sized : data.Sized) (offers : r.buf.Offers data.encode) {old value : Value} {after : Reader}
    (read : valueRead old r = ((.ok, value), after)) :
    (data.Fits ∧ data.slots ≤ poolLen) ∧ value.Denotes after.pool data := by
  rw [← List.append_nil data.encode] at offers
  have alike := @valueRead_local r.buf.rd r.buf.wr old r ⟨_, r.pool⟩ ⟨offers.cut_agree, rfl⟩
  rw [TwinStateAt, read] at alike
  obtain ⟨fits, total, -⟩ := @Data.readWithin data (poolLen + 2) old ⟨_, r.pool.reset⟩ [] sized offers.cut_holds
    (Nat.zero_le _) (.inl (congrArg Prod.fst alike.1).symm)
  have limits : data.Fits ∧ data.slots ≤ poolLen := ⟨fits, (Nat.zero_add data.slots).symm.le.trans total⟩
  obtain ⟨_, _, same, -, -, held⟩ := valueRead_of_offers limits.1 limits.2 offers old
  cases read.symm.trans same
  exact ⟨limits, held⟩

/-! ## Decoders -/

/-- In front of the bytes the decoder consumes them and succeeds, with a result and a pool of which `good` holds. -/
def Restores {α : Type} (decode : Decode α) (bytes : List UInt8) (good : α → Pool → Prop) : Prop :=
  ∀ (r : Reader) (rest : List UInt8), r.buf.Offers (bytes ++ rest) →
    ∃ a after, decode r = .ok a after ∧ after.buf.Offers rest ∧ good a after.pool

namespace Restores

variable {α β : Type} {bytes more : List UInt8} {good : α → Pool → Prop} {after : β → Pool → Prop} {decode : Decode α}
  {a : α} {next : α → Decode β} {n : ℕ}

theorem pure {a : α} (holds : ∀ pool, good a pool) : Restores (pure a) [] good :=
  fun r _ offers => ⟨a, r, rfl, offers, holds r.pool⟩

theorem mono {good' : α → Pool → Prop} (decodes : Restores decode bytes good)
    (weaker : ∀ a pool, good a pool → good' a pool) : Restores decode bytes good' := by
  intro r rest offers
  obtain ⟨a, t, done, left, holds⟩ := decodes r rest offers
  exact ⟨a, t, done, left, weaker a t.pool holds⟩

theorem bind (first : Restores decode bytes fun a' _ => a' = a) (second : Restores (next a) more after) :
    Restores (decode >>= next) (bytes ++ more) after := by
  intro r rest offers
  rw [List.append_assoc] at offers
  obtain ⟨a', s, done, left, rfl⟩ := first r _ offers
  obtain ⟨b, t, doneNext, final, holds⟩ := second s rest left
  exact ⟨b, t, (bind_of_ok done).trans doneNext, final, holds⟩

theorem last (first : Restores decode bytes fun a' _ => a' = a) (second : Restores (next a) [] after) :
    Restores (decode >>= next) bytes after := by
  have both := first.bind second
  rwa [List.append_nil] at both

/-- The last step that reads, with a function of its result behind it. -/
theorem map {f : α → β} (first : Restores decode bytes good) (holds : ∀ a pool, good a pool → after (f a) pool) :
    Restores (decode >>= fun a => Pure.pure (f a)) bytes after := by
  intro r rest offers
  obtain ⟨a, t, done, left, known⟩ := first r rest offers
  exact ⟨f a, t, bind_of_ok done, left, holds a t.pool known⟩

theorem check {c : Prop} [Decidable c] {err : Err} {next : Unit → Decode β} (passes : ¬c)
    (second : Restores (next ()) bytes after) : Restores (failIf c err >>= next) bytes after := by
  intro r rest offers
  rw [failIf_bind_of_not passes]
  exact second r rest offers

theorem onBuf {read : Read α} {a : α} (takes : Takes read bytes a) :
    Restores (onBuf read) bytes fun a' _ => a' = a := by
  intro r rest offers
  refine ⟨a, { r with buf := r.buf.skip bytes.length }, ?_, offers.skip, rfl⟩
  simp only [OpenSpodes.onBuf, takes r.buf rest offers]

theorem attempt {decode : Decode α} {a : α} (decodes : Restores decode bytes fun a' _ => a' = a) :
    Restores (attempt decode) bytes fun a' _ => a' = some a := by
  intro r rest offers
  obtain ⟨_, t, done, left, rfl⟩ := decodes r rest offers
  refine ⟨_, t, ?_, left, rfl⟩
  simp only [Fallible.attempt, done]

theorem ignore {decode : Decode α} (decodes : Restores decode bytes good) :
    Restores (ignore decode) bytes fun _ _ => True := by
  intro r rest offers
  obtain ⟨a, t, done, left, -⟩ := decodes r rest offers
  have tried : Fallible.attempt decode r = .ok (some a) t := by simp only [Fallible.attempt, done]
  exact ⟨(), t, bind_of_ok tried, left, trivial⟩

theorem u8 (byte : UInt8) : Restores (OpenSpodes.onBuf axdrReadU8) [byte] fun a _ => a = byte :=
  onBuf (.u8 byte)

theorem u16 (fits : n < 2 ^ 16) : Restores (OpenSpodes.onBuf axdrReadU16) (beBytes 2 n) fun a _ => a = n :=
  onBuf (.uint fits)

theorem u32 (fits : n < 2 ^ 32) : Restores (OpenSpodes.onBuf axdrReadU32) (beBytes 4 n) fun a _ => a = n :=
  onBuf (.uint fits)

theorem len {n : ℕ} (small : n ≤ 0xFFFF) : Restores (OpenSpodes.onBuf dlmsReadLen) (dlmsLenBytes n) fun a _ => a = n :=
  onBuf (.len (by omega))

/-- A value; its items are in the pool behind it. -/
theorem value {data : Data} (fits : data.Fits) (few : data.slots ≤ poolLen) (old : Value) :
    Restores (readValue old) data.encode fun value pool => value.Denotes pool data := by
  intro r rest offers
  obtain ⟨value, t, read, left, -, held⟩ := valueRead_of_offers fits few offers old
  refine ⟨value, t, ?_, left, held⟩
  simp only [readValue, read]

/-- Entry by entry, where each result is known from its own bytes. -/
theorem entries {item : Type} {read : ℕ → Decode α} {encode : item → List UInt8} {stands : α → item → Prop}
    (items : List item) (each : ∀ i, ∀ x ∈ items, Restores (read i) (encode x) fun a _ => stands a x) (index : ℕ) :
    Restores (readEntries read items.length index) (items.flatMap encode)
      fun results _ => List.Forall₂ stands results items := by
  induction items generalizing index with
  | nil => exact .pure fun _ => .nil
  | cons x items ih =>
    intro r rest offers
    rw [List.flatMap_cons, List.append_assoc] at offers
    obtain ⟨a, s, done, left, first⟩ := each index x List.mem_cons_self r _ offers
    obtain ⟨results, t, doneRest, final, all⟩ :=
      ih (fun i y member => each i y (List.mem_cons_of_mem x member)) (index + 1) s rest left
    refine ⟨a :: results, t, ?_, final, .cons first all⟩
    rw [List.length_cons, readEntries, bind_of_ok done, bind_of_ok doneRest]
    rfl

end Restores

end OpenSpodes
