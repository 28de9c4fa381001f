import OpenSpodes.Soundness.MessageRoundTrip

/-! # Lists of structured values

A decoder of a list reads value after value into one pool, and every read starts at the first place again. A message
with a list is always encoded and decoded to its end; but whether the decoded values are those that were encoded
depends on what the later values of the list have put into the places of the earlier ones.
-/

namespace OpenSpodes

open Bytes Machine Machine.Fallible

/-- For the four messages with a list of values: the message is encoded and decoded completely, and the decoded message
is the one that was encoded exactly when no value is disturbed by the later ones. -/
theorem listed_values_decoded_iff (memory : Pool) (invokeId : UInt8) :
    (∀ req items old, SetRequest.Carries memory req invokeId (.withList items) → items.length ≤ xdlmsMaxList →
      (∀ item ∈ items, item.1.Fits ∧ item.2.FitsPool) →
      RoundTrips (setRequestEncode memory req) (setRequestDecode old) (SetRequestMessage.encode invokeId (.withList items))
        fun decoded pool => decoded.Carries pool invokeId (.withList items) ↔ Data.Undisturbed (items.map Prod.snd)) ∧
    (∀ req items old, ActionRequest.Carries memory req invokeId (.withList items) → items.length ≤ xdlmsMaxList →
      (∀ item ∈ items, item.1.Fits ∧ item.2.FitsPool) →
      RoundTrips (actionRequestEncode memory req) (actionRequestDecode old)
        (ActionRequestMessage.encode invokeId (.withList items))
        fun decoded pool => decoded.Carries pool invokeId (.withList items) ↔ Data.Undisturbed (items.map Prod.snd)) ∧
    (∀ reply results old, GetReply.Carries memory reply invokeId (.withList results) → results.length ≤ xdlmsMaxList →
      (∀ result ∈ results, result.content.FitsPool) → RoundTrips (getReplyEncode memory reply) (getResponseDecode old)
        (GetResponseMessage.encode invokeId (.withList results))
        fun decoded pool => decoded.Carries pool invokeId (.withList results) ↔
          Data.Undisturbed (results.map GetResultMessage.content)) ∧
    (∀ reply items old, ActionReply.Carries memory reply invokeId (.withList items) → items.length ≤ xdlmsMaxList →
      (∀ item ∈ items, item.2.FitsPool) → RoundTrips (actionReplyEncode memory reply) (actionResponseDecode old)
        (ActionResponseMessage.encode invokeId (.withList items))
        fun decoded pool => decoded.Carries pool invokeId (.withList items) ↔ Data.Undisturbed (items.map Prod.snd)) := by
  refine ⟨?_, ?_, ?_, ?_⟩
  · intro req items old carries few fits
    have puts := setRequestEncode_list (fun item member => (fits item member).2) carries
    exact .of_puts puts (setRequestDecode_list few fits old)
  · intro req items old carries few fits
    have puts := actionRequestEncode_list (fun item member => (fits item member).2) carries
    exact .of_puts puts (actionRequestDecode_list few fits old)
  · intro reply results old carries few fits
    exact .of_puts (getReplyEncode_list fits carries) (getResponseDecode_list few fits old)
  · intro reply items old carries few fits
    exact .of_puts (actionReplyEncode_list fits carries) (actionResponseDecode_list few fits old)

/-! ## Two arrays in one request -/

def arrayOf (content : ℕ) : Data := .nest .array [.scalar .unsigned content]

def twoItems : Pool :=
  ⟨fun place => if place = 0 then .scalar .unsigned 1 else if place = 1 then .scalar .unsigned 2 else .null, 2⟩

/-- Two attributes of an object with an array for each. -/
def twoArrays : List (Descriptor × Data) :=
  [(⟨7, Vector.replicate 6 1, 3⟩, arrayOf 1), (⟨7, Vector.replicate 6 1, 4⟩, arrayOf 2)]

def twoArraysRequest : SetRequest :=
  { SetRequest.zero with
    kind := .withList
    invokeIdPriority := 0xC1
    items := [(⟨7, Vector.replicate 6 1, 3⟩, .array 0 1), (⟨7, Vector.replicate 6 1, 4⟩, .array 1 1)] }

theorem twoArraysRequest_carries : twoArraysRequest.Carries twoItems 0xC1 (.withList twoArrays) := by
  refine ⟨rfl, rfl, .cons ⟨rfl, 0, rfl, ?_⟩ (.cons ⟨rfl, 1, rfl, ?_⟩ .nil)⟩
  · exact ⟨trivial, rfl, trivial⟩
  · exact ⟨trivial, rfl, trivial⟩

theorem twoArrays_fit : ∀ item ∈ twoArrays, item.1.Fits ∧ item.2.FitsPool := by
  simp [twoArrays, arrayOf, Descriptor.Fits, Data.FitsPool, Data.Fits, Data.FitAll, Data.slots, Data.slotsAll, scalarBound,
    ScalarKind.size, NestKind.maxLen, poolLen]

theorem listed_values_decoded_iff_arrays :
    RoundTrips (setRequestEncode twoItems twoArraysRequest) (setRequestDecode .zero)
      (SetRequestMessage.encode 0xC1 (.withList twoArrays))
      fun decoded pool => decoded.Carries pool 0xC1 (.withList twoArrays) ↔ Data.Undisturbed (twoArrays.map Prod.snd) :=
  (listed_values_decoded_iff twoItems 0xC1).1 twoArraysRequest twoArrays .zero twoArraysRequest_carries (by decide)
    twoArrays_fit

/-- The encoded request in front of an empty pool. -/
def twoArraysReader : Reader := ⟨Buf.ofBytes (SetRequestMessage.encode 0xC1 (.withList twoArrays)), Pool.empty⟩

/-- The request is encoded and decoded to its end, and then the first array has the item of the second. -/
theorem first_array_overwritten : (∃ c, setRequestEncode twoItems twoArraysRequest (WBuf.init 33) = .ok () c ∧
      c.out = SetRequestMessage.encode 0xC1 (.withList twoArrays)) ∧
    ∃ decoded after, setRequestDecode .zero twoArraysReader = .ok decoded after ∧
      after.buf.unread = 0 ∧ decoded.items.map Prod.snd = [.array 0 1, .array 0 1] ∧
      after.pool.slots 0 = .scalar .unsigned 2 ∧ ¬decoded.Carries after.pool 0xC1 (.withList twoArrays) := by
  have offers : twoArraysReader.buf.Offers (SetRequestMessage.encode 0xC1 (.withList twoArrays)) :=
    ⟨List.take_length, Nat.zero_le _, le_rfl, by decide +kernel⟩
  obtain ⟨decoded, after, done, unread, -⟩ := (setRequestDecode_list (by decide) twoArrays_fit .zero).whole offers
  have values : (outcome (setRequestDecode .zero) twoArraysReader).map (fun decoded => decoded.items.map Prod.snd) =
      some [.array 0 1, .array 0 1] := by decide +kernel
  have place : (finalState (setRequestDecode .zero) twoArraysReader).pool.slots 0 = .scalar .unsigned 2 := by
    decide +kernel
  rw [outcome, done, Option.map_some, Option.some_inj] at values
  rw [finalState_of_ok done] at place
  refine ⟨⟨_, rfl, rfl⟩, decoded, after, done, unread, values, place, ?_⟩
  rintro ⟨-, -, all⟩
  rw [twoArrays, List.forall₂_cons_right_iff] at all
  obtain ⟨entry, others, ⟨-, start, shape, -, held, -⟩, -, items⟩ := all
  rw [items, List.map_cons, List.cons.injEq] at values
  rw [values.1] at shape
  cases shape
  rw [place] at held
  cases held

end OpenSpodes
