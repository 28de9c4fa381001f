import OpenSpodes.Model.Acse
import OpenSpodes.Model.Xdms
import OpenSpodes.Proofs.ReadLocal

/-! # Requests are decoded from the received bytes

The service requests and the release request, decoded from two buffers that hold the same received bytes,
give the same request and leave the same pool.
-/

namespace OpenSpodes

open Bytes Machine Machine.Fallible

/-- A request decoder that sees only the received bytes. -/
def DecodesLocally {α : Type} (decode : Decode α) : Prop :=
  ∀ start stop, Twin (Reader.Agree start stop) decode

section Parts

variable {α : Type}

theorem onBuf_local {step : Read α} (inside : ReadsLocally step) : DecodesLocally (onBuf step) := by
  intro start stop r r' agree
  rcases inside start stop r.buf r'.buf agree.buf with
    ⟨a, u, v, left, right, after⟩ | ⟨e, u, v, left, right, after⟩
  · exact .inl ⟨a, { r with buf := u }, { r' with buf := v }, by simp [onBuf, left], by simp [onBuf, right],
      after, agree.pool⟩
  · exact .inr ⟨e, { r with buf := u }, { r' with buf := v }, by simp [onBuf, left], by simp [onBuf, right],
      after, agree.pool⟩

theorem readValue_local (old : Value) : DecodesLocally (readValue old) := by
  intro start stop r r' agree
  obtain ⟨same, after⟩ := valueRead_local old r r' agree
  exact .inl ⟨(valueRead old r).1.2, (valueRead old r).2, (valueRead old r').2, rfl, by rw [same]; rfl, after⟩

theorem obisRead_local : ReadsLocally obisRead := by
  intro start stop b b' agree
  refine needUnread_twinAt agree fun room => (takeBytes_twinAt agree room).bind fun bytes s t agree => ?_
  exact .pure _ agree

theorem descriptorRead_local (old : Descriptor) : DecodesLocally (descriptorRead old) := by
  intro start stop
  refine (onBuf_local (axdrReadUint_local 2) start stop).attempt.bind fun classId => ?_
  cases classId with
  | none => exact .pure _
  | some classId =>
    refine (onBuf_local obisRead_local start stop).attempt.bind fun instanceId => ?_
    cases instanceId with
    | none => exact .pure _
    | some instanceId =>
      refine (onBuf_local axdrReadU8_local start stop).attempt.bind fun id => ?_
      cases id with
      | none => exact .pure _
      | some id => exact .pure _

theorem skipAccessSelection_local : DecodesLocally skipAccessSelection := by
  intro start stop
  refine (onBuf_local axdrReadU8_local start stop).bind fun selection => .ite ?_ (.pure _)
  refine (onBuf_local axdrReadU8_local start stop).bind fun _ => ?_
  exact (readValue_local .null start stop).bind fun _ => .pure _

theorem dataBlockBytes_local : ReadsLocally dataBlockBytes := by
  intro start stop
  refine (dlmsReadLen_local start stop).bind fun len b b' agree => .get_bind ?_
  rw [agree.unread]
  refine .failIf_bind agree fun fits => ?_
  have room : b.rd + len ≤ stop := agree.room fun short => fits (.inr short)
  exact (takeBytes_twinAt agree room).bind fun bytes s t agree => .pure _ agree

theorem dataBlockSaDecode_local (old : DataBlock) : DecodesLocally (dataBlockSaDecode old) := by
  intro start stop
  refine (onBuf_local axdrReadU8_local start stop).attempt.bind fun last => ?_
  cases last with
  | none => exact .pure _
  | some last =>
    refine (onBuf_local (axdrReadUint_local 4) start stop).attempt.bind fun number => ?_
    cases number with
    | none => exact .pure _
    | some number =>
      refine (onBuf_local dataBlockBytes_local start stop).attempt.bind fun bytes => ?_
      cases bytes with
      | none => exact .pure _
      | some bytes => exact .pure _

theorem listCount_local : DecodesLocally listCount := by
  intro start stop
  refine (onBuf_local dlmsReadLen_local start stop).attempt.bind fun count => ?_
  cases count with
  | none => exact .throw _
  | some count => exact .failIf_bind fun _ => .pure _

theorem readEntries_local {read : ℕ → Decode α} (one : ∀ i, DecodesLocally (read i)) (left index : ℕ) :
    DecodesLocally (readEntries read left index) := by
  intro start stop
  induction left generalizing index with
  | zero => exact .pure _
  | succ left ih => exact (one index start stop).bind fun entry => (ih (index + 1)).bind fun rest => .pure _

theorem requestHeader_local (expected : UInt8) : DecodesLocally (requestHeader expected) := by
  intro start stop
  refine (onBuf_local axdrReadU8_local start stop).bind fun tag => .failIf_bind fun _ => ?_
  refine (onBuf_local axdrReadU8_local start stop).bind fun type => ?_
  exact (onBuf_local axdrReadU8_local start stop).bind fun invoke => .pure _

theorem actionParameter_local (old : Value) : DecodesLocally (actionParameter old) := by
  intro start stop
  exact (onBuf_local axdrReadU8_local start stop).bind fun haveData =>
    .ite (readValue_local old start stop) (.pure _)

/-- A descriptor with the access selection behind it. -/
theorem selectedDescriptor_local (old : Descriptor) :
    DecodesLocally (do
      let attr ← descriptorRead old
      ignore skipAccessSelection
      return attr) :=
  fun start stop => (descriptorRead_local old start stop).bind fun _ =>
    (skipAccessSelection_local start stop).ignore.bind fun _ => .pure _

end Parts

/-! ## Requests -/

theorem getRequestDecode_local (old : GetRequest) : DecodesLocally (getRequestDecode old) := by
  intro start stop
  refine (requestHeader_local 0xC0 start stop).bind fun header => .ite ?_ (.ite ?_ (.ite ?_ (.throw _)))
  · refine (descriptorRead_local _ start stop).bind fun attr => ?_
    exact (skipAccessSelection_local start stop).ignore.bind fun _ => .pure _
  · refine (onBuf_local (axdrReadUint_local 4) start stop).attempt.bind fun number => ?_
    cases number with
    | none | some => exact .pure _
  · refine (listCount_local start stop).bind fun count => ?_
    exact (readEntries_local (fun i => selectedDescriptor_local _) count 0 start stop).bind fun items => .pure _

theorem setListDecode_local (old : List (Descriptor × Value)) : DecodesLocally (setListDecode old) := by
  intro start stop
  refine (listCount_local start stop).bind fun count => ?_
  refine (readEntries_local (fun i => selectedDescriptor_local _) count 0 start stop).bind fun attrs => ?_
  refine (onBuf_local dlmsReadLen_local start stop).attempt.bind fun valueCount => .failIf_bind fun _ => ?_
  exact (readEntries_local (fun i => readValue_local _) count 0 start stop).bind fun values => .pure _

theorem setRequestDecode_local (old : SetRequest) : DecodesLocally (setRequestDecode old) := by
  intro start stop
  refine (requestHeader_local 0xC1 start stop).bind fun header => .ite ?_ (.ite ?_ (.ite ?_ (.ite ?_ (.throw _))))
  · refine (descriptorRead_local _ start stop).bind fun attr => ?_
    refine (skipAccessSelection_local start stop).ignore.bind fun _ => ?_
    exact (readValue_local _ start stop).bind fun data => .pure _
  · refine (descriptorRead_local _ start stop).bind fun attr => ?_
    refine (skipAccessSelection_local start stop).ignore.bind fun _ => ?_
    exact (dataBlockSaDecode_local _ start stop).bind fun block => .pure _
  · exact (dataBlockSaDecode_local _ start stop).bind fun block => .pure _
  · exact (setListDecode_local _ start stop).bind fun items => .pure _

theorem actionRequestDecode_local (old : ActionRequest) : DecodesLocally (actionRequestDecode old) := by
  intro start stop
  have entry (method : Descriptor) (data : Value) : DecodesLocally (do
      let method ← descriptorRead method
      let data ← actionParameter data
      return (method, data)) := fun start stop =>
    (descriptorRead_local _ start stop).bind fun _ => (actionParameter_local _ start stop).bind fun _ => .pure _
  refine (requestHeader_local 0xC3 start stop).bind fun header =>
    .ite ?_ (.ite ?_ (.ite ?_ (.ite ?_ (.ite ?_ (.throw _)))))
  · refine (descriptorRead_local _ start stop).bind fun method => ?_
    exact (actionParameter_local _ start stop).bind fun data => .pure _
  · refine (listCount_local start stop).bind fun count => ?_
    exact (readEntries_local (fun i => entry _ _) count 0 start stop).bind fun items => .pure _
  · refine (onBuf_local (axdrReadUint_local 4) start stop).attempt.bind fun number => ?_
    cases number with
    | none | some => exact .pure _
  · refine (descriptorRead_local _ start stop).bind fun method => ?_
    exact (dataBlockSaDecode_local _ start stop).bind fun block => .pure _
  · exact (dataBlockSaDecode_local _ start stop).bind fun block => .pure _

/-! ## Release -/

theorem berReadLongTag_local (fuel : ℕ) (number : UInt8) : ReadsLocally (berReadLongTag fuel number) := by
  intro start stop
  induction fuel generalizing number with
  | zero => exact .throw _
  | succ fuel ih =>
    intro b b' agree
    refine needUnread_twinAt agree fun room => (nextByte_twinAt agree room).bind fun byte s t agree => ?_
    exact .ite (fun _ => ih _ s t agree) fun _ => .pure _ agree

theorem berReadTag_local : ReadsLocally berReadTag := by
  intro start stop b b' agree
  refine needUnread_twinAt agree fun room => (nextByte_twinAt agree room).bind fun first s t agree => ?_
  refine .ite (fun _ => .get_bind ?_) fun _ => .pure _ agree
  rw [agree.unread]
  exact (berReadLongTag_local _ _ start stop s t agree).bind fun number s t agree => .pure _ agree

theorem rlrqDecode_local : ReadsLocally rlrqDecode := by
  intro start stop
  refine (berReadTag_local start stop).bind fun tag => .failIf_bind fun _ => ?_
  refine (dlmsReadLen_local start stop).bind fun len b b' agree => .get_bind ?_
  rw [agree.unread]
  exact .failIf_bind agree fun _ => axdrReadU8_local start stop b b' agree

end OpenSpodes
