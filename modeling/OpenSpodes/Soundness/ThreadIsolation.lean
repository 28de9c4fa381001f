import Mathlib.Logic.Function.Basic
import OpenSpodes.Proofs.DataRead

/-! # Decoded values of several threads

The lock around `osp_value_read` covers the read and not the value it returns: the items of an array or
structure stay in the shared pool, and every read starts over at the pool's first place. So a thread's value
keeps its items until the next read of any thread that has items of its own, not until its own next read.
-/

namespace OpenSpodes

open Machine.Fallible

/-- The pool that threads share, and the value object of each of them. -/
structure Threads (ι : Type) where
  pool : Pool
  value : ι → Value

namespace Threads

variable {ι : Type} [DecidableEq ι]

/-- A thread calls `osp_value_read` on a buffer of its own, with the lock held. -/
def read (s : Threads ι) (call : ι × Buf) : Threads ι :=
  let (result, reader) := valueRead (s.value call.1) ⟨call.2, s.pool⟩
  ⟨reader.pool, Function.update s.value call.1 result.2⟩

def run (s : Threads ι) (calls : List (ι × Buf)) : Threads ι := calls.foldl read s

end Threads

/-- A place that the value refers to, directly or through its items. -/
inductive Value.Refers (memory : ℕ → Value) : Value → ℕ → Prop
  | item {kind : NestKind} {start count i : ℕ} :
      start ≤ i → i < start + count → Refers memory (kind.value start count) i
  | nested {value : Value} {i j : ℕ} :
      Refers memory value i → Refers memory (memory i) j → Refers memory value j

/-- A value has the same contents in two memories: what it refers to is the same. -/
def SameContents (memory memory' : ℕ → Value) (value : Value) : Prop :=
  ∀ i, value.Refers memory i → memory' i = memory i

/-- The bytes announce items: a list within the limits that is not empty, or a compact array. -/
def Buf.announcesItems (b : Buf) : Bool :=
  match axdrReadTag b with
  | .error _ _ => false
  | .ok tag behind =>
      if tag = 1 ∨ tag = 2 then
        match dlmsReadLen behind with
        | .error _ _ => false
        | .ok count _ => 0 < count ∧ count ≤ if tag = 1 then 32 else 16
      else tag = 19

/-- A read is harmless: it has no items, or no other thread holds a value that has some. -/
def Threads.Harmless {ι : Type} (s : Threads ι) (call : ι × Buf) : Prop :=
  call.2.announcesItems = false ∨ ∀ other, other ≠ call.1 → (s.value other).hasItems = false

/-- Every read of the run is harmless where it happens. -/
def Threads.Calm {ι : Type} [DecidableEq ι] (s : Threads ι) : List (ι × Buf) → Prop
  | [] => True
  | call :: calls => s.Harmless call ∧ (s.read call).Calm calls

theorem Value.refers_hasItems {memory : ℕ → Value} {value : Value} {i : ℕ} (refers : value.Refers memory i) :
    value.hasItems = true := by
  induction refers with
  | @item kind start count i above below =>
    have some : count ≠ 0 := by omega
    cases kind <;> simp [NestKind.value, Value.hasItems, some]
  | nested _ _ first _ => exact first

/-! ## A read without items -/

theorem listRead_slots {read : Value → StateM Reader (Err × Value)} {tag : UInt8} {maxLen : ℕ}
    {make : ℕ → ℕ → Value} {r : Reader}
    (none : ∀ count c, dlmsReadLen r.buf = .ok count c → ¬(0 < count ∧ count ≤ maxLen)) :
    (listRead read tag maxLen make r).2.pool.slots = r.pool.slots := by
  cases length : dlmsReadLen r.buf with
  | error e c =>
    rw [listRead, stateM_bind_of_eq (run_of_error length)]
    rfl
  | ok count c =>
    rw [listRead, stateM_bind_of_eq (run_of_ok length)]
    have none := none count c length
    simp only [stateM_get_bind]
    split
    · rfl
    · obtain rfl : count = 0 := by omega
      rfl

/-- The pool keeps its content when no items are announced. -/
theorem valueRead_slots {old : Value} {b : Buf} {pool : Pool} (none : b.announcesItems = false) :
    (valueRead old ⟨b, pool⟩).2.pool.slots = pool.slots := by
  change (valueReadImpl (poolLen + 2) old ⟨b, { pool with used := 0 }⟩).2.pool.slots = pool.slots
  have string (tag : UInt8) (make : List UInt8 → Value) (read : Read (List UInt8)) (c : Buf) :
      (valueReadImpl.string tag make read ⟨c, { pool with used := 0 }⟩).2.pool.slots = pool.slots := by
    change (Reader.run (make <$> read) ⟨c, { pool with used := 0 }⟩).2.pool.slots = pool.slots
    rw [run_pool]
  unfold Buf.announcesItems at none
  rw [valueReadImpl]
  cases tagged : axdrReadTag b with
  | error e c =>
    rw [stateM_bind_of_eq (run_of_error tagged)]
    rfl
  | ok tag c =>
    rw [stateM_bind_of_eq (run_of_ok tagged)]
    simp only [tagged] at none
    dsimp only
    cases ScalarKind.ofTag tag with
    | some kind => rfl
    | none =>
      dsimp only
      split_ifs with isNull isOctet isVisible isUtf8 isBits isArray isStruct isCompact
      · rfl
      · exact string _ _ _ c
      · exact string _ _ _ c
      · exact string _ _ _ c
      · change (Reader.run bitStringRead ⟨c, { pool with used := 0 }⟩).2.pool.slots = pool.slots
        rw [run_pool]
      · refine listRead_slots fun count d length within => ?_
        have length : dlmsReadLen c = .ok count d := length
        simp [isArray, length, within] at none
      · refine listRead_slots fun count d length within => ?_
        have length : dlmsReadLen c = .ok count d := length
        simp [isStruct, length, within] at none
      · simp [isCompact] at none
      · rfl

/-! ## Runs -/

variable {ι : Type} [DecidableEq ι] {s : Threads ι}

theorem run_of_calm {calls : List (ι × Buf)} {thread : ι} (calm : s.Calm calls)
    (others : ∀ call ∈ calls, call.1 ≠ thread) : (s.run calls).value thread = s.value thread ∧
      ((s.value thread).hasItems = true → (s.run calls).pool.slots = s.pool.slots) := by
  induction calls generalizing s with
  | nil => exact ⟨rfl, fun _ => rfl⟩
  | cons call calls ih =>
    have other := others call (by simp)
    have same : (s.read call).value thread = s.value thread := Function.update_of_ne other.symm _ _
    have kept (some : (s.value thread).hasItems = true) : (s.read call).pool.slots = s.pool.slots := by
      rcases calm.1 with none | none
      · exact valueRead_slots none
      · exact absurd some (by simp [none thread other.symm])
    obtain ⟨same', kept'⟩ := ih calm.2 fun call member => others call (by simp [member])
    rw [same] at same' kept'
    exact ⟨same', fun some => (kept' some).trans (kept some)⟩

theorem Threads.Calm.append {first second : List (ι × Buf)} (calm : s.Calm (first ++ second)) :
    s.Calm first ∧ (s.run first).Calm second := by
  induction first generalizing s with
  | nil => exact ⟨trivial, calm⟩
  | cons call first ih => exact ⟨⟨calm.1, (ih calm.2).1⟩, (ih calm.2).2⟩

/-- In a run of harmless reads, the value that a thread obtained keeps its contents until the thread's next
read. -/
theorem values_isolated (s : Threads ι) (calls : List (ι × Buf)) (calm : s.Calm calls)
    (before between after : List (ι × Buf)) {thread : ι} {buf : Buf}
    (split : calls = before ++ (thread, buf) :: (between ++ after))
    (others : ∀ call ∈ between, call.1 ≠ thread) :
    let obtained := s.run (before ++ [(thread, buf)])
    let later := s.run (before ++ (thread, buf) :: between)
    later.value thread = obtained.value thread ∧
      SameContents obtained.pool.slots later.pool.slots (obtained.value thread) := by
  intro obtained later
  have parts : calls = (before ++ [(thread, buf)]) ++ (between ++ after) := by simp [split]
  rw [parts] at calm
  obtain ⟨same, kept⟩ := run_of_calm calm.append.2.append.1 others
  have here : later = obtained.run between := by simp [later, obtained, Threads.run]
  rw [here]
  refine ⟨same, fun i refers => ?_⟩
  rw [kept (Value.refers_hasItems refers)]

def twoThreads : Threads Bool := ⟨.empty, fun _ => .null⟩

def oneItem (content : UInt8) : Buf := Buf.ofBytes [1, 1, 0x11, content]

theorem values_isolated_scalar :
    let obtained := twoThreads.run [(false, oneItem 5)]
    let later := twoThreads.run [(false, oneItem 5), (true, Buf.ofBytes [0x11, 7])]
    later.value false = obtained.value false ∧
      SameContents obtained.pool.slots later.pool.slots (obtained.value false) :=
  values_isolated twoThreads [(false, oneItem 5), (true, Buf.ofBytes [0x11, 7])]
    ⟨.inr (by decide), .inl (by decide), trivial⟩ [] [(true, Buf.ofBytes [0x11, 7])] [] rfl (by simp)

/-- A read of another thread replaces the item of a value that was obtained before. -/
theorem item_replaced :
    let obtained := twoThreads.run [(false, oneItem 5)]
    let later := twoThreads.run [(false, oneItem 5), (true, oneItem 7)]
    obtained.value false = .array 0 1 ∧ obtained.pool.slots 0 = .scalar .unsigned 5 ∧
      later.value false = .array 0 1 ∧ later.pool.slots 0 = .scalar .unsigned 7 := by
  decide +kernel

end OpenSpodes
