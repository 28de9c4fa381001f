import OpenSpodes.Proofs.SkipCost

/-! # How much work decoding takes

Before `osp_value_read` decodes a compact array it counts the elements, walking the type description over the contents
once for each. The description is the peer's, and an array in it names its length: if its element takes contents, the
contents pay for every repetition and the work is quadratic at most; if it takes none, four bytes of description stand
for as many calls as a sixteen bit number can say.
-/

namespace OpenSpodes

open Machine Machine.Fallible

/-! ## What is counted -/

/-- The calls of `compact_skip_description` that `compact_count_elements` makes for at most `left` elements. -/
def countCalls (fuel : ℕ) : ℕ → Compact → ℕ
  | 0, _ => 0
  | left + 1, s =>
      if s.contents.rd < s.contents.wr then
        skipCalls fuel (s.rewound 0) +
          along (do rewindDesc 0; compactSkipDescription fuel) s fun _ t => countCalls fuel left t
      else 0

/-- A description of known length, and the contents behind it if they are there, with the buffer behind both. -/
def contentsOffered (r : Reader) (descLen pos : ℕ) : Option (Compact × Buf) :=
  match contentsLength { r.buf with rd := pos } with
  | .error _ _ => none
  | .ok len b => some (⟨⟨r.buf.buf.drop r.buf.rd, 0, descLen⟩, ⟨b.buf.drop b.rd, 0, len⟩, r.pool⟩, b.skip len)

/-- What `read_compact_array` hands to the decoder of elements, if it gets that far. -/
def compactOffered (r : Reader) : Option (Compact × Buf) :=
  match skipTypeDescription 16 r.buf with
  | .error _ _ => none
  | .ok _ probe =>
      let descLen := (probe.rd + 2 ^ 32 - r.buf.rd) % 2 ^ 32
      contentsOffered r descLen ((r.buf.rd + descLen) % 2 ^ 32)

/-- The compact arrays among `n` items, up to the first that fails. -/
def itemsOffered (read : Value → StateM Reader (Err × Value)) (offered : Reader → List Compact) :
    ℕ → ℕ → Reader → List Compact
  | 0, _, _ => []
  | n + 1, pos, r =>
      let out := read (r.pool.slots pos) r
      offered r ++
        if out.1.1 = .ok then itemsOffered read offered n (pos + 1) { out.2 with pool := out.2.pool.put pos out.1.2 }
        else []

/-- The compact arrays of a tagged array or structure. -/
def listOffered (read : Value → StateM Reader (Err × Value)) (offered : Reader → List Compact) (maxLen : ℕ)
    (r : Reader) : List Compact :=
  match dlmsReadLen r.buf with
  | .error _ _ => []
  | .ok count b =>
      if count > maxLen ∨ r.pool.used + count > poolLen then []
      else itemsOffered read offered count r.pool.used ⟨b, r.pool.take count⟩

/-- The compact arrays that `osp_value_read_impl` comes to. -/
def compactArraysImpl : ℕ → Reader → List Compact
  | 0, _ => []
  | fuel + 1, r =>
      match axdrReadTag r.buf with
      | .error _ _ => []
      | .ok tag b =>
          if tag = 1 then listOffered (valueReadImpl fuel) (compactArraysImpl fuel) 32 ⟨b, r.pool⟩
          else if tag = 2 then listOffered (valueReadImpl fuel) (compactArraysImpl fuel) 16 ⟨b, r.pool⟩
          else if tag = 19 then ((compactOffered ⟨b, r.pool⟩).map Prod.fst).toList
          else []

/-- The compact arrays that `osp_value_read` comes to. -/
def compactArrays (r : Reader) : List Compact :=
  compactArraysImpl (poolLen + 2) { r with pool := { r.pool with used := 0 } }

/-- The calls made to count the elements of compact arrays. -/
def callsFor (arrays : List Compact) : ℕ := (arrays.map fun s => countCalls (s.desc.wr + 1) 32 s).sum

/-- The calls of `compact_skip_description` that one `osp_value_read` makes. -/
def decodingCalls (r : Reader) : ℕ := callsFor (compactArrays r)

/-- No array of the type description repeats an element that may take no byte of the contents. -/
def Compact.Productive (s : Compact) : Prop := productive (s.desc.wr + 1) s.desc = true

/-! ## One compact array -/

section Elements

variable {m n fuel : ℕ} {s : Compact}

/-- Every walk costs the description once and once more for every byte of contents it takes. -/
theorem countCalls_le {base : Buf} (inside : base.Inside m) (front : base.rd = 0)
    (fine : productive fuel base = true) (left : ℕ) (agree : Compact.Agree m n s s) (area : s.desc.buf = base.buf) :
    countCalls fuel left s ≤ (m + 1) * (left + (n - s.contents.rd)) := by
  induction left generalizing s with
  | zero => exact Nat.zero_le _
  | succ left ih =>
    rw [countCalls]
    split
    · have back : (s.rewound 0).desc = base := by
        have ends : s.desc.wr = base.wr := agree.desc.wr.trans inside.wr.symm
        simp only [Compact.rewound, area, ends, ← front]
      have start : Compact.Agree m n (s.rewound 0) (s.rewound 0) := ⟨back.symm ▸ inside, agree.contents, rfl⟩
      have one := affordable fuel (s.rewound 0) start (back.symm ▸ fine)
      have within := agree.contents.inside
      cases run : compactSkipDescription fuel (s.rewound 0) with
      | error e t =>
        have stepped : (do rewindDesc 0; compactSkipDescription fuel) s = .error e t := run
        have failed := one.error run
        have cost := failed.calls
        have forward : s.contents.rd ≤ t.contents.rd := failed.forward
        have short := ((Ends.of_twin (compactSkipDescription_local fuel) start).error run).contents.inside
        rw [along_of_error stepped, Nat.add_zero]
        refine cost.trans (Nat.mul_le_mul ?_ ?_)
        · change m - 0 + 1 ≤ m + 1
          omega
        · change 1 + (t.contents.rd - s.contents.rd) ≤ _
          omega
      | ok _ t =>
        have stepped : (do rewindDesc 0; compactSkipDescription fuel) s = .ok () t := run
        have paid := one.ok run
        have cost := (paid.le start).2
        have forward : s.contents.rd ≤ t.contents.rd := paid.forward
        have short := paid.agree.contents.inside
        have length := paid.agree.desc.inside
        have later : t.desc.buf = base.buf := by
          obtain ⟨shape, scanned, -⟩ := paid.shape
          exact ((Honest.scan fuel _).ok scanned).trans area
        rw [along_of_ok stepped]
        have rest := ih paid.agree later
        have split : left + 1 + (n - s.contents.rd) =
            (1 + (t.contents.rd - s.contents.rd)) + (left + (n - t.contents.rd)) := by omega
        rw [split, Nat.mul_add]
        refine Nat.add_le_add (cost.trans (Nat.mul_le_mul_right _ ?_)) rest
        omega
    · exact Nat.zero_le _

end Elements

/-! ## One value -/

section Values

variable {stop : ℕ} {r : Reader} {b : Buf}

/-- The calls that the bytes between two positions pay for. -/
def allowance (taken : ℕ) : ℕ := taken * (32 + taken)

theorem allowance_mono {a b : ℕ} (le : a ≤ b) : allowance a ≤ allowance b :=
  Nat.mul_le_mul le (Nat.add_le_add_left le 32)

theorem allowance_add (a b : ℕ) : allowance a + allowance b ≤ allowance (a + b) := by
  unfold allowance
  nlinarith

theorem callsFor_append (first rest : List Compact) : callsFor (first ++ rest) = callsFor first + callsFor rest := by
  simp [callsFor]

theorem readCompactArray_buf {s : Compact} (offered : compactOffered r = some (s, b)) :
    (readCompactArray r).2.buf = b := by
  rw [compactOffered] at offered
  rw [readCompactArray, stateM_get_bind]
  dsimp only
  cases skipped : skipTypeDescription 16 r.buf with
  | error e probe =>
    rw [skipped] at offered
    cases offered
  | ok _ probe =>
    rw [skipped] at offered
    dsimp only at offered ⊢
    generalize (probe.rd + 2 ^ 32 - r.buf.rd) % 2 ^ 32 = descLen at offered ⊢
    generalize (r.buf.rd + descLen) % 2 ^ 32 = pos at offered ⊢
    rw [contentsOffered] at offered
    cases read : contentsLength { r.buf with rd := pos } with
    | error e c =>
      rw [read] at offered
      cases offered
    | ok len c =>
      rw [read] at offered
      cases offered
      have length := run_of_ok (r := ⟨{ r.buf with rd := pos }, r.pool⟩) read
      unfold contentsLength at length
      rw [stateM_modify_bind, stateM_bind_of_eq length]
      simp only [stateM_get_bind]
      cases compactDecodeElements (descLen + 1)
          ⟨⟨r.buf.buf.drop r.buf.rd, 0, descLen⟩, ⟨c.buf.drop c.rd, 0, len⟩, r.pool⟩ with
      | ok value t => rfl
      | error e t => rfl

theorem contentsOffered_within {s : Compact} {pos : ℕ} (inside : r.buf.Inside stop) (forward : r.buf.rd ≤ pos)
    (early : pos ≤ stop) (offered : contentsOffered r (pos - r.buf.rd) pos = some (s, b)) :
    Compact.Agree s.desc.wr s.contents.wr s s ∧ s.desc.rd = 0 ∧ s.contents.rd = 0 ∧
      r.buf.rd + s.desc.wr + s.contents.wr ≤ b.rd := by
  have moved : Buf.Inside stop { r.buf with rd := pos } :=
    { inside with rd := rfl, from_start := Nat.zero_le _, inside := early }
  rw [contentsOffered] at offered
  cases length : contentsLength { r.buf with rd := pos } with
  | error e c =>
    rw [length] at offered
    cases offered
  | ok len c =>
    rw [length] at offered
    cases offered
    obtain ⟨behind, onward⟩ := moved.read contentsLength_local length
    have room := behind.room (contentsLength_unread length)
    have desc := inside.tail (show r.buf.rd + (pos - r.buf.rd) ≤ stop by omega)
    refine ⟨⟨desc, behind.tail room, rfl⟩, rfl, rfl, ?_⟩
    rw [behind.skip_rd room]
    dsimp only at onward ⊢
    omega

/-- The parts of a compact array lie in the bytes that reading it goes over. -/
theorem compactOffered_within {s : Compact} (inside : r.buf.Inside stop) (offered : compactOffered r = some (s, b)) :
    Compact.Agree s.desc.wr s.contents.wr s s ∧ s.desc.rd = 0 ∧ s.contents.rd = 0 ∧
      r.buf.rd + s.desc.wr + s.contents.wr ≤ b.rd := by
  rw [compactOffered] at offered
  cases described : skipTypeDescription 16 r.buf with
  | error e probe =>
    rw [described] at offered
    cases offered
  | ok _ probe =>
    obtain ⟨within, forward⟩ := inside.read (skipTypeDescription_local 16) described
    have short := within.short
    have early := within.inside
    have descLen : (probe.rd + 2 ^ 32 - r.buf.rd) % 2 ^ 32 = probe.rd - r.buf.rd := by omega
    have position : (r.buf.rd + (probe.rd - r.buf.rd)) % 2 ^ 32 = probe.rd := by omega
    rw [described] at offered
    dsimp only at offered
    rw [descLen, position] at offered
    exact contentsOffered_within inside forward early offered

/-- The bytes between `r` and `r'` pay for the calls that decoding `arrays` takes. -/
def PaidFor (arrays : List Compact) (r r' : Reader) : Prop :=
  (∀ s ∈ arrays, s.Productive) → callsFor arrays ≤ allowance (r'.buf.rd - r.buf.rd)

theorem PaidFor.nil (r r' : Reader) : PaidFor [] r r' := fun _ => Nat.zero_le _

theorem PaidFor.append {first rest : List Compact} {r s t : Reader} (front : PaidFor first r s)
    (behind : PaidFor rest s t) (forward : r.buf.rd ≤ s.buf.rd) (onward : s.buf.rd ≤ t.buf.rd) :
    PaidFor (first ++ rest) r t := by
  intro fine
  have split : t.buf.rd - r.buf.rd = (s.buf.rd - r.buf.rd) + (t.buf.rd - s.buf.rd) := by omega
  rw [callsFor_append, split]
  refine (Nat.add_le_add (front fun s member => ?_) (behind fun s member => ?_)).trans (allowance_add _ _)
  · exact fine s (List.mem_append_left _ member)
  · exact fine s (List.mem_append_right _ member)

theorem PaidFor.later {arrays : List Compact} {r s t : Reader} (paid : PaidFor arrays s t) (forward : r.buf.rd ≤ s.buf.rd) :
    PaidFor arrays r t :=
  fun fine => (paid fine).trans (allowance_mono (Nat.sub_le_sub_left forward _))

/-- A state transformer on readers moves forward inside the received bytes. -/
theorem forward_of_local {α : Type} {p : StateM Reader α} (reads : TwinState (Reader.Agree r.buf.rd stop) p)
    (inside : r.buf.Inside stop) : (p r).2.buf.Inside stop ∧ r.buf.rd ≤ (p r).2.buf.rd := by
  have after := (reads r r ⟨inside.here, rfl⟩).2.buf
  exact ⟨⟨rfl, after.wr, after.wr, Nat.zero_le _, after.inside, after.short, rfl⟩, after.from_start⟩

section Lists

variable {read : Value → StateM Reader (Err × Value)} {offered : Reader → List Compact}

theorem itemsOffered_paid (reads : ∀ old start, TwinState (Reader.Agree start stop) (read old))
    (each : ∀ old r, r.buf.Inside stop → PaidFor (offered r) r (read old r).2) (count pos : ℕ)
    (inside : r.buf.Inside stop) :
    PaidFor (itemsOffered read offered count pos r) r (readItems read count pos r).2 := by
  induction count generalizing pos r with
  | zero => exact .nil _ _
  | succ count ih =>
    have one := each (r.pool.slots pos) r inside
    obtain ⟨within, forward⟩ := forward_of_local (reads (r.pool.slots pos) _) inside
    rw [readItems, stateM_get_bind, itemsOffered]
    generalize out : read (r.pool.slots pos) r = item at one within forward ⊢
    obtain ⟨⟨err, value⟩, s⟩ := item
    rw [stateM_bind_of_eq out]
    dsimp only at one within forward ⊢
    rw [stateM_modify_bind]
    split
    · have later := forward_of_local (r := ⟨s.buf, s.pool.put pos value⟩) (readItems_local (reads · _) count (pos + 1)) within
      exact one.append (ih (pos + 1) within) forward later.2
    · exact one.append (.nil s s) forward le_rfl

theorem listOffered_paid (reads : ∀ old start, TwinState (Reader.Agree start stop) (read old))
    (each : ∀ old r, r.buf.Inside stop → PaidFor (offered r) r (read old r).2) (tag : UInt8) (maxLen : ℕ)
    (make : ℕ → ℕ → Value) (inside : r.buf.Inside stop) :
    PaidFor (listOffered read offered maxLen r) r (listRead read tag maxLen make r).2 := by
  rw [listOffered]
  cases length : dlmsReadLen r.buf with
  | error e c => exact .nil _ _
  | ok count c =>
    obtain ⟨within, forward⟩ := inside.read dlmsReadLen_local length
    rw [listRead, stateM_bind_of_eq (run_of_ok length)]
    dsimp only
    rw [stateM_get_bind]
    dsimp only
    split
    · exact .nil _ _
    · rw [stateM_modify_bind]
      have items := itemsOffered_paid (r := ⟨c, r.pool.take count⟩) reads each count r.pool.used within
      exact items.later forward

end Lists

/-- The tag in front of a compact array pays for the call that the description alone does not. -/
theorem compactOffered_paid {before : Reader} (inside : r.buf.Inside stop) (tag : before.buf.rd < r.buf.rd) :
    PaidFor ((compactOffered r).map Prod.fst).toList before (readCompactArray r).2 := by
  cases offered : compactOffered r with
  | none => exact .nil _ _
  | some parts =>
    obtain ⟨s, b⟩ := parts
    intro fine
    obtain ⟨agree, front, start, within⟩ := compactOffered_within inside offered
    have productive : s.Productive := fine s (by simp)
    have calls := countCalls_le agree.desc front productive 32 agree rfl
    rw [readCompactArray_buf offered]
    simp only [Option.map_some, Option.toList_some, callsFor, List.map_cons, List.map_nil, List.sum_singleton]
    exact calls.trans (Nat.mul_le_mul (by omega) (by omega))

theorem compactArraysImpl_paid (fuel : ℕ) (old : Value) (inside : r.buf.Inside stop) :
    PaidFor (compactArraysImpl fuel r) r (valueReadImpl fuel old r).2 := by
  induction fuel generalizing old r with
  | zero => exact .nil _ _
  | succ fuel ih =>
    have reads (old : Value) (start : ℕ) : TwinState (Reader.Agree start stop) (valueReadImpl fuel old) :=
      valueReadImpl_local fuel old
    have each (old : Value) (r : Reader) (inside : r.buf.Inside stop) :
        PaidFor (compactArraysImpl fuel r) r (valueReadImpl fuel old r).2 := ih old inside
    rw [compactArraysImpl, valueReadImpl]
    cases tagged : axdrReadTag r.buf with
    | error e c => exact .nil _ _
    | ok tag c =>
      obtain ⟨within, moved⟩ := inside.readU8 tagged
      have forward : r.buf.rd ≤ c.rd := by omega
      rw [stateM_bind_of_eq (run_of_ok tagged)]
      by_cases isArray : tag = 1
      · subst isArray
        exact (listOffered_paid (r := ⟨c, r.pool⟩) reads each 1 32 .array within).later forward
      by_cases isStruct : tag = 2
      · subst isStruct
        exact (listOffered_paid (r := ⟨c, r.pool⟩) reads each 2 16 .struct within).later forward
      by_cases isCompact : tag = 19
      · subst isCompact
        exact compactOffered_paid (r := ⟨c, r.pool⟩) within (by dsimp only; omega)
      · dsimp only
        rw [if_neg isArray, if_neg isStruct, if_neg isCompact]
        exact .nil _ _

end Values

/-- Where no description repeats an element without contents, the work is at most quadratic. -/
theorem decoding_work_bounded (r : Reader) (inside : r.buf.rd ≤ r.buf.wr) (area : r.buf.wr ≤ r.buf.buf.length)
    (size : r.buf.buf.length < 2 ^ 32) (productive : ∀ s ∈ compactArrays r, s.Productive) :
    decodingCalls r ≤ 1000 * (r.buf.unread + 1) * (r.buf.unread + 1) := by
  have start : r.buf.Inside r.buf.wr := ⟨rfl, rfl, rfl, Nat.zero_le _, inside, area.trans_lt size, rfl⟩
  have paid := compactArraysImpl_paid (r := { r with pool := { r.pool with used := 0 } }) (poolLen + 2) .null start productive
  have within := (forward_of_local (r := { r with pool := { r.pool with used := 0 } })
    (valueReadImpl_local (poolLen + 2) .null) start).1
  have unread : r.buf.unread = r.buf.wr - r.buf.rd := if_pos inside
  refine paid.trans ((allowance_mono (Nat.sub_le_sub_right within.inside _)).trans ?_)
  rw [unread, allowance]
  nlinarith

/-- Two elements of a structure of an octet string and an array of two bytes. -/
def productiveSample : Reader :=
  ⟨⟨[0x13, 2, 2, 9, 1, 0, 2, 0x11, 8, 1, 0xAA, 5, 6, 1, 0xBB, 7, 8], 0, 17⟩, Pool.empty⟩

theorem decoding_work_bounded_sample :
    decodingCalls productiveSample = 10 ∧ decodingCalls productiveSample ≤ 1000 * (17 + 1) * (17 + 1) :=
  ⟨by decide +kernel,
    decoding_work_bounded productiveSample (by decide) (by decide) (by decide) (by simp only [Compact.Productive]; decide +kernel)⟩

/-- A step that comes back to the same kind of state costs the same each time. -/
theorem loopCalls_of_idle {step : CompactM Unit} {calls : Compact → ℕ} {k : ℕ} (idle : Compact → Prop)
    (stays : ∀ s, idle s → ∃ t, step s = .ok () t ∧ idle t) (each : ∀ s, idle s → calls s = k) (n : ℕ) {s : Compact}
    (start : idle s) : loopCalls step calls n s = n * k := by
  induction n generalizing s with
  | zero => simp [loopCalls]
  | succ n ih =>
    obtain ⟨t, stepped, later⟩ := stays s start
    rw [loopCalls, along_of_ok stepped, each s start, ih later, Nat.add_one_mul, Nat.add_comm]

/-- A compact array of seven bytes whose element is an array of 65535 nulls. -/
def nullArray : Reader := ⟨⟨[0x13, 1, 0xFF, 0xFF, 0, 1, 0], 0, 7⟩, Pool.empty⟩

/-- The description of its element and its contents. -/
def nullArrayParts : Compact := ⟨⟨[1, 0xFF, 0xFF, 0, 1, 0], 0, 4⟩, ⟨[0], 0, 1⟩, { Pool.empty with used := 0 }⟩

theorem nullArray_parts : compactArrays nullArray = [nullArrayParts] := rfl

theorem nullArray_element_calls : skipCalls 5 nullArrayParts = 1 + 65535 * 1 := by
  have tag : onDesc axdrReadU8 nullArrayParts = .ok 1 (nullArrayParts.rewound 1) := rfl
  have count : onDesc axdrReadU16 (nullArrayParts.rewound 1) = .ok 65535 (nullArrayParts.rewound 3) := rfl
  -- the null takes nothing, so every walk starts from where the last one did
  have element : compactSkipDescription 4 (nullArrayParts.rewound 3) = .ok () (nullArrayParts.rewound 4) := rfl
  have call : skipCalls 4 (nullArrayParts.rewound 3) = 1 := rfl
  have other : ¬(1 : UInt8) = 2 := by decide
  rw [skipCalls, along_of_ok tag, if_neg other, if_pos rfl, along_of_ok count]
  refine congrArg (1 + ·) (loopCalls_of_idle (fun v => v.rewound 3 = nullArrayParts.rewound 3) ?_ ?_ 65535 rfl)
  · intro v idle
    exact ⟨nullArrayParts.rewound 4, (congrArg (compactSkipDescription 4) idle).trans element, rfl⟩
  · intro v idle
    exact (congrArg (skipCalls 4) idle).trans call

/-- Seven bytes that take more calls than a thousand times the square of eight. -/
theorem null_array_repeated : ¬decodingCalls nullArray ≤ 1000 * (7 + 1) * (7 + 1) := by
  have some : nullArrayParts.contents.rd < nullArrayParts.contents.wr := by decide
  have front : nullArrayParts.rewound 0 = nullArrayParts := rfl
  have first : skipCalls 5 nullArrayParts ≤ countCalls 5 32 nullArrayParts := by
    rw [countCalls, if_pos some, front]
    exact Nat.le_add_right _ _
  rw [nullArray_element_calls] at first
  rw [decodingCalls, nullArray_parts, callsFor, List.map_singleton, List.sum_singleton]
  change ¬countCalls 5 32 nullArrayParts ≤ _
  omega

end OpenSpodes
