import OpenSpodes.Machine.TwoRuns
import OpenSpodes.Model.Value

/-! # Decoders see only the received bytes

A receive buffer holds old bytes behind the received ones. Every read of the service decoders is checked
against the end of the data first, so two buffers with the same received bytes are decoded alike, whatever
lies behind. The association request is different: its object identifier is read without a check.
-/

namespace OpenSpodes

open Bytes Machine Machine.Fallible

/-- Two buffers at the same position, at or behind `start`, with the same bytes up to their end `stop`. -/
structure Buf.Agree (start stop : ℕ) (b b' : Buf) : Prop where
  rd : b'.rd = b.rd
  wr : b.wr = stop
  wr' : b'.wr = stop
  from_start : start ≤ b.rd
  inside : b.rd ≤ stop
  short : stop < 2 ^ 32
  bytes : b'.buf.take stop = b.buf.take stop

namespace Buf.Agree

variable {start stop n : ℕ} {b b' : Buf}

theorem unread (agree : Agree start stop b b') : b'.unread = b.unread := by
  simp only [Buf.unread, agree.rd, agree.wr, agree.wr']

theorem room (agree : Agree start stop b b') (enough : ¬b.unread < n) : b.rd + n ≤ stop := by
  have inside := agree.inside
  rw [Buf.unread, agree.wr, if_pos inside] at enough
  omega

theorem slice (agree : Agree start stop b b') (room : b.rd + n ≤ stop) : b'.slice n = b.slice n := by
  have cut (mem : List UInt8) : padTo n (mem.drop b.rd) = padTo n ((mem.take stop).drop b.rd) := by
    simp only [padTo, List.drop_take, List.take_take, List.length_take, List.length_drop]
    rw [Nat.min_eq_left (by omega)]
    congr 2
    omega
  rw [Buf.slice, Buf.slice, agree.rd, cut, cut b.buf, agree.bytes]

theorem byteAt (agree : Agree start stop b b') {i : ℕ} (room : i < stop) : b'.byteAt i = b.byteAt i := by
  have cut (mem : List UInt8) : mem.getD i 0 = (mem.take stop).getD i 0 := by
    simp [List.getD_eq_getElem?_getD, List.getElem?_take_of_lt room]
  rw [Buf.byteAt, Buf.byteAt, cut, cut b.buf, agree.bytes]

theorem skip_rd (agree : Agree start stop b b') (room : b.rd + n ≤ stop) : (b.skip n).rd = b.rd + n :=
  Nat.mod_eq_of_lt (by have := agree.short; omega)

theorem skip (agree : Agree start stop b b') (room : b.rd + n ≤ stop) :
    Agree start stop (b.skip n) (b'.skip n) where
  rd := by simp only [Buf.skip, agree.rd]
  wr := agree.wr
  wr' := agree.wr'
  from_start := by
    rw [agree.skip_rd room]
    exact Nat.le_add_right_of_le agree.from_start
  inside := by rwa [agree.skip_rd room]
  short := agree.short
  bytes := agree.bytes

/-- The same buffers from the present position on. -/
theorem here (agree : Agree start stop b b') : Agree b.rd stop b b' := { agree with from_start := le_rfl }

end Buf.Agree

/-! ## Reads -/

/-- A decoding step that sees only the received bytes and moves forward. -/
def ReadsLocally {α : Type} (step : Read α) : Prop := ∀ start stop, Twin (Buf.Agree start stop) step

section Reads

variable {α : Type} {start stop n : ℕ} {b b' : Buf} {err : Err}

theorem needUnread_twinAt {f : Unit → Read α} (agree : Buf.Agree start stop b b')
    (rest : b.rd + n ≤ stop → TwinAt (Buf.Agree start stop) b b' (f ()) (f ())) :
    TwinAt (Buf.Agree start stop) b b' (needUnread n err >>= f) (needUnread n err >>= f) := by
  simp only [needUnread, bind_assoc]
  refine .get_bind ?_
  rw [agree.unread]
  exact .failIf_bind agree fun enough => rest (agree.room enough)

theorem takeBytes_twinAt (agree : Buf.Agree start stop b b') (room : b.rd + n ≤ stop) :
    TwinAt (Buf.Agree start stop) b b' (takeBytes n) (takeBytes n) :=
  .inl ⟨b.slice n, _, _, rfl, by rw [← agree.slice room]; rfl, agree.skip room⟩

theorem nextByte_twinAt (agree : Buf.Agree start stop b b') (room : b.rd + 1 ≤ stop) :
    TwinAt (Buf.Agree start stop) b b' nextByte nextByte := by
  refine .inl ⟨b.byteAt b.rd, _, _, rfl, ?_, agree.skip room⟩
  rw [← agree.byteAt (Nat.lt_of_succ_le room)]
  simp only [nextByte, modifyGet_apply, agree.rd]

theorem nextByte_bind_twinAt {f : UInt8 → Read α} (agree : Buf.Agree start stop b b') (room : b.rd + 1 ≤ stop)
    (rest : TwinAt (Buf.Agree start stop) (b.skip 1) (b'.skip 1) (f (b.byteAt b.rd)) (f (b.byteAt b.rd))) :
    TwinAt (Buf.Agree start stop) b b' (nextByte >>= f) (nextByte >>= f) := by
  have same : b'.byteAt b'.rd = b.byteAt b.rd := by rw [agree.rd, agree.byteAt (Nat.lt_of_succ_le room)]
  rw [← same] at rest
  rcases rest with ⟨a, s, t, left, right, related⟩ | ⟨e, s, t, left, right, related⟩
  · rw [same] at left
    exact .inl ⟨a, s, t, left, right, related⟩
  · rw [same] at left
    exact .inr ⟨e, s, t, left, right, related⟩

theorem needUnread_takeBytes_local (n : ℕ) (err : Err) : ReadsLocally (needUnread n err >>= fun _ => takeBytes n) :=
  fun _ _ _ _ agree => needUnread_twinAt agree (takeBytes_twinAt agree)

theorem needUnread_skip_local (n : ℕ) (err : Err) : ReadsLocally (needUnread n err >>= fun _ => modify (·.skip n)) :=
  fun _ _ _ _ agree => needUnread_twinAt agree fun room => .modify (agree.skip room)

theorem axdrReadU8_local : ReadsLocally axdrReadU8 :=
  fun _ _ _ _ agree => needUnread_twinAt agree (nextByte_twinAt agree)

theorem axdrReadUint_local (width : ℕ) : ReadsLocally (axdrReadUint width) := by
  intro start stop b b' agree
  refine needUnread_twinAt agree fun room => (takeBytes_twinAt agree room).bind fun bytes s t agree => ?_
  exact .pure _ agree

theorem dlmsReadLen_local : ReadsLocally dlmsReadLen := by
  intro start stop b b' agree
  refine needUnread_twinAt agree fun room => (nextByte_twinAt agree room).bind fun first s t agree => ?_
  refine .ite (fun _ => .pure _ agree) fun _ => ?_
  refine .failIf_bind agree fun _ => .failIf_bind agree fun _ => ?_
  refine needUnread_twinAt agree fun room => (takeBytes_twinAt agree room).bind fun bytes s t agree => ?_
  exact .pure _ agree

theorem axdrReadLength_local : ReadsLocally axdrReadLength := by
  intro start stop
  refine (dlmsReadLen_local start stop).attempt.bind fun len => ?_
  cases len with
  | none => exact .throw _
  | some len => exact .pure _

theorem stringRead_local {readLength : Read ℕ} (length : ReadsLocally readLength) (maxLen : ℕ)
    (tooLong : Err) : ReadsLocally (stringRead readLength maxLen tooLong) :=
  fun start stop =>
    (length start stop).bind fun len => .failIf_bind fun _ => needUnread_takeBytes_local len _ start stop

theorem bitStringRead_local : ReadsLocally bitStringRead := by
  intro start stop
  refine (axdrReadLength_local start stop).bind fun len => ?_
  cases len with
  | zero => exact .pure _
  | succ len =>
    intro b b' agree
    -- the one check covers the byte of unused bits and the bits
    refine needUnread_twinAt agree fun room => ?_
    have one : b.rd + 1 ≤ stop := by omega
    have rest : (b.skip 1).rd + len ≤ stop := by
      rw [agree.skip_rd one]
      omega
    refine nextByte_bind_twinAt agree one (.failIf_bind (agree.skip one) fun _ => ?_)
    exact (takeBytes_twinAt (agree.skip one) rest).bind fun bits s t agree => .pure _ agree

/-! ## Compact arrays -/

theorem repeatRead_local {step : Read Unit} (one : ReadsLocally step) (n : ℕ) : ReadsLocally (repeatRead step n) := by
  intro start stop
  induction n with
  | zero => exact .pure _
  | succ n ih => exact (one start stop).bind fun _ => ih

theorem skipTypeDescription_local (levels : ℕ) : ReadsLocally (skipTypeDescription levels) := by
  induction levels with
  | zero => exact fun _ _ => .throw _
  | succ levels ih =>
    intro start stop
    refine (axdrReadU8_local start stop).bind fun tag => .ite ?_ (.ite ?_ (.pure _))
    · exact (dlmsReadLen_local start stop).bind fun n => repeatRead_local ih n start stop
    · have skipped := (needUnread_skip_local 2 .invalid start stop).bind fun _ => ih start stop
      simpa only [bind_assoc] using skipped

theorem skipPackedValue_local (tag : UInt8) : ReadsLocally (skipPackedValue tag) := by
  intro start stop
  refine .ite (needUnread_skip_local _ _ start stop) (.ite (.pure _) (.ite ?_ (.ite ?_ (.throw _))))
  · exact (dlmsReadLen_local start stop).bind fun len => needUnread_skip_local len _ start stop
  · exact (dlmsReadLen_local start stop).bind fun len => needUnread_skip_local _ _ start stop

theorem readPackedBitstring_local : ReadsLocally readPackedBitstring := by
  intro start stop
  refine (dlmsReadLen_local start stop).bind fun numBits b b' agree => .get_bind ?_
  rw [agree.unread]
  refine .failIf_bind agree fun fits => ?_
  have room : b.rd + (numBits + 7) % 2 ^ 32 / 8 ≤ stop := agree.room fun short => fits (.inr short)
  exact (takeBytes_twinAt agree room).bind fun bits s t agree => .pure _ agree

end Reads

/-! ## Values -/

/-- A step that returns its error beside its value sees only the received bytes. -/
def ScansLocally {α : Type} (scan : Buf → Err × α × Buf) : Prop :=
  ∀ start stop b b', Buf.Agree start stop b b' →
    (scan b).1 = (scan b').1 ∧ (scan b).2.1 = (scan b').2.1 ∧ Buf.Agree start stop (scan b).2.2 (scan b').2.2

theorem datetimeRead_local : ScansLocally datetimeRead := by
  intro start stop b b' agree
  unfold datetimeRead
  rcases axdrReadUint_local 5 start stop b b' agree with
    ⟨date, s, t, left, right, agree⟩ | ⟨e, s, t, left, right, agree⟩
  · rw [left, right]
    dsimp only
    rcases axdrReadUint_local 4 start stop s t agree with
      ⟨time, u, v, left, right, agree⟩ | ⟨e, u, v, left, right, agree⟩
    · rw [left, right]
      dsimp only
      by_cases few : u.unread < 3
      · simp [needUnread, failIf, agree.unread, few, agree]
      · simp [needUnread, failIf, agree.unread, few, agree.skip (agree.room few)]
    · rw [left, right]
      exact ⟨rfl, rfl, agree⟩
  · rw [left, right]
    exact ⟨rfl, rfl, agree⟩

theorem scalarRead_local (kind : ScalarKind) : ScansLocally (scalarRead kind) := by
  intro start stop b b' agree
  unfold scalarRead
  cases kind with
  | datetime => exact datetimeRead_local start stop b b' agree
  | _ =>
    dsimp only
    rcases axdrReadUint_local _ start stop b b' agree with
      ⟨n, s, t, left, right, after⟩ | ⟨e, s, t, left, right, after⟩
    · rw [left, right]
      exact ⟨rfl, rfl, after⟩
    · rw [left, right]
      exact ⟨rfl, rfl, after⟩

theorem readPackedValue_local (tag : UInt8) : ScansLocally (readPackedValue tag) := by
  intro start stop b b' agree
  have string (make : List UInt8 → Value) (maxLen : ℕ) :
      ReadsLocally (make <$> stringRead dlmsReadLen maxLen .invalid) :=
    fun start stop => (stringRead_local dlmsReadLen_local maxLen .invalid start stop).map
  unfold readPackedValue
  cases ScalarKind.ofTag tag with
  | some kind =>
    obtain ⟨same, content, agree⟩ := scalarRead_local kind start stop b b' agree
    exact ⟨same, congrArg (Value.scalar kind) content, agree⟩
  | none =>
    dsimp only
    split_ifs
    · exact ⟨rfl, rfl, agree⟩
    · rcases string .octetString 256 start stop b b' agree with
        ⟨value, u, v, left, right, agree⟩ | ⟨e, u, v, left, right, agree⟩ <;>
        exact left ▸ right ▸ ⟨rfl, rfl, agree⟩
    · rcases string .visibleString 255 start stop b b' agree with
        ⟨value, u, v, left, right, agree⟩ | ⟨e, u, v, left, right, agree⟩ <;>
        exact left ▸ right ▸ ⟨rfl, rfl, agree⟩
    · rcases string .utf8String 256 start stop b b' agree with
        ⟨value, u, v, left, right, agree⟩ | ⟨e, u, v, left, right, agree⟩ <;>
        exact left ▸ right ▸ ⟨rfl, rfl, agree⟩
    · rcases readPackedBitstring_local start stop b b' agree with
        ⟨value, u, v, left, right, agree⟩ | ⟨e, u, v, left, right, agree⟩ <;>
        exact left ▸ right ▸ ⟨rfl, rfl, agree⟩
    · exact ⟨rfl, rfl, agree⟩

/-- The two cursors and the pool of a compact array, seen alike. -/
structure Compact.Agree (descEnd contentsEnd : ℕ) (s t : Compact) : Prop where
  desc : Buf.Agree 0 descEnd s.desc t.desc
  contents : Buf.Agree 0 contentsEnd s.contents t.contents
  pool : t.pool = s.pool

section Compacts

variable {α : Type} {m n : ℕ}

theorem onDesc_local {step : Read α} (inside : ReadsLocally step) : Twin (Compact.Agree m n) (onDesc step) := by
  intro s t agree
  rcases inside 0 m s.desc t.desc agree.desc with ⟨a, u, v, left, right, after⟩ | ⟨e, u, v, left, right, after⟩
  · exact .inl ⟨a, { s with desc := u }, { t with desc := v }, by simp [onDesc, left],
      by simp [onDesc, right], after, agree.contents, agree.pool⟩
  · exact .inr ⟨e, { s with desc := u }, { t with desc := v }, by simp [onDesc, left],
      by simp [onDesc, right], after, agree.contents, agree.pool⟩

theorem onContents_local {step : Read α} (inside : ReadsLocally step) : Twin (Compact.Agree m n) (onContents step) := by
  intro s t agree
  rcases inside 0 n s.contents t.contents agree.contents with
    ⟨a, u, v, left, right, after⟩ | ⟨e, u, v, left, right, after⟩
  · exact .inl ⟨a, { s with contents := u }, { t with contents := v }, by simp [onContents, left],
      by simp [onContents, right], agree.desc, after, agree.pool⟩
  · exact .inr ⟨e, { s with contents := u }, { t with contents := v }, by simp [onContents, left],
      by simp [onContents, right], agree.desc, after, agree.pool⟩

theorem forSlots_local {step : ℕ → CompactM Unit} (one : ∀ pos, Twin (Compact.Agree m n) (step pos))
    (count pos : ℕ) : Twin (Compact.Agree m n) (forSlots step count pos) := by
  induction count generalizing pos with
  | zero => exact .pure _
  | succ count ih => exact (one pos).bind fun _ => ih (pos + 1)

theorem rewindDesc_local {pos : ℕ} (inside : pos ≤ m) : Twin (Compact.Agree m n) (rewindDesc pos) := by
  intro s t agree
  refine .modify ⟨?_, agree.contents, agree.pool⟩
  exact ⟨rfl, agree.desc.wr, agree.desc.wr', Nat.zero_le _, inside, agree.desc.short, agree.desc.bytes⟩

/-- Each element of an array is walked from the start of its description. -/
theorem rewound_local {step : ℕ → CompactM Unit} (one : ∀ pos, Twin (Compact.Agree m n) (step pos))
    (count first : ℕ) {s t : Compact} (agree : Compact.Agree m n s t) :
    TwinAt (Compact.Agree m n) s t
      (forSlots (fun pos => do rewindDesc s.desc.rd; step pos) count first)
      (forSlots (fun pos => do rewindDesc t.desc.rd; step pos) count first) := by
  rw [agree.desc.rd]
  have back : ∀ pos, Twin (Compact.Agree m n) (do rewindDesc s.desc.rd; step pos) :=
    fun pos => (rewindDesc_local agree.desc.inside).bind fun _ => one pos
  exact forSlots_local back count first s t agree

theorem compactSkipDescription_local (fuel : ℕ) : Twin (Compact.Agree m n) (compactSkipDescription fuel) := by
  induction fuel with
  | zero => exact .throw _
  | succ fuel ih =>
    refine (onDesc_local axdrReadU8_local).bind fun tag => .ite ?_ (.ite ?_ ?_)
    · exact (onDesc_local dlmsReadLen_local).bind fun count => forSlots_local (fun _ => ih) count 0
    · refine (onDesc_local (axdrReadUint_local 2)).bind fun count s t agree => .get_bind ?_
      exact rewound_local (fun _ => ih) count 0 agree
    · exact onContents_local (skipPackedValue_local tag)

theorem compactCountElements_local (fuel left count : ℕ) :
    Twin (Compact.Agree m n) (compactCountElements fuel left count) := by
  induction left generalizing count with
  | zero =>
    intro s t agree
    refine .get_bind (.get_bind ?_)
    rw [agree.contents.rd, agree.contents.wr, agree.contents.wr']
    exact .ite (fun _ => .throw _ agree) fun _ => .pure _ agree
  | succ left ih =>
    intro s t agree
    refine .get_bind (.get_bind ?_)
    rw [agree.contents.rd, agree.contents.wr, agree.contents.wr']
    refine .ite (fun _ => ?_) fun _ => .pure _ agree
    have next : Twin (Compact.Agree m n) (do
        rewindDesc 0; compactSkipDescription fuel; compactCountElements fuel left (count + 1)) :=
      (rewindDesc_local (Nat.zero_le _)).bind fun _ => (compactSkipDescription_local fuel).bind fun _ => ih _
    exact next s t agree

theorem compactTake_local (count maxLen : ℕ) : Twin (Compact.Agree m n) (compactTake count maxLen) := by
  intro s t agree
  refine .get_bind ?_
  rw [agree.pool]
  refine .failIf_bind agree fun _ => .modify_bind ?_
  exact .pure _ ⟨agree.desc, agree.contents, by rw [agree.pool]⟩

theorem compactPut_local (pos : ℕ) (value : Value) : Twin (Compact.Agree m n) (compactPut pos value) :=
  fun s t agree => .modify ⟨agree.desc, agree.contents, by rw [agree.pool]⟩

theorem compactWalkDescription_local (fuel pos : ℕ) : Twin (Compact.Agree m n) (compactWalkDescription fuel pos) := by
  induction fuel generalizing pos with
  | zero => exact .throw _
  | succ fuel ih =>
    refine (onDesc_local axdrReadU8_local).bind fun tag => .ite ?_ (.ite ?_ ?_)
    · refine (onDesc_local dlmsReadLen_local).bind fun count => (compactTake_local count 16).bind fun first => ?_
      exact (forSlots_local ih count first).bind fun _ => compactPut_local pos _
    · refine (onDesc_local (axdrReadUint_local 2)).bind fun count => (compactTake_local count 32).bind fun first => ?_
      intro s t agree
      refine .get_bind ((rewound_local ih count first agree).bind fun _ s t agree => ?_)
      exact compactPut_local pos _ s t agree
    · intro s t agree
      refine .get_bind ?_
      obtain ⟨same, value, contents⟩ := readPackedValue_local tag 0 n _ _ agree.contents
      dsimp only
      rw [← same, ← value]
      exact .modify_bind (.failIf _ _ ⟨agree.desc, contents, by rw [agree.pool]⟩)

theorem compactDecodeElements_local (fuel : ℕ) : Twin (Compact.Agree m n) (compactDecodeElements fuel) := by
  refine (compactCountElements_local fuel 32 0).bind fun count => (compactTake_local count 32).bind fun first => ?_
  intro s t agree
  have contents : Buf.Agree 0 n { s.contents with rd := 0 } { t.contents with rd := 0 } :=
    ⟨rfl, agree.contents.wr, agree.contents.wr', le_rfl, Nat.zero_le _, agree.contents.short, agree.contents.bytes⟩
  refine .modify_bind ?_
  have walk : ∀ slot, Twin (Compact.Agree m n) (do rewindDesc 0; compactWalkDescription fuel slot) :=
    fun slot => (rewindDesc_local (Nat.zero_le _)).bind fun _ => compactWalkDescription_local fuel slot
  have elements := (forSlots_local walk count first).bind fun _ => Twin.pure (Value.array first count)
  exact elements _ _ ⟨agree.desc, contents, agree.pool⟩

end Compacts

/-! ## Tagged values and requests -/

/-- Buffers that agree, and one pool. -/
structure Reader.Agree (start stop : ℕ) (r r' : Reader) : Prop where
  buf : Buf.Agree start stop r.buf r'.buf
  pool : r'.pool = r.pool

section Readers

variable {α : Type} {start stop : ℕ} {b : Buf} {r : Reader} {len : ℕ} {read : Value → StateM Reader (Err × Value)}

theorem run_of_ok {step : Read α} {a : α} (done : step r.buf = .ok a b) :
    Reader.run step r = (.ok a, { r with buf := b }) := by
  simp only [Reader.run, done]

theorem run_of_error {step : Read α} {e : Err} (failed : step r.buf = .error e b) :
    Reader.run step r = (.error e, { r with buf := b }) := by
  simp only [Reader.run, failed]

theorem run_pool (step : Read α) (r : Reader) : (Reader.run step r).2.pool = r.pool := by
  cases read : step r.buf with
  | ok a c => rw [run_of_ok read]
  | error e c => rw [run_of_error read]

theorem run_local {step : Read α} (inside : ReadsLocally step) :
    TwinState (Reader.Agree start stop) (Reader.run step) := by
  intro r r' agree
  rcases inside start stop r.buf r'.buf agree.buf with
    ⟨a, u, v, left, right, after⟩ | ⟨e, u, v, left, right, after⟩
  · rw [TwinStateAt, run_of_ok left, run_of_ok right]
    exact ⟨rfl, after, agree.pool⟩
  · rw [TwinStateAt, run_of_error left, run_of_error right]
    exact ⟨rfl, after, agree.pool⟩

/-- The length in front of a compact array's contents, all of which are there. -/
def contentsLength : Read ℕ := do
  let len ← dlmsReadLen
  needUnread len .invalid
  return len

theorem contentsLength_local : ReadsLocally contentsLength := fun start stop =>
  (dlmsReadLen_local start stop).bind fun _ _ _ agree => needUnread_twinAt agree fun _ => .pure _ agree

theorem contentsLength_unread {c : Buf} (read : contentsLength b = .ok len c) : ¬c.unread < len := by
  obtain ⟨n, d, -, rest⟩ := bind_ok_iff.mp read
  rw [needUnread, bind_assoc, get_bind, failIf_bind_ok_iff] at rest
  obtain ⟨enough, done⟩ := rest
  cases done
  exact enough

/-- What lies behind the read position, as a buffer of its own. -/
theorem Buf.Agree.tail {b' : Buf} (agree : Buf.Agree start stop b b') (room : b.rd + len ≤ stop) :
    Buf.Agree 0 len ⟨b.buf.drop b.rd, 0, len⟩ ⟨b'.buf.drop b'.rd, 0, len⟩ where
  rd := rfl
  wr := rfl
  wr' := rfl
  from_start := le_rfl
  inside := Nat.zero_le _
  short := lt_of_le_of_lt (by omega) agree.short
  bytes := by
    have cut (mem : List UInt8) : (mem.drop b.rd).take len = ((mem.take stop).drop b.rd).take len := by
      rw [List.drop_take, List.take_take, Nat.min_eq_left (by omega)]
    simp only [agree.rd]
    rw [cut, cut b.buf, agree.bytes]

theorem readCompactArray_local : TwinState (Reader.Agree start stop) readCompactArray := by
  intro r r' agree
  refine .get_bind ?_
  dsimp only
  rcases skipTypeDescription_local 16 _ stop r.buf r'.buf agree.buf.here with
    ⟨a, u, v, left, right, after⟩ | ⟨e, u, v, left, right, after⟩
  · have short := after.short
    have forward := after.from_start
    have inside := after.inside
    have descLen : (u.rd + 2 ^ 32 - r.buf.rd) % 2 ^ 32 = u.rd - r.buf.rd := by omega
    have position : (r.buf.rd + (u.rd - r.buf.rd)) % 2 ^ 32 = u.rd := by omega
    have described := agree.buf.tail (show r.buf.rd + (u.rd - r.buf.rd) ≤ stop by omega)
    have moved : Buf.Agree start stop ⟨r.buf.buf, u.rd, r.buf.wr⟩ ⟨r'.buf.buf, u.rd, r'.buf.wr⟩ :=
      { agree.buf with
        rd := rfl, from_start := agree.buf.from_start.trans forward, inside := inside }
    rw [left, right]
    dsimp only
    rw [after.rd, agree.buf.rd, descLen, position]
    refine .modify_bind ?_
    rcases contentsLength_local start stop _ _ moved with
      ⟨len, c, d, left, right, after⟩ | ⟨e, c, d, left, right, after⟩
    · have room := after.room (contentsLength_unread left)
      have contents := after.tail room
      refine .bind_of_eq (run_of_ok left) (run_of_ok right) (.get_bind (.get_bind ?_))
      dsimp only
      have elements := compactDecodeElements_local (u.rd - r.buf.rd + 1)
        ⟨_, _, r.pool⟩ ⟨_, _, r'.pool⟩ ⟨described, contents, agree.pool⟩
      rw [agree.buf.rd] at elements
      rcases elements with ⟨value, x, y, left, right, done⟩ | ⟨e, x, y, left, right, done⟩
      · rw [left, right]
        exact .set_bind (.pure _ ⟨after.skip room, done.pool⟩)
      · rw [left, right]
        exact .set_bind (.pure _ ⟨after.skip room, done.pool⟩)
    · exact .bind_of_eq (run_of_error left) (run_of_error right) (.pure _ ⟨after, agree.pool⟩)
  · rw [left, right]
    exact .pure _ agree

/-! ## Tagged values -/

theorem readItems_local (one : ∀ old, TwinState (Reader.Agree start stop) (read old)) (n pos : ℕ) :
    TwinState (Reader.Agree start stop) (readItems read n pos) := by
  induction n generalizing pos with
  | zero => exact .pure _
  | succ n ih =>
    intro r r' agree
    refine .get_bind ?_
    rw [agree.pool]
    refine (one _ r r' agree).bind fun item s t agree => .modify_bind ?_
    exact .ite (ih _ _ _ ⟨agree.buf, by rw [agree.pool]⟩) (.pure _ ⟨agree.buf, by rw [agree.pool]⟩)

theorem listRead_local (one : ∀ old, TwinState (Reader.Agree start stop) (read old)) (tag : UInt8) (maxLen : ℕ)
    (make : ℕ → ℕ → Value) : TwinState (Reader.Agree start stop) (listRead read tag maxLen make) := by
  refine (run_local dlmsReadLen_local).bind fun count => ?_
  cases count with
  | error e => exact .pure _
  | ok count =>
    intro r r' agree
    refine .get_bind ?_
    rw [agree.pool]
    refine .ite (.pure _ agree) (.modify_bind ?_)
    have taken : Reader.Agree start stop { r with pool := r.pool.take count }
        { r' with pool := r'.pool.take count } := ⟨agree.buf, by rw [agree.pool]⟩
    exact (readItems_local one count _ _ _ taken).bind fun err s t => .pure _

theorem valueReadImpl_local (fuel : ℕ) (old : Value) :
    TwinState (Reader.Agree start stop) (valueReadImpl fuel old) := by
  induction fuel generalizing old with
  | zero => exact .pure _
  | succ fuel ih =>
    have string (tag : UInt8) (make : List UInt8 → Value) {read : Read (List UInt8)}
        (inside : ReadsLocally read) :
        TwinState (Reader.Agree start stop) (valueReadImpl.string tag make read) :=
      (run_local fun _ _ => (inside _ _).map).bind fun _ => .pure _
    refine (run_local axdrReadU8_local).bind fun tag => ?_
    cases tag with
    | error e => exact .pure _
    | ok tag =>
      dsimp only
      cases ScalarKind.ofTag tag with
      | some kind =>
        intro r r' agree
        obtain ⟨same, content, after⟩ := scalarRead_local kind start stop _ _ agree.buf
        refine .get_bind ?_
        rw [← same, ← content]
        exact .modify_bind (.pure _ ⟨after, agree.pool⟩)
      | none =>
        refine .ite (.pure _) (.ite (string _ _ (stringRead_local dlmsReadLen_local _ _)) ?_)
        refine .ite (string _ _ (stringRead_local dlmsReadLen_local _ _)) ?_
        refine .ite (string _ _ (stringRead_local axdrReadLength_local _ _)) ?_
        refine .ite ((run_local bitStringRead_local).bind fun _ => .pure _) ?_
        refine .ite (listRead_local ih _ _ _) (.ite (listRead_local ih _ _ _) ?_)
        exact .ite (readCompactArray_local.bind fun _ => .pure _) (.pure _)

theorem valueRead_local (old : Value) : TwinState (Reader.Agree start stop) (valueRead old) :=
  .bind (.modify fun _ _ agree => ⟨agree.buf, by rw [agree.pool]⟩) fun _ => valueReadImpl_local _ old

end Readers

end OpenSpodes
