import OpenSpodes.Machine.Outcomes
import OpenSpodes.Proofs.ReadLocal
import OpenSpodes.Spec.ValueTree

/-! # What decoding leaves in the pool

All nested items of a decoded value share one pool that is handed out from front to back. A decoder writes only to the
place it was given and to places it has taken itself, so what lies below stays, and the tree it builds takes places
between the two ends. This holds for any input, whether decoding succeeds or fails, for tagged values and for compact
arrays alike: `Pool.Extends` is the part that always holds, `Laid` what holds on success.
-/

namespace OpenSpodes

open Bytes Machine Machine.Fallible

variable {count pos maxLen : ℕ} {c : Prop} {b : Buf} {tag : UInt8} {readLength : Read ℕ} {e : Err}

/-- Behind a decoder: the end of the pool has moved up within it, and places below the old end are unchanged apart from
those that were to be written. -/
structure Pool.Extends (written : Set ℕ) (p q : Pool) : Prop where
  grows : p.used ≤ q.used
  bounded : p.used ≤ poolLen → q.used ≤ poolLen
  kept : ∀ i < p.used, i ∉ written → q.slots i = p.slots i

namespace Pool.Extends

variable {written written' : Set ℕ} {p q r : Pool}

theorem refl (written : Set ℕ) (p : Pool) : p.Extends written p := ⟨le_rfl, id, fun _ _ _ => rfl⟩

theorem trans (first : p.Extends written q) (second : q.Extends written' r) (sub : ∀ i < p.used, i ∈ written' → i ∈ written) :
    p.Extends written r where
  grows := first.grows.trans second.grows
  bounded := second.bounded ∘ first.bounded
  kept i below other :=
    (second.kept i (below.trans_le first.grows) fun member => other (sub i below member)).trans (first.kept i below other)

theorem widen (ext : p.Extends ∅ q) (written : Set ℕ) : p.Extends written q :=
  ⟨ext.grows, ext.bounded, fun i below _ => ext.kept i below (Set.notMem_empty i)⟩

theorem put (ext : p.Extends written q) {pos : ℕ} (member : pos ∈ written) (value : Value) :
    p.Extends written (q.put pos value) where
  grows := ext.grows
  bounded := ext.bounded
  kept i below other := by
    have different : i ≠ pos := fun same => other (same ▸ member)
    exact (if_neg different).trans (ext.kept i below other)

/-- Items in freshly taken places: nothing below has changed, and the value that refers to them is a tree. -/
theorem nested {leaf : Value → Prop} (kind : NestKind) (room : p.used + count ≤ poolLen) (few : count ≤ kind.maxLen)
    (items : (p.take count).Extends (Set.Ico p.used (p.used + count)) q)
    (laid : AllLaid leaf q.slots (p.used + count) q.used p.used count) :
    p.Extends ∅ q ∧ Laid leaf q.slots p.used q.used (kind.value p.used count) := by
  have grows : p.used + count ≤ q.used := items.grows
  refine ⟨⟨by omega, fun _ => items.bounded room, fun i below _ => ?_⟩, laid.nest few grows⟩
  exact items.kept i (Nat.lt_add_right count below) fun inside => absurd inside.1 (Nat.not_le.mpr below)

theorem taken (room : p.used + count ≤ poolLen) (items : (p.take count).Extends (Set.Ico p.used (p.used + count)) q) :
    p.Extends ∅ q where
  grows := Nat.le_of_add_right_le items.grows
  bounded _ := items.bounded room
  kept i below _ :=
    items.kept i (Nat.lt_add_right count below) fun inside => absurd inside.1 (Nat.not_le.mpr below)

/-- One item at its place, then the items behind it. -/
theorem consItem {leaf : Value → Prop} (room : pos + (count + 1) ≤ p.used) (first : p.Extends {pos} q)
    (laid : Laid leaf q.slots p.used q.used (q.slots pos)) (later : q.Extends (Set.Ico (pos + 1) (pos + 1 + count)) r)
    (rest : AllLaid leaf r.slots q.used r.used (pos + 1) count) :
    AllLaid leaf r.slots p.used r.used pos (count + 1) := by
  have own : r.slots pos = q.slots pos :=
    later.kept pos (by have := first.grows; omega) fun inside => absurd inside.1 (by omega)
  refine .cons ?_ rest first.grows later.grows
  rw [own]
  refine laid.congr fun i above below => later.kept i below fun inside => ?_
  have := inside.2
  omega

theorem consWritten (first : p.Extends {pos} q) (later : q.Extends (Set.Ico (pos + 1) (pos + 1 + count)) r) :
    p.Extends (Set.Ico pos (pos + (count + 1))) r := by
  have wide : p.Extends (Set.Ico pos (pos + (count + 1))) q :=
    ⟨first.grows, first.bounded, fun i below other => first.kept i below fun same => other (by
      rw [Set.mem_singleton_iff.mp same]
      exact ⟨le_rfl, by omega⟩)⟩
  refine wide.trans later fun i _ inside => ⟨?_, ?_⟩
  · have := inside.1
    omega
  · have := inside.2
    omega

end Pool.Extends

/-! ## Reads -/

/-- A read leaves the bytes as they were and reports its failures. -/
def Honest {α : Type} (step : Read α) : Prop :=
  ∀ b, Ends step b (fun _ c => c.buf = b.buf) fun e c => e ≠ .ok ∧ c.buf = b.buf

namespace Honest

variable {α β : Type} {step : Read α} {next : α → Read β}

theorem pure (a : α) : Honest (pure a : Read α) := fun _ => .pure rfl

theorem throw {e : Err} (error : e ≠ .ok) : Honest (throw e : Read α) := fun _ => .throw ⟨error, rfl⟩

theorem bind (first : Honest step) (rest : ∀ a, Honest (next a)) : Honest (step >>= next) := by
  intro b
  refine .bind ((first b).mono (fun a c same => ?_) fun _ _ => id)
  rw [← same]
  exact rest a c

theorem failIf {c : Prop} [Decidable c] {e : Err} (error : e ≠ .ok) : Honest (failIf c e : Read Unit) := by
  unfold Fallible.failIf
  split
  · exact .throw error
  · exact .pure ()

theorem get_bind {f : Buf → Read β} (rest : ∀ b, Honest (f b)) : Honest (get >>= f) := fun b => rest b b

theorem ite [Decidable c] {yes no : Read α} (first : Honest yes) (second : Honest no) :
    Honest (if c then yes else no) := by
  split
  · exact first
  · exact second

theorem needUnread (n : ℕ) : Honest (needUnread n .invalid) := .get_bind fun _ => .failIf (by decide)

theorem takeBytes (n : ℕ) : Honest (takeBytes n) := fun _ => rfl

theorem nextByte : Honest nextByte := fun _ => rfl

theorem skip (n : ℕ) : Honest (modify (·.skip n) : Read PUnit) := fun _ => rfl

theorem axdrReadU8 : Honest axdrReadU8 := (needUnread 1).bind fun _ => nextByte

theorem axdrReadUint (width : ℕ) : Honest (axdrReadUint width) :=
  (needUnread width).bind fun _ => (takeBytes width).bind fun _ => .pure _

theorem dlmsReadLen : Honest dlmsReadLen := by
  refine (needUnread 1).bind fun _ => nextByte.bind fun first => .ite (.pure _) ?_
  refine (Honest.failIf (by decide)).bind fun _ => (Honest.failIf (by decide)).bind fun _ => ?_
  exact (needUnread _).bind fun _ => (takeBytes _).bind fun _ => .pure _

theorem repeatRead {step : Read Unit} (one : Honest step) (n : ℕ) : Honest (repeatRead step n) := by
  induction n with
  | zero => exact .pure _
  | succ n ih => exact one.bind fun _ => ih

theorem skipTypeDescription (levels : ℕ) : Honest (skipTypeDescription levels) := by
  induction levels with
  | zero => exact .throw (by decide)
  | succ levels ih =>
    refine axdrReadU8.bind fun tag => .ite (dlmsReadLen.bind fun n => repeatRead ih n) (.ite ?_ (.pure _))
    exact (needUnread 2).bind fun _ => (skip 2).bind fun _ => ih

theorem skipPackedValue (tag : UInt8) : Honest (skipPackedValue tag) := by
  refine .ite ((needUnread _).bind fun _ => skip _) (.ite (.pure _) (.ite ?_ (.ite ?_ (.throw (by decide)))))
  · exact dlmsReadLen.bind fun len => (needUnread len).bind fun _ => skip len
  · exact dlmsReadLen.bind fun len => (needUnread _).bind fun _ => skip _

end Honest

/-! ## Leaves -/

def Value.TightLeaf (value : Value) : Prop := value.Leaf ∧ value.BitsFit

theorem stringRead_length {c : Buf} {bytes : List UInt8} (read : stringRead readLength maxLen e b = .ok bytes c) :
    bytes.length ≤ maxLen := by
  obtain ⟨len, d, -, rest⟩ := bind_ok_iff.mp read
  rw [failIf_bind_ok_iff] at rest
  obtain ⟨short, rest⟩ := rest
  obtain ⟨⟨⟩, f, -, taken⟩ := bind_ok_iff.mp rest
  simp only [takeBytes, modifyGet_apply, EStateM.Result.ok.injEq] at taken
  rw [← taken.1, Buf.slice, length_padTo]
  omega

variable {value : Value}

theorem readPackedBitstring_tight {c : Buf} (read : readPackedBitstring b = .ok value c) : value.TightLeaf := by
  obtain ⟨numBits, d, -, rest⟩ := bind_ok_iff.mp read
  rw [get_bind, failIf_bind_ok_iff] at rest
  obtain ⟨fits, rest⟩ := rest
  obtain ⟨bits, f, -, done⟩ := bind_ok_iff.mp rest
  cases done
  exact ⟨trivial, by change numBits ≤ 256; omega⟩

theorem readPackedValue_tight (ok : (readPackedValue tag b).1 = .ok) : (readPackedValue tag b).2.1.TightLeaf := by
  unfold readPackedValue at ok ⊢
  cases kind : ScalarKind.ofTag tag with
  | some kind => exact ⟨trivial, trivial⟩
  | none =>
    simp only [kind] at ok ⊢
    have string (make : List UInt8 → Value) (maxLen : ℕ)
        (isLeaf : ∀ bytes, bytes.length ≤ maxLen → (make bytes).TightLeaf) {value : Value} {c : Buf} (read : (make <$> stringRead dlmsReadLen maxLen .invalid) b = .ok value c) :
        value.TightLeaf := by
      obtain ⟨bytes, taken, rfl⟩ := ok_of_map read
      exact isLeaf bytes (stringRead_length taken)
    by_cases null : tag = 0
    · simp only [null, if_true]
      exact ⟨trivial, trivial⟩
    by_cases octet : tag = 9
    · subst octet
      cases read : (Value.octetString <$> stringRead dlmsReadLen 256 .invalid) b with
      | ok value c => exact string .octetString 256 (fun _ short => ⟨short, trivial⟩) read
      | error e c => exact ⟨Nat.zero_le _, trivial⟩
    by_cases visible : tag = 10
    · subst visible
      cases read : (Value.visibleString <$> stringRead dlmsReadLen 255 .invalid) b with
      | ok value c => exact string .visibleString 255 (fun _ short => ⟨short.trans (by decide), trivial⟩) read
      | error e c => exact ⟨Nat.zero_le _, trivial⟩
    by_cases utf8 : tag = 12
    · subst utf8
      cases read : (Value.utf8String <$> stringRead dlmsReadLen 256 .invalid) b with
      | ok value c => exact string .utf8String 256 (fun _ short => ⟨short, trivial⟩) read
      | error e c => exact ⟨Nat.zero_le _, trivial⟩
    by_cases bits : tag = 4
    · subst bits
      cases read : readPackedBitstring b with
      | ok value c => exact readPackedBitstring_tight read
      | error e c => exact ⟨trivial, Nat.zero_le _⟩
    · simp [null, octet, visible, utf8, bits] at ok

/-! ## Compact arrays -/

/-- A step that leaves the pool alone and reports its failures. -/
def PoolKept {α : Type} (step : CompactM α) : Prop :=
  ∀ s, Ends step s (fun _ t => t.pool = s.pool) fun e t => e ≠ .ok ∧ t.pool = s.pool

/-- A step of the compact-array decoder extends the pool `p`, whatever its outcome, and reports its failures. -/
def Yields {α : Type} (p : Pool) (written : Set ℕ) (step : CompactM α) (s : Compact) (good : α → Pool → Prop) : Prop :=
  Ends step s (fun a t => p.Extends written t.pool ∧ good a t.pool) fun e t => e ≠ .ok ∧ p.Extends written t.pool

/-- The item of one element, in the place it was to have. -/
def PutsItem (pos : ℕ) (step : CompactM Unit) : Prop := ∀ s : Compact, pos < s.pool.used →
  Yields s.pool {pos} step s fun _ q => Laid Value.TightLeaf q.slots s.pool.used q.used (q.slots pos)

section Compacts

variable {α β : Type} {p : Pool} {written : Set ℕ} {s : Compact} {good : β → Pool → Prop} {step : ℕ → CompactM Unit}
  {next : α → CompactM β}

theorem PoolKept.bind {step : CompactM α} (first : PoolKept step) (rest : ∀ a, PoolKept (next a)) :
    PoolKept (step >>= next) := by
  intro s
  refine Ends.bind ((first s).mono (fun a t same => ?_) fun e t failed => failed)
  rw [← same]
  exact rest a t

theorem PoolKept.ite [Decidable c] {yes no : CompactM α} (first : PoolKept yes) (second : PoolKept no) :
    PoolKept (if c then yes else no) :=
  fun s => Ends.ite (fun _ => first s) fun _ => second s

theorem onDesc_kept {step : Read α} (honest : Honest step) : PoolKept (onDesc step) := by
  intro s
  have outcome := honest s.desc
  cases read : step s.desc with
  | ok a b => simp only [Ends, onDesc, read]
  | error e b => simpa only [Ends, onDesc, read, and_true] using (outcome.error read).1

theorem onContents_kept {step : Read α} (honest : Honest step) : PoolKept (onContents step) := by
  intro s
  have outcome := honest s.contents
  cases read : step s.contents with
  | ok a b => simp only [Ends, onContents, read]
  | error e b => simpa only [Ends, onContents, read, and_true] using (outcome.error read).1

theorem forSlots_kept (each : ∀ pos, PoolKept (step pos)) (count pos : ℕ) : PoolKept (forSlots step count pos) := by
  induction count generalizing pos with
  | zero => exact fun s => .pure rfl
  | succ count ih => exact (each pos).bind fun _ => ih (pos + 1)

theorem compactSkipDescription_kept (fuel : ℕ) : PoolKept (compactSkipDescription fuel) := by
  induction fuel with
  | zero => exact fun s => .throw ⟨by decide, rfl⟩
  | succ fuel ih =>
    refine (onDesc_kept .axdrReadU8).bind fun tag => .ite ?_ (.ite ?_ (onContents_kept (.skipPackedValue tag)))
    · exact (onDesc_kept .dlmsReadLen).bind fun count => forSlots_kept (fun _ => ih) count 0
    · refine (onDesc_kept (.axdrReadUint 2)).bind fun count s => Ends.get_bind ?_
      exact forSlots_kept (fun _ u => Ends.modify_bind (ih _)) count 0 s

theorem compactCountElements_kept (fuel left count : ℕ) : PoolKept (compactCountElements fuel left count) := by
  induction left generalizing count with
  | zero =>
    refine fun s => Ends.get_bind (Ends.get_bind (.ite (fun _ => ?_) fun _ => .pure rfl))
    exact .throw ⟨by decide, rfl⟩
  | succ left ih =>
    refine fun s => Ends.get_bind (Ends.get_bind (.ite (fun _ => Ends.modify_bind ?_) fun _ => .pure rfl))
    exact ((compactSkipDescription_kept fuel).bind fun _ => ih (count + 1)) _

theorem Yields.kept_bind {step : CompactM α} (kept : PoolKept step) (ext : p.Extends written s.pool)
    (rest : ∀ a t, t.pool = s.pool → Yields p written (next a) t good) : Yields p written (step >>= next) s good :=
  Ends.bind ((kept s).mono rest fun _ _ failed => ⟨failed.1, failed.2 ▸ ext⟩)

theorem Yields.ite [Decidable c] {yes no : CompactM β} (first : Yields p written yes s good)
    (second : Yields p written no s good) : Yields p written (if c then yes else no) s good :=
  Ends.ite (fun _ => first) fun _ => second

/-- Places are taken if there are enough of them. -/
theorem Yields.take_bind {next : ℕ → CompactM β} (ext : p.Extends written s.pool)
    (rest : count ≤ maxLen → s.pool.used + count ≤ poolLen →
      Yields p written (next s.pool.used) { s with pool := s.pool.take count } good) :
    Yields p written (compactTake count maxLen >>= next) s good := by
  unfold compactTake
  simp only [bind_assoc, pure_bind]
  refine Ends.get_bind (.failIf_bind (fun _ => ⟨by decide, ext⟩) fun fits => .modify_bind ?_)
  exact rest (by omega) (by omega)

/-- The items of consecutive elements. -/
theorem forSlots_yields (each : ∀ pos, PutsItem pos (step pos)) (count pos : ℕ) (room : pos + count ≤ s.pool.used) :
    Yields s.pool (Set.Ico pos (pos + count)) (forSlots step count pos) s fun _ q =>
      AllLaid Value.TightLeaf q.slots s.pool.used q.used pos count := by
  induction count generalizing pos s with
  | zero => exact .pure ⟨.refl _ _, .nil⟩
  | succ count ih =>
    refine Ends.bind ((each pos s (by omega)).mono (fun _ t first => ?_) fun e t failed => ?_)
    · have grows := first.1.grows
      refine (ih (pos + 1) (by omega)).mono (fun _ u later => ?_) fun e u failed => ?_
      · exact ⟨first.1.consWritten later.1, first.1.consItem room first.2 later.1 later.2⟩
      · exact ⟨failed.1, first.1.consWritten failed.2⟩
    · exact ⟨failed.1, failed.2.consWritten (.refl _ _)⟩

/-- Taking places, filling them and referring to them. -/
theorem nest_yields (each : ∀ pos, PutsItem pos (step pos)) (kind : NestKind) (few : count ≤ kind.maxLen)
    (fits : s.pool.used + count ≤ poolLen) (below : pos < s.pool.used) :
    Yields s.pool {pos} (forSlots step count s.pool.used >>= fun _ => compactPut pos (kind.value s.pool.used count))
      { s with pool := s.pool.take count } fun _ q => Laid Value.TightLeaf q.slots s.pool.used q.used (q.slots pos) := by
  have items := forSlots_yields (s := { s with pool := s.pool.take count }) each count s.pool.used le_rfl
  refine Ends.bind (items.mono (fun _ t filled => ?_) fun e t failed => ?_)
  · obtain ⟨ext, laid⟩ := filled.1.nested kind fits few filled.2
    refine ⟨(ext.widen {pos}).put rfl _, ?_⟩
    change Laid _ (t.pool.put pos _).slots _ t.pool.used ((t.pool.put pos _).slots pos)
    have own : (t.pool.put pos (kind.value s.pool.used count)).slots pos = kind.value s.pool.used count := if_pos rfl
    rw [own]
    refine laid.congr fun i above _ => if_neg ?_
    omega
  · exact ⟨failed.1, (failed.2.taken fits).widen {pos}⟩

theorem PutsItem.rewound {step : CompactM Unit} (puts : PutsItem pos step) (start : ℕ) :
    PutsItem pos (do rewindDesc start; step) :=
  fun s below => Ends.modify_bind (puts { s with desc := { s.desc with rd := start } } below)

theorem compactWalkDescription_puts (fuel pos : ℕ) : PutsItem pos (compactWalkDescription fuel pos) := by
  induction fuel generalizing pos with
  | zero => exact fun s _ => .throw ⟨by decide, .refl _ _⟩
  | succ fuel ih =>
    intro s below
    refine .kept_bind (onDesc_kept .axdrReadU8) (.refl _ _) fun tag t same => ?_
    rw [← same] at below ⊢
    refine .ite ?_ (.ite ?_ (Ends.get_bind ?_))
    · refine .kept_bind (onDesc_kept .dlmsReadLen) (.refl _ _) fun count u same => ?_
      rw [← same] at below ⊢
      exact .take_bind (.refl _ _) fun few fits => nest_yields ih .struct few fits below
    · refine .kept_bind (onDesc_kept (.axdrReadUint 2)) (.refl _ _) fun count u same => ?_
      rw [← same] at below ⊢
      refine .take_bind (.refl _ _) fun few fits => Ends.get_bind ?_
      exact nest_yields (fun slot => (ih slot).rewound _) .array few fits below
    · have tight : (readPackedValue tag t.contents).1 = .ok → (readPackedValue tag t.contents).2.1.TightLeaf :=
        readPackedValue_tight
      generalize readPackedValue tag t.contents = packed at tight ⊢
      obtain ⟨err, value, contents⟩ := packed
      have ext := (Pool.Extends.refl {pos} t.pool).put rfl value
      refine Ends.modify_bind (.failIf (fun failed => ⟨failed, ext⟩) fun passed => ⟨ext, ?_⟩)
      have own : (t.pool.put pos value).slots pos = value := if_pos rfl
      change Laid _ _ _ _ ((t.pool.put pos value).slots pos)
      rw [own]
      exact .of_leaf (tight (not_not.mp passed))

/-- A compact array that is decoded is a tree in places behind those in use. -/
theorem compactDecodeElements_yields (fuel : ℕ) (s : Compact) :
    Yields s.pool ∅ (compactDecodeElements fuel) s fun value q => Laid Value.TightLeaf q.slots s.pool.used q.used value := by
  refine .kept_bind (compactCountElements_kept fuel 32 0) (.refl _ _) fun count t same => ?_
  rw [← same]
  refine .take_bind (.refl _ _) fun few fits => Ends.modify_bind ?_
  have items := forSlots_yields (s := { t with contents := { t.contents with rd := 0 }, pool := t.pool.take count })
    (fun slot => (compactWalkDescription_puts fuel slot).rewound 0) count t.pool.used le_rfl
  refine Ends.bind (items.mono (fun _ u filled => ?_) fun e u failed => ⟨failed.1, failed.2.taken fits⟩)
  exact .pure (filled.1.nested .array fits few filled.2)

end Compacts

/-! ## Tagged values -/

/-- What a decoder of tagged values returns and leaves behind. -/
structure ReadsTree (p : Pool) (out : (Err × Value) × Reader) : Prop where
  ext : p.Extends ∅ out.2.pool
  laid : out.1.1 = .ok → Laid Value.Leaf out.2.pool.slots p.used out.2.pool.used out.1.2

section Values

variable {r : Reader} {p : Pool} {read : Value → StateM Reader (Err × Value)}

theorem Laid.tight {memory : ℕ → Value} {lo hi : ℕ} (laid : Laid Value.TightLeaf memory lo hi value) :
    Laid Value.Leaf memory lo hi value := by
  obtain ⟨places, tree, rest⟩ := laid
  exact ⟨places, tree.mono fun _ => And.left, rest⟩

/-- A value without items that leaves the pool alone. -/
theorem ReadsTree.leaf {err : Err} (kept : r.pool = p) (isLeaf : err = .ok → value.Leaf) :
    ReadsTree p ((err, value), r) :=
  ⟨kept ▸ .refl _ _, fun ok => .of_leaf (isLeaf ok)⟩

/-- `read_compact_array` fails early and leaves the pool alone, or ends as its elements do. -/
theorem readCompactArray_cases (r : Reader) : (∃ e b, e ≠ .ok ∧ readCompactArray r = (.error e, ⟨b, r.pool⟩)) ∨
      ∃ descLen contents b,
        let elements := compactDecodeElements (descLen + 1) ⟨⟨r.buf.buf.drop r.buf.rd, 0, descLen⟩, contents, r.pool⟩
        (∃ value t, elements = .ok value t ∧ readCompactArray r = (.ok value, ⟨b, t.pool⟩)) ∨
          ∃ e t, elements = .error e t ∧ readCompactArray r = (.error e, ⟨b, t.pool⟩) := by
  have described := Honest.skipTypeDescription 16 r.buf
  rw [readCompactArray, stateM_get_bind]
  dsimp only
  cases skipped : skipTypeDescription 16 r.buf with
  | error e b => exact .inl ⟨e, r.buf, (described.error skipped).1, rfl⟩
  | ok _ probe =>
    dsimp only
    generalize (probe.rd + 2 ^ 32 - r.buf.rd) % 2 ^ 32 = descLen
    generalize (r.buf.rd + descLen) % 2 ^ 32 = pos
    have measured : Honest (do let len ← dlmsReadLen; needUnread len .invalid; return len) :=
      .bind .dlmsReadLen fun len => (Honest.needUnread len).bind fun _ => .pure _
    generalize (do let len ← dlmsReadLen; needUnread len .invalid; return len : Read ℕ) = length at measured ⊢
    rw [stateM_modify_bind]
    generalize ({ r.buf with rd := pos } : Buf) = behind
    cases read : length behind with
    | error e b =>
      refine .inl ⟨e, b, ((measured behind).error read).1, ?_⟩
      rw [stateM_bind_of_eq (run_of_error (r := ⟨behind, r.pool⟩) read)]
      rfl
    | ok len b =>
      rw [stateM_bind_of_eq (run_of_ok (r := ⟨behind, r.pool⟩) read)]
      refine .inr ⟨descLen, ⟨b.buf.drop b.rd, 0, len⟩, b.skip len, ?_⟩
      simp only [stateM_get_bind]
      cases decoded : compactDecodeElements (descLen + 1)
          ⟨⟨r.buf.buf.drop r.buf.rd, 0, descLen⟩, ⟨b.buf.drop b.rd, 0, len⟩, r.pool⟩ with
      | ok value t => exact .inl ⟨value, t, rfl, rfl⟩
      | error e t => exact .inr ⟨e, t, rfl, rfl⟩

theorem readCompactArray_tree (r : Reader) : ReadsTree r.pool (keepOr 19 (readCompactArray r).1, (readCompactArray r).2) := by
  rcases readCompactArray_cases r with ⟨e, b, error, same⟩ | ⟨descLen, contents, b, ⟨value, t, decoded, same⟩ | ⟨e, t, decoded, same⟩⟩
  · rw [same]
    exact .leaf rfl fun ok => absurd ok error
  · rw [same]
    obtain ⟨ext, laid⟩ := (compactDecodeElements_yields _ _).ok decoded
    exact ⟨ext, fun _ => laid.tight⟩
  · rw [same]
    obtain ⟨error, ext⟩ := (compactDecodeElements_yields _ _).error decoded
    exact ⟨ext, fun ok => absurd ok error⟩

/-- The items of a list, in the places taken for them. -/
theorem readItems_tree (each : ∀ old r, ReadsTree r.pool (read old r)) (count pos : ℕ) (r : Reader)
    (room : pos + count ≤ r.pool.used) :
    r.pool.Extends (Set.Ico pos (pos + count)) (readItems read count pos r).2.pool ∧
      ((readItems read count pos r).1 = .ok → AllLaid Value.Leaf (readItems read count pos r).2.pool.slots r.pool.used
          (readItems read count pos r).2.pool.used pos count) := by
  induction count generalizing pos r with
  | zero => exact ⟨.refl _ _, fun _ => .nil⟩
  | succ count ih =>
    have one := each (r.pool.slots pos) r
    rw [readItems, stateM_get_bind]
    generalize out : read (r.pool.slots pos) r = item at one
    obtain ⟨⟨err, value⟩, s⟩ := item
    rw [stateM_bind_of_eq out]
    dsimp only
    rw [stateM_modify_bind]
    have grows : r.pool.used ≤ s.pool.used := one.ext.grows
    have first : r.pool.Extends {pos} (s.pool.put pos value) :=
      (one.ext.widen {pos}).put (Set.mem_singleton pos) value
    have own : (s.pool.put pos value).slots pos = value := if_pos rfl
    obtain ⟨later, rest⟩ := ih (pos + 1) { s with pool := s.pool.put pos value } (by change _ ≤ s.pool.used; omega)
    split
    · rename_i ok
      refine ⟨first.consWritten later, fun done => first.consItem room ?_ later (rest done)⟩
      rw [own]
      refine (one.laid ok).congr fun i above _ => if_neg ?_
      omega
    · rename_i failed
      exact ⟨first.consWritten (.refl _ _), fun done => absurd done failed⟩

theorem listRead_tree (each : ∀ old r, ReadsTree r.pool (read old r)) (kind : NestKind) (r : Reader) :
    ReadsTree r.pool (listRead read kind.tag kind.maxLen kind.value r) := by
  have blank (memory : ℕ → Value) (lo hi : ℕ) : Laid Value.Leaf memory lo hi (Value.blank kind.tag) := by
    have empty : Value.blank kind.tag = kind.value 0 0 := by cases kind <;> rfl
    rw [empty]
    exact .empty kind 0
  cases length : dlmsReadLen r.buf with
  | error e c =>
    rw [listRead, stateM_bind_of_eq (run_of_error length)]
    exact ⟨.refl _ _, fun _ => blank _ _ _⟩
  | ok count c =>
    rw [listRead, stateM_bind_of_eq (run_of_ok length)]
    dsimp only
    rw [stateM_get_bind]
    split
    · exact ⟨.refl _ _, fun _ => blank _ _ _⟩
    · rename_i fits
      rw [stateM_modify_bind]
      have items := readItems_tree each count r.pool.used ⟨c, r.pool.take count⟩ le_rfl
      dsimp only at fits items ⊢
      generalize out : readItems read count r.pool.used ⟨c, r.pool.take count⟩ = filled at items
      obtain ⟨err, s⟩ := filled
      rw [stateM_bind_of_eq out]
      refine ⟨items.1.taken (by omega), fun ok => ?_⟩
      change err = .ok at ok
      subst ok
      exact (items.1.nested kind (by omega) (by omega) (items.2 rfl)).2

/-- A step on the buffer whose value is a leaf; a failed one leaves a blank that is a leaf too. -/
theorem keepOr_tree {step : Read Value} (isLeaf : ∀ b value c, step b = .ok value c → value.Leaf)
    (blank : (Value.blank tag).Leaf) (r : Reader) :
    ReadsTree r.pool ((do return keepOr tag (← Reader.run step) : StateM Reader (Err × Value)) r) := by
  cases read : step r.buf with
  | ok value c =>
    rw [stateM_bind_of_eq (run_of_ok read)]
    exact .leaf rfl fun _ => isLeaf _ _ _ read
  | error e c =>
    rw [stateM_bind_of_eq (run_of_error read)]
    exact .leaf rfl fun _ => blank

theorem bitStringRead_leaf {c : Buf} (read : bitStringRead b = .ok value c) : value.Leaf := by
  obtain ⟨len, d, -, rest⟩ := bind_ok_iff.mp read
  cases len with
  | zero =>
    cases rest
    trivial
  | succ len =>
    obtain ⟨_, _, -, rest⟩ := bind_ok_iff.mp rest
    obtain ⟨unusedBits, _, -, rest⟩ := bind_ok_iff.mp rest
    obtain ⟨-, rest⟩ := failIf_bind_ok_iff.mp rest
    obtain ⟨bits, _, -, rest⟩ := bind_ok_iff.mp rest
    cases rest
    trivial

theorem string_tree {make : List UInt8 → Value} (isLeaf : ∀ bytes, bytes.length ≤ maxLen → (make bytes).Leaf)
    (blank : (Value.blank tag).Leaf) (r : Reader) :
    ReadsTree r.pool (valueReadImpl.string tag make (stringRead readLength maxLen e) r) := by
  refine keepOr_tree (fun b value c read => ?_) blank r
  obtain ⟨bytes, taken, rfl⟩ := ok_of_map read
  exact isLeaf bytes (stringRead_length taken)

theorem valueReadImpl_tree (fuel : ℕ) (old : Value) (r : Reader) : ReadsTree r.pool (valueReadImpl fuel old r) := by
  induction fuel generalizing old r with
  | zero => exact .leaf rfl (by simp)
  | succ fuel ih =>
    rw [valueReadImpl]
    cases tagged : axdrReadTag r.buf with
    | error e c =>
      rw [stateM_bind_of_eq (run_of_error tagged)]
      exact .leaf rfl fun ok => absurd ok ((Honest.axdrReadU8 r.buf).error tagged).1
    | ok tag c =>
      rw [stateM_bind_of_eq (run_of_ok tagged)]
      dsimp only
      cases ScalarKind.ofTag tag with
      | some kind => exact .leaf rfl fun _ => trivial
      | none =>
        dsimp only
        split_ifs with isNull isOctet isVisible isUtf8 isBits isArray isStruct isCompact
        · exact .leaf rfl fun _ => trivial
        · subst isOctet
          exact string_tree (fun _ short => short) (Nat.zero_le _) ⟨c, r.pool⟩
        · subst isVisible
          exact string_tree (fun _ short => short.trans (by decide)) (Nat.zero_le _) ⟨c, r.pool⟩
        · subst isUtf8
          exact string_tree (fun _ short => short.trans (by decide)) (Nat.zero_le _) ⟨c, r.pool⟩
        · subst isBits
          have blank : (Value.blank 4).Leaf := trivial
          exact keepOr_tree (fun _ _ _ => bitStringRead_leaf) blank ⟨c, r.pool⟩
        · subst isArray
          exact listRead_tree ih .array ⟨c, r.pool⟩
        · subst isStruct
          exact listRead_tree ih .struct ⟨c, r.pool⟩
        · subst isCompact
          exact readCompactArray_tree ⟨c, r.pool⟩
        · exact .leaf rfl (by simp)

end Values

end OpenSpodes
