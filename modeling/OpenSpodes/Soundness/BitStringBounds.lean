import OpenSpodes.Proofs.DataWrite
import OpenSpodes.Proofs.ReadTree

/-! # The length of decoded bit strings

A tagged bit string starts with the number of unused bits of its last byte. The decoder subtracts that octet from the
number of bits it has received without comparing them, so the length of a decoded bit string can be anything up to
2³² - 1 while 32 bytes hold it; the packed form inside compact arrays is checked. `checkedRead` is the decoder with the
missing comparison: a value has no bit string that is too long exactly if that decoder accepts the input too. The
separate pair of bit string helpers counts the octet itself as eight bits.
-/

namespace OpenSpodes

open Bytes Machine.Fallible

/-- `bitStringRead` with the comparison that is missing there. -/
def checkedBitStringRead : Read Value := do
  match ← axdrReadLength with
  | 0 => return .bitString [] 0
  | len + 1 =>
      needUnread (len + 1) .invalid
      let unusedBits ← nextByte
      let totalBits := (len * 8) % 2 ^ 32
      failIf (totalBits > 32 * 8) .nomem
      failIf (unusedBits.toNat > totalBits) .invalid
      let bits ← takeBytes len
      return .bitString bits ((totalBits + 2 ^ 32 - unusedBits.toNat) % 2 ^ 32)

/-- `valueReadImpl` with that reader of bit strings. -/
def checkedReadImpl : ℕ → Value → StateM Reader (Err × Value)
  | 0, old => return (.invalid, old)
  | fuel + 1, old => do
      match ← Reader.run axdrReadTag with
      | .error e => return (e, old)
      | .ok tag =>
          match ScalarKind.ofTag tag with
          | some kind =>
              let (err, content, buf) := scalarRead kind (← get).buf
              modify fun r => { r with buf := buf }
              return (err, .scalar kind content)
          | none =>
              if tag = 0 then return (.ok, .null)
              else if tag = 9 then valueReadImpl.string tag .octetString (stringRead dlmsReadLen 256 .nomem)
              else if tag = 10 then valueReadImpl.string tag .visibleString (stringRead dlmsReadLen 255 .nomem)
              else if tag = 12 then valueReadImpl.string tag .utf8String (stringRead axdrReadLength 255 .nomem)
              else if tag = 4 then return keepOr tag (← Reader.run checkedBitStringRead)
              else if tag = 1 then listRead (checkedReadImpl fuel) tag 32 .array
              else if tag = 2 then listRead (checkedReadImpl fuel) tag 16 .struct
              else if tag = 19 then return keepOr tag (← readCompactArray)
              else return (.unsupported, Value.blank tag)

/-- `valueRead` with that reader of bit strings. -/
def checkedRead (old : Value) : StateM Reader (Err × Value) := do
  modify fun r => { r with pool := { r.pool with used := 0 } }
  checkedReadImpl (poolLen + 2) old

/-- Every bit string of the value's tree fits into its 32 bytes. -/
def Tight (memory : ℕ → Value) (value : Value) : Prop :=
  ∀ bits numBits, value.Part memory (.bitString bits numBits) → numBits ≤ 256

section Parts

variable {leaf : Value → Prop} {memory memory' : ℕ → Value} {value part : Value} {places : List ℕ} {lo hi : ℕ}
  {kind : NestKind} {start count : ℕ}

theorem Value.Leaf.noItems (kind : NestKind) (start count : ℕ) : ¬(kind.value start count).Leaf := by
  cases kind <;> exact id

theorem Value.Part.of_leaf (isLeaf : value.Leaf) (isPart : value.Part memory part) : part = value := by
  cases isPart with
  | self => rfl
  | item => exact absurd isLeaf (Value.Leaf.noItems _ _ _)

theorem Value.Part.of_nest (isPart : (kind.value start count).Part memory part) :
    part = kind.value start count ∨ ∃ i < count, (memory (start + i)).Part memory part := by
  generalize same : kind.value start count = root at isPart
  cases isPart with
  | self => exact .inl rfl
  | item inside below =>
    obtain ⟨rfl, rfl⟩ := NestKind.value_inj same
    exact .inr ⟨_, inside, below⟩

/-- The parts of a tree depend on the places of its items only. -/
theorem Value.Tree.part_congr (tree : value.Tree Value.Leaf memory places)
    (same : ∀ place ∈ places, memory' place = memory place) (isPart : value.Part memory part) :
    value.Part memory' part := by
  induction tree with
  | leaf isLeaf =>
    rw [isPart.of_leaf isLeaf]
    exact .self _
  | @nest kind start count below few items ih =>
    rcases isPart.of_nest with rfl | ⟨i, inside, below'⟩
    · exact .self _
    · refine .item inside ?_
      rw [same _ (List.mem_append_left _ (List.mem_range'_1.mpr ⟨Nat.le_add_right _ _, by omega⟩))]
      refine ih i inside (fun place member => same place (List.mem_append_right _ ?_)) below'
      exact List.mem_flatMap.mpr ⟨i, List.mem_range.mpr inside, member⟩

theorem Laid.tight_iff (laid : Laid Value.Leaf memory lo hi value) (same : ∀ i, lo ≤ i → i < hi → memory' i = memory i) :
    Tight memory' value ↔ Tight memory value := by
  obtain ⟨places, tree, -, inside⟩ := laid
  have agree : ∀ place ∈ places, memory' place = memory place :=
    fun place member => same place (inside place member).1 (inside place member).2
  constructor
  · exact fun tight bits numBits isPart => tight bits numBits (tree.part_congr agree isPart)
  · intro tight bits numBits isPart
    exact tight bits numBits ((tree.congr agree).part_congr (fun place member => (agree place member).symm) isPart)

theorem tight_leaf_iff (isLeaf : value.Leaf) : Tight memory value ↔ value.BitsFit := by
  constructor
  · intro tight
    cases value with
    | bitString bits numBits => exact tight bits numBits (.self _)
    | _ => trivial
  · intro fits bits numBits isPart
    rw [← isPart.of_leaf isLeaf] at fits
    exact fits

theorem tight_nest_iff :
    Tight memory (kind.value start count) ↔ ∀ i < count, Tight memory (memory (start + i)) := by
  constructor
  · exact fun tight i inside bits numBits isPart => tight bits numBits (.item inside isPart)
  · intro tight bits numBits isPart
    rcases isPart.of_nest with same | ⟨i, inside, below⟩
    · cases kind <;> cases same
    · exact tight i inside bits numBits below

theorem Laid.tight_of (laid : Laid Value.TightLeaf memory lo hi value) : Tight memory value := by
  obtain ⟨places, tree, -⟩ := laid
  have fits (part : Value) (isPart : value.Part memory part) : part.BitsFit :=
    tree.part (fun _ => And.right) (fun kind _ _ => by cases kind <;> trivial)
      (fun kind start count isLeaf => Value.Leaf.noItems kind start count isLeaf.1) isPart
  exact fun bits numBits isPart => fits _ isPart

end Parts

/-! ## The two decoders -/

/-- The decoder with the comparison accepts what the other one accepts with all bit strings fitting, with the same
result. -/
structure Checks (plain checked : (Err × Value) × Reader) : Prop where
  ok_iff : checked.1.1 = .ok ↔ plain.1.1 = .ok ∧ Tight plain.2.pool.slots plain.1.2
  same : checked.1.1 = .ok → checked = plain

theorem Checks.refl {out : (Err × Value) × Reader} (tight : out.1.1 = .ok → Tight out.2.pool.slots out.1.2) :
    Checks out out :=
  ⟨⟨fun ok => ⟨ok, tight ok⟩, And.left⟩, fun _ => rfl⟩

section Decoders

variable {read read' : Value → StateM Reader (Err × Value)} {value : Value}

theorem readItems_checks (trees : ∀ old r, ReadsTree r.pool (read old r))
    (each : ∀ old r, Checks (read old r) (read' old r)) (count pos : ℕ) (r : Reader) (room : pos + count ≤ r.pool.used) :
    ((readItems read' count pos r).1 = .ok ↔ (readItems read count pos r).1 = .ok ∧
        ∀ i < count, Tight (readItems read count pos r).2.pool.slots ((readItems read count pos r).2.pool.slots (pos + i))) ∧
      ((readItems read' count pos r).1 = .ok → readItems read' count pos r = readItems read count pos r) := by
  induction count generalizing pos r with
  | zero => simp [readItems]
  | succ count ih =>
    have one := each (r.pool.slots pos) r
    have tree := trees (r.pool.slots pos) r
    rw [readItems, readItems, stateM_get_bind, stateM_get_bind]
    generalize out : read (r.pool.slots pos) r = item at one tree
    generalize out' : read' (r.pool.slots pos) r = item' at one
    obtain ⟨⟨err, value⟩, s⟩ := item
    obtain ⟨⟨err', value'⟩, s'⟩ := item'
    rw [stateM_bind_of_eq out, stateM_bind_of_eq out']
    dsimp only
    rw [stateM_modify_bind, stateM_modify_bind]
    have grows : r.pool.used ≤ s.pool.used := tree.ext.grows
    have later := ih (pos + 1) { s with pool := s.pool.put pos value } (by change _ ≤ s.pool.used; omega)
    have kept := (readItems_tree trees count (pos + 1) { s with pool := s.pool.put pos value }
      (by change _ ≤ s.pool.used; omega)).1
    by_cases ok : err = .ok
    · subst ok
      rw [if_pos rfl]
      generalize readItems read count (pos + 1) { s with pool := s.pool.put pos value } = rest at later kept
      have own : rest.2.pool.slots pos = value :=
        (kept.kept pos (by change pos < s.pool.used; omega) fun inside => absurd inside.1 (by omega)).trans (if_pos rfl)
      -- the items behind do not touch the places of this one
      have item : Tight rest.2.pool.slots value ↔ Tight s.pool.slots value := by
        refine Laid.tight_iff (tree.laid rfl) fun i above below => ?_
        have other : i ∉ Set.Ico (pos + 1) (pos + 1 + count) := fun inside => by have := inside.2; omega
        exact (kept.kept i below other).trans (if_neg (by omega))
      by_cases ok' : err' = .ok
      · have tight := item.mpr (one.ok_iff.mp ok').2
        cases one.same ok'
        rw [if_pos rfl]
        refine ⟨later.1.trans (and_congr_right fun _ => ⟨fun all i inside => ?_, fun all i inside => ?_⟩), later.2⟩
        · cases i with
          | zero => rwa [Nat.add_zero, own]
          | succ i =>
            rw [Nat.add_comm i 1, ← Nat.add_assoc]
            exact all i (by omega)
        · rw [Nat.add_assoc, Nat.add_comm 1 i]
          exact all (i + 1) (by omega)
      · rw [if_neg ok']
        refine ⟨⟨fun done => absurd done ok', fun accepted => ?_⟩, fun done => absurd done ok'⟩
        have first := accepted.2 0 (Nat.succ_pos count)
        rw [Nat.add_zero, own, item] at first
        exact absurd (one.ok_iff.mpr ⟨rfl, first⟩) ok'
    · have failed : err' ≠ .ok := fun ok' => ok (one.ok_iff.mp ok').1
      rw [if_neg ok, if_neg failed]
      exact ⟨⟨fun done => absurd done failed, fun done => absurd done.1 ok⟩, fun done => absurd done failed⟩

theorem listRead_checks (trees : ∀ old r, ReadsTree r.pool (read old r))
    (each : ∀ old r, Checks (read old r) (read' old r)) (kind : NestKind) (r : Reader) :
    Checks (listRead read kind.tag kind.maxLen kind.value r) (listRead read' kind.tag kind.maxLen kind.value r) := by
  have blank (memory : ℕ → Value) : Tight memory (Value.blank kind.tag) := by
    have empty : Value.blank kind.tag = kind.value 0 0 := by cases kind <;> rfl
    rw [empty, tight_nest_iff]
    simp
  cases length : dlmsReadLen r.buf with
  | error e c =>
    rw [listRead, listRead, stateM_bind_of_eq (run_of_error length), stateM_bind_of_eq (run_of_error length)]
    exact .refl fun _ => blank _
  | ok count c =>
    rw [listRead, listRead, stateM_bind_of_eq (run_of_ok length), stateM_bind_of_eq (run_of_ok length)]
    dsimp only
    rw [stateM_get_bind, stateM_get_bind]
    dsimp only
    split
    · exact .refl fun _ => blank _
    · rw [stateM_modify_bind, stateM_modify_bind]
      have items := readItems_checks trees each count r.pool.used ⟨c, r.pool.take count⟩ le_rfl
      generalize out : readItems read count r.pool.used ⟨c, r.pool.take count⟩ = filled at items
      generalize out' : readItems read' count r.pool.used ⟨c, r.pool.take count⟩ = filled' at items
      obtain ⟨err, s⟩ := filled
      obtain ⟨err', s'⟩ := filled'
      rw [stateM_bind_of_eq out, stateM_bind_of_eq out']
      refine ⟨items.1.trans (and_congr_right fun ok => ?_), fun ok => ?_⟩
      · change err = .ok at ok
        change _ ↔ Tight s.pool.slots (if err = .ok then kind.value r.pool.used count else Value.blank kind.tag)
        rw [if_pos ok]
        exact tight_nest_iff.symm
      · cases items.2 ok
        rfl

theorem axdrReadLength_honest : Honest axdrReadLength := by
  refine .bind (fun b => ?_) fun len => ?_
  · have read := Honest.dlmsReadLen b
    cases run : dlmsReadLen b with
    | ok len c => simpa [Ends, attempt, run] using read.ok run
    | error e c => simpa [Ends, attempt, run] using (read.error run).2
  · cases len with
    | none => exact .throw (by decide)
    | some len => exact .pure _

theorem bitStringRead_honest : Honest bitStringRead := by
  refine axdrReadLength_honest.bind fun len => ?_
  cases len with
  | zero => exact .pure _
  | succ len =>
    refine (Honest.needUnread _).bind fun _ => Honest.nextByte.bind fun unusedBits => ?_
    exact (Honest.failIf (by decide)).bind fun _ => (Honest.takeBytes _).bind fun _ => .pure _

theorem checkedBitStringRead_honest : Honest checkedBitStringRead := by
  refine axdrReadLength_honest.bind fun len => ?_
  cases len with
  | zero => exact .pure _
  | succ len =>
    refine (Honest.needUnread _).bind fun _ => Honest.nextByte.bind fun unusedBits => ?_
    refine (Honest.failIf (by decide)).bind fun _ => (Honest.failIf (by decide)).bind fun _ => ?_
    exact (Honest.takeBytes _).bind fun _ => .pure _

/-- The comparison passes exactly if the difference does not wrap around. -/
theorem checkedBitStringRead_ok_iff {b c : Buf} :
    checkedBitStringRead b = .ok value c ↔ bitStringRead b = .ok value c ∧ value.BitsFit := by
  simp only [checkedBitStringRead, bitStringRead]
  cases length : axdrReadLength b with
  | error e d => simp [bind_of_error length]
  | ok len d =>
    rw [bind_of_ok length, bind_of_ok length]
    cases len with
    | zero =>
      refine ⟨fun read => ⟨read, ?_⟩, And.left⟩
      cases read
      exact Nat.zero_le _
    | succ len =>
      dsimp only
      cases need : needUnread (len + 1) .invalid d with
      | error e f => simp [bind_of_error need]
      | ok _ f =>
        have next : nextByte f = .ok (f.byteAt f.rd) (f.skip 1) := rfl
        have octet : (f.byteAt f.rd).toNat < 256 := (f.byteAt f.rd).toNat_lt
        rw [bind_of_ok need, bind_of_ok need, bind_of_ok next, bind_of_ok next]
        generalize (f.byteAt f.rd).toNat = unused at octet ⊢
        generalize len * 8 % 2 ^ 32 = total
        rw [failIf_bind_ok_iff, failIf_bind_ok_iff, failIf_bind_ok_iff, and_assoc]
        refine and_congr_right fun small => ?_
        have taken : takeBytes len (f.skip 1) = .ok ((f.skip 1).slice len) ((f.skip 1).skip len) := rfl
        rw [bind_of_ok taken, and_comm]
        refine and_congr_right fun read => ?_
        cases read
        change _ ↔ (total + 2 ^ 32 - unused) % 2 ^ 32 ≤ 256
        omega

theorem bits_checks (r : Reader) :
    Checks ((do return keepOr 4 (← Reader.run bitStringRead) : StateM Reader (Err × Value)) r)
      ((do return keepOr 4 (← Reader.run checkedBitStringRead) : StateM Reader (Err × Value)) r) := by
  cases checked : checkedBitStringRead r.buf with
  | ok value c =>
    obtain ⟨read, fits⟩ := checkedBitStringRead_ok_iff.mp checked
    rw [stateM_bind_of_eq (run_of_ok checked), stateM_bind_of_eq (run_of_ok read)]
    exact .refl fun _ => (tight_leaf_iff (bitStringRead_leaf read)).mpr fits
  | error e c =>
    have error : e ≠ .ok := ((checkedBitStringRead_honest r.buf).error checked).1
    rw [stateM_bind_of_eq (run_of_error checked)]
    refine ⟨⟨fun ok => absurd ok error, fun both => ?_⟩, fun ok => absurd ok error⟩
    exfalso
    cases read : bitStringRead r.buf with
    | ok value d =>
      rw [stateM_bind_of_eq (run_of_ok read)] at both
      have fits := (tight_leaf_iff (bitStringRead_leaf read)).mp both.2
      rw [checkedBitStringRead_ok_iff.mpr ⟨read, fits⟩] at checked
      cases checked
    | error e d =>
      rw [stateM_bind_of_eq (run_of_error read)] at both
      exact ((bitStringRead_honest r.buf).error read).1 both.1

theorem Checks.tightLeaf {err : Err} {r : Reader} (tight : value.TightLeaf) :
    Checks ((err, value), r) ((err, value), r) :=
  .refl fun _ => (tight_leaf_iff tight.1).mpr tight.2

theorem string_checks (tag : UInt8) (make : List UInt8 → Value) {readLength : Read ℕ} {maxLen : ℕ} {e : Err}
    (isLeaf : ∀ bytes, bytes.length ≤ maxLen → (make bytes).TightLeaf) (blank : (Value.blank tag).TightLeaf) (r : Reader) :
    Checks (valueReadImpl.string tag make (stringRead readLength maxLen e) r)
      (valueReadImpl.string tag make (stringRead readLength maxLen e) r) := by
  rw [valueReadImpl.string]
  cases read : (make <$> stringRead readLength maxLen e) r.buf with
  | ok value c =>
    obtain ⟨bytes, taken, rfl⟩ := ok_of_map read
    rw [stateM_bind_of_eq (run_of_ok read)]
    exact .tightLeaf (isLeaf bytes (stringRead_length taken))
  | error e c =>
    rw [stateM_bind_of_eq (run_of_error read)]
    exact .tightLeaf blank

theorem compact_checks (r : Reader) : Checks (keepOr 19 (readCompactArray r).1, (readCompactArray r).2)
      (keepOr 19 (readCompactArray r).1, (readCompactArray r).2) := by
  refine .refl fun ok => ?_
  rcases readCompactArray_cases r with
    ⟨e, b, error, same⟩ | ⟨descLen, contents, b, ⟨value, t, decoded, same⟩ | ⟨e, t, decoded, same⟩⟩
  · rw [same] at ok
    exact absurd ok error
  · rw [same]
    exact Laid.tight_of ((compactDecodeElements_yields _ _).ok decoded).2
  · rw [same] at ok
    exact absurd ok ((compactDecodeElements_yields _ _).error decoded).1

theorem valueReadImpl_checks (fuel : ℕ) (old : Value) (r : Reader) :
    Checks (valueReadImpl fuel old r) (checkedReadImpl fuel old r) := by
  induction fuel generalizing old r with
  | zero => exact .refl fun ok => by cases ok
  | succ fuel ih =>
    rw [valueReadImpl, checkedReadImpl]
    cases tagged : axdrReadTag r.buf with
    | error e c =>
      rw [stateM_bind_of_eq (run_of_error tagged), stateM_bind_of_eq (run_of_error tagged)]
      exact .refl fun ok => absurd ok ((Honest.axdrReadU8 r.buf).error tagged).1
    | ok tag c =>
      rw [stateM_bind_of_eq (run_of_ok tagged), stateM_bind_of_eq (run_of_ok tagged)]
      dsimp only
      cases ScalarKind.ofTag tag with
      | some kind => exact .tightLeaf ⟨trivial, trivial⟩
      | none =>
        dsimp only
        split_ifs with isNull isOctet isVisible isUtf8 isBits isArray isStruct isCompact
        · exact .tightLeaf ⟨trivial, trivial⟩
        · subst isOctet
          exact string_checks 9 .octetString (fun _ short => ⟨short, trivial⟩) ⟨Nat.zero_le _, trivial⟩ ⟨c, r.pool⟩
        · subst isVisible
          exact string_checks 10 .visibleString (fun _ short => ⟨short.trans (by decide), trivial⟩)
            ⟨Nat.zero_le _, trivial⟩ ⟨c, r.pool⟩
        · subst isUtf8
          exact string_checks 12 .utf8String (fun _ short => ⟨short.trans (by decide), trivial⟩)
            ⟨Nat.zero_le _, trivial⟩ ⟨c, r.pool⟩
        · subst isBits
          exact bits_checks ⟨c, r.pool⟩
        · subst isArray
          exact listRead_checks (valueReadImpl_tree fuel) ih .array ⟨c, r.pool⟩
        · subst isStruct
          exact listRead_checks (valueReadImpl_tree fuel) ih .struct ⟨c, r.pool⟩
        · subst isCompact
          exact compact_checks ⟨c, r.pool⟩
        · exact .refl fun ok => by cases ok

end Decoders

/-- An accepted value has only bit strings that fit exactly if the decoder with the comparison accepts the input. -/
theorem bits_within_capacity (old : Value) (r : Reader) (accepted : (valueRead old r).1.1 = .ok) :
    (∀ bits numBits, (valueRead old r).1.2.Part (valueRead old r).2.pool.slots (.bitString bits numBits) →
        numBits ≤ 256) ↔ (checkedRead old r).1.1 = .ok := by
  have checks := valueReadImpl_checks (poolLen + 2) old { r with pool := { r.pool with used := 0 } }
  change Checks (valueRead old r) (checkedRead old r) at checks
  rw [checks.ok_iff]
  exact ⟨fun tight => ⟨accepted, tight⟩, And.right⟩

theorem bits_within_capacity_sample :
    (valueRead .null ⟨.ofBytes [2, 1, 4, 2, 3, 0xA0], .empty⟩).1 = (.ok, .struct 0 1) ∧
      ((∀ bits numBits, (Value.struct 0 1).Part
          (valueRead .null ⟨.ofBytes [2, 1, 4, 2, 3, 0xA0], .empty⟩).2.pool.slots (.bitString bits numBits) → numBits ≤ 256) ↔
        (checkedRead .null ⟨.ofBytes [2, 1, 4, 2, 3, 0xA0], .empty⟩).1.1 = .ok) := by
  have read : (valueRead .null ⟨.ofBytes [2, 1, 4, 2, 3, 0xA0], .empty⟩).1 = (.ok, .struct 0 1) := by decide +kernel
  have within := bits_within_capacity .null ⟨.ofBytes [2, 1, 4, 2, 3, 0xA0], .empty⟩ (by rw [read])
  rw [read] at within
  exact ⟨read, within⟩

/-- One unused bit of no bits at all: a bit string of 2³² - 1 bits. -/
theorem bits_wrapped : (valueRead .null ⟨.ofBytes [4, 1, 1], .empty⟩).1 = (.ok, .bitString [] 4294967295) ∧
      ¬Tight (valueRead .null ⟨.ofBytes [4, 1, 1], .empty⟩).2.pool.slots (.bitString [] 4294967295) :=
  ⟨by decide +kernel, fun tight => absurd (tight [] 4294967295 (.self _)) (by decide)⟩

/-! ## The helper pair -/

/-- What the helper writes for `n` bits, it reads back: the same bytes, all of them consumed, and the number `n + 8`, for
the octet of unused bits counts. -/
theorem bitstring_round_trip (n : ℕ) (bits : Vector UInt8 ((n + 7) / 8)) (maxBits : UInt32)
    (room : n + 16 ≤ maxBits.toNat) :
    ∃ bytes, Writes (bitstringWrite bits.toList n) bytes ∧
      Takes (bitstringRead maxBits.toNat) bytes (bits.toList, n + 8) := by
  have bound := maxBits.toNat_lt
  have length : bits.toList.length = (n + 7) / 8 := by simp
  generalize bits.toList = content at length
  have numBytes : (n + 7) % 2 ^ 32 / 8 = (n + 7) / 8 := by rw [Nat.mod_eq_of_lt (by omega)]
  have unused : (UInt8.ofNat (((n + 7) / 8 * 8 + 2 ^ 32 - n) % 2 ^ 32)).toNat = (n + 7) / 8 * 8 - n := by
    rw [UInt8.toNat_ofNat']
    omega
  generalize known : UInt8.ofNat (((n + 7) / 8 * 8 + 2 ^ 32 - n) % 2 ^ 32) = octet at unused
  refine ⟨[4] ++ (dlmsLenBytes ((n + 7) / 8 + 1) ++ ([octet] ++ content)), ?_, ?_⟩
  · have written := (axdrWriteU8_writes 4).andThen
      ((dlmsWriteLen_writes ((n + 7) / 8 + 1)).andThen (writeBytes_writes ([octet] ++ content) .nomem))
    simpa only [bitstringWrite, numBytes, known, padTo_of_length_eq length, Nat.add_comm 1, List.singleton_append] using written
  · apply (Takes.u8 4).bind
    apply Takes.check (by decide)
    apply (Takes.len (by omega)).bind
    apply Takes.needUnread (by simp [length])
    apply Takes.check (by omega)
    apply Takes.check (by omega)
    apply (Takes.nextByte octet).bind
    rw [← length]
    apply (Takes.raw content).last
    have count : ((content.length + 1) * 8 + 2 ^ 32 - if content.length = 0 then 0 else octet.toNat) % 2 ^ 32 =
        n + 8 := by
      rw [length, unused]
      split <;> omega
    rw [count]
    exact .pure _

theorem bitstring_round_trip_twenty : 20 + 16 ≤ (256 : UInt32).toNat ∧
    ∃ bytes, Writes (bitstringWrite [0xFF, 0xAA, 0xF0] 20) bytes ∧
      Takes (bitstringRead 256) bytes ([0xFF, 0xAA, 0xF0], 20 + 8) :=
  ⟨by decide, bitstring_round_trip 20 ⟨#[0xFF, 0xAA, 0xF0], rfl⟩ 256 (by decide)⟩

/-- Eight bits come back as sixteen. -/
theorem bitstring_counts_octet :
    bitstringWrite [0xA5] 8 (.init 4) = .ok () ⟨4, [4, 2, 0, 0xA5], le_rfl⟩ ∧
      bitstringRead 24 (.ofBytes [4, 2, 0, 0xA5]) = .ok ([0xA5], 16) ⟨[4, 2, 0, 0xA5], 4, 4⟩ :=
  ⟨rfl, rfl⟩

end OpenSpodes
