import Mathlib.Tactic.IntervalCases
import OpenSpodes.Model.Codec

/-! # Reading back what was written

`Buf.Offers b bytes` says that the unread part of a buffer is `bytes`, and `Buf.Holds` that its area ends there too.
Readers consume from the front of it, so a reader's specification is one implication between such facts; writers append.
The length codec is the first pair: a 32-bit length that was written is the length that is read.
-/

namespace OpenSpodes

open Bytes Machine.Fallible

variable {byte : UInt8} {rest : List UInt8} {first second : Write Unit}

/-! ## Readers -/

/-- The valid bytes from the read position on; the area may go on behind them. -/
structure Buf.Offers (b : Buf) (bytes : List UInt8) : Prop where
  content : (b.buf.take b.wr).drop b.rd = bytes
  inside : b.rd ≤ b.wr
  area : b.wr ≤ b.buf.length
  bounded : b.wr < 2 ^ 32

namespace Buf

theorem skip_skip (b : Buf) (m n : ℕ) : (b.skip m).skip n = b.skip (m + n) := by
  simp only [skip, Nat.mod_add_mod, Nat.add_assoc]

theorem skip_zero {b : Buf} (bounded : b.rd < 2 ^ 32) : b.skip 0 = b := by
  simp only [skip, Nat.add_zero, Nat.mod_eq_of_lt bounded]

namespace Offers

variable {b : Buf} {bytes : List UInt8}

theorem ofBytes (short : bytes.length < 2 ^ 32) : (Buf.ofBytes bytes).Offers bytes :=
  ⟨List.take_length, Nat.zero_le _, le_rfl, short⟩

theorem length (offers : b.Offers bytes) : b.rd + bytes.length = b.wr := by
  have inside := offers.inside
  have area := offers.area
  rw [← offers.content, List.length_drop, List.length_take]
  omega

theorem unread (offers : b.Offers bytes) : b.unread = bytes.length := by
  have length := offers.length
  rw [Buf.unread, if_pos offers.inside]
  omega

theorem rd_lt (offers : b.Offers bytes) : b.rd < 2 ^ 32 := offers.inside.trans_lt offers.bounded

theorem skip_rd (offers : b.Offers (bytes ++ rest)) : (b.skip bytes.length).rd = b.rd + bytes.length := by
  have length := offers.length
  have bounded := offers.bounded
  rw [List.length_append] at length
  exact Nat.mod_eq_of_lt (by omega)

theorem skip (offers : b.Offers (bytes ++ rest)) : (b.skip bytes.length).Offers rest := by
  have length := offers.length
  have inside := offers.inside
  rw [List.length_append] at length
  constructor
  case content =>
    rw [offers.skip_rd]
    change (b.buf.take b.wr).drop (b.rd + bytes.length) = rest
    rw [← List.drop_drop, offers.content, List.drop_left]
  case inside =>
    rw [offers.skip_rd]
    change b.rd + bytes.length ≤ b.wr
    omega
  case area => exact offers.area
  case bounded => exact offers.bounded

theorem needUnread (offers : b.Offers bytes) {n : ℕ} {err : Err} (enough : n ≤ bytes.length) :
    needUnread n err b = .ok () b := by
  have passes : ¬b.unread < n := by rw [offers.unread]; omega
  simp [OpenSpodes.needUnread, failIf, passes]

/-- The area goes on with the offered bytes. -/
theorem drop_eq (offers : b.Offers bytes) : ∃ behind, b.buf.drop b.rd = bytes ++ behind := by
  refine ⟨b.buf.drop b.wr, ?_⟩
  rw [← offers.content, ← List.drop_append_of_le_length, List.take_append_drop]
  rw [List.length_take]
  exact Nat.le_min.mpr ⟨offers.inside, offers.inside.trans offers.area⟩

theorem slice (offers : b.Offers (bytes ++ rest)) : b.slice bytes.length = bytes := by
  obtain ⟨behind, area⟩ := offers.drop_eq
  rw [Buf.slice, area, padTo, List.append_assoc, List.take_left, List.length_append, Nat.sub_eq_zero_of_le (by omega)]
  simp

theorem takeBytes (offers : b.Offers (bytes ++ rest)) : takeBytes bytes.length b = .ok bytes (b.skip bytes.length) := by
  simp only [OpenSpodes.takeBytes, modifyGet_apply, offers.slice]

theorem byteAt (offers : b.Offers bytes) {i : ℕ} (inside : i < bytes.length) : b.byteAt (b.rd + i) = bytes.getD i 0 := by
  obtain ⟨behind, area⟩ := offers.drop_eq
  simp [Buf.byteAt, List.getD_eq_getElem?_getD, ← List.getElem?_drop, area, List.getElem?_append_left inside]

theorem nextByte {byte : UInt8} (offers : b.Offers (byte :: rest)) : nextByte b = .ok byte (b.skip 1) := by
  have head : b.byteAt b.rd = byte := offers.byteAt (Nat.succ_pos _)
  simp only [OpenSpodes.nextByte, modifyGet_apply, head]

end Offers

end Buf

/-- The unread part of a buffer, whose valid data ends with its area. -/
structure Buf.Holds (b : Buf) (bytes : List UInt8) : Prop where
  content : b.buf.drop b.rd = bytes
  inside : b.rd ≤ b.wr
  whole : b.wr = b.buf.length
  bounded : b.wr < 2 ^ 32

namespace Buf.Holds

variable {b : Buf} {bytes : List UInt8}

theorem ofBytes (bounded : bytes.length < 2 ^ 32) : (Buf.ofBytes bytes).Holds bytes :=
  ⟨rfl, Nat.zero_le _, rfl, bounded⟩

theorem offers (holds : b.Holds bytes) : b.Offers bytes :=
  ⟨by rw [holds.whole, List.take_length, holds.content], holds.inside, holds.whole.le, holds.bounded⟩

theorem unread (holds : b.Holds bytes) : b.unread = bytes.length := holds.offers.unread

theorem skip (holds : b.Holds bytes) {n : ℕ} (enough : n ≤ bytes.length) : (b.skip n).Holds (bytes.drop n) := by
  have inside : b.rd + n ≤ b.wr := by
    have := holds.offers.length
    omega
  have unwrapped : (b.rd + n) % 2 ^ 32 = b.rd + n := Nat.mod_eq_of_lt (inside.trans_lt holds.bounded)
  constructor
  · simp only [Buf.skip, unwrapped]
    rw [← holds.content, List.drop_drop]
  · simpa only [Buf.skip, unwrapped] using inside
  · exact holds.whole
  · exact holds.bounded

theorem needUnread (holds : b.Holds bytes) {n : ℕ} {err : Err} (enough : n ≤ bytes.length) :
    needUnread n err b = .ok () b :=
  holds.offers.needUnread enough

end Buf.Holds

/-- What a checked read of one byte does to any buffer. -/
theorem axdrReadU8_ok_iff {b c : Buf} :
    axdrReadU8 b = .ok byte c ↔ 1 ≤ b.unread ∧ b.byteAt b.rd = byte ∧ b.skip 1 = c := by
  simp only [axdrReadU8, needUnread, bind_assoc, get_bind, failIf_bind_ok_iff, Nat.not_lt, nextByte,
    modifyGet_apply, EStateM.Result.ok.injEq]

/-! ## Writers -/

/-- Where there is room for them, the writer appends the bytes. -/
def Puts (write : Write Unit) (bytes : List UInt8) : Prop :=
  ∀ b : WBuf, bytes.length ≤ b.free → ∃ c, write b = .ok () c ∧ c.out = b.out ++ bytes ∧ c.size = b.size

theorem Puts.pure : Puts (pure ()) [] := fun b _ => ⟨b, rfl, (List.append_nil _).symm, rfl⟩

theorem Puts.andThen {bytes more : List UInt8} (puts : Puts first bytes) (putsMore : Puts second more) :
    Puts (do first; second) (bytes ++ more) := by
  intro b room
  rw [List.length_append] at room
  obtain ⟨c, wrote, out, size⟩ := puts b (by omega)
  obtain ⟨d, wroteMore, outMore, sizeMore⟩ := putsMore c (by
    simp only [WBuf.free, out, size, List.length_append] at room ⊢
    omega)
  refine ⟨d, ?_, by rw [outMore, out, List.append_assoc], sizeMore.trans size⟩
  rw [bind_of_ok wrote]
  exact wroteMore

/-- A writer that appends the given bytes where they fit and fails where they do not. -/
structure Writes (write : Write Unit) (bytes : List UInt8) : Prop where
  appends : Puts write bytes
  refuses : ∀ b : WBuf, b.free < bytes.length → ∃ e c, write b = .error e c

theorem Writes.pure : Writes (pure ()) [] := ⟨.pure, fun _ full => absurd full (Nat.not_lt_zero _)⟩

/-- Where it succeeded, it has appended the bytes. -/
theorem Writes.of_ok {write : Write Unit} {bytes : List UInt8} {b c : WBuf} (writes : Writes write bytes)
    (wrote : write b = .ok () c) : bytes.length ≤ b.free ∧ c.out = b.out ++ bytes ∧ c.size = b.size := by
  by_cases room : bytes.length ≤ b.free
  · obtain ⟨d, same, appended⟩ := writes.appends b room
    obtain rfl : d = c := by simpa using same.symm.trans wrote
    exact ⟨room, appended⟩
  · obtain ⟨e, d, failed⟩ := writes.refuses b (Nat.lt_of_not_le room)
    cases wrote.symm.trans failed

theorem writeBytes_writes (bytes : List UInt8) (err : Err) : Writes (writeBytes bytes err) bytes where
  appends b room := by
    have passes : ¬b.free < bytes.length := by omega
    have checked : needFree bytes.length err b = .ok () b := by simp [needFree, failIf, passes]
    exact ⟨b.push bytes, bind_of_ok checked, by simp [WBuf.push, room], by simp [WBuf.push, room]⟩
  refuses b full := by
    have checked : needFree bytes.length err b = .error err b := by simp [needFree, failIf, full]
    exact ⟨err, b, bind_of_error checked⟩

theorem Writes.andThen {bytes more : List UInt8} (writes : Writes first bytes) (writesMore : Writes second more) :
    Writes (do first; second) (bytes ++ more) where
  appends := writes.appends.andThen writesMore.appends
  refuses b full := by
    rw [List.length_append] at full
    by_cases room : bytes.length ≤ b.free
    · obtain ⟨c, wrote, out, size⟩ := writes.appends b room
      obtain ⟨e, d, failed⟩ := writesMore.refuses c (by
        simp only [WBuf.free, out, size, List.length_append] at room full ⊢
        omega)
      exact ⟨e, d, by rw [bind_of_ok wrote]; exact failed⟩
    · obtain ⟨e, c, failed⟩ := writes.refuses b (by omega)
      exact ⟨e, c, bind_of_error failed⟩

/-! ## Lengths -/

theorem dlmsLenBytes_length_le {len : ℕ} (small : len ≤ 0xFFFF) : (dlmsLenBytes len).length ≤ 3 := by
  unfold dlmsLenBytes dlmsMinOctets
  split_ifs <;> simp

/-! ## Readers of given bytes -/

/-- In front of the bytes the reader returns the value and goes behind them. -/
def Takes {α : Type} (read : Read α) (bytes : List UInt8) (a : α) : Prop :=
  ∀ (b : Buf) (rest : List UInt8), b.Offers (bytes ++ rest) → read b = .ok a (b.skip bytes.length)

namespace Takes

variable {α β : Type} {bytes more : List UInt8} {read : Read α} {next : α → Read β} {a : α} {c : β} {n width : ℕ}

theorem pure (a : α) : Takes (pure a) [] a := by
  intro b rest offers
  rw [List.length_nil, Buf.skip_zero offers.rd_lt, pure_apply]

theorem bind (first : Takes read bytes a) (second : Takes (next a) more c) :
    Takes (read >>= next) (bytes ++ more) c := by
  intro b rest offers
  rw [List.append_assoc] at offers
  rw [bind_of_ok (first b _ offers), second _ rest offers.skip, Buf.skip_skip, List.length_append]

theorem last (first : Takes read bytes a) (second : Takes (next a) [] c) : Takes (read >>= next) bytes c := by
  have both := first.bind second
  rwa [List.append_nil] at both

theorem check {c : Prop} [Decidable c] {err : Err} {next : Unit → Read β} {a : β} (passes : ¬c)
    (second : Takes (next ()) bytes a) : Takes (failIf c err >>= next) bytes a := by
  intro b rest offers
  rw [failIf_bind_of_not passes]
  exact second b rest offers

theorem attempt {read : Read α} {a : α} (takes : Takes read bytes a) : Takes (attempt read) bytes (some a) := by
  intro b rest offers
  simp only [Machine.Fallible.attempt, takes b rest offers]

theorem ignore {read : Read α} {a : α} (takes : Takes read bytes a) : Takes (ignore read) bytes () := by
  intro b rest offers
  rw [Machine.Fallible.ignore, bind_of_ok (takes.attempt b rest offers), pure_apply]

theorem nextByte (byte : UInt8) : Takes nextByte [byte] byte := fun _ _ offers => offers.nextByte

theorem skip (bytes : List UInt8) : Takes (modify (·.skip bytes.length)) bytes PUnit.unit :=
  fun b _ _ => modify_apply _ b

theorem needUnread {n : ℕ} {err : Err} {next : Unit → Read β} {a : β} (enough : n ≤ bytes.length)
    (second : Takes (next ()) bytes a) : Takes (needUnread n err >>= next) bytes a := by
  intro b rest offers
  rw [bind_of_ok (offers.needUnread (by rw [List.length_append]; omega))]
  exact second b rest offers

theorem u8 (byte : UInt8) : Takes axdrReadU8 [byte] byte := .needUnread (by simp) (.nextByte byte)

theorem raw (bytes : List UInt8) : Takes (takeBytes bytes.length) bytes bytes := fun _ _ offers => offers.takeBytes

theorem map (f : α → β) (first : Takes read bytes a) : Takes (read >>= fun a => Pure.pure (f a)) bytes (f a) :=
  first.last (.pure _)

theorem bool (flag : Bool) : Takes axdrReadBool [if flag then 1 else 0] flag := by
  cases flag
  · exact (u8 0).map (· != 0)
  · exact (u8 1).map (· != 0)

theorem checked {bytes : List UInt8} (length : bytes.length = n) (err : Err) :
    Takes (do OpenSpodes.needUnread n err; takeBytes n) bytes bytes := by
  subst length
  exact .needUnread le_rfl (.raw bytes)

theorem number (fits : n < 256 ^ width) :
    Takes (do return beNat (← takeBytes width)) (beBytes width n) n := by
  have taken := raw (beBytes width n)
  rw [length_beBytes] at taken
  refine taken.last ?_
  rw [beNat_beBytes fits]
  exact .pure n

theorem uint (fits : n < 256 ^ width) : Takes (axdrReadUint width) (beBytes width n) n :=
  .needUnread (by simp) (number fits)

theorem len (small : n < 2 ^ 32) : Takes dlmsReadLen (dlmsLenBytes n) n := by
  unfold dlmsLenBytes
  split_ifs with short
  · have value : (UInt8.ofNat n).toNat = n := by
      rw [UInt8.toNat_ofNat']
      omega
    have below : UInt8.ofNat n < 0x80 := by
      rw [UInt8.lt_iff_toNat_lt, value]
      exact short
    refine .needUnread (by simp) (.last (.nextByte _) ?_)
    rw [if_pos below, value]
    exact .pure n
  · obtain ⟨some, few, fits⟩ : 0 < dlmsMinOctets n ∧ dlmsMinOctets n ≤ 4 ∧ n < 256 ^ dlmsMinOctets n := by
      unfold dlmsMinOctets
      split_ifs <;> omega
    generalize dlmsMinOctets n = octets at some few fits
    have count : ((0x80 ||| UInt8.ofNat octets) &&& 0x7F).toNat = octets := by
      interval_cases octets <;> rfl
    have long : ¬(0x80 ||| UInt8.ofNat octets) < 0x80 := by
      interval_cases octets <;> decide
    refine .needUnread (by simp) ((Takes.nextByte _).bind ?_)
    simp only [if_neg long, count]
    exact .check (by omega) (.check (by omega) (.needUnread (by simp) (number fits)))

theorem ofBytes (takes : Takes read bytes a) (bounded : bytes.length < 2 ^ 32) :
    ∃ c, read (Buf.ofBytes bytes) = .ok a c :=
  ⟨_, takes _ [] (by simpa using Buf.Offers.ofBytes bounded)⟩

/-- A whole byte string for two readers, one after the other. -/
theorem thenOfBytes {second : Read β} (takes : Takes read bytes a) (later : Takes second more c)
    (bounded : (bytes ++ more).length < 2 ^ 32) :
    ∃ rest behind, read (Buf.ofBytes (bytes ++ more)) = .ok a rest ∧ second rest = .ok c behind := by
  have start := Buf.Offers.ofBytes bounded
  exact ⟨_, _, takes _ _ start, later _ [] (by simpa using start.skip)⟩

end Takes

/-- In front of the bytes the reader consumes them and returns the value. -/
def Reads {α : Type} (read : Read α) (bytes : List UInt8) (a : α) : Prop :=
  ∀ (b : Buf) (rest : List UInt8), b.Holds (bytes ++ rest) → ∃ c, read b = .ok a c ∧ c.Holds rest

theorem Takes.reads {α : Type} {read : Read α} {bytes : List UInt8} {a : α} (takes : Takes read bytes a) :
    Reads read bytes a := by
  intro b rest holds
  refine ⟨_, takes b rest holds.offers, ?_⟩
  simpa using holds.skip (n := bytes.length) (by simp)

end OpenSpodes
