import Mathlib.Data.List.Infix
import OpenSpodes.Model.Xdms
import OpenSpodes.Proofs.Codec

/-! # What encoders write

Two facts about encoders. Each of them only appends, so that the first bytes of a message are those
that its encoder writes first, whatever happens to a value behind them. And where there is room, an
encoder that ignores failed writes puts the same bytes as one that does not.
-/

namespace OpenSpodes

open Bytes Machine.Fallible

variable {write : Write Unit} {bytes : List UInt8}

/-! ## Appending -/

/-- The buffer behind holds what was there before and maybe more. -/
def Extends (b c : WBuf) : Prop := b.out <+: c.out ∧ c.size = b.size

instance : IsPreorder WBuf Extends where
  refl _ := ⟨List.prefix_rfl, rfl⟩
  trans _ _ _ first second := ⟨first.1.trans second.1, second.2.trans first.2⟩

theorem extends_needFree (n : ℕ) (err : Err) : Leaves Extends (needFree n err) :=
  .get_bind fun s => by simpa using refl_of Extends s

theorem extends_push (bytes : List UInt8) : Leaves Extends (modify (·.push bytes) : Write Unit) := by
  refine .modify fun b => ?_
  unfold WBuf.push
  split
  · exact ⟨List.prefix_append _ _, rfl⟩
  · exact refl_of Extends b

theorem extends_writeBytes (bytes : List UInt8) (err : Err) : Leaves Extends (writeBytes bytes err) :=
  .bind (extends_needFree _ err) fun _ => extends_push bytes

theorem extends_writeEach (bytes : List UInt8) : Leaves Extends (writeEach bytes) := by
  induction bytes with
  | nil => exact .pure _
  | cons byte rest ih => exact .bind (.ignore (extends_writeBytes _ _)) fun _ => ih

theorem extends_writePieces (outcome : Err) (pieces : List (List UInt8 × Err)) :
    Leaves Extends (writePieces outcome pieces) := by
  induction pieces with
  | nil => exact .failIf _ _
  | cons piece rest ih => exact .bind (extends_writeBytes _ _) fun _ => ih

theorem extends_writeItems {write : Value → Write Unit} (writes : ∀ value, Leaves Extends (write value))
    (slots : ℕ → Value) (n pos : ℕ) : Leaves Extends (writeItems write slots n pos) := by
  induction n generalizing pos with
  | zero => exact .pure _
  | succ n ih => exact .bind (writes _) fun _ => ih _

theorem extends_scalarWrite (kind : ScalarKind) (content : ℕ) : Leaves Extends (scalarWrite kind content) := by
  unfold scalarWrite
  split
  · exact .bind (extends_writeBytes _ _) fun _ => .bind (extends_writeBytes _ _) fun _ => extends_writeBytes _ _
  · exact extends_writeBytes _ _

theorem extends_axdrWriteOctetString (bytes : List UInt8) : Leaves Extends (axdrWriteOctetString bytes) :=
  .bind (extends_writeBytes _ _) fun _ => extends_writeBytes _ _

theorem extends_valueWriteImpl (pool : Pool) (fuel : ℕ) (value : Value) :
    Leaves Extends (valueWriteImpl pool fuel value) := by
  induction fuel generalizing value with
  | zero => exact .throw _
  | succ fuel ih =>
    unfold valueWriteImpl
    cases value with
    | owned tag pieces outcome => exact .bind (extends_needFree _ _) fun _ => extends_writePieces _ _
    | other tag =>
      refine .ite ?_ ?_
      · exact .bind (extends_needFree _ _) fun _ => .throw _
      · exact .bind (extends_writeBytes _ _) fun _ => .throw _
    | null => exact extends_writeBytes _ _
    | scalar kind content => exact .bind (extends_writeBytes _ _) fun _ => extends_scalarWrite _ _
    | octetString bytes | visibleString bytes | utf8String bytes =>
      exact .bind (extends_writeBytes _ _) fun _ => extends_axdrWriteOctetString _
    | bitString bits numBits =>
      exact .bind (extends_writeBytes _ _) fun _ => .bind (extends_writeBytes _ _) fun _ =>
        extends_writeBytes _ _
    | array start count | struct start count =>
      exact .bind (extends_writeBytes _ _) fun _ => .bind (extends_writeBytes _ _) fun _ =>
        extends_writeItems ih _ _ _

theorem extends_valueWrite (pool : Pool) (value : Value) : Leaves Extends (valueWrite pool value) :=
  extends_valueWriteImpl pool _ value

theorem extends_writeValue (pool : Pool) (value : Value) : Leaves Extends (writeValue pool value) := by
  refine .bind (.attempt (extends_valueWrite pool value)) fun written => ?_
  cases written with
  | none => exact .throw _
  | some u => exact .pure _

/-! ## Where there is room -/

theorem Puts.ignore (puts : Puts write bytes) : Puts (ignore write) bytes := by
  intro b room
  obtain ⟨c, wrote, rest⟩ := puts b room
  exact ⟨c, by simp [Machine.Fallible.ignore, bind_of_ok (show attempt write b = .ok (some ()) c by
    simp [attempt, wrote])], rest⟩

/-- A check for room that is there. -/
theorem Puts.needFree {n : ℕ} {err : Err} (puts : Puts write bytes) (less : n ≤ bytes.length) :
    Puts (do needFree n err; write) bytes := by
  intro b room
  have passes : ¬b.free < n := by omega
  have checked : OpenSpodes.needFree n err b = .ok () b := by simp [OpenSpodes.needFree, failIf, passes]
  rw [bind_of_ok checked]
  exact puts b room

theorem writeValue_puts {pool : Pool} {value : Value} (puts : Puts (valueWrite pool value) bytes) :
    Puts (writeValue pool value) bytes := by
  intro b room
  obtain ⟨c, wrote, rest⟩ := puts b room
  have tried : attempt (valueWrite pool value) b = .ok (some ()) c := by simp only [attempt, wrote]
  exact ⟨c, bind_of_ok tried, rest⟩

theorem writeBytes_puts (bytes : List UInt8) (err : Err) : Puts (writeBytes bytes err) bytes :=
  (writeBytes_writes bytes err).appends

theorem writeEach_append (bytes more : List UInt8) :
    writeEach (bytes ++ more) = (do writeEach bytes; writeEach more) := by
  simp only [writeEach, List.forM_eq_forM, List.forM_append]

theorem writeEach_puts (bytes : List UInt8) : Puts (writeEach bytes) bytes := by
  induction bytes with
  | nil => exact .pure
  | cons byte rest ih => exact (writeBytes_puts [byte] _).ignore.andThen ih

/-- An empty buffer with room holds exactly the bytes. -/
theorem Puts.init (puts : Puts write bytes) {size : ℕ} (room : bytes.length ≤ size) :
    ∃ c, write (WBuf.init size) = .ok () c ∧ c.out = bytes := by
  obtain ⟨c, wrote, out, -⟩ := puts (WBuf.init size) (by simpa [WBuf.free, WBuf.init] using room)
  exact ⟨c, wrote, by simpa [WBuf.init] using out⟩

/-- A message that starts with two bytes, whatever follows them, unless the buffer is too small for two. -/
theorem starts_of_writeEach {first second : UInt8} {more : List UInt8} {rest : Write Unit}
    (leaves : Leaves Extends rest) {size : ℕ} {c : WBuf}
    (wrote : (do writeEach (first :: second :: more); rest) (WBuf.init size) = .ok () c) :
    c.out.length < 2 ∨ ∃ behind, c.out = first :: second :: behind := by
  by_cases small : size < 2
  · left
    have extended := (Leaves.bind (extends_writeEach _) fun _ => leaves).of_ok wrote
    have := c.fits
    rw [extended.2] at this
    exact this.trans_lt small
  · right
    obtain ⟨⟨⟩, b, header, wrote⟩ := bind_ok_iff.mp wrote
    have split : writeEach (first :: second :: more) = (do writeEach [first, second]; writeEach more) :=
      writeEach_append [first, second] more
    obtain ⟨d, wroteTwo, out⟩ := (writeEach_puts [first, second]).init (Nat.le_of_not_lt small)
    rw [split, bind_of_ok wroteTwo] at header
    obtain ⟨tail, same⟩ := ((extends_writeEach more).of_ok header).1
    obtain ⟨final, same'⟩ := (leaves.of_ok wrote).1
    exact ⟨tail ++ final, by rw [← same', ← same, out]; simp⟩

/-- A checked write that succeeds has written its bytes. -/
theorem writeBytes_ok {err : Err} {b c : WBuf} (wrote : writeBytes bytes err b = .ok () c) : c.out = b.out ++ bytes :=
  ((writeBytes_writes bytes err).of_ok wrote).2.1

end OpenSpodes
