import OpenSpodes.Proofs.Encoders
import OpenSpodes.Proofs.OfferedBytes

/-! # Association messages on the wire

An association message is a tag, a length and a row of fields, each with a tag and a length of its own. The
encoders reserve one byte for a length and move what follows when it needs two; where the content is shorter
than 256 bytes, that is the ordinary length in front of the content. The decoders walk the fields: one lemma
says what a walk makes of a row of fields that are read one by one.
-/

namespace OpenSpodes

open Bytes Machine.Fallible

variable {n : ℕ} {first number : UInt8} {b : Buf} {rest : List UInt8}

namespace Takes

theorem tag (short : first &&& 0x1F ≠ 0x1F) :
    Takes berReadTag [first] ⟨(first >>> 6) &&& 3, (first >>> 5) &&& 1 != 0, first &&& 0x1F⟩ := by
  refine .needUnread (by simp) (.last (.nextByte first) ?_)
  dsimp only
  rw [if_neg short]
  exact .pure _

theorem each (bytes : List UInt8) : Takes (readEach bytes.length) bytes bytes := by
  induction bytes with
  | nil => exact .pure []
  | cons byte bytes ih => exact (u8 byte).bind (ih.last (.pure _))

end Takes

/-! ## Reserved lengths -/

theorem WBuf.rewrite_of_le {b : WBuf} {out : List UInt8} (room : out.length ≤ b.size) :
    (b.rewrite out).out = out ∧ (b.rewrite out).size = b.size := by
  rw [WBuf.rewrite, dif_pos room]
  exact ⟨rfl, rfl⟩

/-- A length that is filled in behind its content. -/
theorem Puts.reserved {rest : ℕ → Write Unit} {body : Write Unit} {bytes : List UInt8} (puts : Puts body bytes)
    (regrouped : ∀ pos, rest pos = do body; berBackpatchLength pos) (short : bytes.length < 256) :
    Puts (do let pos ← berReserveLength; rest pos) (dlmsLenBytes bytes.length ++ bytes) := by
  intro b room
  have few : 1 ≤ (dlmsLenBytes bytes.length).length := by
    unfold dlmsLenBytes
    split_ifs <;> simp
  rw [List.length_append] at room
  obtain ⟨c, reserved, out, size⟩ := writeBytes_puts [0] .invalid b (by simp; omega)
  obtain ⟨d, wrote, outBody, sizeBody⟩ := puts c (by
    simp only [WBuf.free, out, size, List.length_append, List.length_singleton] at room ⊢
    omega)
  have position : berReserveLength b = .ok b.out.length c := by
    rw [berReserveLength, get_bind, bind_of_ok reserved, pure_apply]
  rw [bind_of_ok position, regrouped, bind_of_ok wrote, berBackpatchLength, get_bind]
  have content : d.out.drop (b.out.length + 1) = bytes := by
    rw [outBody, out, List.append_assoc, List.drop_append]
    simp
  have front : d.out.take b.out.length = b.out := by
    rw [outBody, out, List.append_assoc, List.take_left]
  have length : d.out.length = b.out.length + 1 + bytes.length := by
    rw [outBody, out]
    simp
    omega
  simp only [content, front]
  rw [dlmsLenBytes]
  rw [dlmsLenBytes] at room
  simp only [WBuf.free] at room
  have inside := b.fits
  split_ifs with small
  · rw [if_pos small] at room
    have fits : (b.out ++ [UInt8.ofNat bytes.length] ++ bytes).length ≤ d.size := by
      simp only [List.length_append, List.length_singleton] at room ⊢
      omega
    obtain ⟨outs, sizes⟩ := WBuf.rewrite_of_le fits
    refine ⟨_, set_apply _ d, ?_, ?_⟩
    · rw [outs, List.append_assoc]
    · rw [sizes, sizeBody, size]
  · have one : dlmsMinOctets bytes.length = 1 := if_pos (by omega)
    rw [if_neg small, one] at room
    rw [one]
    have fits : (b.out ++ [0x81, UInt8.ofNat bytes.length] ++ bytes).length ≤ d.size := by
      simp only [List.length_append, List.length_cons, List.length_nil, length_beBytes] at room ⊢
      omega
    obtain ⟨outs, sizes⟩ := WBuf.rewrite_of_le fits
    rw [failIf_bind_of_not (by simp only [List.length_cons, length_beBytes] at room; omega)]
    refine ⟨_, set_apply _ d, ?_, ?_⟩
    · rw [outs, List.append_assoc]
      simp only [beBytes, pow_zero, Nat.div_one]
      rfl
    · rw [sizes, sizeBody, size]

/-! ## Rows of fields -/

/-- A context-specific field. -/
structure AcseField where
  number : UInt8
  constructed : Bool
  content : List UInt8

variable {f : AcseField}

namespace AcseField

def tagByte (f : AcseField) : UInt8 := 0x80 ||| (if f.constructed then 0x20 else 0) ||| f.number

def encode (f : AcseField) : List UInt8 := f.tagByte :: (dlmsLenBytes f.content.length ++ f.content)

/-- The header fits one byte and two bytes. -/
structure Short (f : AcseField) : Prop where
  number : f.number < 0x1F
  content : f.content.length ≤ 0xFFFF

theorem length_encode_le (short : f.content.length < 256) : f.encode.length ≤ f.content.length + 3 := by
  have lengths : (dlmsLenBytes f.content.length).length ≤ 2 := by
    unfold dlmsLenBytes dlmsMinOctets
    split_ifs <;> first | omega | simp
  simp only [encode, List.length_cons, List.length_append]
  omega

theorem puts_tag (number : f.number < 0x1F) :
    Puts (Machine.Fallible.ignore (berWriteTag 2 f.constructed f.number)) [f.tagByte] := by
  have tag : berTagBytes 2 f.constructed f.number = [f.tagByte] := by
    rw [berTagBytes, if_pos number, tagByte]
    cases f.constructed <;> rfl
  rw [berWriteTag, tag]
  exact (writeBytes_puts _ _).ignore

/-- A field as it is written: its tag, its length, its content. -/
theorem puts {write : Write Unit} (number : f.number < 0x1F) (content : Puts write f.content) :
    Puts (do
      Machine.Fallible.ignore (berWriteTag 2 f.constructed f.number)
      Machine.Fallible.ignore (dlmsWriteLen f.content.length)
      write) f.encode :=
  (puts_tag number).andThen ((writeBytes_puts _ _).ignore.andThen content)

/-- The parts of the first byte. -/
theorem tagByte_parts (constructed : Bool) (number : Fin 31) :
    let first := (0x80 : UInt8) ||| (if constructed then 0x20 else 0) ||| UInt8.ofNat number
    (first >>> 6) &&& 3 = 2 ∧ ((first >>> 5) &&& 1 != 0) = constructed ∧ first &&& 0x1F = UInt8.ofNat number ∧
      UInt8.ofNat number ≠ 0x1F := by
  revert constructed number
  decide

theorem takes_tag (number : f.number < 0x1F) : Takes berReadTag [f.tagByte] ⟨2, f.constructed, f.number⟩ := by
  obtain ⟨isClass, isConstructed, isNumber, apart⟩ := tagByte_parts f.constructed ⟨f.number.toNat, number⟩
  rw [UInt8.ofNat_toNat] at isClass isConstructed isNumber apart
  have taken := @Takes.tag f.tagByte (by rw [tagByte, isNumber]; exact apart)
  rwa [tagByte, isClass, isConstructed, isNumber] at taken

end AcseField

section Walk

variable {α : Type} {field : UInt8 → ℕ → α → Read α} {close : ℕ → ℕ → Read Unit} {before : α} {stop fuel : ℕ}
  {after : α} {steps : List (AcseField × (α → α))}

/-- The reads of a field stay inside its content. -/
def FieldReads (field : UInt8 → ℕ → α → Read α) (f : AcseField) (before after : α) : Prop :=
  ∀ (b : Buf) (rest : List UInt8), b.Offers (f.content ++ rest) →
    ∃ k ≤ f.content.length, field f.number f.content.length before b = .ok after (b.skip k)

theorem FieldReads.of_takes (takes : Takes (field f.number f.content.length before) f.content after) :
    FieldReads field f before after :=
  fun b rest offers => ⟨_, le_rfl, takes b rest offers⟩

/-- A field that the decoder does not look into. -/
theorem FieldReads.passed (passes : field f.number f.content.length before = pure before) :
    FieldReads field f before before := by
  intro b rest offers
  refine ⟨0, Nat.zero_le _, ?_⟩
  rw [passes, pure_apply, Buf.skip_zero offers.rd_lt]

/-- A short field and what reading it changes. -/
structure ReadBy (field : UInt8 → ℕ → α → Read α) (step : AcseField × (α → α)) : Prop where
  short : step.1.Short
  reads : ∀ before, FieldReads field step.1 before (step.2 before)

/-- A field that ends inside the data is closed at its end. -/
def Closes (close : ℕ → ℕ → Read Unit) : Prop :=
  ∀ (b : Buf) (bytes rest : List UInt8), b.Offers (bytes ++ rest) → ∀ k ≤ bytes.length,
    close b.rd bytes.length (b.skip k) = .ok () (b.skip bytes.length)

theorem acseFields_step (short : f.Short) (reads : FieldReads field f before after) (closes : Closes close)
    (offers : b.Offers (f.encode ++ rest)) (within : b.rd < stop) :
    acseFields field close stop (fuel + 1) before b =
      acseFields field close stop fuel after (b.skip f.encode.length) := by
  have split : f.encode ++ rest = [f.tagByte] ++ (dlmsLenBytes f.content.length ++ (f.content ++ rest)) := by
    simp [AcseField.encode]
  rw [split] at offers
  have length : f.encode.length = 1 + (dlmsLenBytes f.content.length).length + f.content.length := by
    simp only [AcseField.encode, List.length_cons, List.length_append]
    omega
  have behindTag := offers.skip
  have behindLen := behindTag.skip
  obtain ⟨k, inside, read⟩ := reads _ rest behindLen
  rw [acseFields, get_bind, if_pos within, bind_of_ok ((AcseField.takes_tag short.number).attempt b _ offers)]
  dsimp only
  rw [bind_of_ok ((Takes.len (short.content.trans_lt (by decide))).attempt _ _ behindTag)]
  dsimp only
  rw [get_bind, if_pos rfl, bind_of_ok read, bind_of_ok (closes _ _ rest behindLen k inside), Buf.skip_skip,
    Buf.skip_skip, length, List.length_singleton, Nat.add_assoc]

/-- A field that cannot be read ends the walk. -/
theorem acseFields_fails (short : f.Short)
    (fails : ∀ b : Buf, b.Offers (f.content ++ rest) → ∃ e c, field f.number f.content.length before b = .error e c)
    (offers : b.Offers (f.encode ++ rest)) (within : b.rd < stop) :
    ∃ e c, acseFields field close stop (fuel + 1) before b = .error e c := by
  have split : f.encode ++ rest = [f.tagByte] ++ (dlmsLenBytes f.content.length ++ (f.content ++ rest)) := by
    simp [AcseField.encode]
  rw [split] at offers
  have behindTag := offers.skip
  obtain ⟨e, c, failed⟩ := fails _ behindTag.skip
  rw [acseFields, get_bind, if_pos within, bind_of_ok ((AcseField.takes_tag short.number).attempt b _ offers)]
  dsimp only
  rw [bind_of_ok ((Takes.len (short.content.trans_lt (by decide))).attempt _ _ behindTag)]
  dsimp only
  rw [get_bind, if_pos rfl, bind_of_error failed]
  exact ⟨e, c, rfl⟩

def encodeFields (steps : List (AcseField × (α → α))) : List UInt8 := steps.flatMap fun step => step.1.encode

theorem encodeFields_append (steps more : List (AcseField × (α → α))) :
    encodeFields (steps ++ more) = encodeFields steps ++ encodeFields more := List.flatMap_append

theorem encodeFields_cons (step : AcseField × (α → α)) (steps : List (AcseField × (α → α))) :
    encodeFields (step :: steps) = step.1.encode ++ encodeFields steps := List.flatMap_cons

theorem encodeFields_nil : encodeFields ([] : List (AcseField × (α → α))) = [] := rfl

/-- A walk over fields that are read one by one goes on behind them with all of them taken in. -/
theorem acseFields_run (reads : ∀ step ∈ steps, ReadBy field step) (closes : Closes close)
    (offers : b.Offers (encodeFields steps ++ rest)) (within : b.rd + (encodeFields steps).length ≤ stop) :
    acseFields field close stop (steps.length + fuel) before b =
      acseFields field close stop fuel (steps.foldl (fun before step => step.2 before) before)
        (b.skip (encodeFields steps).length) := by
  induction steps generalizing before b with
  | nil =>
    rw [encodeFields, List.flatMap_nil, List.length_nil, List.length_nil, Nat.zero_add, Buf.skip_zero offers.rd_lt]
    rfl
  | cons step steps ih =>
    rw [encodeFields_cons] at offers within ⊢
    rw [List.append_assoc] at offers
    have starts : b.rd < stop := by
      simp only [AcseField.encode, List.cons_append, List.length_cons] at within
      omega
    have behind := offers.skip
    rw [List.length_append] at within
    have first := reads step List.mem_cons_self
    rw [List.length_cons, Nat.add_right_comm, acseFields_step first.short (first.reads before) closes offers starts,
      ih (fun other member => reads other (List.mem_cons_of_mem step member)) behind
        (by rw [offers.skip_rd]; omega),
      Buf.skip_skip, List.length_append, List.foldl_cons]

theorem acseFields_end {decoded : α} (behind : ¬b.rd < stop) :
    acseFields field close stop fuel decoded b = .ok decoded b := by
  cases fuel with
  | zero => rfl
  | succ fuel =>
    rw [acseFields, get_bind, if_neg behind]
    rfl

/-- Every field takes a byte at least. -/
theorem length_le_encodeFields (steps : List (AcseField × (α → α))) : steps.length ≤ (encodeFields steps).length := by
  induction steps with
  | nil => exact le_rfl
  | cons step steps ih =>
    rw [encodeFields_cons, List.length_cons, List.length_append, AcseField.encode, List.length_cons]
    omega

/-- A decoder goes over the fields it reads and on to what is left of the message. -/
theorem acseDecode_walks (empty : α) {more : List UInt8} (tag : Takes berReadTag [first] ⟨1, true, number⟩)
    (short : (encodeFields steps ++ more).length ≤ 0xFFFF) (reads : ∀ step ∈ steps, ReadBy field step)
    (closes : Closes close)
    (offers : b.Offers (first :: (dlmsLenBytes (encodeFields steps ++ more).length ++ (encodeFields steps ++ more)) ++ rest)) :
    ∃ (c : Buf) (fuel : ℕ), c.Offers (more ++ rest) ∧ more.length ≤ fuel ∧ c.skip more.length =
        b.skip (first :: (dlmsLenBytes (encodeFields steps ++ more).length ++ (encodeFields steps ++ more))).length ∧
      acseDecode number field close empty b =
        acseFields field close (c.rd + more.length) fuel (steps.foldl (fun before step => step.2 before) empty) c := by
  have few := length_le_encodeFields steps
  generalize content_eq : encodeFields steps ++ more = content at short offers ⊢
  rw [show first :: (dlmsLenBytes content.length ++ content) ++ rest =
    [first] ++ (dlmsLenBytes content.length ++ (content ++ rest)) by simp] at offers
  have behindTag := offers.skip
  have fields := behindTag.skip
  have length := fields.length
  have bounded := fields.bounded
  rw [List.length_append] at length
  have decode : acseDecode number field close empty b = acseFields field close
      (((b.skip [first].length).skip (dlmsLenBytes content.length).length).rd + content.length) content.length empty
      ((b.skip [first].length).skip (dlmsLenBytes content.length).length) := by
    rw [acseDecode, bind_of_ok (tag b _ offers), failIf_bind_of_not (by simp),
      bind_of_ok (Takes.len (by omega) _ _ behindTag), get_bind, Nat.mod_eq_of_lt (by omega)]
  have position : (b.skip [first].length).skip (dlmsLenBytes content.length).length =
      b.skip (first :: dlmsLenBytes content.length).length := by
    rw [Buf.skip_skip]
    simp [Nat.add_comm]
  generalize (b.skip [first].length).skip (dlmsLenBytes content.length).length = c at fields decode position
  subst content_eq
  rw [List.append_assoc] at fields
  have rd := fields.skip_rd
  have enough : (encodeFields steps ++ more).length =
      steps.length + ((encodeFields steps ++ more).length - steps.length) := by
    rw [List.length_append]
    omega
  refine ⟨c.skip (encodeFields steps).length, (encodeFields steps ++ more).length - steps.length, fields.skip, ?_, ?_, ?_⟩
  · rw [List.length_append]
    omega
  · rw [position, Buf.skip_skip, Buf.skip_skip]
    congr 1
    simp only [List.length_cons, List.length_append]
    omega
  · have run : acseFields field close (c.rd + (encodeFields steps ++ more).length)
        (steps.length + ((encodeFields steps ++ more).length - steps.length)) empty c = _ :=
      acseFields_run reads closes fields (by rw [List.length_append]; omega)
    have stops : c.rd + (encodeFields steps ++ more).length = (c.skip (encodeFields steps).length).rd + more.length := by
      rw [rd, List.length_append]
      omega
    rw [← enough] at run
    rw [decode, run, stops]

end Walk

/-! ## Parts of messages -/

/-- The content of an explicit object identifier. -/
def oidContent (lastArc : UInt8) : List UInt8 := [6, 7] ++ oidPrefixApp ++ [lastArc]

/-- A string with a tag and a length byte of its own. -/
def wrapped (inner : UInt8) (bytes : List UInt8) : List UInt8 := [inner, UInt8.ofNat bytes.length] ++ bytes

@[simp] theorem length_wrapped (inner : UInt8) (bytes : List UInt8) : (wrapped inner bytes).length = bytes.length + 2 := by
  simp [wrapped]

theorem berWriteContext_puts (context : UInt8) : Puts (berWriteContext context) (AcseField.encode ⟨1, true, oidContent context⟩) := by
  have tag := AcseField.puts_tag (f := ⟨1, true, oidContent context⟩) (show (1 : UInt8) < 0x1F by decide)
  have oid : Puts (berWriteOid oidPrefixApp context) (oidContent context) :=
    (writeBytes_puts [6] _).ignore.andThen ((writeBytes_puts [7] _).ignore.andThen (writeEach_puts _))
  exact tag.andThen (oid.reserved (fun _ => rfl) (by simp [oidContent, oidPrefixApp]))

theorem berWriteWrapped_puts (inner : UInt8) (bytes : List UInt8) (small : number < 0x1F) :
    Puts (berWriteWrapped number inner bytes) (AcseField.encode ⟨number, true, wrapped inner bytes⟩) := by
  have puts := AcseField.puts (f := ⟨number, true, wrapped inner bytes⟩) small (writeEach_puts _)
  simp only [length_wrapped] at puts
  exact puts

theorem berWriteAuthFields_puts {requirements name : UInt8} (mechanism : UInt8) (small : requirements < 0x1F)
    (smallName : name < 0x1F) : Puts (berWriteAuthFields requirements name mechanism)
      (AcseField.encode ⟨requirements, false, [7, 0x80]⟩ ++
        AcseField.encode ⟨name, false, oidPrefixMech ++ [mechanism]⟩) := by
  have first := AcseField.puts (f := ⟨requirements, false, [7, 0x80]⟩) small (writeEach_puts _)
  have second := AcseField.puts (f := ⟨name, false, oidPrefixMech ++ [mechanism]⟩) smallName (writeEach_puts _)
  have both := first.andThen second
  simp only [bind_assoc] at both
  exact both

theorem berReadOid_takes (lastArc : UInt8) : Takes berReadOid (oidContent lastArc) lastArc := by
  refine (Takes.tag (by decide)).bind (.check (by decide) ?_)
  refine (Takes.len (n := 7) (by decide)).bind (.check (by decide) ?_)
  exact (Takes.skip oidPrefixApp).bind (.nextByte lastArc)

theorem berReadMechanism_takes (mechanism : UInt8) :
    Takes (berReadMechanism (oidPrefixMech ++ [mechanism]).length) (oidPrefixMech ++ [mechanism]) mechanism := by
  refine .check (by simp [oidPrefixMech]) ?_
  exact (Takes.skip oidPrefixMech).bind (.u8 mechanism)

theorem Takes.lenByte (short : n < 0x80) : Takes dlmsReadLen [UInt8.ofNat n] n := by
  have taken := Takes.len (n := n) (by omega)
  rwa [dlmsLenBytes, if_pos short] at taken

/-- The byte of an indefinite length is refused. -/
theorem dlmsReadLen_indefinite (offers : b.Offers (0x80 :: rest)) :
    ∃ c, dlmsReadLen b = .error .unsupported c := by
  refine ⟨b.skip 1, ?_⟩
  rw [dlmsReadLen, bind_of_ok (offers.needUnread (by simp)), bind_of_ok offers.nextByte]
  rfl

theorem berReadWrapped_takes {capacity : ℕ} {inner : UInt8} (bytes : BytesUpTo capacity)
    (short : bytes.val.length < 0x80) (tag : inner &&& 0x1F ≠ 0x1F) :
    Takes (berReadWrapped capacity) (wrapped inner bytes.val) bytes := by
  refine (Takes.tag tag).bind ((Takes.lenByte short).bind (.check (Nat.not_lt.mpr bytes.property) ?_))
  refine (Takes.each bytes.val).last ?_
  rw [BytesUpTo.ofList_val]
  exact .pure bytes

theorem berReadAuthValue_takes (value : BytesUpTo 64) : Takes berReadAuthValue (wrapped 0x80 value.val) (some value) := by
  have short : value.val.length < 0x80 := Nat.lt_of_le_of_lt value.property (by decide)
  refine (Takes.tag (by decide)).attempt.bind ?_
  dsimp only
  rw [if_pos (by decide)]
  refine (Takes.lenByte short).bind (.check (Nat.not_lt.mpr value.property) ?_)
  refine (Takes.each value.val).last ?_
  rw [BytesUpTo.ofList_val]
  exact .pure _

end OpenSpodes
