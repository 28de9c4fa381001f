import OpenSpodes.Proofs.AcseCodec

/-! # Association messages are read back

An association request that was encoded is decoded again, unless its user information has 128 bytes: the length
of the wrapped string is written as one byte, which then announces a long form. A response is decoded with every
field as it was, except that the source of its diagnostic is always taken to be the service provider.
-/

namespace OpenSpodes

open Machine.Fallible

variable {rest : List UInt8}

/-! ## How fields are closed -/

theorem skipToField_spec {b : Buf} {bytes : List UInt8} (offers : b.Offers (bytes ++ rest)) {k : ℕ}
    (inside : k ≤ bytes.length) :
    skipToField ((b.rd + bytes.length) % 2 ^ 32) (b.skip k) = .ok () (b.skip bytes.length) := by
  have length := offers.length
  have bounded := offers.bounded
  rw [List.length_append] at length
  have whole : (b.rd + bytes.length) % 2 ^ 32 = b.rd + bytes.length := Nat.mod_eq_of_lt (by omega)
  have part : (b.rd + k) % 2 ^ 32 = b.rd + k := Nat.mod_eq_of_lt (by omega)
  rw [skipToField, modify_apply]
  simp only [Buf.skip, whole, part]
  split
  · rfl
  · next reached =>
      obtain rfl : k = bytes.length := by omega
      rfl

theorem aare_closes : Closes fun fieldStart fieldLen => skipToField ((fieldStart + fieldLen) % 2 ^ 32) := by
  intro b bytes rest offers k inside
  exact skipToField_spec offers inside

theorem aarq_closes : Closes (fun fieldStart fieldLen => do
      let fieldEnd := (fieldStart + fieldLen) % 2 ^ 32
      failIf (fieldEnd < fieldStart ∨ fieldEnd > (← get).wr) .invalid
      skipToField fieldEnd) := by
  intro b bytes rest offers k inside
  have length := offers.length
  have bounded := offers.bounded
  rw [List.length_append] at length
  have whole : (b.rd + bytes.length) % 2 ^ 32 = b.rd + bytes.length := Nat.mod_eq_of_lt (by omega)
  have passes : ¬((b.rd + bytes.length) % 2 ^ 32 < b.rd ∨ (b.rd + bytes.length) % 2 ^ 32 > b.wr) := by omega
  dsimp only
  rw [get_bind]
  change (failIf ((b.rd + bytes.length) % 2 ^ 32 < b.rd ∨ (b.rd + bytes.length) % 2 ^ 32 > b.wr) .invalid >>= fun _ =>
    skipToField ((b.rd + bytes.length) % 2 ^ 32)) (b.skip k) = _
  rw [failIf_bind_of_not passes]
  exact skipToField_spec offers inside

/-! ## Requests -/

namespace Aarq

def title (aarq : Aarq) : List UInt8 := aarq.callingApTitle.toList.take aarq.callingApTitleLen.toNat

/-- The fields up to the user information, with what each gives the decoder. -/
def steps (aarq : Aarq) : List (AcseField × (Aarq → Aarq)) :=
  [(⟨1, true, oidContent aarq.applicationContext⟩, fun a => { a with applicationContext := aarq.applicationContext }),
    (⟨10, false, [7, 0x80]⟩, fun a => { a with senderAcseRequirement := some 0x80 }),
    (⟨11, false, oidPrefixMech ++ [aarq.mechanism]⟩,
      fun a => { a with mechanism := aarq.mechanism, hasMechanism := true })] ++
  (if aarq.callingApTitleLen > 0 then
    [(⟨6, true, wrapped 4 aarq.title⟩,
      fun a => { a with callingApTitleLen := 8, callingApTitle := aarq.callingApTitle })]
  else []) ++
  [(⟨12, true, wrapped 0x80 aarq.callingAuthValue.val⟩,
    fun a => { a with callingAuthValue := aarq.callingAuthValue, hasCallingAuth := true })]

def lastField (aarq : Aarq) : AcseField := ⟨30, true, wrapped 4 aarq.userInfo.val⟩

def body (aarq : Aarq) : List UInt8 := encodeFields aarq.steps ++ aarq.lastField.encode

def encoding (aarq : Aarq) : List UInt8 := 0x60 :: (dlmsLenBytes aarq.body.length ++ aarq.body)

theorem body_eq (aarq : Aarq) : aarq.body = AcseField.encode ⟨1, true, oidContent aarq.applicationContext⟩ ++
      ((AcseField.encode ⟨10, false, [7, 0x80]⟩ ++ AcseField.encode ⟨11, false, oidPrefixMech ++ [aarq.mechanism]⟩) ++
        ((if aarq.callingApTitleLen > 0 then AcseField.encode ⟨6, true, wrapped 4 aarq.title⟩ else []) ++
          (AcseField.encode ⟨12, true, wrapped 0x80 aarq.callingAuthValue.val⟩ ++ aarq.lastField.encode))) := by
  rw [body, steps, encodeFields]
  split <;> simp

theorem length_body_lt (aarq : Aarq) : aarq.body.length < 256 := by
  have auth := aarq.callingAuthValue.property
  have info := aarq.userInfo.property
  have titleLength : aarq.title.length ≤ 8 := by simp [title]
  have first := @AcseField.length_encode_le ⟨1, true, oidContent aarq.applicationContext⟩
    (by simp [oidContent, oidPrefixApp])
  have second := @AcseField.length_encode_le ⟨10, false, [7, 0x80]⟩ (by simp)
  have third := @AcseField.length_encode_le ⟨11, false, oidPrefixMech ++ [aarq.mechanism]⟩ (by simp [oidPrefixMech])
  have fourth := @AcseField.length_encode_le ⟨6, true, wrapped 4 aarq.title⟩ (by simp only [length_wrapped]; omega)
  have fifth := @AcseField.length_encode_le ⟨12, true, wrapped 0x80 aarq.callingAuthValue.val⟩
    (by simp only [length_wrapped]; omega)
  have sixth := @AcseField.length_encode_le aarq.lastField (by simp only [lastField, length_wrapped]; omega)
  simp only [oidContent, oidPrefixApp, oidPrefixMech, lastField, length_wrapped, List.length_append, List.length_cons,
    List.length_nil] at first second third fourth fifth sixth
  rw [body_eq]
  simp only [List.length_append, oidContent, oidPrefixApp, oidPrefixMech, lastField]
  split
  · omega
  · simp only [List.length_nil]
    omega

theorem length_encoding_le (aarq : Aarq) : aarq.encoding.length ≤ 1024 := by
  have short := length_body_lt aarq
  have lengths := dlmsLenBytes_length_le (short.le.trans (by decide))
  rw [encoding, List.length_cons, List.length_append]
  omega

theorem encode_puts (aarq : Aarq) : Puts (aarqEncode aarq) aarq.encoding := by
  have tag : Puts (ignore (berWriteTag 1 true 0)) [0x60] := (writeBytes_puts _ _).ignore
  have titled : Puts (if aarq.callingApTitleLen > 0 then berWriteWrapped 6 4 aarq.title else pure ())
      (if aarq.callingApTitleLen > 0 then AcseField.encode ⟨6, true, wrapped 4 aarq.title⟩ else []) := by
    split
    · exact berWriteWrapped_puts 4 _ (by decide)
    · exact .pure
  have parts := (berWriteContext_puts aarq.applicationContext).andThen
    ((berWriteAuthFields_puts aarq.mechanism (show (10 : UInt8) < 0x1F by decide) (show (11 : UInt8) < 0x1F by decide)).andThen
      (titled.andThen ((berWriteWrapped_puts 0x80 aarq.callingAuthValue.val (show (12 : UInt8) < 0x1F by decide)).andThen
        (berWriteWrapped_puts 4 aarq.userInfo.val (show (30 : UInt8) < 0x1F by decide)))))
  have whole := parts
  rw [← lastField, ← body_eq] at whole
  rw [aarqEncode]
  refine tag.andThen (whole.reserved ?_ (length_body_lt aarq))
  intro pos
  dsimp only
  split <;> simp [bind_assoc, title]

/-- Each field up to the user information is read back. -/
theorem steps_read {aarq : Aarq} (titled : aarq.callingApTitleLen = 0 ∨ aarq.callingApTitleLen = 8) :
    ∀ step ∈ aarq.steps, ReadBy aarqField step := by
  have auth := aarq.callingAuthValue.property
  intro step member
  simp only [steps, List.append_assoc, List.mem_append, List.mem_cons, List.not_mem_nil, or_false] at member
  rcases member with (rfl | rfl | rfl) | optional | rfl
  · refine ⟨⟨show (1 : UInt8) < 0x1F by decide, by simp [oidContent, oidPrefixApp]⟩, fun before => .of_takes ?_⟩
    exact (berReadOid_takes _).last (.pure _)
  · refine ⟨⟨show (10 : UInt8) < 0x1F by decide, by simp⟩, fun before => .of_takes ?_⟩
    exact (Takes.skip [7]).bind ((Takes.nextByte 0x80).last (.pure _))
  · refine ⟨⟨show (11 : UInt8) < 0x1F by decide, by simp [oidPrefixMech]⟩, fun before => .of_takes ?_⟩
    exact (berReadMechanism_takes _).last (.pure _)
  · split at optional
    · next some_title =>
        obtain rfl := List.mem_singleton.mp optional
        have eight : aarq.callingApTitleLen = 8 := by
          rcases titled with none_left | eight
          · rw [none_left] at some_title
            cases some_title
          · exact eight
        have whole : aarq.title = aarq.callingApTitle.toList := by
          rw [title, eight]
          exact List.take_of_length_le (by simp)
        have length : aarq.title.length = 8 := by
          rw [whole]
          simp
        refine ⟨⟨show (6 : UInt8) < 0x1F by decide, by simp [length]⟩, fun before => .of_takes ?_⟩
        refine (Takes.tag (by decide)).bind ((Takes.lenByte (by omega)).bind ((Takes.each _).last ?_))
        have lengthByte : UInt8.ofNat (min aarq.title.length 255) = 8 := by
          rw [length]
          rfl
        have copied (old : List UInt8) :
            (Vector.ofFn fun i : Fin 8 => (aarq.title.take 8 ++ old).getD i 0) = aarq.callingApTitle := by
          apply Vector.ext
          intro i bound
          rw [Vector.getElem_ofFn, List.take_of_length_le length.le, List.getD_eq_getElem?_getD,
            List.getElem?_append_left (by omega), whole]
          simp [bound]
        simp only [lengthByte, copied]
        exact .pure _
    · simp at optional
  · refine ⟨⟨show (12 : UInt8) < 0x1F by decide, by simp only [length_wrapped]; omega⟩, fun before => .of_takes ?_⟩
    exact (berReadAuthValue_takes _).last (.pure _)

def decoded (aarq : Aarq) : Aarq :=
  { aarq.steps.foldl (fun before step => step.2 before) {} with userInfo := aarq.userInfo }

theorem lastField_short (aarq : Aarq) : aarq.lastField.Short := by
  have info := aarq.userInfo.property
  exact ⟨show (30 : UInt8) < 0x1F by decide, by simp only [lastField, length_wrapped]; omega⟩

theorem lastField_within (aarq : Aarq) (c : Buf) : c.rd < c.rd + aarq.lastField.encode.length := by
  rw [AcseField.encode, List.length_cons]
  omega

section Titled

variable {aarq : Aarq} (titled : aarq.callingApTitleLen = 0 ∨ aarq.callingApTitleLen = 8)

include titled

/-- The decoder goes over all fields up to the user information. -/
theorem decode_walks {b : Buf} (offers : b.Offers (aarq.encoding ++ rest)) :
    ∃ (c : Buf) (close : ℕ → ℕ → Read Unit) (fuel : ℕ), Closes close ∧ c.Offers (aarq.lastField.encode ++ rest) ∧
      c.skip aarq.lastField.encode.length = b.skip aarq.encoding.length ∧
      aarqDecode b = acseFields aarqField close (c.rd + aarq.lastField.encode.length) (fuel + 1)
        (aarq.steps.foldl (fun before step => step.2 before) {}) c := by
  have tag : Takes berReadTag [0x60] ⟨1, true, 0⟩ := Takes.tag (by decide)
  obtain ⟨c, fuel, last, enough, behind, decode⟩ := acseDecode_walks {} tag
    ((length_body_lt aarq).le.trans (by decide)) (steps_read titled) aarq_closes offers
  obtain ⟨fewer, rfl⟩ : ∃ fewer, fuel = fewer + 1 := by
    rw [AcseField.encode, List.length_cons] at enough
    exact ⟨fuel - 1, by omega⟩
  exact ⟨c, _, fewer, aarq_closes, last, behind, decode⟩

/-- The decoder reads back a message whose user information has a length of one byte. -/
theorem decode_takes (short : aarq.userInfo.val.length < 128) : Takes aarqDecode aarq.encoding aarq.decoded := by
  intro b rest offers
  obtain ⟨c, close, fuel, closes, last, behind, decode⟩ := decode_walks titled offers
  have read (before : Aarq) : FieldReads aarqField aarq.lastField before { before with userInfo := aarq.userInfo } :=
    .of_takes ((berReadWrapped_takes aarq.userInfo short (by decide)).last (.pure _))
  rw [decode, acseFields_step (lastField_short aarq) (read _) closes last (lastField_within aarq c), acseFields_end, behind]
  · rfl
  · rw [last.skip_rd]
    exact Nat.lt_irrefl _

/-- With 128 bytes of user information it refuses the message. -/
theorem decode_fails (long : ¬aarq.userInfo.val.length < 128) {b : Buf} (offers : b.Offers (aarq.encoding ++ rest)) :
    ∃ e c, aarqDecode b = .error e c := by
  obtain ⟨c, close, fuel, closes, last, -, decode⟩ := decode_walks titled offers
  have all : aarq.userInfo.val.length = 128 := by
    have info := aarq.userInfo.property
    omega
  rw [decode]
  apply acseFields_fails (lastField_short aarq) _ last (lastField_within aarq c)
  intro d inside
  have split : aarq.lastField.content ++ rest = [4] ++ (0x80 :: (aarq.userInfo.val ++ rest)) := by
    simp only [lastField, wrapped, all]
    rfl
  rw [split] at inside
  obtain ⟨after, refused⟩ := dlmsReadLen_indefinite inside.skip
  have unread : berReadWrapped 128 d = .error .unsupported after := by
    rw [berReadWrapped, bind_of_ok (Takes.tag (by decide) d _ inside), bind_of_error refused]
  exact ⟨_, _, bind_of_error unread⟩

theorem decoded_fields :
    aarq.decoded.applicationContext = aarq.applicationContext ∧ aarq.decoded.mechanism = aarq.mechanism ∧
      aarq.decoded.title = aarq.title ∧ aarq.decoded.callingAuthValue = aarq.callingAuthValue := by
  rcases titled with none | eight
  · have untitled : ¬aarq.callingApTitleLen > 0 := by rw [none]; decide
    rw [decoded, steps, if_neg untitled]
    refine ⟨rfl, rfl, ?_, rfl⟩
    rw [title, title, none]
    rfl
  · have named : aarq.callingApTitleLen > 0 := by rw [eight]; decide
    rw [decoded, steps, if_pos named]
    refine ⟨rfl, rfl, ?_, rfl⟩
    rw [title, title, eight]
    rfl

end Titled

/-- Encoded into 1024 bytes, the message is decoded again from the bytes written, whatever lies behind them. -/
def RoundTrips (aarq : Aarq) : Prop :=
  ∃ written, aarqEncode aarq (WBuf.init 1024) = .ok () written ∧ ∀ behind : List UInt8, ∃ read after,
    aarqDecode ⟨written.out ++ behind, 0, written.out.length⟩ = .ok read after ∧ after.rd = written.out.length ∧
      read.applicationContext = aarq.applicationContext ∧ read.mechanism = aarq.mechanism ∧
      read.title = aarq.title ∧ read.callingAuthValue = aarq.callingAuthValue ∧ read.userInfo = aarq.userInfo

end Aarq

/-- A byte string at the start of an area. -/
theorem Buf.offers_front {bytes : List UInt8} (behind : List UInt8) (bounded : bytes.length < 2 ^ 32) :
    Buf.Offers ⟨bytes ++ behind, 0, bytes.length⟩ (bytes ++ []) where
  content := by simp
  inside := Nat.zero_le _
  area := by simp
  bounded := bounded

/-- A request with a title of no or eight bytes comes back exactly if its user information has less than 128
bytes. -/
theorem aarq_round_trip_iff (aarq : Aarq) (titled : aarq.callingApTitleLen = 0 ∨ aarq.callingApTitleLen = 8) :
    aarq.RoundTrips ↔ aarq.userInfo.val.length < 128 := by
  have small := Aarq.length_encoding_le aarq
  obtain ⟨written, encoded, out⟩ := (Aarq.encode_puts aarq).init small
  have bounded : aarq.encoding.length < 2 ^ 32 := by omega
  constructor
  · rintro ⟨_, done, decodes⟩
    obtain rfl : written = _ := by simpa using encoded.symm.trans done
    by_contra long
    obtain ⟨read, after, decoded, -⟩ := decodes []
    rw [out] at decoded
    obtain ⟨e, c, failed⟩ := Aarq.decode_fails titled long (Buf.offers_front [] bounded)
    exact absurd (failed.symm.trans decoded) (by simp)
  · intro short
    refine ⟨written, encoded, ?_⟩
    intro behind
    have offers := Buf.offers_front behind bounded
    obtain ⟨context, mechanism, title, auth⟩ := Aarq.decoded_fields titled
    rw [out]
    refine ⟨_, _, Aarq.decode_takes titled short _ _ offers, ?_, context, mechanism, title, auth, rfl⟩
    rw [offers.skip_rd, Nat.zero_add]

/-- A request with a title and the given number of bytes of user information. -/
def titledRequest (count : ℕ) : Aarq :=
  { applicationContext := 1, mechanism := 1, callingApTitleLen := 8, callingApTitle := Vector.replicate 8 0x41,
    callingAuthValue := BytesUpTo.ofList 64 [1, 2, 3], userInfo := BytesUpTo.ofList 128 (List.replicate count 0) }

theorem aarq_round_trip_iff_short :
    (titledRequest 14).callingApTitleLen = 8 ∧ (titledRequest 14).userInfo.val.length = 14 ∧
      (titledRequest 14).RoundTrips :=
  ⟨rfl, by decide, (aarq_round_trip_iff _ (.inr rfl)).mpr (by decide)⟩

/-- With 128 bytes of user information the encoder succeeds and the decoder refuses what it wrote. -/
theorem long_user_information_refused :
    ∃ written e after, aarqEncode (titledRequest 128) (WBuf.init 1024) = .ok () written ∧
      aarqDecode ⟨written.out, 0, written.out.length⟩ = .error e after := by
  have small := Aarq.length_encoding_le (titledRequest 128)
  obtain ⟨written, encoded, out⟩ := (Aarq.encode_puts (titledRequest 128)).init small
  have offers := Buf.offers_front [] (show (titledRequest 128).encoding.length < 2 ^ 32 by omega)
  obtain ⟨e, after, refused⟩ := Aarq.decode_fails (.inr rfl) (by simp [titledRequest, BytesUpTo.ofList]) offers
  rw [List.append_nil] at refused
  exact ⟨written, e, after, encoded, by rw [out]; exact refused⟩

/-! ## Responses -/

namespace Aare

abbrev Step := AcseField × (Aare → Aare)

/-- The protocol version, which the decoder passes over. -/
def versionSteps (aare : Aare) : List Step :=
  match aare.protocolVersion with
  | some version => [(⟨0, false, [version.1, version.2]⟩, id)]
  | none => []

/-- The application context, which it passes over too. -/
def contextSteps (aare : Aare) : List Step :=
  if aare.applicationContext ≠ 0 then [(⟨1, true, oidContent aare.applicationContext⟩, id)] else []

/-- Result and diagnostic. The decoder looks for the source in the tag of the integer, which is two. -/
def resultSteps (aare : Aare) : List Step :=
  [(⟨2, true, [2, 1, aare.result]⟩, fun a => { a with result := aare.result }),
    (⟨3, true, [if aare.resultSourceIsProvider then 0xA2 else 0xA1, 3, 2, 1, aare.resultSourceDiagnostic]⟩,
      fun a => { a with
        resultSourceIsProvider := true
        resultSourceDiagnostic := aare.resultSourceDiagnostic })]

def titleSteps (aare : Aare) : List Step :=
  if aare.respondingApTitle.val.length > 0 then
    [(⟨4, true, wrapped 4 aare.respondingApTitle.val⟩, fun a => { a with respondingApTitle := aare.respondingApTitle })]
  else []

def authSteps (aare : Aare) : List Step :=
  if aare.includeAuthentication then
    [(⟨8, false, [7, 0x80]⟩, id),
      (⟨9, false, oidPrefixMech ++ [aare.mechanism]⟩, fun a => { a with mechanism := aare.mechanism }),
      (⟨10, true, wrapped 0x80 aare.respondingAuthValue.val⟩,
        fun a => { a with respondingAuthValue := aare.respondingAuthValue })]
  else []

def infoSteps (aare : Aare) : List Step :=
  [(⟨30, true, wrapped 4 aare.userInfo.val⟩, fun a => { a with userInfo := aare.userInfo })]

def steps (aare : Aare) : List Step :=
  aare.versionSteps ++ (aare.contextSteps ++ (aare.resultSteps ++ (aare.titleSteps ++ (aare.authSteps ++
    aare.infoSteps))))

def encoding (aare : Aare) : List UInt8 :=
  0x61 :: (dlmsLenBytes (encodeFields aare.steps).length ++ encodeFields aare.steps)

section Parts

variable (aare : Aare)

theorem length_versionSteps_le : (encodeFields aare.versionSteps).length ≤ 5 := by
  rw [versionSteps]
  split
  · next version _ =>
      rw [encodeFields_cons, encodeFields_nil, List.append_nil]
      exact AcseField.length_encode_le (by simp)
  · simp [encodeFields_nil]

theorem length_contextSteps_le : (encodeFields aare.contextSteps).length ≤ 12 := by
  rw [contextSteps]
  split
  · rw [encodeFields_cons, encodeFields_nil, List.append_nil]
    exact AcseField.length_encode_le (by simp [oidContent, oidPrefixApp])
  · simp [encodeFields_nil]

theorem length_resultSteps_le : (encodeFields aare.resultSteps).length ≤ 14 := by
  rw [resultSteps, encodeFields_cons, encodeFields_cons, encodeFields_nil, List.append_nil, List.length_append]
  have result := @AcseField.length_encode_le ⟨2, true, [2, 1, aare.result]⟩ (by simp)
  have diagnostic := @AcseField.length_encode_le
    ⟨3, true, [if aare.resultSourceIsProvider then 0xA2 else 0xA1, 3, 2, 1, aare.resultSourceDiagnostic]⟩ (by simp)
  exact Nat.add_le_add result diagnostic

theorem length_titleSteps_le : (encodeFields aare.titleSteps).length ≤ 13 := by
  have title := aare.respondingApTitle.property
  rw [titleSteps]
  split
  · rw [encodeFields_cons, encodeFields_nil, List.append_nil]
    refine (AcseField.length_encode_le ?_).trans ?_
    all_goals
      simp only [length_wrapped]
      omega
  · simp [encodeFields_nil]

theorem length_authSteps_le : (encodeFields aare.authSteps).length ≤ 84 := by
  have value := aare.respondingAuthValue.property
  rw [authSteps]
  split
  · have requirements := @AcseField.length_encode_le ⟨8, false, [7, 0x80]⟩ (by simp)
    have mechanism := @AcseField.length_encode_le ⟨9, false, oidPrefixMech ++ [aare.mechanism]⟩ (by simp [oidPrefixMech])
    have auth := @AcseField.length_encode_le ⟨10, true, wrapped 0x80 aare.respondingAuthValue.val⟩
      (by simp only [length_wrapped]; omega)
    simp only [oidPrefixMech, length_wrapped, List.length_append, List.length_cons, List.length_nil]
      at requirements mechanism auth
    simp only [encodeFields_cons, encodeFields_nil, List.append_nil, List.length_append, oidPrefixMech]
    omega
  · simp [encodeFields_nil]

theorem versionSteps_puts :
    Puts (match aare.protocolVersion with
      | some version => do
          ignore (berWriteTag 2 false 0)
          ignore (dlmsWriteLen 2)
          writeEach [version.1, version.2]
      | none => pure ()) (encodeFields aare.versionSteps) := by
  rw [versionSteps]
  cases aare.protocolVersion with
  | none => exact .pure
  | some version =>
    rw [encodeFields_cons, encodeFields_nil, List.append_nil]
    have puts := AcseField.puts (f := ⟨0, false, [version.1, version.2]⟩) (show (0 : UInt8) < 0x1F by decide)
      (writeEach_puts _)
    exact puts

theorem contextSteps_puts :
    Puts (if aare.applicationContext ≠ 0 then berWriteContext aare.applicationContext else pure ())
      (encodeFields aare.contextSteps) := by
  rw [contextSteps]
  split
  · rw [encodeFields_cons, encodeFields_nil, List.append_nil]
    exact berWriteContext_puts _
  · exact .pure

theorem resultSteps_puts :
    Puts (do
      ignore (berWriteTag 2 true 2)
      ignore (dlmsWriteLen 3)
      writeEach [2, 1, aare.result]
      ignore (berWriteTag 2 true 3)
      ignore (dlmsWriteLen 5)
      ignore (berWriteTag 2 true (if aare.resultSourceIsProvider then 2 else 1))
      ignore (dlmsWriteLen 3)
      writeEach [2, 1, aare.resultSourceDiagnostic]) (encodeFields aare.resultSteps) := by
  have result := AcseField.puts (f := ⟨2, true, [2, 1, aare.result]⟩) (show (2 : UInt8) < 0x1F by decide)
    (writeEach_puts _)
  have source : Puts (ignore (berWriteTag 2 true (if aare.resultSourceIsProvider then 2 else 1)))
      [if aare.resultSourceIsProvider then 0xA2 else 0xA1] := by
    cases aare.resultSourceIsProvider with
    | false | true => exact (writeBytes_puts _ _).ignore
  have choice := source.andThen ((writeBytes_puts [3] .nomem).ignore.andThen
    (writeEach_puts [2, 1, aare.resultSourceDiagnostic]))
  have diagnostic := AcseField.puts
    (f := ⟨3, true, [if aare.resultSourceIsProvider then 0xA2 else 0xA1, 3, 2, 1, aare.resultSourceDiagnostic]⟩)
    (show (3 : UInt8) < 0x1F by decide) choice
  rw [resultSteps, encodeFields_cons, encodeFields_cons, encodeFields_nil, List.append_nil]
  have both := result.andThen diagnostic
  simp only [bind_assoc] at both
  exact both

theorem titleSteps_puts :
    Puts (if aare.respondingApTitle.val.length > 0 then berWriteWrapped 4 4 aare.respondingApTitle.val else pure ())
      (encodeFields aare.titleSteps) := by
  rw [titleSteps]
  split
  · rw [encodeFields_cons, encodeFields_nil, List.append_nil]
    exact berWriteWrapped_puts _ _ (by decide)
  · exact .pure

theorem authSteps_puts :
    Puts (if aare.includeAuthentication then do
        berWriteAuthFields 8 9 aare.mechanism
        berWriteWrapped 10 0x80 aare.respondingAuthValue.val
      else pure ()) (encodeFields aare.authSteps) := by
  rw [authSteps]
  split
  · simp only [encodeFields_cons, encodeFields_nil, List.append_nil]
    rw [← List.append_assoc]
    exact (berWriteAuthFields_puts _ (by decide) (by decide)).andThen (berWriteWrapped_puts _ _ (by decide))
  · exact .pure

theorem encodeFields_steps :
    encodeFields aare.steps = encodeFields aare.versionSteps ++ (encodeFields aare.contextSteps ++
      (encodeFields aare.resultSteps ++ (encodeFields aare.titleSteps ++ (encodeFields aare.authSteps ++
        AcseField.encode ⟨30, true, wrapped 4 aare.userInfo.val⟩)))) := by
  simp only [steps, infoSteps, encodeFields_append, encodeFields_cons, encodeFields_nil, List.append_nil]

end Parts

section Short

variable {aare : Aare} (short : aare.userInfo.val.length ≤ 120)

include short

theorem length_encodeFields_lt : (encodeFields aare.steps).length < 256 := by
  have version := length_versionSteps_le aare
  have context := length_contextSteps_le aare
  have result := length_resultSteps_le aare
  have title := length_titleSteps_le aare
  have auth := length_authSteps_le aare
  have info := @AcseField.length_encode_le ⟨30, true, wrapped 4 aare.userInfo.val⟩ (by simp only [length_wrapped]; omega)
  simp only [length_wrapped] at info
  simp only [encodeFields_steps, List.length_append]
  omega

theorem encode_puts : Puts (aareEncode aare) aare.encoding := by
  have tag : Puts (ignore (berWriteTag 1 true 1)) [0x61] := (writeBytes_puts _ _).ignore
  have parts := (versionSteps_puts aare).andThen ((contextSteps_puts aare).andThen ((resultSteps_puts aare).andThen
    ((titleSteps_puts aare).andThen ((authSteps_puts aare).andThen
      (berWriteWrapped_puts 4 aare.userInfo.val (show (30 : UInt8) < 0x1F by decide))))))
  rw [← encodeFields_steps] at parts
  rw [aareEncode]
  refine tag.andThen (parts.reserved ?_ (length_encodeFields_lt short))
  intro pos
  dsimp only
  -- the optional parts are joined by continuations in the encoder, by sequencing here
  by_cases contextual : aare.applicationContext = 0 <;> by_cases titled : 0 < aare.respondingApTitle.val.length <;>
    by_cases authenticated : aare.includeAuthentication = true <;> cases aare.protocolVersion <;>
    simp [bind_assoc, contextual, titled, authenticated]

theorem length_encoding_le : aare.encoding.length ≤ 1024 := by
  have whole := length_encodeFields_lt short
  have lengths := dlmsLenBytes_length_le (whole.le.trans (by decide))
  rw [encoding, List.length_cons, List.length_append]
  omega

/-- Every field is read back, the source of the diagnostic apart. -/
theorem steps_read (unset : UInt8) : ∀ step ∈ aare.steps, ReadBy (aareField unset) step := by
  have auth := aare.respondingAuthValue.property
  have title := aare.respondingApTitle.property
  intro step member
  simp only [steps, List.mem_append] at member
  rcases member with version | context | result | titled | authenticated | info
  · rw [versionSteps] at version
    split at version
    · obtain rfl := List.mem_singleton.mp version
      exact ⟨⟨show (0 : UInt8) < 0x1F by decide, by simp⟩, fun before => .passed rfl⟩
    · simp at version
  · rw [contextSteps] at context
    split at context
    · obtain rfl := List.mem_singleton.mp context
      exact ⟨⟨show (1 : UInt8) < 0x1F by decide, by simp [oidContent, oidPrefixApp]⟩, fun before => .passed rfl⟩
    · simp at context
  · simp only [resultSteps, List.mem_cons, List.not_mem_nil, or_false] at result
    rcases result with rfl | rfl
    · refine ⟨⟨show (2 : UInt8) < 0x1F by decide, by simp⟩, fun before => .of_takes ?_⟩
      exact (Takes.tag (by decide)).ignore.bind ((Takes.lenByte (n := 1) (by decide)).ignore.bind
        ((Takes.u8 _).attempt.last (.pure _)))
    · refine ⟨⟨show (3 : UInt8) < 0x1F by decide, by simp⟩, fun before => .of_takes ?_⟩
      have choice : (if aare.resultSourceIsProvider then 0xA2 else 0xA1 : UInt8) &&& 0x1F ≠ 0x1F := by
        split <;> decide
      refine (Takes.tag choice).ignore.bind ((Takes.lenByte (n := 3) (by decide)).ignore.bind ?_)
      exact (Takes.tag (by decide)).attempt.bind ((Takes.lenByte (n := 1) (by decide)).ignore.bind
        ((Takes.u8 _).attempt.last (.pure _)))
  · rw [titleSteps] at titled
    split at titled
    · obtain rfl := List.mem_singleton.mp titled
      refine ⟨⟨show (4 : UInt8) < 0x1F by decide, by simp only [length_wrapped]; omega⟩, fun before => .of_takes ?_⟩
      exact (berReadWrapped_takes _ (by omega) (by decide)).last (.pure _)
    · simp at titled
  · rw [authSteps] at authenticated
    split at authenticated
    · simp only [List.mem_cons, List.not_mem_nil, or_false] at authenticated
      rcases authenticated with rfl | rfl | rfl
      · exact ⟨⟨show (8 : UInt8) < 0x1F by decide, by simp⟩, fun before => .passed rfl⟩
      · refine ⟨⟨show (9 : UInt8) < 0x1F by decide, by simp [oidPrefixMech]⟩, fun before => .of_takes ?_⟩
        exact (berReadMechanism_takes _).last (.pure _)
      · refine ⟨⟨show (10 : UInt8) < 0x1F by decide, by simp only [length_wrapped]; omega⟩, fun before => .of_takes ?_⟩
        exact (berReadAuthValue_takes _).last (.pure _)
    · simp at authenticated
  · obtain rfl := List.mem_singleton.mp info
    refine ⟨⟨show (30 : UInt8) < 0x1F by decide, by simp only [length_wrapped]; omega⟩, fun before => .of_takes ?_⟩
    exact (berReadWrapped_takes _ (by omega) (by decide)).last (.pure _)

end Short

def decoded (aare : Aare) : Aare := aare.steps.foldl (fun before step => step.2 before) {}

theorem decode_takes {aare : Aare} (short : aare.userInfo.val.length ≤ 120) (unset : UInt8) :
    Takes (aareDecode unset) aare.encoding aare.decoded := by
  intro b rest offers
  have tag : Takes berReadTag [0x61] ⟨1, true, 1⟩ := Takes.tag (by decide)
  have length := length_encodeFields_lt short
  have whole : b.Offers (0x61 :: (dlmsLenBytes (encodeFields aare.steps ++ []).length ++
      (encodeFields aare.steps ++ [])) ++ rest) := by
    rw [List.append_nil]
    exact offers
  obtain ⟨c, fuel, last, -, behind, decode⟩ := acseDecode_walks {} tag
    (by rw [List.append_nil]; omega) (steps_read short unset) aare_closes whole
  rw [List.append_nil] at behind
  rw [aareDecode, decode, acseFields_end (by simp), encoding, ← behind, List.length_nil, Buf.skip_zero last.rd_lt]
  rfl

/-- The fields that come back whatever the message. -/
theorem decoded_fields (aare : Aare) :
    aare.decoded.result = aare.result ∧ aare.decoded.resultSourceDiagnostic = aare.resultSourceDiagnostic ∧
      aare.decoded.resultSourceIsProvider = true ∧ aare.decoded.respondingApTitle = aare.respondingApTitle ∧
      aare.decoded.userInfo = aare.userInfo ∧ (aare.includeAuthentication = true →
        aare.decoded.mechanism = aare.mechanism ∧ aare.decoded.respondingAuthValue = aare.respondingAuthValue) := by
  have passed : aare.decoded = (aare.resultSteps ++ (aare.titleSteps ++ (aare.authSteps ++ aare.infoSteps))).foldl
      (fun before step => step.2 before) {} := by
    have version : aare.versionSteps.foldl (fun before step => step.2 before) ({} : Aare) = {} := by
      rw [versionSteps]
      split <;> rfl
    have context : aare.contextSteps.foldl (fun before step => step.2 before) ({} : Aare) = {} := by
      rw [contextSteps]
      split <;> rfl
    rw [decoded, steps, List.foldl_append, version, List.foldl_append, context]
  rw [passed, titleSteps, authSteps]
  split
  · split
    · exact ⟨rfl, rfl, rfl, rfl, rfl, fun _ => ⟨rfl, rfl⟩⟩
    · next unauthenticated => exact ⟨rfl, rfl, rfl, rfl, rfl, fun authenticated => absurd authenticated unauthenticated⟩
  · next untitled =>
      have none : BytesUpTo.empty 8 = aare.respondingApTitle :=
        Subtype.ext (List.length_eq_zero_iff.mp (Nat.eq_zero_of_not_pos untitled)).symm
      split
      · exact ⟨rfl, rfl, rfl, none, rfl, fun _ => ⟨rfl, rfl⟩⟩
      · next unauthenticated => exact ⟨rfl, rfl, rfl, none, rfl, fun authenticated => absurd authenticated unauthenticated⟩

/-- Encoded into an area of the given size, the message is decoded again from the bytes written, whatever lies
behind them and whatever the decoder's variables held. -/
def RoundTrips (aare : Aare) (size : ℕ) : Prop :=
  ∃ written, aareEncode aare (WBuf.init size) = .ok () written ∧ ∀ (behind : List UInt8) (unset : UInt8), ∃ read after,
    aareDecode unset ⟨written.out ++ behind, 0, written.out.length⟩ = .ok read after ∧
      read.result = aare.result ∧ read.resultSourceDiagnostic = aare.resultSourceDiagnostic ∧
      read.resultSourceIsProvider = aare.resultSourceIsProvider ∧ read.respondingApTitle = aare.respondingApTitle ∧
      read.userInfo = aare.userInfo ∧ (aare.includeAuthentication = true →
        read.mechanism = aare.mechanism ∧ read.respondingAuthValue = aare.respondingAuthValue)

end Aare

/-- A response that fits the area comes back exactly if its diagnostic is the service provider's. -/
theorem aare_round_trip_iff (aare : Aare) (short : aare.userInfo.val.length ≤ 120) {size : ℕ}
    (room : aare.encoding.length ≤ size) : aare.RoundTrips size ↔ aare.resultSourceIsProvider = true := by
  have small := Aare.length_encoding_le short
  have bounded : aare.encoding.length < 2 ^ 32 := by omega
  obtain ⟨written, encoded, out⟩ := (Aare.encode_puts short).init room
  obtain ⟨result, diagnostic, provider, title, info, auth⟩ := Aare.decoded_fields aare
  have decodes (behind : List UInt8) (unset : UInt8) :=
    Aare.decode_takes short unset _ _ (Buf.offers_front behind bounded)
  constructor
  · rintro ⟨_, done, comesBack⟩
    obtain rfl : written = _ := by simpa using encoded.symm.trans done
    obtain ⟨read, after, decoded, -, -, source, -⟩ := comesBack [] 0
    rw [out] at decoded
    obtain rfl : aare.decoded = read := by
      have same := (decodes [] 0).symm.trans decoded
      simp only [EStateM.Result.ok.injEq] at same
      exact same.1
    rw [← source, provider]
  · intro source
    refine ⟨written, encoded, ?_⟩
    intro behind unset
    rw [out]
    exact ⟨_, _, decodes behind unset, result, diagnostic, provider.trans source.symm, title, info, auth⟩

/-- A response that rejects, with a diagnostic of the given source. -/
def rejectedBy (provider : Bool) : Aare :=
  { result := 1, resultSourceDiagnostic := 2, resultSourceIsProvider := provider, applicationContext := 1,
    userInfo := BytesUpTo.ofList 128 [1, 2, 3] }

theorem aare_round_trip_iff_provider :
    (rejectedBy true).userInfo.val.length = 3 ∧ (rejectedBy true).encoding.length = 32 ∧
      (rejectedBy true).RoundTrips 1024 :=
  ⟨by decide, by decide, (aare_round_trip_iff _ (by decide) (by decide)).mpr rfl⟩

/-- A diagnostic of the service user is decoded as the provider's. -/
theorem user_diagnostic_read_as_provider :
    ∃ written read after, aareEncode (rejectedBy false) (WBuf.init 1024) = .ok () written ∧
      aareDecode 0 ⟨written.out, 0, written.out.length⟩ = .ok read after ∧
      (rejectedBy false).resultSourceIsProvider = false ∧ read.resultSourceIsProvider = true := by
  have short : (rejectedBy false).userInfo.val.length ≤ 120 := by decide
  have small := Aare.length_encoding_le short
  obtain ⟨written, encoded, out⟩ := @Puts.init _ _ (Aare.encode_puts short) 1024 (by omega)
  have offers := Buf.offers_front [] (show (rejectedBy false).encoding.length < 2 ^ 32 by omega)
  have decodes := Aare.decode_takes short 0 _ _ offers
  rw [List.append_nil, ← out] at decodes
  exact ⟨written, _, _, encoded, decodes, rfl, (Aare.decoded_fields _).2.2.1⟩

end OpenSpodes
