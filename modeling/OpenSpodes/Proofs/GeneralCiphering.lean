import OpenSpodes.Model.GeneralCiphering
import OpenSpodes.Proofs.Codec

/-! # Reading back the general envelopes

An APDU that one of the protect functions produced is parsed into the fields that were put in. Every
field is a string behind its length; the encoders fail when the whole does not fit their buffer, so
whatever they return has lengths that the parser takes.
-/

namespace OpenSpodes

open Bytes Machine.Fallible

variable {bytes apdu : List UInt8} {tag : UInt8}

def octetString (bytes : List UInt8) : List UInt8 := dlmsLenBytes bytes.length ++ bytes

theorem writeOctetString_writes (bytes : List UInt8) : Writes (writeOctetString bytes) (octetString bytes) :=
  (writeBytes_writes (dlmsLenBytes bytes.length) .nomem).andThen (writeBytes_writes bytes .nomem)

theorem le_length_octetString (bytes : List UInt8) : bytes.length ≤ (octetString bytes).length := by
  simp [octetString]

/-- What an encoder returns is what it writes, and it fits. -/
theorem encodeApdu_eq_some {size : ℕ} {write : Write Unit} {out : List UInt8} (writes : Writes write bytes)
    (encoded : encodeApdu size write = some out) : out = bytes ∧ bytes.length ≤ size := by
  by_cases room : bytes.length ≤ (WBuf.init size).free
  · obtain ⟨c, wrote, content, -⟩ := writes.appends _ room
    simp only [encodeApdu, wrote, content, Option.some.injEq] at encoded
    refine ⟨?_, by simpa [WBuf.init, WBuf.free] using room⟩
    simpa [WBuf.init] using encoded.symm
  · obtain ⟨e, c, failed⟩ := writes.refuses (WBuf.init size) (by omega)
    simp [encodeApdu, failed] at encoded

section Readers

theorem readOctetString_takes (small : bytes.length < 2 ^ 32) :
    Takes readOctetString (octetString bytes) bytes :=
  (Takes.len small).bind (.checked rfl .invalid)

theorem readBounded_takes {n : ℕ} (field : BytesUpTo n) (small : n < 2 ^ 32) :
    Takes (readBounded n) (octetString field.val) field := by
  apply (readOctetString_takes (field.property.trans_lt small)).last
  apply Takes.check (Nat.not_lt.mpr field.property)
  rw [BytesUpTo.ofList_val]
  exact .pure field

theorem titleOf_toList (title : SystemTitle) : titleOf title.toList = title := by
  ext i inside
  simp [titleOf]

theorem readTitle_takes (title : SystemTitle) : Takes readTitle (octetString title.toList) title := by
  apply (readOctetString_takes (by simp)).last
  apply Takes.check (by simp)
  rw [titleOf_toList]
  exact .pure title

theorem readTag_takes {tags : List UInt8} (member : tag ∈ tags) : Takes (readTag tags) [tag] () := by
  apply (Takes.u8 tag).last
  rw [failIf, if_neg (not_not.mpr member)]
  exact .pure ()

end Readers

/-! ## General-ciphering -/

/-- The fields of a general-ciphered APDU that are not fixed. -/
structure CipheredFields where
  transactionId : List UInt8
  originator : SystemTitle
  recipient : List UInt8
  body : List UInt8
  deriving DecidableEq

def CipheredFields.CarriedBy (fields : CipheredFields) (apdu : List UInt8) : Prop :=
  5 ≤ apdu.length ∧
    ∃ rest behind, genCipheringHeader (Buf.ofBytes apdu) = .ok (fields.transactionId, fields.originator) rest ∧
      genCipheringBody rest = .ok (fields.recipient, fields.body) behind

theorem genCipheringProtect_carries {hal : Hal} {ctx : SecContext} {transactionId recipient plain : List UInt8}
    (produced : genCipheringProtect hal ctx transactionId recipient tag plain = some apdu) :
    ∃ body, gloProtect hal ctx (gloTagForPlain tag) plain = some body ∧
      CipheredFields.CarriedBy ⟨transactionId, ctx.systemTitle, recipient, body⟩ apdu := by
  unfold genCipheringProtect at produced
  cases sealed : gloProtect hal ctx (gloTagForPlain tag) plain with
  | none => simp [sealed] at produced
  | some body =>
    simp only [sealed] at produced
    obtain ⟨rfl, fits⟩ := encodeApdu_eq_some
      ((writeBytes_writes [0xDD] .invalid).andThen ((writeOctetString_writes transactionId).andThen
        ((writeOctetString_writes ctx.systemTitle.toList).andThen ((writeOctetString_writes recipient).andThen
          ((writeOctetString_writes []).andThen ((writeOctetString_writes []).andThen
            ((writeBytes_writes [0x00] .invalid).andThen (writeOctetString_writes body)))))))) produced
    have idLength := le_length_octetString transactionId
    have recipientLength := le_length_octetString recipient
    have bodyLength := le_length_octetString body
    simp only [List.length_append, List.length_singleton] at fits
    refine ⟨body, rfl, by simp [octetString, dlmsLenBytes]; omega, ?_⟩
    have header : Takes genCipheringHeader ([0xDD] ++ (octetString transactionId ++ octetString ctx.systemTitle.toList))
        (transactionId, ctx.systemTitle) :=
      (readTag_takes (by simp)).bind ((readOctetString_takes (by omega)).bind ((readTitle_takes _).last (.pure _)))
    have inner : Takes genCipheringBody
        (octetString recipient ++ (octetString [] ++ (octetString [] ++ ([0x00] ++ octetString body)))) (recipient, body) :=
      (readOctetString_takes (by omega)).bind ((readOctetString_takes (by simp)).bind
        ((readOctetString_takes (by simp)).bind ((readTag_takes (by simp)).bind
          ((readOctetString_takes (by omega)).last (.pure _)))))
    have whole := header.thenOfBytes inner (by simp only [List.length_append, List.length_singleton]; omega)
    simpa only [List.append_assoc] using whole

/-! ## General-signing -/

/-- A signed APDU is decoded into the fields it was encoded from. -/
theorem genSigningDecode_encode {fields : GenSigning} (encoded : genSigningEncode fields = some apdu) :
    genSigningDecode apdu = some fields := by
  obtain ⟨rfl, fits⟩ := encodeApdu_eq_some
    ((writeBytes_writes [0xDF] .invalid).andThen ((writeOctetString_writes fields.transactionId.val).andThen
      ((writeOctetString_writes fields.originator.toList).andThen ((writeOctetString_writes fields.recipient.val).andThen
        ((writeOctetString_writes fields.dateTime.val).andThen
          ((writeOctetString_writes fields.otherInformation.val).andThen
            ((writeOctetString_writes fields.content.val).andThen
              (writeOctetString_writes fields.signature.val)))))))) encoded
  have parsed : Takes genSigningFields _ fields :=
    (readTag_takes (show 0xDF ∈ [0xDF] by simp)).bind ((readBounded_takes fields.transactionId (by decide)).bind
      ((readTitle_takes fields.originator).bind ((readBounded_takes fields.recipient (by decide)).bind
        ((readBounded_takes fields.dateTime (by decide)).bind
          ((readBounded_takes fields.otherInformation (by decide)).bind
            ((readBounded_takes fields.content (by decide)).bind
              ((readBounded_takes fields.signature (by decide)).last (.pure _))))))))
  obtain ⟨c, read⟩ := parsed.ofBytes (lt_of_le_of_lt fits (by decide))
  have long : ¬([0xDF] ++ (octetString fields.transactionId.val ++ (octetString fields.originator.toList ++
      (octetString fields.recipient.val ++ (octetString fields.dateTime.val ++
        (octetString fields.otherInformation.val ++ (octetString fields.content.val ++
          octetString fields.signature.val))))))).length < 2 := by
    have := le_length_octetString fields.originator.toList
    simp only [List.length_append, List.length_singleton, Vector.length_toList] at this ⊢
    omega
  rw [genSigningDecode, if_neg long, read]

end OpenSpodes
