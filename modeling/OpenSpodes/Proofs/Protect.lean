import OpenSpodes.Model.Glo
import OpenSpodes.Proofs.Codec

/-! # What protection writes

A message of `gloProtect` is a tag, a length and a body, and the parser of the receiving side finds
exactly that body in it: first the security control byte of the context's policy, then the
context's counter, then the protected part.
-/

namespace OpenSpodes

open Bytes Machine.Fallible

variable {tag : UInt8} {body plain sent : List UInt8} {hal : Hal} {ctx : SecContext}

theorem gloWriteCipheredApdu_eq (fits : body.length + 8 ≤ 1056) :
    gloWriteCipheredApdu tag body = some (tag :: (dlmsLenBytes body.length ++ body)) := by
  have short : (dlmsLenBytes body.length).length ≤ 3 := dlmsLenBytes_length_le (by omega)
  have writes := (writeBytes_writes [tag] .invalid).andThen
    ((writeBytes_writes (dlmsLenBytes body.length) .nomem).andThen (writeBytes_writes body .nomem))
  obtain ⟨b, wrote, out, -⟩ := writes.appends (WBuf.init 1056) (by
    simp only [WBuf.init, WBuf.free, List.length_append, List.length_singleton, List.length_nil]
    omega)
  have within : ¬body.length + 8 > 1056 := by omega
  simp only [gloWriteCipheredApdu, if_neg within, axdrWriteU8, dlmsWriteLen, wrote, out]
  rfl

/-- The parser finds the body of a ciphered message. -/
theorem gloBody_of_message (ciphered : svcIsCipheredTag tag = true) (long : 5 ≤ body.length)
    (fits : body.length ≤ 0xFFFF) : gloBody (tag :: (dlmsLenBytes body.length ++ body)) = some body := by
  have total : (tag :: (dlmsLenBytes body.length ++ body)).length < 2 ^ 32 := by
    have := dlmsLenBytes_length_le fits
    simp only [List.length_cons, List.length_append]
    omega
  have start : (Buf.ofBytes (tag :: (dlmsLenBytes body.length ++ body))).Offers
      ([tag] ++ dlmsLenBytes body.length ++ (body ++ [])) := by simpa using .ofBytes total
  have header : Takes (do let _ ← axdrReadU8; dlmsReadLen) ([tag] ++ dlmsLenBytes body.length) body.length :=
    (Takes.u8 tag).bind (Takes.len (by omega))
  have enough : ¬(tag :: (dlmsLenBytes body.length ++ body)).length < 7 := by
    have : 0 < (dlmsLenBytes body.length).length := by
      unfold dlmsLenBytes
      split_ifs <;> simp
    simp only [List.length_cons, List.length_append]
    omega
  have inside : ¬(body.length < 5 ∨ (body ++ []).length < body.length) := by
    rw [List.append_nil]
    omega
  simp only [gloBody, if_neg enough, List.getD_cons_zero, ciphered, header _ _ start, start.skip.unread, if_neg inside,
    start.skip.slice]
  simp

/-- What a protected message consists of. -/
theorem gloProtect_eq_some (done : gloProtect hal ctx tag plain = some sent) : ∃ body protectedPart,
      body = secControlByte ctx.policy ctx.suite :: (icBytes ctx.invocationCounter ++ protectedPart) ∧
        sent = tag :: (dlmsLenBytes body.length ++ body) ∧ body.length ≤ 1048 := by
  unfold gloProtect at done
  split_ifs at done
  dsimp only at done
  cases part : gloSeal hal ctx (secControlByte ctx.policy ctx.suite)
      (gloBuildIvTx ctx ctx.invocationCounter) plain with
  | none => simp [part] at done
  | some protectedPart =>
    simp only [part] at done
    refine ⟨_, protectedPart, rfl, ?_⟩
    by_cases fits : ([secControlByte ctx.policy ctx.suite] ++ icBytes ctx.invocationCounter ++
        protectedPart).length + 8 ≤ 1056
    · rw [gloWriteCipheredApdu_eq fits] at done
      exact ⟨(Option.some.inj done).symm, Nat.le_of_add_le_add_right fits⟩
    · rw [gloWriteCipheredApdu, if_pos (by omega)] at done
      exact absurd done (by simp)

/-- The body that the receiver finds in it. -/
theorem gloProtect_body (ciphered : svcIsCipheredTag tag = true) (done : gloProtect hal ctx tag plain = some sent) :
    ∃ protectedPart, gloBody sent =
      some (secControlByte ctx.policy ctx.suite :: (icBytes ctx.invocationCounter ++ protectedPart)) := by
  obtain ⟨body, protectedPart, rfl, rfl, fits⟩ := gloProtect_eq_some done
  exact ⟨protectedPart, gloBody_of_message ciphered (by simp) (by omega)⟩

/-- The protection bits of a control byte are those of the policy it was built from. -/
@[simp] theorem secControlToPolicy_secControlByte (policy : Policy) (suite : Suite) :
    secControlToPolicy (secControlByte policy suite) = policy := by
  cases policy <;> cases suite <;> rfl

theorem scAuth_secControlByte (policy : Policy) (suite : Suite) :
    scAuth (secControlByte policy suite) = policy.auth := by
  cases policy <;> cases suite <;> rfl

end OpenSpodes
