import OpenSpodes.Model.Client
import OpenSpodes.Proofs.Unprotect

/-! # Plaintext responses at a ciphered client

`clientRecvApdu` deciphers what carries a ciphered tag and passes everything else on as it came. The
server refuses plaintext service requests of a ciphered association; the client has no such check,
so what it hands to the services is deciphered exactly as long as no plaintext response arrives.
-/

namespace OpenSpodes

open Machine

variable {apdu : List UInt8} {hal : Hal} {stale : List UInt8} {size : ℕ} {c after : Client}

/-- The APDU is the output of a deciphering that succeeded between the two states. -/
def DecipheredBetween (hal : Hal) (before after : Client) (apdu : List UInt8) : Prop :=
  after.deciphered = before.deciphered ++ [apdu] ∧
    ∃ ciphered, gloUnprotect hal ciphered before.cipherRx = .ok apdu after.cipherRx

/-- The link delivers a service response in plaintext. -/
def DeliversPlainResponse (stale : List UInt8) (size : ℕ) (c : Client) : Prop :=
  ∃ apdu after, clientReceive stale size c = some (.ok apdu, after) ∧ isServiceResponse apdu = true

/-- Two states of a client that differ in the link layer only. -/
def SameButWire (c after : Client) : Prop := ∃ wire, after = { c with wire := wire }

instance : IsPreorder Client SameButWire where
  refl c := ⟨c.wire, rfl⟩
  trans := by
    rintro c _ _ ⟨first, rfl⟩ ⟨second, rfl⟩
    exact ⟨second, rfl⟩

private theorem clientWire_keeps {α : Type} (program : Program Wire α) : Keeps SameButWire (clientWire program) :=
  .zoom fun _ _ wire _ => ⟨wire, rfl⟩

/-- Only the link layer changes while an APDU is received. -/
theorem clientReceive_keeps (stale : List UInt8) (size : ℕ) : Keeps SameButWire (clientReceive stale size) := by
  refine .bind .get fun c => .bind (clientWire_keeps _) fun received => ?_
  cases received with
  | error err => exact .pure _
  | ok raw =>
    refine .bind (clientWire_keeps _) fun _ => ?_
    refine .ite (clientWire_keeps _) (.ite (.pure _) (.pure _))

private theorem cipheredTag_not_response (response : isServiceResponse apdu = true) :
    svcIsCipheredTag (apdu.getD 0 0) = false := by
  cases apdu with
  | nil => rfl
  | cons tag rest =>
    simp only [isServiceResponse, List.mem_cons, List.not_mem_nil, or_false, decide_eq_true_eq] at response
    rcases response with rfl | rfl | rfl <;> rfl

/-- What does not carry a ciphered tag is handed on as it came. -/
theorem clientRecvApdu_unciphered (received : clientReceive stale size c = some (.ok apdu, after))
    (unciphered : svcIsCipheredTag (apdu.getD 0 0) = false) :
    clientRecvApdu hal stale size c = some (.ok apdu, after) := by
  rw [clientRecvApdu, bind_of_some received]
  simp only [get_bind_apply, unciphered, Bool.false_eq_true, and_false, if_false]
  rfl

/-- An APDU that is returned was deciphered, or is what the link delivered. -/
theorem clientRecvApdu_ok (returned : clientRecvApdu hal stale size c = some (.ok apdu, after)) :
    DecipheredBetween hal c after apdu ∨ clientReceive stale size c = some (.ok apdu, after) := by
  obtain ⟨result, middle, received, rest⟩ := bind_eq_some.mp returned
  obtain ⟨wire, rfl⟩ := clientReceive_keeps stale size c result middle received
  cases result with
  | error err => simp at rest
  | ok raw =>
    simp only [get_bind_apply] at rest
    split_ifs at rest with ciphered
    · left
      simp only [clientDecipher, get_bind_apply] at rest
      cases opened : gloUnprotect hal raw c.cipherRx with
      | error rc ctx => simp [opened] at rest
      | ok plain ctx =>
        simp only [opened, set_bind_apply] at rest
        split_ifs at rest with long
        · simp at rest
        · simp only [pure_apply, Option.some.injEq, Prod.mk.injEq, Except.ok.injEq] at rest
          obtain ⟨rfl, rfl⟩ := rest
          exact ⟨rfl, raw, opened⟩
    · right
      simp only [pure_apply, Option.some.injEq, Prod.mk.injEq, Except.ok.injEq] at rest
      obtain ⟨rfl, rfl⟩ := rest
      exact received

/-- Every service response that is returned was deciphered by that very call, exactly when the link
does not deliver a plaintext response. -/
theorem client_responses_deciphered_iff (hal : Hal) (stale : List UInt8) (size : ℕ) (c : Client) :
    (∀ apdu after, clientRecvApdu hal stale size c = some (.ok apdu, after) →
        isServiceResponse apdu = true → DecipheredBetween hal c after apdu) ↔ ¬DeliversPlainResponse stale size c := by
  constructor
  · rintro deciphered ⟨apdu, after, received, response⟩
    have between := deciphered apdu after (clientRecvApdu_unciphered received (cipheredTag_not_response response)) response
    obtain ⟨wire, rfl⟩ := clientReceive_keeps stale size c _ _ received
    simpa using between.1
  · intro none apdu after returned response
    rcases clientRecvApdu_ok returned with between | received
    · exact between
    · exact absurd ⟨apdu, after, received, response⟩ none

/-- A ciphered client on an unframed transport that is about to deliver the given bytes. -/
def cipheredClient (data : List UInt8) : Client where
  wire :=
    { framing := .none
      wrapperSource := 0
      wrapperDest := 0
      hdlc := hdlcSessionInitClient 16 1
      world := { rx := [.bytes data] }
      txBuf := []
      rxBuf := List.replicate 16 0 }
  hdlcActive := false
  gbtEnabled := false
  cipheringEnabled := true
  cipherRx :=
    { secContextInit .suite0 .lowest (Vector.replicate 8 1) with policy := .encrAuth }

/-- A GET-response in plaintext is returned by a client whose policy is encryption and
authentication, with nothing deciphered. -/
theorem client_accepts_plain_response : (cipheredClient [0xC4, 1, 1, 0, 0x11, 42]).cipheringEnabled = true ∧
      (clientRecvApdu sampleHal [] 4096 (cipheredClient [0xC4, 1, 1, 0, 0x11, 42])).map
          (fun returned => (returned.1.toOption, returned.2.deciphered)) =
        some (some [0xC4, 1, 1, 0, 0x11, 42], []) := by
  constructor <;> rfl

end OpenSpodes
