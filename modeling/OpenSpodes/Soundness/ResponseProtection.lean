import OpenSpodes.Proofs.AcceptRefines
import OpenSpodes.Proofs.HlsFrame
import OpenSpodes.Proofs.Protect
import OpenSpodes.Proofs.SampleServer

/-! # The protection of responses

A response in a ciphered association carries exactly the protection that the outgoing context has at
that moment. The record determines it: an association request with ciphering takes the configured
policy over unless the contexts are in use already, and every ciphered request that is deciphered
replaces it with the protection of that request.
-/

namespace OpenSpodes

open Machine

variable {origin a b : AssocState} {log : List Event} {event : Event} {hal : Hal}

/-- What the record says about outgoing messages: whether they are ciphered, and how. -/
structure Outgoing where
  enabled : Bool
  policy : Policy
  deriving DecidableEq, Repr

/-- The protection that a ciphered message announces. -/
def announcedPolicy (ciphered : List UInt8) : Policy :=
  secControlToPolicy (bodySc ((gloBody ciphered).getD []))

/-- One more event, for a server whose own context has the given policy. -/
def Outgoing.next (configured : Policy) (out : Outgoing) (event : Event) : Outgoing :=
  match event with
  | .link .disc | .cleared | .released => { out with enabled := false }
  | .aarq _ _ _ _ =>
      if event.negotiatesCiphering then ⟨true, if out.enabled then out.policy else configured⟩
      else { out with enabled := false }
  | .deciphered true ciphered _ => { out with policy := announcedPolicy ciphered }
  | _ => out

/-- The protection of outgoing messages after a record, from the configuration on. -/
def outgoingAfter (origin : AssocState) (log : List Event) : Outgoing :=
  log.foldl (Outgoing.next origin.security.policy) ⟨origin.cipheringEnabled, origin.cipherTx.policy⟩

/-- The record tells the state of the outgoing context. -/
structure Tells (origin : AssocState) (log : List Event) (a : AssocState) : Prop where
  outgoing : outgoingAfter origin log = ⟨a.cipheringEnabled, a.cipherTx.policy⟩
  configured : a.security.policy = origin.security.policy

theorem Tells.extend (tells : Tells origin log a) (configured : b.security.policy = a.security.policy)
    (next : Outgoing.next a.security.policy ⟨a.cipheringEnabled, a.cipherTx.policy⟩ event =
      ⟨b.cipheringEnabled, b.cipherTx.policy⟩) : Tells origin (log ++ [event]) b where
  outgoing := by
    rw [outgoingAfter, List.foldl_append, ← outgoingAfter, tells.outgoing, ← tells.configured]
    exact next
  configured := configured.trans tells.configured

theorem Tells.step (tells : Tells origin log a) (step : AssocStep hal a event b) : Tells origin (log ++ [event]) b := by
  cases step with
  | @aarq request inst record ireq result bound decided =>
    refine tells.extend (by rw [afterAarq_security, decided.policy]) ?_
    cases negotiated : (Event.aarq request inst record result.accepted).negotiatesCiphering with
    | true =>
      obtain ⟨enabled, -, -, policy⟩ := afterAarq_ciphering a ireq negotiated
      rw [enabled, policy]
      cases inUse : a.cipheringEnabled with
      | true => simp [Outgoing.next, negotiated, AssocState.cipherSource, inUse]
      | false => simp [Outgoing.next, negotiated, AssocState.cipherSource, inUse, decided.policy]
    | false =>
      obtain ⟨tx, -, enabled⟩ := afterAarq_plain a ireq negotiated
      rw [enabled, tx]
      simp [Outgoing.next, negotiated]
  | verified _ accepted => exact tells.extend (hlsPass3Verify_ok accepted).policy rfl
  | refused failed => exact tells.extend (hlsPass3Verify_error failed).policy rfl
  | pass4 built => exact tells.extend (hlsPass4Build_ok built).policy rfl
  | pass4Failed failed => exact tells.extend (hlsPass4Build_error failed).policy rfl
  | @deciphered aligned ciphered plain rx enabled opened =>
    obtain ⟨body, accepts, rfl⟩ := gloUnprotect_ok opened
    refine tells.extend rfl ?_
    cases aligned with
    | true => simp [Outgoing.next, announcedPolicy, accepts.parsed, SecContext.align, SecContext.accepted]
    | false => rfl
  | sealed _ =>
    refine tells.extend rfl ?_
    simp only [SecContext.advance]
    split_ifs <;> rfl
  | _ => exact tells.extend rfl rfl

/-- A protected response announces the policy of the context. -/
private theorem Protects.announces {plain sent : List UInt8} (protects : Protects hal a plain sent)
    (enabled : a.cipheringEnabled = true) (response : isServiceResponse plain = true) :
    ∃ body, gloBody sent = some body ∧ secControlToPolicy (bodySc body) = a.cipherTx.policy := by
  cases plain with
  | nil => simp [isServiceResponse] at response
  | cons tag rest =>
    have kind : tag = 0xC4 ∨ tag = 0xC5 ∨ tag = 0xC7 := by simpa [isServiceResponse] using response
    have applies : gbtAppliesToApdu (tag :: rest) = true := by
      rcases kind with rfl | rfl | rfl <;> rfl
    obtain ⟨ctx, policy, -, done⟩ := protects enabled applies
    have ciphered : svcIsCipheredTag (svcCipherTagForPlain ctx tag) = true := by
      unfold svcCipherTagForPlain
      rcases kind with rfl | rfl | rfl <;> split_ifs <;> decide
    obtain ⟨part, parsed⟩ := gloProtect_body ciphered done
    exact ⟨_, parsed, by simp [bodySc, policy]⟩

/-- In every run of a configured server, a response in a ciphered association has the protection of
the last request deciphered since the outgoing context was set up, or else the configured one. -/
theorem response_protection_follows_requests {σ : Type} (hal : Hal) (behaviour : Behaviour σ)
    (origin final : Server σ) (fresh : origin.Fresh) (run : Runs hal behaviour origin final)
    (before after : List Event) (plain sent : List UInt8) (reached : final.log = before ++ .emitted plain sent :: after)
    (response : isServiceResponse plain = true) (ciphered : (outgoingAfter origin.aa before).enabled = true) :
    ∃ body, gloBody sent = some body ∧ secControlToPolicy (bodySc body) = (outgoingAfter origin.aa before).policy := by
  let Now (log : List Event) (event : Event) : Prop :=
    ∀ plain sent, event = .emitted plain sent → isServiceResponse plain = true →
      (outgoingAfter origin.aa log).enabled = true →
      ∃ body, gloBody sent = some body ∧
        secControlToPolicy (bodySc body) = (outgoingAfter origin.aa log).policy
  have holds : Now before (.emitted plain sent) := by
    refine (run.history fresh).at_label (Tells origin.aa) Now ?_ ?_ ?_ reached
    · exact ⟨rfl, rfl⟩
    · exact fun _ _ _ _ tells step => tells.step step
    · rintro log a event b tells step plain sent rfl response
      rw [tells.outgoing]
      intro enabled
      cases step with
      | emitted protects => exact protects.announces enabled response
  exact holds plain sent rfl response ciphered

/-- A client that reads the attribute once under the given protection. -/
def readingOnce (policy : Policy) : List (List UInt8) := [cipheringAarq, cipheredGet policy 1]

def readResponse (policy : Policy) : List UInt8 :=
  (gloProtect sampleHal (sampleContext serverTitle policy 2) 0xCC plainResponse).getD []

def beforeResponse (policy : Policy) : List Event :=
  openedLog ++ [.deciphered true (cipheredGet policy 1) clientTitle, .dispatched .get sampleAttr (some 0),
    .sealed (gloNonce (sampleContext serverTitle policy 2))]

private theorem readingOnce_log (policy : Policy) :
    (acceptTimes sampleEnv 2 (secureServer (readingOnce policy))).map Server.log =
      some (beforeResponse policy ++ [.emitted plainResponse (readResponse policy)]) := by
  cases policy <;> decide +kernel

theorem response_protection_follows_requests_read :
    ∃ final, Runs sampleHal sampleBehaviour (secureServer (readingOnce .encrAuth)) final ∧
      final.log = beforeResponse .encrAuth ++ [.emitted plainResponse (readResponse .encrAuth)] ∧
      ∃ body, gloBody (readResponse .encrAuth) = some body ∧ secControlToPolicy (bodySc body) =
          (outgoingAfter (secureServer (readingOnce .encrAuth)).aa (beforeResponse .encrAuth)).policy := by
  obtain ⟨final, reached, log⟩ := Option.map_eq_some_iff.mp (readingOnce_log .encrAuth)
  have runs := Runs.of_acceptTimes reached
  exact ⟨final, runs, log,
    response_protection_follows_requests sampleHal sampleBehaviour _ final (secureServer_fresh _) runs _ _ _ _
      log rfl (by decide +kernel)⟩

/-- A server whose policy is encryption and authentication answers an unprotected request, received
with a ciphered tag, with a response that has neither protection bit. -/
theorem response_without_configured_protection : (secureServer (readingOnce .none)).aa.security.policy = .encrAuth ∧
      ∃ final, Runs sampleHal sampleBehaviour (secureServer (readingOnce .none)) final ∧
        final.log = beforeResponse .none ++ [.emitted plainResponse (readResponse .none)] ∧
        ∃ body, gloBody (readResponse .none) = some body ∧ scAuth (bodySc body) = false ∧
          scEncr (bodySc body) = false := by
  obtain ⟨final, reached, log⟩ := Option.map_eq_some_iff.mp (readingOnce_log .none)
  exact ⟨rfl, final, Runs.of_acceptTimes reached, log,
    [0, 0, 0, 0, 2] ++ plainResponse, by decide +kernel, by decide, by decide⟩

end OpenSpodes
