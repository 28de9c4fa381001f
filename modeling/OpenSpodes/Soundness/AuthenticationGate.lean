import OpenSpodes.Proofs.AcceptRefines
import OpenSpodes.Proofs.SampleServer

/-! # The authentication gate

No request reaches the dispatcher unless an association request was accepted for the association in
force and nothing has ended that association since: no release, no disconnection or loss of the link,
no new set-up of the link, no other association request. A link that is set up again while it is
connected is the exception: it restarts the link below the association, which survives.
-/

namespace OpenSpodes

open Machine

variable {inst : Option ℕ} {a : AssocState}

/-- Events that end what was established before them. -/
def Event.endsAssociation : Event → Bool
  | .released | .cleared | .link .disc | .link .setUp | .aarq _ _ _ _ => true
  | _ => false

/-- The last association request was accepted, for the given association, and still counts; `since`
is what was recorded after it. -/
def Requested (log : List Event) (inst : Option ℕ) (aarq : Aarq) (since : List Event) : Prop :=
  ∃ earlier assoc, log = earlier ++ .aarq aarq inst assoc true :: since ∧ Authenticates aarq assoc ∧
    ∀ event ∈ since, event.endsAssociation = false

/-- An association is established: requested and, where its mechanism demands it, verified. -/
def Established (log : List Event) (inst : Option ℕ) : Prop :=
  ∃ aarq since, Requested log inst aarq since ∧ (aarq.needsHandshake = true → .pass3 true ∈ since)

variable {log : List Event} {event : Event}

theorem Requested.extend {since : List Event} {aarq : Aarq} (requested : Requested log inst aarq since)
    (goesOn : event.endsAssociation = false) : Requested (log ++ [event]) inst aarq (since ++ [event]) := by
  obtain ⟨earlier, assoc, rfl, authenticates, counts⟩ := requested
  refine ⟨earlier, assoc, by simp, authenticates, fun other member => ?_⟩
  rcases List.mem_append.mp member with old | new
  · exact counts other old
  · rw [List.mem_singleton.mp new]
    exact goesOn

theorem Established.extend (established : Established log inst) (goesOn : event.endsAssociation = false) :
    Established (log ++ [event]) inst := by
  obtain ⟨aarq, since, requested, verified⟩ := established
  exact ⟨aarq, _, requested.extend goesOn, fun needed => List.mem_append_left _ (verified needed)⟩

/-- What the record says about the association state it led to. -/
structure Justified (log : List Event) (a : AssocState) : Prop where
  associated : a.associated = true → Established log a.association
  pending : a.hlsPending = true → ∃ aarq since, Requested log a.association aarq since

/-- An event that ends nothing and changes neither flag nor association. -/
theorem Justified.extend {b : AssocState} (justified : Justified log a) (goesOn : event.endsAssociation = false)
    (associated : b.associated = a.associated) (pending : b.hlsPending = a.hlsPending)
    (association : b.association = a.association) :
    Justified (log ++ [event]) b where
  associated now := by
    rw [association]
    exact (justified.associated (associated ▸ now)).extend goesOn
  pending now := by
    rw [association]
    obtain ⟨aarq, since, requested⟩ := justified.pending (pending ▸ now)
    exact ⟨aarq, _, requested.extend goesOn⟩

/-- A state without association and handshake needs no justification. -/
theorem Justified.of_idle (idle : a.associated = false) (unasked : a.hlsPending = false) : Justified log a where
  associated now := absurd (idle.symm.trans now) (by decide)
  pending now := absurd (unasked.symm.trans now) (by decide)

/-- A request that was decided justifies what it leaves. -/
theorem Justified.of_aarq {aarq : Aarq} {assoc : Option Association} {ireq : Option InitiateRequest}
    {result : AarqResult} (bound : inst = none → a.association = none)
    (decided : Decided a.security aarq assoc result) :
    Justified (log ++ [.aarq aarq inst assoc result.accepted]) (a.afterAarq aarq inst ireq result) := by
  have association : (a.afterAarq aarq inst ireq result).association = inst := by
    rw [afterAarq_association]
    cases inst with
    | none => simpa using bound rfl
    | some inst => rfl
  have requested (accepted : result.accepted = true) (authenticates : Authenticates aarq assoc) :
      Requested (log ++ [.aarq aarq inst assoc result.accepted]) inst aarq [] :=
    ⟨log, assoc, by rw [accepted], authenticates, by simp⟩
  constructor
  · intro now
    rw [afterAarq_associated] at now
    obtain ⟨accepted, authenticates, direct⟩ := decided.associated now
    rw [association]
    exact ⟨aarq, [], requested accepted authenticates, fun needed => absurd (direct.symm.trans needed) (by decide)⟩
  · intro now
    rw [afterAarq_hlsPending] at now
    obtain ⟨accepted, authenticates, -⟩ := decided.pending now
    rw [association]
    exact ⟨aarq, [], requested accepted authenticates⟩

/-- Every transition keeps the association state justified by the record. -/
theorem Justified.step {hal : Hal} {b : AssocState} (justified : Justified log a) (step : AssocStep hal a event b) :
    Justified (log ++ [event]) b := by
  cases step with
  | setUp idle unasked => exact .of_idle idle unasked
  | disc | cleared | released => exact .of_idle rfl rfl
  | aarq bound decided => exact .of_aarq bound decided
  | verified awaited _ =>
    refine ⟨fun _ => ?_, fun pending => (nomatch pending)⟩
    rcases awaited with associated | pending
    · exact (justified.associated associated).extend rfl
    · obtain ⟨aarq, since, requested⟩ := justified.pending pending
      exact ⟨aarq, _, requested.extend rfl, fun _ => List.mem_append_right _ (List.mem_singleton_self _)⟩
  | _ => exact justified.extend rfl rfl rfl rfl

/-- In every run of a configured server, each request that reaches the dispatcher comes after an
accepted association request for the association in force that nothing has ended since. -/
theorem dispatched_after_authentication {σ : Type} (hal : Hal) (behaviour : Behaviour σ)
    (origin final : Server σ) (fresh : origin.Fresh) (run : Runs hal behaviour origin final)
    (before after : List Event) (service : Service) (target : Descriptor) (association : Option ℕ)
    (reached : final.log = before ++ .dispatched service target association :: after) :
    Established before association := by
  let Now (log : List Event) (event : Event) : Prop :=
    ∀ service target association, event = .dispatched service target association →
      Established log association
  have holds : Now before (.dispatched service target association) := by
    refine (run.history fresh).at_label Justified Now ?_ ?_ ?_ reached
    · exact .of_idle fresh.associated fresh.hlsPending
    · exact fun _ _ _ _ justified step => justified.step step
    · rintro log a event b justified step service target association rfl
      cases step with
      | dispatched associated => exact justified.associated associated
  exact holds service target association rfl

/-- A client that sets up the link, associates without a mechanism and reads an attribute. -/
def readingClient : List (List UInt8) := [snrmFrame, infoFrame 0 plainAarq, infoFrame 1 plainGet]

theorem dispatched_after_authentication_read : ∃ final before after,
      Runs sampleHal sampleBehaviour (sampleServer .hdlc readingClient) final ∧
        final.log = before ++ .dispatched .get sampleAttr (some 0) :: after ∧ Established before (some 0) := by
  have run : (acceptTimes sampleEnv 3 (sampleServer .hdlc readingClient)).map Server.log =
      some ([.link .setUp, .aarq plainRequest (some 0) (some sampleAssociation) true,
          .emitted (acceptingAare 1 0x10) (acceptingAare 1 0x10)] ++
        .dispatched .get sampleAttr (some 0) :: [.emitted plainResponse plainResponse]) := by
    decide +kernel
  obtain ⟨final, reached, log⟩ := Option.map_eq_some_iff.mp run
  have runs := Runs.of_acceptTimes reached
  exact ⟨final, _, _, runs, log,
    dispatched_after_authentication sampleHal sampleBehaviour _ final (sampleServer_fresh _ _) runs _ _ _ _ _ log⟩

/-- A client that sets up the link again while it is connected. -/
def restartingClient : List (List UInt8) :=
  [snrmFrame, infoFrame 0 lowLevelAarq, snrmFrame, infoFrame 0 plainGet]

/-- An association without a mechanism is opened by a request with the low-level mechanism, and the GET
after a second set-up of the link is dispatched under it. -/
theorem dispatched_after_restart :
    aarqMechanismMatchesAssoc lowLevelRequest.mechanism sampleAssociation.authenticationMechanism = false ∧
      ∃ final, Runs sampleHal sampleBehaviour (sampleServer .hdlc restartingClient) final ∧ final.log =
          [.link .setUp, .aarq lowLevelRequest (some 0) (some sampleAssociation) true,
            .emitted (acceptingAare 1 0x15) (acceptingAare 1 0x15), .link .restart, .dispatched .get sampleAttr (some 0),
            .emitted plainResponse plainResponse] := by
  have run : (acceptTimes sampleEnv 4 (sampleServer .hdlc restartingClient)).map Server.log =
      some [.link .setUp, .aarq lowLevelRequest (some 0) (some sampleAssociation) true,
        .emitted (acceptingAare 1 0x15) (acceptingAare 1 0x15), .link .restart, .dispatched .get sampleAttr (some 0),
        .emitted plainResponse plainResponse] := by
    decide +kernel
  obtain ⟨final, reached, log⟩ := Option.map_eq_some_iff.mp run
  exact ⟨by decide, final, Runs.of_acceptTimes reached, log⟩

end OpenSpodes
