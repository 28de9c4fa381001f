import OpenSpodes.Proofs.AcceptRefines
import OpenSpodes.Proofs.SampleServer

/-! # Replays over a whole run

A server deciphers the same bytes a second time only after it has accepted another association
request with ciphering. The receiving context carries the argument: its last counter covers every
message deciphered since the context was set up, and only such a request sets it up again.
-/

namespace OpenSpodes

open Machine

/-- The receiving context covers what was deciphered since the last request with ciphering. -/
def Remembers (log : List Event) (rx : SecContext) : Prop :=
  ∀ before aligned ciphered title since, log = before ++ .deciphered aligned ciphered title :: since →
    (∃ event ∈ since, event.negotiatesCiphering = true) ∨
      (rx.icValid = true ∧ ∀ body, gloBody ciphered = some body → bodyIc body ≤ rx.lastPeerIc)

theorem Remembers.step {hal : Hal} {log : List Event} {a b : AssocState} {event : Event}
    (remembers : Remembers log a.cipherRx) (step : AssocStep hal a event b) :
    Remembers (log ++ [event]) b.cipherRx := by
  intro before aligned ciphered title since split
  rcases append_singleton_split split with ⟨rfl, rfl, rfl⟩ | ⟨rest, rfl, inside⟩
  · -- the message of this very step: its counter is the one recorded
    cases step with
    | deciphered _ opened =>
      obtain ⟨body, accepts, rfl⟩ := gloUnprotect_ok opened
      refine .inr ⟨rfl, fun other parsed => ?_⟩
      obtain rfl : body = other := Option.some.inj (accepts.parsed.symm.trans parsed)
      exact UInt32.le_refl _
  · rcases remembers _ _ _ _ _ inside with ⟨other, member, negotiates⟩ | ⟨valid, covered⟩
    · exact .inl ⟨other, List.mem_append_left _ member, negotiates⟩
    · cases step with
      | aarq bound decided =>
        cases negotiated : (Event.aarq _ _ _ _).negotiatesCiphering with
        | true => exact .inl ⟨_, List.mem_append_right _ (List.mem_singleton_self _), negotiated⟩
        | false =>
          rw [(afterAarq_plain _ _ negotiated).2.1]
          exact .inr ⟨valid, covered⟩
      | deciphered _ opened =>
        obtain ⟨body, accepts, rfl⟩ := gloUnprotect_ok opened
        exact .inr ⟨rfl, fun other parsed =>
          UInt32.le_trans (covered other parsed) (UInt32.le_of_lt (accepts.fresh valid))⟩
      | _ => exact .inr ⟨valid, covered⟩

/-- In every run of a configured server, two decipherings of the same bytes lie on both sides of an
accepted association request with ciphering. -/
theorem replay_needs_new_association {σ : Type} (hal : Hal) (behaviour : Behaviour σ)
    (origin final : Server σ) (fresh : origin.Fresh) (run : Runs hal behaviour origin final)
    (before between after : List Event) (first second : Bool) (ciphered : List UInt8) (title titleAgain : SystemTitle)
    (twice : final.log = before ++ .deciphered first ciphered title ::
      (between ++ .deciphered second ciphered titleAgain :: after)) :
    ∃ event ∈ between, event.negotiatesCiphering = true := by
  have occurs : final.log = (before ++ .deciphered first ciphered title :: between) ++
      .deciphered second ciphered titleAgain :: after := by simpa using twice
  let Now (log : List Event) (event : Event) : Prop :=
    ∀ before first ciphered title between second titleAgain,
      event = .deciphered second ciphered titleAgain →
      log = before ++ .deciphered first ciphered title :: between →
      ∃ event ∈ between, event.negotiatesCiphering = true
  have holds : Now (before ++ .deciphered first ciphered title :: between)
      (.deciphered second ciphered titleAgain) := by
    refine (run.history fresh).at_label (fun log a => Remembers log a.cipherRx) Now ?_ ?_ ?_ occurs
    · intro before aligned ciphered title since split
      simp at split
    · exact fun _ _ _ _ remembers step => remembers.step step
    · rintro log a event b remembers step before first ciphered title between second titleAgain rfl split
      rcases remembers _ _ _ _ _ split with negotiated | ⟨valid, covered⟩
      · exact negotiated
      · cases step with
        | deciphered _ opened =>
          obtain ⟨body, accepts, -⟩ := gloUnprotect_ok opened
          exact absurd (accepts.fresh valid) (UInt32.not_lt.mpr (covered body accepts.parsed))
  exact holds _ _ _ _ _ _ _ rfl rfl

theorem replay_needs_new_association_repeated : ∃ final before between after,
      Runs sampleHal sampleBehaviour (secureServer replayingClient) final ∧
        final.log = before ++ .deciphered true (cipheredGet .encrAuth 1) clientTitle ::
          (between ++ .deciphered true (cipheredGet .encrAuth 1) clientTitle :: after) ∧
        ∃ event ∈ between, event.negotiatesCiphering = true := by
  obtain ⟨final, reached, log⟩ := Option.map_eq_some_iff.mp replayingClient_log
  have runs := Runs.of_acceptTimes reached
  have twice : final.log = openedLog ++ .deciphered true (cipheredGet .encrAuth 1) clientTitle ::
      ((answeredLog .encrAuth 2 ++ releasedLog ++ openedLog) ++
        .deciphered true (cipheredGet .encrAuth 1) clientTitle :: answeredLog .encrAuth 2) := by
    simpa [readLog] using log
  exact ⟨final, _, _, _, runs, twice,
    replay_needs_new_association sampleHal sampleBehaviour _ final (secureServer_fresh _) runs
      _ _ _ _ _ _ _ _ twice⟩

/-- The repeated GET is deciphered and dispatched both times. -/
theorem replay_accepted_after_reassociation :
    ∃ final, Runs sampleHal sampleBehaviour (secureServer replayingClient) final ∧
      final.log = openedLog ++ readLog .encrAuth 1 2 ++ releasedLog ++ openedLog ++ readLog .encrAuth 1 2 := by
  obtain ⟨final, reached, log⟩ := Option.map_eq_some_iff.mp replayingClient_log
  exact ⟨final, Runs.of_acceptTimes reached, log⟩

end OpenSpodes
