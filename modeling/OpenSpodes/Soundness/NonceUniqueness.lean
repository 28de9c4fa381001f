import Mathlib.Data.List.Nodup
import OpenSpodes.Proofs.AcceptRefines
import OpenSpodes.Proofs.HlsFrame
import OpenSpodes.Proofs.SampleServer

/-! # Keys and vectors are not used twice

The server draws initialisation vectors from two counters: that of its own context, for the GMAC of
the fourth pass, and that of the outgoing context, for ciphered messages. Everything used so far lies
below the larger of the two, so a vector is new when the counter it is drawn from is not behind the
other one. A run whose transitions all meet that condition uses no pair of key and vector twice; an
association that is opened a second time does not meet it.
-/

namespace OpenSpodes

open Bytes Machine

def Event.nonce? : Event → Option Nonce
  | .sealed nonce | .pass4 nonce => nonce
  | _ => none

/-- All keys and vectors of a record, in the order of use. -/
def usedNonces (log : List Event) : List Nonce := log.filterMap Event.nonce?

/-- The condition on a transition: the counter that is drawn from, or that the outgoing context starts
from, is not behind the other one, and no counter passes its last value. -/
def CountersApart (a : AssocState) (event : Event) : Prop :=
  match event with
  | .aarq _ _ _ _ => event.negotiatesCiphering = true → a.cipheringEnabled = false →
      a.cipherTx.invocationCounter ≤ a.security.invocationCounter
  | .pass4 _ => a.security.mechanism = .hlsGmac →
      a.cipherTx.invocationCounter ≤ a.security.invocationCounter
  | .sealed _ => a.cipherTx.policy ≠ .none →
      a.security.invocationCounter ≤ a.cipherTx.invocationCounter ∧
        a.cipherTx.invocationCounter ≠ 0xFFFFFFFF
  | .deciphered true ciphered _ => ∀ body, gloBody ciphered = some body → bodyIc body ≠ 0xFFFFFFFF
  | _ => True

/-- A run whose transitions all meet the condition. -/
structure RunsApart {σ : Type} (hal : Hal) (behaviour : Behaviour σ) (origin final : Server σ) : Prop where
  run : Runs hal behaviour origin final
  history : History (fun a event b => AssocStep hal a event b ∧ CountersApart a event)
    origin.aa final.log final.aa

/-! ## What was used lies below the counters -/

def AssocState.watermark (a : AssocState) : ℕ :=
  max a.security.invocationCounter.toNat a.cipherTx.invocationCounter.toNat

def Nonce.Below (nonce : Nonce) (bound : ℕ) : Prop :=
  ∃ key title ic, nonce = (key, buildIv title ic) ∧ ic.toNat < bound

theorem Nonce.Below.mono {nonce : Nonce} {bound larger : ℕ} (below : nonce.Below bound)
    (le : bound ≤ larger) : nonce.Below larger := by
  obtain ⟨key, title, ic, rfl, lt⟩ := below
  exact ⟨key, title, ic, rfl, lt.trans_le le⟩

/-- Nothing was used twice, and everything used lies below the counters. -/
structure UsedOnce (log : List Event) (a : AssocState) : Prop where
  nodup : (usedNonces log).Nodup
  below : ∀ nonce ∈ usedNonces log, nonce.Below a.watermark

variable {log : List Event} {a b : AssocState} {event : Event}

theorem UsedOnce.quiet (once : UsedOnce log a) (quiet : event.nonce? = none) (le : a.watermark ≤ b.watermark) :
    UsedOnce (log ++ [event]) b := by
  have same : usedNonces (log ++ [event]) = usedNonces log := by simp [usedNonces, quiet]
  constructor
  · rw [same]
    exact once.nodup
  · rw [same]
    exact fun nonce member => (once.below nonce member).mono le

theorem UsedOnce.use {key : List UInt8} {title : SystemTitle} {ic : UInt32} (once : UsedOnce log a)
    (used : event.nonce? = some (key, buildIv title ic)) (new : a.watermark ≤ ic.toNat)
    (next : ic.toNat < b.watermark) : UsedOnce (log ++ [event]) b := by
  have grown : usedNonces (log ++ [event]) = usedNonces log ++ [(key, buildIv title ic)] := by
    simp [usedNonces, used]
  have unused : (key, buildIv title ic) ∉ usedNonces log := by
    intro member
    obtain ⟨key', title', ic', same, lt⟩ := once.below _ member
    obtain ⟨-, rfl⟩ := buildIv_injective (Prod.mk.inj same).2
    exact absurd (lt.trans_le new) (lt_irrefl _)
  constructor
  · rw [grown]
    refine List.nodup_append.mpr ⟨once.nodup, List.nodup_singleton _, ?_⟩
    rintro nonce member other single rfl
    exact unused (List.mem_singleton.mp single ▸ member)
  · rw [grown]
    intro nonce member
    rcases List.mem_append.mp member with old | new'
    · exact (once.below nonce old).mono (new.trans next.le)
    · exact ⟨key, title, ic, List.mem_singleton.mp new', next⟩

private theorem watermark_le (own : a.security.invocationCounter.toNat ≤ b.security.invocationCounter.toNat)
    (outgoing : a.cipherTx.invocationCounter.toNat ≤ b.cipherTx.invocationCounter.toNat) : a.watermark ≤ b.watermark :=
  max_le_max own outgoing

private theorem watermark_afterAarq {aarq : Aarq} {inst : Option ℕ} {assoc : Option Association}
    (ireq : Option InitiateRequest) {result : AarqResult}
    (counter : result.security.invocationCounter = a.security.invocationCounter)
    (apart : CountersApart a (.aarq aarq inst assoc result.accepted)) :
    a.watermark ≤ (a.afterAarq aarq inst ireq result).watermark := by
  cases negotiated : (Event.aarq aarq inst assoc result.accepted).negotiatesCiphering with
  | false =>
    refine watermark_le ?_ ?_
    · rw [afterAarq_security, counter]
    · rw [(afterAarq_plain a ireq negotiated).1]
  | true =>
    obtain ⟨-, -, tx, -⟩ := afterAarq_ciphering a ireq negotiated
    cases inUse : a.cipheringEnabled with
    | true =>
      rw [AssocState.cipherSource, if_pos inUse] at tx
      exact watermark_le (by rw [afterAarq_security, counter]) (by rw [tx])
    | false =>
      -- the outgoing context starts over from the own one, which has to be ahead
      have ahead := UInt32.le_iff_toNat_le.mp (apart negotiated inUse)
      unfold AssocState.watermark
      rw [max_eq_left ahead, afterAarq_security, counter]
      exact le_max_left _ _

private theorem align_counter {tx rx : SecContext} (more : rx.lastPeerIc ≠ 0xFFFFFFFF) :
    tx.invocationCounter.toNat ≤ (tx.align rx).invocationCounter.toNat := by
  unfold SecContext.align
  split_ifs with valid behind
  · exact (UInt32.le_iff_toNat_le.mp behind).trans (toNat_succ more ▸ Nat.le_succ _)
  · exact le_rfl
  · exact le_rfl

/-- Every transition that meets the condition uses at most one new pair. -/
theorem UsedOnce.step {hal : Hal} (once : UsedOnce log a) (step : AssocStep hal a event b)
    (apart : CountersApart a event) : UsedOnce (log ++ [event]) b := by
  cases step with
  | aarq _ decided => exact once.quiet rfl (watermark_afterAarq _ decided.counter apart)
  | verified _ accepted =>
    exact once.quiet rfl (watermark_le (by rw [(hlsPass3Verify_ok accepted).invocationCounter]) le_rfl)
  | refused failed =>
    exact once.quiet rfl (watermark_le (by rw [(hlsPass3Verify_error failed).invocationCounter]) le_rfl)
  | pass4Failed failed => exact once.quiet rfl (watermark_le (hlsPass4Build_error failed).le le_rfl)
  | pass4 built =>
    by_cases gmac : a.security.mechanism = .hlsGmac
    · obtain ⟨more, next⟩ := hlsPass4Build_gmac gmac built
      have used : (Event.pass4 (pass4Nonce a.security)).nonce? =
          some (a.security.guek.toList.take 16,
            buildIv a.security.systemTitle a.security.invocationCounter) := by
        simp [Event.nonce?, pass4Nonce, gmac]
      refine once.use used ?_ ?_
      · exact max_le le_rfl (UInt32.le_iff_toNat_le.mp (apart gmac))
      · refine lt_max_of_lt_left ?_
        rw [next, toNat_succ more]
        exact Nat.lt_succ_self _
    · exact once.quiet (by simp [Event.nonce?, pass4Nonce, gmac])
        (watermark_le (hlsPass4Build_ok built).le le_rfl)
  | @deciphered aligned ciphered plain rx _ opened =>
    refine once.quiet rfl (watermark_le le_rfl ?_)
    cases aligned with
    | false => exact le_rfl
    | true =>
      obtain ⟨body, accepts, rfl⟩ := gloUnprotect_ok opened
      have more : (a.cipherRx.accepted body).lastPeerIc ≠ 0xFFFFFFFF := apart body accepts.parsed
      exact align_counter more
  | sealed _ =>
    by_cases plain : a.cipherTx.policy = .none
    · refine once.quiet (by simp [Event.nonce?, gloNonce, plain]) (watermark_le le_rfl ?_)
      unfold SecContext.advance
      split_ifs with last
      · exact le_rfl
      · exact toNat_succ last ▸ Nat.le_succ _
    · obtain ⟨ahead, more⟩ := apart plain
      have used : ∃ key, (Event.sealed (gloNonce a.cipherTx)).nonce? =
          some (key, buildIv a.cipherTx.systemTitle a.cipherTx.invocationCounter) := by
        simp [Event.nonce?, gloNonce, plain, gloBuildIvTx]
      obtain ⟨key, used⟩ := used
      refine once.use used ?_ ?_
      · exact max_le (UInt32.le_iff_toNat_le.mp ahead) le_rfl
      · refine lt_max_of_lt_right ?_
        simp only [SecContext.advance, if_neg more, toNat_succ more]
        exact Nat.lt_succ_self _
  | _ => exact once.quiet rfl le_rfl

/-- In a run whose transitions all meet the condition, all pairs of key and vector are distinct. -/
theorem nonces_distinct {σ : Type} (hal : Hal) (behaviour : Behaviour σ) (origin final : Server σ)
    (runs : RunsApart hal behaviour origin final) : (usedNonces final.log).Nodup := by
  have once : UsedOnce final.log final.aa := by
    refine runs.history.invariant ?_ ?_
    · exact ⟨List.nodup_nil, fun _ member => absurd member List.not_mem_nil⟩
    · exact fun _ _ _ _ once step => once.step step.1 step.2
  exact once.nodup

/-! ## Two runs -/

/-- A client that reads the attribute twice in one association. -/
def readingTwice : List (List UInt8) := [cipheringAarq, cipheredGet .encrAuth 1, cipheredGet .encrAuth 3]

/-- The state of the associations behind the accepted request. -/
private def opened : AssocState :=
  let a := (secureServer readingTwice).aa
  a.afterAarq cipheringRequest (some 0) none { security := a.security, associated := true }

private def AssocState.readRx (a : AssocState) (request : UInt32) : SecContext :=
  { a.cipherRx with lastPeerIc := request, icValid := true, policy := .encrAuth }

private def AssocState.readTx (a : AssocState) (request : UInt32) : SecContext :=
  a.cipherTx.align (a.readRx request)

private def AssocState.answer (a : AssocState) (request : UInt32) : Option (List UInt8) :=
  gloProtect sampleHal (a.readTx request) (svcCipherTagForPlain (a.readTx request) 0xC4) plainResponse

private def AssocState.readEvents (a : AssocState) (request : UInt32) : List Event :=
  [.deciphered true (cipheredGet .encrAuth request) a.cipherRx.peerSystemTitle,
    .dispatched .get sampleAttr a.association, .sealed (gloNonce (a.readTx request)),
    .emitted plainResponse ((a.answer request).getD [])]

private def AssocState.afterRead (a : AssocState) (request : UInt32) : AssocState :=
  { a with cipherRx := a.readRx request, cipherTx := (a.readTx request).advance }

/-- What has to hold for the GET to be read so, with counters that meet the condition. -/
private def AssocState.reads (a : AssocState) (request : UInt32) : Bool :=
  a.cipheringEnabled && a.associated && (a.answer request).isSome &&
    (match gloUnprotect sampleHal (cipheredGet .encrAuth request) a.cipherRx with
      | .ok plain rx => decide (plain = plainGet ∧ rx = a.readRx request)
      | .error _ _ => false) &&
    decide ((gloBody (cipheredGet .encrAuth request)).map bodyIc = some request ∧ request ≠ 0xFFFFFFFF ∧
      a.security.invocationCounter ≤ (a.readTx request).invocationCounter ∧
      (a.readTx request).invocationCounter ≠ 0xFFFFFFFF)

private theorem opened_history : History (fun a event b => AssocStep sampleHal a event b ∧ CountersApart a event)
      (secureServer readingTwice).aa openedLog opened := by
  have decided : Decided (secureServer readingTwice).aa.security cipheringRequest (some sampleAssociation)
      { security := (secureServer readingTwice).aa.security, associated := true } := by
    refine ⟨fun _ => ⟨rfl, ⟨?_, fun low => absurd low (by decide)⟩, by decide⟩, fun pending => (nomatch pending),
      rfl, rfl⟩
    rintro record ⟨⟩
    exact .inl rfl
  have requested : AssocStep sampleHal (secureServer readingTwice).aa
      (.aarq cipheringRequest (some 0) (some sampleAssociation) true) opened :=
    @AssocStep.aarq _ _ _ (some 0) _ none _ (fun absent => absurd absent (by decide)) decided
  refine .extend (.extend .start ⟨requested, fun _ _ => UInt32.le_refl _⟩) ⟨.emitted ?_, trivial⟩
  exact fun _ ciphered => absurd ciphered (by decide)

private theorem read_history {origin : AssocState} {request : UInt32}
    (history : History (fun a event b => AssocStep sampleHal a event b ∧ CountersApart a event) origin log a)
    (reads : a.reads request = true) :
    History (fun a event b => AssocStep sampleHal a event b ∧ CountersApart a event) origin
      (log ++ a.readEvents request) (a.afterRead request) := by
  simp only [AssocState.reads, Bool.and_eq_true, decide_eq_true_eq] at reads
  obtain ⟨⟨⟨⟨enabled, associated⟩, answered⟩, deciphers⟩, parsed, more, ahead, moreTx⟩ := reads
  cases outcome : gloUnprotect sampleHal (cipheredGet .encrAuth request) a.cipherRx with
  | error rc rx => simp [outcome] at deciphers
  | ok plain rx =>
    simp only [outcome, decide_eq_true_eq] at deciphers
    obtain ⟨rfl, rfl⟩ := deciphers
    obtain ⟨body, parsed, counter⟩ := Option.map_eq_some_iff.mp parsed
    have fresh : ∀ other, gloBody (cipheredGet .encrAuth request) = some other → bodyIc other ≠ 0xFFFFFFFF := by
      intro other found
      obtain rfl : body = other := Option.some.inj (parsed.symm.trans found)
      rw [counter]
      exact more
    have answer : a.answer request = some ((a.answer request).getD []) := by
      rw [Option.getD_of_ne_none (Option.isSome_iff_ne_none.mp answered)]
    have kept : (a.readTx request).advance.policy = (a.readTx request).policy ∧
        (a.readTx request).advance.suite = (a.readTx request).suite := by
      unfold SecContext.advance
      split_ifs <;> exact ⟨rfl, rfl⟩
    have received : AssocStep sampleHal a
        (.deciphered true (cipheredGet .encrAuth request) a.cipherRx.peerSystemTitle)
        { a with cipherRx := a.readRx request, cipherTx := a.readTx request } :=
      .deciphered enabled outcome
    have dispatched : AssocStep sampleHal { a with cipherRx := a.readRx request, cipherTx := a.readTx request }
        (.dispatched .get sampleAttr a.association)
        { a with cipherRx := a.readRx request, cipherTx := a.readTx request } :=
      .dispatched associated
    have sealed : AssocStep sampleHal { a with cipherRx := a.readRx request, cipherTx := a.readTx request }
        (.sealed (gloNonce (a.readTx request))) (a.afterRead request) :=
      .sealed enabled
    have protects : Protects sampleHal (a.afterRead request) plainResponse ((a.answer request).getD []) :=
      fun _ _ => ⟨a.readTx request, kept.1.symm, kept.2.symm, answer⟩
    have whole := (((history.extend ⟨received, fresh⟩).extend ⟨dispatched, trivial⟩).extend
      ⟨sealed, fun _ => ⟨ahead, moreTx⟩⟩).extend ⟨.emitted protects, trivial⟩
    simpa [AssocState.readEvents] using whole

private theorem readingTwice_runs : ∃ final, RunsApart sampleHal sampleBehaviour (secureServer readingTwice) final := by
  have run : (acceptTimes sampleEnv 3 (secureServer readingTwice)).map (fun s => (s.log, s.aa)) =
      some (openedLog ++ opened.readEvents 1 ++ (opened.afterRead 1).readEvents 3,
        (opened.afterRead 1).afterRead 3) := by
    decide +kernel
  obtain ⟨final, reached, state⟩ := Option.map_eq_some_iff.mp run
  obtain ⟨log, aa⟩ := Prod.mk.inj state
  have first : opened.reads 1 = true := by decide +kernel
  have second : (opened.afterRead 1).reads 3 = true := by decide +kernel
  refine ⟨final, Runs.of_acceptTimes reached, ?_⟩
  rw [log, aa]
  exact read_history (read_history opened_history first) second

theorem nonces_distinct_read : ∃ final, RunsApart sampleHal sampleBehaviour (secureServer readingTwice) final ∧
      (usedNonces final.log).Nodup := by
  obtain ⟨final, runs⟩ := readingTwice_runs
  exact ⟨final, runs, nonces_distinct sampleHal sampleBehaviour _ final runs⟩

/-- An association that is released and opened again repeats the vectors of the first one. -/
theorem nonces_repeat_after_reassociation :
    ∃ final, Runs sampleHal sampleBehaviour (secureServer replayingClient) final ∧ ¬(usedNonces final.log).Nodup := by
  obtain ⟨final, reached, log⟩ := Option.map_eq_some_iff.mp replayingClient_log
  refine ⟨final, Runs.of_acceptTimes reached, ?_⟩
  rw [log]
  decide +kernel

end OpenSpodes
