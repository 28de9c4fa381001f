import OpenSpodes.Model.AssocLife
import OpenSpodes.Proofs.Quiet

/-! # Decisions on association requests

`secret_eq` collects differences in one byte so that its running time does not depend on the secret;
it is equality all the same. With it, every result of `aarqDecide` is one that the association's
record justifies.
-/

namespace OpenSpodes

open Machine

/-! ## The state behind a decision -/

section Decided

variable (a : AssocState) (aarq : Aarq) (inst : Option ℕ) (ireq : Option InitiateRequest) (result : AarqResult)

/-- A decided request sets security context, flags and association; the rest is ciphering. -/
theorem afterAarq_frame : ∃ tx rx enabled, a.afterAarq aarq inst ireq result =
      { security := result.security, cipherTx := tx, cipherRx := rx, cipheringEnabled := enabled
        associated := result.associated, hlsPending := result.hlsPending
        association := inst.or a.association } := by
  unfold AssocState.afterAarq AssocState.applyCiphering
  cases dedicatedKeyFor ireq result.accepted with
  | none | some => dsimp only [AssocState.useDedicated]; split_ifs <;> exact ⟨_, _, _, rfl⟩

@[simp] theorem afterAarq_security :
    (a.afterAarq aarq inst ireq result).security = result.security := by
  obtain ⟨tx, rx, enabled, same⟩ := afterAarq_frame a aarq inst ireq result
  rw [same]

@[simp] theorem afterAarq_associated :
    (a.afterAarq aarq inst ireq result).associated = result.associated := by
  obtain ⟨tx, rx, enabled, same⟩ := afterAarq_frame a aarq inst ireq result
  rw [same]

@[simp] theorem afterAarq_hlsPending :
    (a.afterAarq aarq inst ireq result).hlsPending = result.hlsPending := by
  obtain ⟨tx, rx, enabled, same⟩ := afterAarq_frame a aarq inst ireq result
  rw [same]

@[simp] theorem afterAarq_association :
    (a.afterAarq aarq inst ireq result).association = inst.or a.association := by
  obtain ⟨tx, rx, enabled, same⟩ := afterAarq_frame a aarq inst ireq result
  rw [same]

end Decided

/-! ## The ciphering contexts -/

section Ciphering

variable (a : AssocState) (ireq : Option InitiateRequest) {aarq : Aarq} {inst : Option ℕ}
  {assoc : Option Association} {result : AarqResult}

/-- A request without ciphering leaves both contexts and takes them out of use. -/
theorem afterAarq_plain (plain : (Event.aarq aarq inst assoc result.accepted).negotiatesCiphering = false) :
    (a.afterAarq aarq inst ireq result).cipherTx = a.cipherTx ∧
      (a.afterAarq aarq inst ireq result).cipherRx = a.cipherRx ∧
      (a.afterAarq aarq inst ireq result).cipheringEnabled = false := by
  have off : !result.accepted ∨ !appContextRequiresCiphering aarq.applicationContext := by
    simpa [Event.negotiatesCiphering, imp_iff_not_or] using plain
  simp only [AssocState.afterAarq, AssocState.applyCiphering, if_pos off]
  exact ⟨rfl, rfl, rfl⟩

/-- The state that the outgoing context starts an association with ciphering from. -/
def AssocState.cipherSource (security : SecContext) : SecContext :=
  if a.cipheringEnabled then a.cipherTx else security

private theorem dedicatedKey_frame (ctx : SecContext) (key : List UInt8) :
    ∃ use dedicated, secCipherApplyDedicatedKey ctx key =
      { ctx with useDedicatedKey := use, dedicatedKey := dedicated } := by
  unfold secCipherApplyDedicatedKey
  split_ifs <;> exact ⟨_, _, rfl⟩

/-- A request with ciphering forgets the peer's counter and keeps counter and policy of the outgoing
context, or takes over those of `security`. -/
theorem afterAarq_ciphering (negotiated : (Event.aarq aarq inst assoc result.accepted).negotiatesCiphering = true) :
    (a.afterAarq aarq inst ireq result).cipheringEnabled = true ∧
      (a.afterAarq aarq inst ireq result).cipherRx.icValid = false ∧
      (a.afterAarq aarq inst ireq result).cipherTx.invocationCounter =
        (a.cipherSource result.security).invocationCounter ∧
      (a.afterAarq aarq inst ireq result).cipherTx.policy = (a.cipherSource result.security).policy := by
  have on : ¬(!result.accepted ∨ !appContextRequiresCiphering aarq.applicationContext) := by
    simpa [Event.negotiatesCiphering] using negotiated
  simp only [AssocState.afterAarq, AssocState.applyCiphering, if_neg on, if_true]
  cases dedicatedKeyFor ireq result.accepted with
  | none => exact ⟨rfl, rfl, rfl, rfl⟩
  | some key =>
    simp only [AssocState.useDedicated]
    obtain ⟨_, _, tx⟩ := dedicatedKey_frame ((a.cipherSource result.security).forAssociation aarq) key.val
    obtain ⟨_, _, rx⟩ := dedicatedKey_frame
      ((if a.cipheringEnabled then a.cipherRx else result.security).forAssociation aarq) key.val
    rw [AssocState.cipherSource] at tx
    rw [tx, rx]
    exact ⟨trivial, rfl, rfl, rfl⟩

end Ciphering

/-! ## The secret -/

private theorem foldl_or_eq_zero (f : ℕ → UInt8) (indices : List ℕ) (init : UInt8) :
    indices.foldl (fun diff i => diff ||| f i) init = 0 ↔ init = 0 ∧ ∀ i ∈ indices, f i = 0 := by
  induction indices generalizing init with
  | nil => simp
  | cons i rest ih =>
    rw [List.foldl_cons, ih, UInt8.or_eq_zero_iff]
    simp [and_assoc]

/-- `secret_eq` is equality of secrets that fit their arrays. -/
theorem secretEq_iff {a b : List UInt8} (left : a.length ≤ 64) (right : b.length ≤ 64) :
    secretEq a b = true ↔ a = b := by
  simp only [secretEq, beq_iff_eq, foldl_or_eq_zero, UInt8.xor_eq_zero_iff, List.mem_range]
  constructor
  · rintro ⟨lengths, bytes⟩
    have same : a.length = b.length := by
      have numbers := congrArg UInt8.toNat lengths
      simp only [UInt8.toNat_ofNat'] at numbers
      omega
    refine List.ext_getElem same fun i inA inB => ?_
    have equal := bytes i (lt_max_of_lt_left inA)
    simpa [inA, inB] using equal
  · rintro rfl
    exact ⟨rfl, fun _ _ => rfl⟩

/-! ## The decision -/

variable {σ : Type}

/-- Two states of a server whose association state, record and link agree. -/
structure Unrecorded (s t : Server σ) : Prop where
  aa : t.aa = s.aa
  log : t.log = s.log
  framing : t.wire.framing = s.wire.framing
  state : t.wire.hdlc.state = s.wire.hdlc.state

instance : IsPreorder (Server σ) Unrecorded where
  refl _ := ⟨rfl, rfl, rfl, rfl⟩
  trans _ _ _ first second :=
    ⟨second.aa.trans first.aa, second.log.trans first.log, second.framing.trans first.framing,
      second.state.trans first.state⟩

/-- Quiet steps of the link layer leave nothing in the record. -/
theorem unrecorded_onWire {α : Type} {program : Program Wire α} (quiet : Keeps Quiet program) :
    Keeps (Unrecorded : Server σ → Server σ → Prop) (onWire program) := by
  refine .zoom fun s => (quiet _).mono fun _ w kept => ?_
  exact ⟨rfl, by simp [kept.2.2], kept.1, kept.2.1⟩

/-- A decision that refuses and keeps counter and policy is always justified. -/
theorem Decided.of_refused {security sec : SecContext} {aarq : Aarq} {assoc : Option Association}
    {reject : Reject} (counter : sec.invocationCounter = security.invocationCounter)
    (policy : sec.policy = security.policy) :
    Decided security aarq assoc { reject := reject, security := sec } where
  associated admitted := nomatch admitted
  pending admitted := nomatch admitted
  counter := counter
  policy := policy

theorem aarqAuthenticate_spec (aarq : Aarq) (assoc : Option Association) (s : Server σ)
    (mechanism : ∀ r, assoc = some r → r.authenticationMechanism = 0 ∨
      aarqMechanismMatchesAssoc aarq.mechanism r.authenticationMechanism = true) : wp (aarqAuthenticate aarq assoc)
      (fun result t => Decided s.aa.security aarq assoc result ∧ Unrecorded s t) s := by
  have same : Unrecorded s s := refl_of Unrecorded s
  have refusal (reject : Reject) :
      Decided s.aa.security aarq assoc { reject := reject, security := s.aa.security } :=
    .of_refused rfl rfl
  have admission (authenticates : Authenticates aarq assoc) (direct : aarq.needsHandshake = false) :
      Decided s.aa.security aarq assoc { security := s.aa.security, associated := true } :=
    ⟨fun _ => ⟨rfl, authenticates, direct⟩, fun admitted => (nomatch admitted), rfl, rfl⟩
  unfold aarqAuthenticate
  simp only [wp_bind, wp_get, wp_ite, wp_pure]
  refine ⟨fun lowest => ⟨fun _ => ⟨refusal _, same⟩, fun _ => ⟨admission ?_ ?_, same⟩⟩, fun _ => ?_⟩
  · exact ⟨mechanism, fun low => absurd (lowest.symm.trans low) (by decide)⟩
  · simp [Aarq.needsHandshake, lowest, Mechanism.ofId, Mechanism.requiresHandshake]
  · refine ⟨fun low => ⟨fun _ => ⟨refusal _, same⟩, fun compared => ⟨admission ?_ ?_, same⟩⟩, fun notLow => ?_⟩
    · refine ⟨mechanism, fun _ => ?_⟩
      cases assoc with
      | none => exact absurd (.inl rfl) compared
      | some r =>
        simp only [Option.map_some, Option.getD_some, not_or, Bool.not_eq_true', Bool.not_eq_false,
          List.length_eq_zero_iff] at compared
        exact ⟨r, rfl, compared.1, (secretEq_iff aarq.callingAuthValue.2 r.secret.2).mp compared.2⟩
    · simp [Aarq.needsHandshake, low, Mechanism.ofId, Mechanism.requiresHandshake]
    · refine ⟨fun _ => ?_, fun _ => ⟨refusal _, same⟩⟩
      -- the handshake branch: a challenge is drawn for a mechanism that the association allows
      have authenticates : Authenticates aarq assoc := ⟨mechanism, fun low => absurd low notLow⟩
      unfold aarqChallenge
      simp only [wp_bind, wp_get, wp_ite, wp_pure]
      refine ⟨fun _ => ⟨.of_refused rfl rfl, same⟩, fun _ => ⟨fun _ => ⟨.of_refused rfl rfl, same⟩, fun _ => ?_⟩⟩
      refine (unrecorded_onWire (keeps_randomFill quietLink _) s).mono fun drawn t kept => ?_
      cases drawn with
      | none =>
        rw [wp_pure]
        exact ⟨.of_refused rfl rfl, kept⟩
      | some bytes =>
        rw [wp_pure]
        exact ⟨⟨fun admitted => Bool.noConfusion admitted, fun _ => ⟨rfl, authenticates, rfl⟩, rfl, rfl⟩, kept⟩

/-- Every decision is justified by the association's record, and changes nothing by itself. -/
theorem aarqDecide_spec (aarq : Aarq) (assoc : Option Association) (ireq : Option InitiateRequest) (s : Server σ) :
    wp (aarqDecide aarq assoc ireq) (fun result t => Decided s.aa.security aarq assoc result ∧ Unrecorded s t) s := by
  unfold aarqDecide
  simp only [wp_ite, wp_bind, wp_get, wp_pure]
  refine ⟨fun _ => ⟨.of_refused rfl rfl, refl_of Unrecorded s⟩, fun passed => ?_⟩
  refine aarqAuthenticate_spec aarq assoc s fun r bound => ?_
  subst bound
  -- a request that passes validation meets its association's demand on the mechanism
  have passed : (aarqValidate aarq (some r) ireq).refused = false := by simpa using passed
  unfold aarqValidate at passed
  dsimp only at passed
  split_ifs at passed with _ _ _ proposal noMechanism
  · exact absurd passed (by decide)
  · exact absurd passed (by decide)
  · exact absurd passed (by decide)
  · exact absurd passed (by simp [proposal])
  · exact .inl noMechanism
  · unfold credentialsValidate at passed
    split_ifs at passed with _ _ _ _ _ mismatch
    case neg => exact .inr (by simpa using mismatch)
    all_goals exact absurd passed (by decide)

end OpenSpodes
