import OpenSpodes.Proofs.AcceptFront
import OpenSpodes.Proofs.ServiceTwins

/-! # Accepting an APDU on two servers with different residues

The handshake, the association request and the way an APDU takes through the server. The received bytes are
copied over the receive buffer first, so the buffers of the two servers agree as far as the APDU goes.
-/

namespace OpenSpodes

open Bytes Machine

variable {σ : Type}

section Accept

variable {o : Origin} {rx : ℕ} (env : Env σ) {tx : ℕ} {α : Type} {next : Stage → Program (Server σ) Err}
  {apdu : List UInt8}

/-! ## The third pass of the handshake -/

theorem serverPass4_twin : Twin (Twins o 0 rx) (serverPass4 env) := by
  intro s t twins
  obtain ⟨r, rfl, fits⟩ := id twins
  refine .get_bind ?_
  dsimp only
  rw [show (s.graft r).aa = s.aa from rfl]
  cases hlsPass4Build env.hal 96 s.aa.security with
  | error | ok => exact (transition_twin _ _ s _ twins).bind fun _ s t twins => .pure _ twins

theorem handleHlsPass3_twin (req : ActionRequest) : Twin (Twins o 0 rx) (handleHlsPass3 env req) := by
  intro s t twins
  unfold handleHlsPass3
  cases req.data with
  | octetString fStoc =>
    obtain ⟨r, rfl, fits⟩ := id twins
    refine .ite (fun _ => .pure _ twins) fun _ => .get_bind ?_
    rw [show (s.graft r).aa = s.aa from rfl]
    cases hlsPass3Verify env.hal fStoc s.aa.security with
    | error e ctx =>
      exact (transition_twin _ _ s _ twins).bind fun _ => sendActionResponse_twin env _ _
    | ok u ctx =>
      refine (transition_twin _ _ s _ twins).bind fun _ s t twins => ?_
      obtain ⟨r, rfl, fits⟩ := id twins
      refine .get_bind ((serverMirror_twin _ s _ twins).bind fun _ => ?_)
      refine (serverPass4_twin env).bind fun built => ?_
      cases built with
      | none => exact .pure _
      | some fCtos => exact sendActionResponse_twin env _ _
  | _ => exact .pure _ twins

/-! ## Association requests -/

theorem aarqChallenge_twin (aarq : Aarq) (assoc : Option Association) (mech : Mechanism) :
    Twin (Twins (σ := σ) o 0 rx) (aarqChallenge aarq assoc mech) := by
  intro s t twins
  obtain ⟨r, rfl, fits⟩ := id twins
  refine .get_bind (.ite (fun _ => .pure _ twins) fun _ => .ite (fun _ => .pure _ twins) fun _ => ?_)
  refine (onWire_twinAt 0 rx twins fun w v twins => randomFill_twin _ w v twins).bind fun drawn s t twins => ?_
  cases drawn with
  | none | some => exact .pure _ twins

theorem aarqAuthenticate_twin (aarq : Aarq) (assoc : Option Association) :
    Twin (Twins (σ := σ) o 0 rx) (aarqAuthenticate aarq assoc) := by
  intro s t twins
  obtain ⟨r, rfl, fits⟩ := id twins
  refine .get_bind (.ite (fun _ => ?_) fun _ => .ite (fun _ => ?_) fun _ => .ite (fun _ => ?_) fun _ => ?_)
  · exact .ite (fun _ => .pure _ twins) fun _ => .pure _ twins
  · exact .ite (fun _ => .pure _ twins) fun _ => .pure _ twins
  · exact aarqChallenge_twin aarq assoc _ s _ twins
  · exact .pure _ twins

theorem aarqDecide_twin (aarq : Aarq) (assoc : Option Association) (ireq : Option InitiateRequest) :
    Twin (Twins (σ := σ) o 0 rx) (aarqDecide aarq assoc ireq) := by
  intro s t twins
  obtain ⟨r, rfl, fits⟩ := id twins
  exact .ite (fun _ => .get_bind (.pure _ twins)) fun _ => aarqAuthenticate_twin aarq assoc s _ twins

theorem handleAarq_twin (aarq : Aarq) : Twin (Twins o 0 rx) (handleAarq env aarq) := by
  intro s t twins
  obtain ⟨r, rfl, fits⟩ := id twins
  refine .get_bind ((aarqDecide_twin aarq _ _ s _ twins).bind fun result => ?_)
  refine (transition_twin _ _).bind fun _ => ?_
  cases aareUserInfo aarq (aarqInitiate aarq) result with
  | none => exact .ite ((serverMirror_twin _).bind fun _ => .pure _) (.pure _)
  | some userInfo =>
    exact .ite ((serverMirror_twin _).bind fun _ => sendEncoded_twin env _) (sendEncoded_twin env _)

/-! ## Requests -/

variable {s t : Server σ}

theorem Twins.rxShort (twins : Twins o tx rx s t) : s.wire.rxBuf.length < 2 ^ 32 := by
  obtain ⟨r, rfl, fits⟩ := twins
  exact fits.wire.rxShort

theorem Twins.rxRoom (twins : Twins o tx rx s t) : o.wire.room ≤ s.wire.rxBuf.length := by
  obtain ⟨r, rfl, fits⟩ := twins
  exact fits.wire.rxRoom

/-- The received bytes are the same in both buffers. -/
theorem Twins.rx_agree {len : ℕ} (twins : Twins o 0 len s t) (short : len < 2 ^ 32) :
    Buf.Agree 0 len (s.rx len) (t.rx len) :=
  ⟨rfl, rfl, rfl, le_rfl, Nat.zero_le _, short, twins.rxTake⟩

theorem Twins.rxTag {len : ℕ} (twins : Twins o 0 len s t) (some : 0 < len) : t.rxTag = s.rxTag := by
  have same := congrArg (·.getD 0 0) twins.rxTake
  simpa [Server.rxTag, List.getD_eq_getElem?_getD, List.getElem?_take_of_lt some] using same

/-- The last step of an APDU's way: what was received is not looked at any more. -/
theorem Twins.finish {p : Program (Server σ) α} (twins : Twins o 0 rx s t)
    (twin : Twin (Twins o 0 rx) p) : TwinAt (Twins o 0 0) s t p p :=
  (twin s t twins).mono fun _ _ twins => twins.weaken le_rfl (Nat.zero_le _)

theorem Twins.aa (twins : Twins o tx rx s t) : t.aa = s.aa := by
  obtain ⟨r, rfl, fits⟩ := twins
  rfl

/-- Two servers that hold the same APDU. The first byte of the buffer is the same even when a deciphered APDU
is empty and leaves the ciphered one standing. -/
structure Received (o : Origin) (len : ℕ) (s t : Server σ) : Prop where
  short : len < 2 ^ 32
  all : Twins o 0 (max len 1) s t

namespace Received

variable {len : ℕ}

theorem twins (received : Received o len s t) : Twins o 0 len s t :=
  received.all.weaken le_rfl (le_max_left _ _)

theorem idle (received : Received o len s t) : Twins o 0 0 s t :=
  received.all.weaken le_rfl (Nat.zero_le _)

theorem tag (received : Received o len s t) : t.rxTag = s.rxTag :=
  received.all.rxTag (lt_of_lt_of_le Nat.zero_lt_one (le_max_right _ _))

/-- The received bytes give way to other ones. -/
theorem refill_twinAt (received : Received o len s t) {bytes : List UInt8} (short : bytes.length < 2 ^ 32) :
    TwinAt (Received o bytes.length) s t (onWire (modify (·.fillRx bytes))) (onWire (modify (·.fillRx bytes))) := by
  refine (onWire_twinAt 0 (max bytes.length 1) received.all fun w v twins => ?_).mono fun _ _ twins =>
    ⟨short, twins⟩
  refine .modify ((twins.fillRx short).weaken le_rfl ?_)
  exact max_le (le_max_right _ _) ((le_max_right len 1).trans (le_max_left _ _))

end Received

theorem decodeRequest_twin {decode : Decode α} {len : ℕ} (inside : DecodesLocally decode) (short : len < 2 ^ 32) :
    Twin (Twins (σ := σ) o 0 len) (decodeRequest decode len) := by
  intro s t twins
  have agree : Reader.Agree 0 len ⟨s.rx len, s.objects.pool⟩ ⟨t.rx len, t.objects.pool⟩ := by
    refine ⟨twins.rx_agree short, ?_⟩
    obtain ⟨r, rfl, fits⟩ := twins
    rfl
  have objects : t.objects = s.objects := by
    obtain ⟨r, rfl, fits⟩ := twins
    rfl
  refine .get_bind ?_
  rcases inside 0 len _ _ agree with ⟨req, u, v, left, right, after⟩ | ⟨e, u, v, left, right, after⟩
  · rw [left, right]
    dsimp only
    rw [objects, after.pool]
    exact .set_bind (.pure _ (twins.withObjects _))
  · rw [left, right]
    dsimp only
    rw [objects, after.pool]
    exact .set_bind (.pure _ (twins.withObjects _))

/-- What follows the deciphering of an APDU, whichever way it goes. -/
theorem serverDecipher_bind_twinAt {len : ℕ} (align : Bool) (received : Received o len s t)
    (done : ∀ result, Twin (Twins o 0 0) (next (.done result)))
    (goes : ∀ n s t, Received o n s t → TwinAt (Twins o 0 0) s t (next (.next n)) (next (.next n))) :
    TwinAt (Twins o 0 0) s t (serverDecipher env align len >>= next) (serverDecipher env align len >>= next) := by
  have short := received.all.rxShort
  unfold serverDecipher
  simp only [bind_assoc]
  refine .get_bind ?_
  rw [received.twins.rxTake, received.all.aa, received.all.rxLength]
  cases gloUnprotect env.hal (s.wire.rxBuf.take len) s.aa.cipherRx with
  | error rc rx =>
    simp only [bind_assoc, pure_bind]
    exact (serverSendException_twin env _ _ s t received.idle).bind fun result => done result
  | ok plain rx =>
    simp only [bind_assoc]
    refine (transition_twin _ _ s t received.all).bind fun _ s' t' twins => ?_
    by_cases fits : plain.length ≤ s.wire.rxBuf.length
    · simp only [if_pos fits, bind_assoc, pure_bind]
      have held : Received o len s' t' := ⟨received.short, twins⟩
      exact (held.refill_twinAt (lt_of_le_of_lt fits short)).bind fun _ => goes plain.length
    · simp only [if_neg fits, pure_bind]
      exact done _ _ _ (twins.weaken le_rfl (Nat.zero_le _))

theorem acceptAarq_twinAt {len : ℕ} (twins : Twins o 0 len s t)
    (same : Fallible.outcome aarqDecode (t.rx len) = Fallible.outcome aarqDecode (s.rx len)) :
    TwinAt (Twins o 0 0) s t (acceptAarq env len) (acceptAarq env len) := by
  have none : Twins o 0 0 s t := twins.weaken le_rfl (Nat.zero_le _)
  refine .get_bind ?_
  simp only [Fallible.outcome] at same
  cases left : aarqDecode (s.rx len) with
  | error e b =>
    cases right : aarqDecode (t.rx len) with
    | error e b => exact .pure _ none
    | ok aarq b => simp [left, right] at same
  | ok aarq b =>
    cases right : aarqDecode (t.rx len) with
    | error e b => simp [left, right] at same
    | ok other b =>
      obtain rfl : other = aarq := by simpa [left, right] using same
      exact handleAarq_twin env other s t none

theorem acceptRlrq_twinAt {len : ℕ} (short : len < 2 ^ 32) (twins : Twins o 0 len s t) :
    TwinAt (Twins o 0 0) s t (acceptRlrq env len) (acceptRlrq env len) := by
  have none : Twins o 0 0 s t := twins.weaken le_rfl (Nat.zero_le _)
  refine .get_bind ?_
  rcases rlrqDecode_local 0 len _ _ (twins.rx_agree short) with
    ⟨reason, u, v, left, right, -⟩ | ⟨e, u, v, left, right, -⟩
  · rw [left, right]
    dsimp only
    unfold encodeTx
    simp only [bind_assoc]
    refine .get_bind ?_
    rw [twins.txLength]
    cases rlreEncode 0 (WBuf.init s.wire.txBuf.length) with
    | error e buf =>
      have filled := onWire_twinAt 0 0 none fun w v twins =>
        .modify ((twins.fillTx buf.out).weaken (Nat.zero_le _) le_rfl)
      simp only [bind_assoc, pure_bind]
      exact filled.bind fun _ s t twins => .pure _ twins
    | ok u buf =>
      have filled := onWire_twinAt buf.out.length 0 none fun w v twins =>
        .modify ((twins.fillTx buf.out).weaken (le_max_right _ _) le_rfl)
      simp only [bind_assoc, pure_bind]
      refine filled.bind fun _ s t twins => (transition_twin _ _ s t twins).bind fun _ s t twins => ?_
      refine .modify_bind (serverSend_twinAt env le_rfl ?_)
      obtain ⟨r, rfl, fits⟩ := id twins
      exact twins.withObjects _
  · rw [left, right]
    exact .pure _ none

theorem acceptUnassociated_twinAt {len : ℕ} (received : Received o len s t) :
    TwinAt (Twins o 0 0) s t (acceptUnassociated env len) (acceptUnassociated env len) := by
  refine .get_bind ?_
  dsimp only
  rw [received.all.aa, received.tag]
  refine .ite (fun _ => ?_) fun _ => received.all.finish (serverSendException_twin env _ _)
  refine (decodeRequest_twin (actionRequestDecode_local _) received.short s t received.twins).bind
    fun decoded s t twins => ?_
  cases decoded with
  | none => exact twins.finish (serverSendException_twin env _ _)
  | some req =>
    exact .ite (fun _ => twins.finish (handleHlsPass3_twin env req)) fun _ =>
      twins.finish (serverSendException_twin env _ _)

/-- What follows the reassembly of a block transfer, whichever way it goes. -/
theorem acceptGbt_bind_twinAt {len : ℕ} (received : Received o len s t)
    (done : ∀ result, Twin (Twins o 0 0) (next (.done result)))
    (goes : ∀ n s t, Received o n s t → TwinAt (Twins o 0 0) s t (next (.next n)) (next (.next n))) :
    TwinAt (Twins o 0 0) s t (acceptGbt env len >>= next) (acceptGbt env len >>= next) := by
  have enabled : t.gbtEnabled = s.gbtEnabled := by
    obtain ⟨r, rfl, fits⟩ := received.all
    rfl
  have short := received.all.rxShort
  unfold acceptGbt
  simp only [bind_assoc]
  refine .get_bind ?_
  rw [enabled, received.twins.rxTake, received.all.rxLength]
  cases s.gbtEnabled with
  | false =>
    simp only [Bool.not_false, if_true, pure_bind]
    exact done _ _ _ received.idle
  | true =>
    simp only [Bool.not_true, Bool.false_eq_true, if_false, bind_assoc]
    refine (onWire_twinAt 0 (max len 1) received.all fun w v twins => gbtTransportRecv_twin _ _ _ w v twins).bind
      fun reassembled s' t' twins => ?_
    have none : Twins o 0 0 s' t' := twins.weaken le_rfl (Nat.zero_le _)
    cases reassembled with
    | error err => exact done _ _ _ none
    | ok apdu =>
      by_cases empty : apdu.length = 0
      · simp only [if_pos empty, pure_bind]
        exact done _ _ _ none
      · by_cases long : apdu.length > s.wire.rxBuf.length
        · simp only [if_neg empty, if_pos long, pure_bind]
          exact done _ _ _ none
        · simp only [if_neg empty, if_neg long, bind_assoc, pure_bind]
          have held : Received o len s' t' := ⟨received.short, twins⟩
          exact (held.refill_twinAt (lt_of_le_of_lt (not_lt.1 long) short)).bind fun _ => goes apdu.length

theorem answerMalformed_twin {len : ℕ} (encode : UInt8 → Write Unit) :
    Twin (Twins o 0 len) (answerMalformed env len encode) := by
  intro s t twins
  refine .get_bind ?_
  rw [twins.aa]
  refine .ite (fun _ => ?_) fun _ => .pure _ twins
  by_cases long : len ≥ 3
  · have same : t.wire.rxBuf.getD 2 0 = s.wire.rxBuf.getD 2 0 := by
      have prefixes := congrArg (·.getD 2 0) twins.rxTake
      simpa [List.getD_eq_getElem?_getD, List.getElem?_take_of_lt (show 2 < len from long)] using prefixes
    rw [if_pos long, if_pos long, same]
    exact sendEncoded_twin env _ s t twins
  · rw [if_neg long, if_neg long]
    exact sendEncoded_twin env _ s t twins

theorem acceptService_twinAt {len : ℕ} (received : Received o len s t) :
    TwinAt (Twins o 0 0) s t (acceptService env len) (acceptService env len) := by
  have short := received.short
  have twins := received.twins
  have objects : t.objects = s.objects := by
    obtain ⟨r, rfl, fits⟩ := twins
    rfl
  refine .get_bind ?_
  rw [received.tag, twins.aa, objects]
  refine .ite (fun _ => ?_) fun _ => .ite (fun _ => ?_) fun _ => .ite (fun _ => ?_) fun _ => ?_
  · refine (decodeRequest_twin (getRequestDecode_local _) short s t twins).bind fun decoded s t twins => ?_
    cases decoded with
    | none => exact twins.finish (answerMalformed_twin env _)
    | some req => exact twins.finish (handleGet_twin env req)
  · refine (decodeRequest_twin (setRequestDecode_local _) short s t twins).bind fun decoded s t twins => ?_
    cases decoded with
    | none => exact twins.finish (answerMalformed_twin env _)
    | some req => exact twins.finish (handleSet_twin env req)
  · refine (decodeRequest_twin (actionRequestDecode_local _) short s t twins).bind fun decoded s t twins => ?_
    cases decoded with
    | none => exact twins.finish (.pure _)
    | some req =>
      exact .ite (fun _ => twins.finish (handleHlsPass3_twin env req)) fun _ =>
        twins.finish (handleAction_twin env req)
  · exact .ite (fun _ => twins.finish (serverSendException_twin env _ _)) fun _ => twins.finish (.pure _)

theorem acceptReassembled_twinAt (arrived : Bool) {len : ℕ} (received : Received o len s t) :
    TwinAt (Twins o 0 0) s t (acceptReassembled env arrived len) (acceptReassembled env arrived len) := by
  refine .get_bind ?_
  rw [received.tag, received.all.aa, received.twins.rxTake]
  refine .ite (fun _ => ?_) fun _ => .ite (fun _ => ?_) fun _ => acceptService_twinAt env received
  · exact serverDecipher_bind_twinAt env false received (fun result => .pure _) fun n s t received =>
      acceptService_twinAt env received
  · exact received.all.finish (serverSendException_twin env _ _)

theorem acceptPlain_twinAt (arrived : Bool) {len : ℕ} (received : Received o len s t) :
    TwinAt (Twins o 0 0) s t (acceptPlain env arrived len) (acceptPlain env arrived len) := by
  refine .get_bind ?_
  rw [received.tag, received.all.aa]
  refine .ite (fun _ => acceptUnassociated_twinAt env received) fun _ => .ite (fun _ => ?_) fun _ =>
    acceptReassembled_twinAt env arrived received
  exact acceptGbt_bind_twinAt env received (fun result => .pure _) fun n s t received =>
    acceptReassembled_twinAt env arrived received

/-! ## Whole APDUs -/

/-- An APDU that, if it asks for an association, decodes to the same request whatever stands behind it. -/
def AarqContained (apdu : List UInt8) : Prop :=
  apdu.getD 0 0 = 0x60 ∨ apdu.getD 0 0 = 0x61 → ∀ behind behind' : List UInt8,
    Fallible.outcome aarqDecode ⟨apdu ++ behind, 0, apdu.length⟩ =
      Fallible.outcome aarqDecode ⟨apdu ++ behind', 0, apdu.length⟩

theorem Twins.received (fits : apdu.length ≤ o.wire.room) (some : 0 < apdu.length)
    (twins : Twins o 0 0 s t) : Received o apdu.length (s.received apdu) (t.received apdu) := by
  have short : apdu.length < 2 ^ 32 := lt_of_le_of_lt (fits.trans twins.rxRoom) twins.rxShort
  have filled := onWire_twinAt 0 apdu.length twins fun w v twins =>
    .modify ((twins.fillRx short).weaken le_rfl (le_max_right _ _))
  rw [TwinAt, onWire_fillRx, onWire_fillRx] at filled
  obtain ⟨waits, -⟩ | ⟨_, s', t', left, right, twins⟩ := filled
  · cases waits
  · cases left
    cases right
    exact ⟨short, by rwa [max_eq_left some]⟩

theorem acceptApdu_twinAt (contained : AarqContained apdu) (fits : apdu.length ≤ o.wire.room)
    (twins : Twins o 0 0 s t) : TwinAt (Twins o 0 0) s t (acceptApdu env apdu) (acceptApdu env apdu) := by
  refine .ite (fun _ => .pure _ twins) fun present => ?_
  have received := twins.received fits (Nat.pos_of_ne_zero present)
  have tag := s.received_rxTag (Nat.pos_of_ne_zero present)
  rw [TwinAt, bind_of_some (onWire_fillRx s apdu), bind_of_some (onWire_fillRx t apdu)]
  refine TwinAt.get_bind ?_
  rw [received.tag, received.all.aa]
  refine .ite (fun aarq => ?_) fun _ => .ite (fun _ => ?_) fun _ => .ite (fun _ => ?_) fun _ => ?_
  · rw [tag] at aarq
    exact acceptAarq_twinAt env received.twins (contained aarq _ _)
  · exact acceptRlrq_twinAt env received.short received.twins
  · exact serverDecipher_bind_twinAt env true received (fun result => .pure _) fun n s t received =>
      acceptPlain_twinAt env true received
  · exact acceptPlain_twinAt env false received

end Accept

end OpenSpodes
