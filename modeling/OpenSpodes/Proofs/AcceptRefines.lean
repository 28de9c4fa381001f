import OpenSpodes.Proofs.ServerRefines

/-! # Runs of a server are histories of its associations

Each stage of `serverAccept` is one of three kinds: it answers, it serves an association, or it
establishes one. Together with what the link layer can do, every call of a run advances the record
by a history of the abstract system; an HDLC server with an association or a handshake stays connected
meanwhile, so that a new set-up of the link never meets one.
-/

namespace OpenSpodes

open Machine

variable {σ : Type} (env : Env σ) {hal : Hal} {behaviour : Behaviour σ} {event : Event}
  {change : AssocState → AssocState}

/-! ## Establishing an association -/

theorem transition_advances {s : Server σ} (step : AssocStep hal s.aa event (change s.aa)) :
    KeepsAt (Advances hal) s (transition event change) := by
  rw [KeepsAt, transition, wp_modify]
  exact advances_transition change step

theorem transition_answers {s : Server σ} (step : AssocStep hal s.aa event (change s.aa))
    (associated : (change s.aa).associated = s.aa.associated) : KeepsAt (Answers hal) s (transition event change) := by
  rw [KeepsAt, transition, wp_modify]
  exact ⟨advances_transition change step, associated⟩

theorem serverPass4_answers : Keeps (Answers env.hal) (serverPass4 env) := by
  refine .get_bind fun s => ?_
  dsimp only
  cases built : hlsPass4Build env.hal 96 s.aa.security with
  | error rc ctx => exact (transition_answers (.pass4Failed built) rfl).bind fun _ => .pure _
  | ok value ctx => exact (transition_answers (.pass4 built) rfl).bind fun _ => .pure _

/-- The third pass, where an association exists or waits for it. -/
theorem handleHlsPass3_spec (req : ActionRequest) (s : Server σ)
    (awaited : s.aa.associated = true ∨ s.aa.hlsPending = true) : wp (handleHlsPass3 env req)
      (fun _ t => Advances env.hal s t ∧ (s.aa.associated = true → t.aa.associated = true)) s := by
  have same : Advances env.hal s s ∧ (s.aa.associated = true → s.aa.associated = true) :=
    ⟨refl_of (Advances env.hal) s, id⟩
  have answered {program : Program (Server σ) Err} (answers : KeepsAt (Answers env.hal) s program) :
      wp program
        (fun _ t => Advances env.hal s t ∧ (s.aa.associated = true → t.aa.associated = true)) s :=
    wp.mono answers fun _ t kept => ⟨kept.toAdvances, kept.associated.trans⟩
  unfold handleHlsPass3
  cases req.data with
  | octetString fStoc =>
    simp only [wp_ite, wp_pure]
    refine ⟨fun _ => same, fun _ => ?_⟩
    rw [wp_bind, wp_get]
    cases verdict : hlsPass3Verify env.hal fStoc s.aa.security with
    | error rc ctx =>
      exact answered ((transition_answers (.refused verdict) rfl).bind fun _ =>
        (answers_send env).sendActionResponse _ _)
    | ok u ctx =>
      rw [wp_bind, transition, wp_modify]
      have entered := advances_transition
        (fun a : AssocState => { a with security := ctx, associated := true, hlsPending := false })
        (AssocStep.verified awaited verdict)
      refine wp.mono ?_ fun _ t (rest : Answers env.hal _ t) =>
        ⟨entered.trans rest.toAdvances, fun _ => rest.associated⟩
      refine Keeps.bind .get (fun _ => .bind (keeps_answers (unrecorded_serverMirror _)) fun _ => ?_) _
      refine .bind (serverPass4_answers env) fun built => ?_
      cases built with
      | none => exact .pure _
      | some fCtos => exact (answers_send env).sendActionResponse _ _
  | _ => exact (wp_pure _ _ _).mpr same

/-- Deciding an association request is one transition, whatever becomes of the response. -/
theorem handleAarq_advances (aarq : Aarq) : Keeps (Advances env.hal) (handleAarq env aarq) := by
  refine .get_bind fun s => ?_
  rw [KeepsAt, wp_bind]
  refine (aarqDecide_spec aarq _ _ s).mono fun result t outcome => ?_
  obtain ⟨decided, same⟩ := outcome
  refine KeepsAt.after same.advances ?_
  have bound : s.pickAssociation aarq.mechanism = none → t.aa.association = none := by
    intro unbound
    rw [same.aa]
    simp only [Server.pickAssociation, Option.orElse_eq_orElse, Option.orElse_eq_or, Option.or_eq_none_iff] at unbound
    exact unbound.2.2
  refine (transition_advances (.aarq bound (same.aa ▸ decided))).bind fun _ => ?_
  have mirrored (inst : Option ℕ) : Keeps (Advances (σ := σ) env.hal) (serverMirror inst) :=
    keeps_advances (keeps_answers (unrecorded_serverMirror inst))
  cases aareUserInfo aarq (aarqInitiate aarq) result with
  | none => exact .ite (.bind (mirrored _) fun _ => .pure _) (.pure _)
  | some userInfo =>
    have respond := keeps_advances (sendEncoded_answers env (aareEncode (aareFor aarq result userInfo)))
    exact .ite (.bind (mirrored _) fun _ => respond) respond

/-! ## The stages of an APDU -/

theorem decodeRequest_unrecorded {α : Type} (decode : Decode α) (len : ℕ) :
    Keeps (Unrecorded : Server σ → Server σ → Prop) (decodeRequest decode len) := by
  refine .get_bind fun s => ?_
  cases decode ⟨s.rx len, s.objects.pool⟩ with
  | ok | error => exact .set_bind ⟨rfl, rfl, rfl, rfl⟩ (.pure _)

theorem serverDecipher_answers {align : Bool} {len : ℕ} {s : Server σ}
    (enabled : s.aa.cipheringEnabled = true) : KeepsAt (Answers env.hal) s (serverDecipher env align len) := by
  unfold serverDecipher
  rw [KeepsAt, wp_bind, wp_get]
  dsimp only
  cases opened : gloUnprotect env.hal (s.wire.rxBuf.take len) s.aa.cipherRx with
  | error rc ctx => exact (serverSendException_answers env _ _ s).bind fun _ => .pure _
  | ok plain rx =>
    refine (transition_answers (.deciphered enabled opened) rfl).bind fun _ => .ite ?_ (.pure _)
    exact .bind (keeps_answers (unrecorded_onWire (keeps_fillRx quietLink _))) fun _ => .pure _

theorem acceptAarq_advances (len : ℕ) : Keeps (Advances env.hal) (acceptAarq env len) := by
  refine .bind .get fun s => ?_
  cases aarqDecode (s.rx len) with
  | error e buf => exact .pure _
  | ok aarq buf => exact handleAarq_advances env aarq

theorem acceptRlrq_advances (len : ℕ) : Keeps (Advances env.hal) (acceptRlrq env len) := by
  refine .bind .get fun s => ?_
  cases rlrqDecode (s.rx len) with
  | error e buf => exact .pure _
  | ok reason buf =>
    refine .bind (keeps_advances (keeps_answers (unrecorded_encodeTx _))) fun encoded => ?_
    cases encoded with
    | none => exact .pure _
    | some sendLen =>
      refine .bind (fun _ => transition_advances .released) fun _ => ?_
      refine .bind (.modify fun _ => Unrecorded.advances ⟨rfl, rfl, rfl, rfl⟩) fun _ => ?_
      exact keeps_advances (serverSend_answers env _)

theorem acceptUnassociated_advances (len : ℕ) : Keeps (Advances env.hal) (acceptUnassociated env len) := by
  have refuse : Keeps (Advances env.hal) (serverSendException env 1 1) :=
    keeps_advances (serverSendException_answers env _ _)
  refine .get_bind fun s => .ite (fun pending => ?_) fun _ => refuse s
  rw [KeepsAt, wp_bind]
  refine (decodeRequest_unrecorded _ len s).mono fun decoded t same => KeepsAt.after same.advances ?_
  cases decoded with
  | none => exact refuse t
  | some req =>
    refine .ite (fun _ => ?_) fun _ => refuse t
    have awaited : t.aa.hlsPending = true := by rw [same.aa]; exact pending.1
    exact wp.mono (handleHlsPass3_spec env req t (.inr awaited)) fun _ _ kept => kept.1

theorem acceptGbt_unrecorded (len : ℕ) : Keeps (Unrecorded : Server σ → Server σ → Prop) (acceptGbt env len) := by
  refine .bind .get fun s => .ite (.pure _) ?_
  refine .bind (unrecorded_onWire (keeps_gbtTransportRecv quietLink _ _ _)) fun received => ?_
  cases received with
  | error err => exact .pure _
  | ok apdu =>
    refine .ite (.pure _) (.ite (.pure _) ?_)
    exact .bind (unrecorded_onWire (keeps_fillRx quietLink _)) fun _ => .pure _

theorem acceptGbt_answers (len : ℕ) : Keeps (Answers env.hal) (acceptGbt env len) :=
  keeps_answers (acceptGbt_unrecorded env len)

theorem answerMalformed_answers (len : ℕ) (encode : UInt8 → Write Unit) :
    Keeps (Answers env.hal) (answerMalformed env len encode) :=
  .bind .get fun _ => .ite (sendEncoded_answers env _) (.pure _)

theorem handleHlsPass3_serves (req : ActionRequest) : Keeps (Serves env.hal) (handleHlsPass3 env req) := by
  intro s result t returned associated
  obtain ⟨advanced, kept⟩ := handleHlsPass3_spec env req s (.inl associated) result t returned
  exact ⟨advanced, kept associated⟩

theorem acceptService_serves (len : ℕ) : Keeps (Serves env.hal) (acceptService env len) := by
  have decoded {α : Type} (decode : Decode α) :
      Keeps (Serves env.hal) (decodeRequest decode len : Program (Server σ) (Option α)) :=
    keeps_serves (keeps_answers (decodeRequest_unrecorded decode len))
  refine .bind .get fun s => .ite (.bind (decoded _) fun req => ?_) (.ite (.bind (decoded _) fun req => ?_)
    (.ite (.bind (decoded _) fun req => ?_) (.ite ?_ (.pure _))))
  · cases req with
    | none => exact keeps_serves (answerMalformed_answers env _ _)
    | some req => exact handleGet_serves env req
  · cases req with
    | none => exact keeps_serves (answerMalformed_answers env _ _)
    | some req => exact (serves_service env).handleSet req
  · cases req with
    | none => exact .pure _
    | some req => exact .ite (handleHlsPass3_serves env req) (handleAction_serves env req)
  · exact keeps_serves (serverSendException_answers env _ _)

theorem acceptReassembled_serves (arrived : Bool) (len : ℕ) :
    Keeps (Serves env.hal) (acceptReassembled env arrived len) := by
  refine .get_bind fun s => .ite (fun ciphered => ?_) fun _ => .ite (fun _ => ?_) fun _ => ?_
  · refine KeepsAt.bind (wp.mono (serverDecipher_answers env ciphered.1) fun _ _ kept => kept.serves) fun stage => ?_
    cases stage with
    | done result => exact .pure _
    | next len => exact acceptService_serves env len
  · exact keeps_serves (serverSendException_answers env _ _) s
  · exact acceptService_serves env len s

theorem acceptPlain_advances (arrived : Bool) (len : ℕ) : Keeps (Advances env.hal) (acceptPlain env arrived len) := by
  refine .get_bind fun s => .ite (fun _ => acceptUnassociated_advances env len s) fun associated => ?_
  have inside : s.aa.associated = true := by simpa using associated
  refine .ite (fun _ => ?_) fun _ =>
    wp.mono (acceptReassembled_serves env arrived len s) fun _ _ kept => (kept inside).1
  refine wp.mono (Keeps.bind (keeps_serves (acceptGbt_answers env len)) (fun stage => ?_) s) fun _ _ kept =>
    (kept inside).1
  cases stage with
  | done result => exact .pure _
  | next len => exact acceptReassembled_serves env arrived len

/-- Handling an APDU is a history of the association. -/
theorem acceptApdu_advances (apdu : List UInt8) : Keeps (Advances env.hal) (acceptApdu env apdu) := by
  refine .ite (.pure _) (.bind ?_ fun _ => .get_bind fun s => ?_)
  · exact keeps_advances (keeps_answers (unrecorded_onWire (keeps_fillRx quietLink _)))
  · refine .ite (fun _ => acceptAarq_advances env _ s) fun _ => .ite (fun _ => acceptRlrq_advances env _ s) fun _ => ?_
    refine .ite (fun ciphered => ?_) fun _ => acceptPlain_advances env _ _ s
    refine KeepsAt.bind (wp.mono (serverDecipher_answers env ciphered.1) fun _ _ kept => kept.toAdvances) fun stage => ?_
    cases stage with
    | done result => exact .pure _
    | next len => exact acceptPlain_advances env _ _

/-! ## Calls and runs -/

/-- An HDLC server with an association or a handshake is connected. -/
def Server.Linked (s : Server σ) : Prop :=
  s.aa.associated = true ∨ s.aa.hlsPending = true →
    s.wire.framing = .hdlc → s.wire.hdlc.state = .connected

/-- The record grew by a history of the abstract system. -/
def Records (hal : Hal) (s t : Server σ) : Prop :=
  ∃ new, t.log = s.log ++ new ∧ History (AssocStep hal) s.aa new t.aa

variable {t : Server σ}

theorem Records.trans {s u : Server σ} (first : Records hal s t) (second : Records hal t u) : Records hal s u := by
  obtain ⟨new, log, history⟩ := first
  obtain ⟨more, log', history'⟩ := second
  exact ⟨new ++ more, by rw [log', log, List.append_assoc], history.trans history'⟩

theorem Advances.linked {s : Server σ} (advanced : Advances hal s t)
    (connected : s.wire.framing = .hdlc → s.wire.hdlc.state = .connected) : t.Linked := by
  intro _ hdlc
  rw [advanced.framing] at hdlc
  rw [advanced.state]
  exact connected hdlc

theorem serverClear_advances : Keeps (Advances hal) (serverClearCurrentAssociation : Program (Server σ) Unit) :=
  .bind (fun _ => transition_advances .cleared) fun _ => .modify fun _ => Unrecorded.advances ⟨rfl, rfl, rfl, rfl⟩

theorem serverReceiveFailed_advances (hal : Hal) (err : Err) :
    Keeps (Advances hal) (serverReceiveFailed err : Program (Server σ) Err) := by
  refine .bind .get fun s => .ite (.bind serverClear_advances fun _ => .ite ?_ (.pure _)) (.ite ?_ (.pure _))
  · exact .bind (.modify fun _ => Unrecorded.advances ⟨rfl, rfl, rfl, rfl⟩) fun _ => .pure _
  · exact .bind serverClear_advances fun _ => .pure _

/-- A disconnection clears the association. -/
theorem serverReceiveFailed_disconnected (s : Server σ) : wp (serverReceiveFailed .disconnected)
      (fun _ t => t.aa = s.aa.clear ∧ t.log = s.log ++ [.cleared]) s := by
  unfold serverReceiveFailed serverClearCurrentAssociation
  simp only [transition, if_true, bind_assoc, wp_bind, wp_get, wp_modify, wp_ite, wp_pure, and_self, implies_true]

/-- What follows a reception, given what it did to the link. -/
theorem received_records {s : Server σ} {received : Except Err (List UInt8)} {w : Wire}
    (connected : s.wire.framing = .hdlc → s.wire.hdlc.state = .connected)
    (receives : Receives { s.wire with links := [] } received w) :
    wp (match received with
      | .error err => serverReceiveFailed err
      | .ok apdu => acceptApdu env apdu)
      (fun _ t => Records env.hal s t ∧ t.Linked)
      { s with wire := { w with links := [] }, log := s.log ++ w.links.map Event.link } := by
  cases receives with
  | quiet quiet =>
    have same : Unrecorded s
        { s with wire := { w with links := [] }, log := s.log ++ w.links.map Event.link } :=
      ⟨rfl, by simp [quiet.2.2], quiet.1, quiet.2.1⟩
    have rest : Keeps (Advances env.hal) (match received with
        | .error err => serverReceiveFailed err
        | .ok apdu => acceptApdu env apdu) := by
      cases received with
      | error err => exact serverReceiveFailed_advances env.hal err
      | ok apdu => exact acceptApdu_advances env apdu
    refine wp.mono (rest _) fun _ t advanced => ?_
    have whole : Advances env.hal s t := same.advances.trans advanced
    exact ⟨whole.history, whole.linked connected⟩
  | restarted framing state links =>
    refine wp.mono (serverReceiveFailed_advances env.hal _ _) fun _ t advanced => ?_
    have restart : Records env.hal s
        { s with wire := { w with links := [] }, log := s.log ++ w.links.map Event.link } :=
      ⟨[.link .restart], by simp [links], History.start.extend .restart⟩
    exact ⟨restart.trans advanced.history,
      advanced.linked fun hdlc => state.trans (connected (framing ▸ hdlc))⟩
  | disconnected framing links =>
    refine (serverReceiveFailed_disconnected _).mono fun _ t ⟨aa, log⟩ => ⟨⟨[.link .disc, .cleared], ?_, ?_⟩, ?_⟩
    · simp [log, links]
    · rw [aa]
      -- clearing twice is clearing once
      have again : AssocStep env.hal s.aa.clear .cleared s.aa.clear := .cleared
      exact (History.start.extend .disc).extend again
    · intro active
      rw [aa] at active
      exact absurd active (by simp [AssocState.clear])

/-- One call of `serverAccept`. -/
theorem serverAccept_records {s : Server σ} (linked : s.Linked) :
    wp (serverAccept env) (fun _ t => Records env.hal s t ∧ t.Linked) s := by
  unfold serverAccept
  rw [wp_bind, wp_get, wp_ite]
  constructor
  · rintro ⟨hdlc, unconnected⟩
    have none : ¬(s.aa.associated = true ∨ s.aa.hlsPending = true) := fun active =>
      unconnected (linked active hdlc)
    obtain ⟨idle, unasked⟩ : s.aa.associated = false ∧ s.aa.hlsPending = false := by simpa using none
    rw [wp_bind]
    rw [onWire, wp_zoom]
    refine (hdlcSessionConnect_spec _ _).mono fun result w connects => ?_
    set t : Server σ := { s with wire := { w with links := [] }, log := s.log ++ w.links.map Event.link }
    have same : t.aa = s.aa := rfl
    have records : Records env.hal s t := by
      rcases connects.2 with none | once
      · exact ⟨[], by simp [t, none], .start⟩
      · exact ⟨[.link .setUp], by simp [t, once], History.start.extend (.setUp idle unasked)⟩
    have still : ¬(t.aa.associated = true ∨ t.aa.hlsPending = true) := by rwa [same]
    simp only [wp_ite, wp_bind, wp_modify, wp_pure]
    exact ⟨fun _ => ⟨records, fun active => absurd active still⟩,
      fun _ => ⟨records, fun active => absurd active still⟩⟩
  · intro receiving
    have connected : s.wire.framing = .hdlc → s.wire.hdlc.state = .connected := by
      intro hdlc
      by_contra unconnected
      exact receiving ⟨hdlc, unconnected⟩
    rw [wp_bind, serverReceive, wp_bind, wp_get, wp_ite]
    refine ⟨fun _ => ?_, fun _ => ?_⟩
    · rw [onWire, wp_zoom]
      exact (hdlcSessionRecvApdu_spec _ _ _).mono fun _ w receives => received_records env connected receives
    · rw [onWire, wp_zoom]
      exact (keeps_transportRecvApdu quietLink _ _).mono fun _ w quiet => received_records env connected (.quiet quiet)

/-- A notification is sent only within an association. -/
theorem notification_records {s : Server σ} {result : Err} {encode : Write Unit} (linked : s.Linked)
    (returned : (if s.aa.associated then sendEncoded env encode else return .invalid) s = some (result, t)) :
    Records env.hal s t ∧ t.Linked := by
  split_ifs at returned with associated
  · have kept := sendEncoded_answers env encode s result t returned
    exact ⟨kept.history, kept.linked (linked (.inl associated))⟩
  · cases returned
    exact ⟨⟨[], by simp, .start⟩, linked⟩

theorem Calls.records {s : Server σ} (call : Calls hal behaviour s t) (linked : s.Linked) :
    Records hal s t ∧ t.Linked := by
  cases call with
  | accept returned => exact serverAccept_records _ linked _ _ returned
  | @event stack result ev returned => exact notification_records ⟨hal, behaviour, stack⟩ linked returned
  | @data stack result dn returned => exact notification_records ⟨hal, behaviour, stack⟩ linked returned

variable {origin : Server σ}

/-- Every run records a history of the abstract system. -/
theorem Runs.records (run : Runs hal behaviour origin t) (linked : origin.Linked) :
    Records hal origin t ∧ t.Linked := by
  induction run with
  | start => exact ⟨⟨[], by simp, .start⟩, linked⟩
  | call _ call ih =>
    obtain ⟨before, between⟩ := ih
    obtain ⟨last, final⟩ := call.records between
    exact ⟨before.trans last, final⟩

/-- What a server has recorded since its configuration is a history of the abstract system. -/
theorem Runs.history {final : Server σ} (run : Runs hal behaviour origin final) (fresh : origin.Fresh) :
    History (AssocStep hal) origin.aa final.log final.aa := by
  have linked : origin.Linked := by
    rintro (associated | pending)
    · exact absurd (fresh.associated.symm.trans associated) (by decide)
    · exact absurd (fresh.hlsPending.symm.trans pending) (by decide)
  obtain ⟨new, log, history⟩ := (run.records linked).1
  rw [log, fresh.log, List.nil_append]
  exact history

end OpenSpodes
