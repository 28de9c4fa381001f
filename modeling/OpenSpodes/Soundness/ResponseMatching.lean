import OpenSpodes.Model.ClientServices
import OpenSpodes.Soundness.ClientReceive

/-! # Which responses a read of the client takes

`osp_client_get` looks at the kind of a response and at its last-block flag. It compares neither the
invoke id with the one it sent nor the number of a block with the one before, so a late response is
taken for the answer. What a successful read has seen is therefore this: one response with data, or
blocks of which only the last one is flagged, whose raw data in the order of arrival is the encoding
of the result.
-/

namespace OpenSpodes

open Machine

variable {α : Type}

/-- The APDUs decode one after the other as GET responses, into one structure. -/
inductive DecodesTo : GetReply → List (List UInt8) → List GetReply → Prop
  | nil {old : GetReply} : DecodesTo old [] []
  | cons {old reply : GetReply} {apdu : List UInt8} {apdus : List (List UInt8)} {replies : List GetReply}
      {pool : Pool} {reader : Reader} :
      getResponseDecode old ⟨Buf.ofBytes apdu, pool⟩ = .ok reply reader →
      DecodesTo reply apdus replies → DecodesTo old (apdu :: apdus) (reply :: replies)

/-- Blocks of which exactly the last one is flagged last. -/
def LastFlagged (replies : List GetReply) : Prop :=
  ∃ blocks last, replies = blocks ++ [last] ∧ (∀ block ∈ blocks, block.kind = .block) ∧
    last.kind = .blockLast

def ReadFrom (old : Value) (bytes : List UInt8) (value : Value) : Prop :=
  ∃ pool, (valueRead old ⟨Buf.ofBytes bytes, pool⟩).1 = (.ok, value)

section Quiet

/-- No service took part in between: nothing was exchanged, no value was read and no setting changed. -/
structure Unserved (c after : Client) : Prop where
  exchanged : after.exchanged = c.exchanged
  pool : after.pool = c.pool
  gbtEnabled : after.gbtEnabled = c.gbtEnabled

instance : IsPreorder Client Unserved where
  refl _ := ⟨rfl, rfl, rfl⟩
  trans _ _ _ first second := ⟨second.1.trans first.1, second.2.trans first.2, second.3.trans first.3⟩

private theorem clientWire_quiet (program : Program Wire α) : Keeps Unserved (clientWire program) :=
  .zoom fun _ _ _ _ => ⟨rfl, rfl, rfl⟩

theorem clientTransmit_quiet (stale : List UInt8) (source : ApduSource) :
    Keeps Unserved (clientTransmit stale source) :=
  .bind .get fun _ => .ite (clientWire_quiet _) (.ite (clientWire_quiet _) (clientWire_quiet _))

/-- Sending an APDU is no exchange of its own. -/
theorem clientSendApdu_quiet (hal : Hal) (stale : List UInt8) (source : ApduSource) :
    Keeps Unserved (clientSendApdu hal stale source) := by
  refine .get_bind fun c => .ite (fun _ => ?_) (fun _ => clientTransmit_quiet stale source c)
  cases gloProtect hal c.cipherTx (svcCipherTagForPlain c.cipherTx ((source.bytes c.wire).getD 0 0))
      (source.bytes c.wire) with
  | none => exact .pure _
  | some sealed =>
    refine .ite (fun _ => .pure _) (fun _ => ?_)
    exact .set_bind ⟨rfl, rfl, rfl⟩ (clientTransmit_quiet stale _)

theorem clientRecvApdu_quiet (hal : Hal) (stale : List UInt8) (size : ℕ) :
    Keeps Unserved (clientRecvApdu hal stale size) := by
  have received : Keeps Unserved (clientReceive stale size) :=
    (clientReceive_keeps stale size).mono fun c after kept => by
      obtain ⟨wire, rfl⟩ := kept
      exact ⟨rfl, rfl, rfl⟩
  refine .bind received fun result => ?_
  cases result with
  | error err => exact .pure _
  | ok apdu =>
    refine .bind .get fun c => .ite ?_ (.pure _)
    refine .get_bind fun c => ?_
    cases gloUnprotect hal apdu c.cipherRx with
    | error rc ctx => exact .set_bind ⟨rfl, rfl, rfl⟩ (.pure _)
    | ok plain ctx => exact .set_bind ⟨rfl, rfl, rfl⟩ (.ite (.pure _) (.pure _))

end Quiet

section Alone

variable {hal : Hal} {stale : List UInt8} {c after : Client} {err : Err} {encode : Write Unit} {decode : Decode α}
  {old value : Value} {result : Except Err α} {invoke : UInt8} {rounds : ℕ} {acc : List UInt8}

@[simp] theorem Port.alone_run (program : Program Client α) : (Port.alone hal stale).run program = program := by
  funext c
  simp only [Port.run, zoom, Port.alone, id]
  cases program c <;> rfl

theorem responses_of_same (same : Unserved c after) : after.responses = c.responses := by
  rw [Client.responses, Client.responses, same.exchanged]

/-- No response was taken in between, no value read and no setting changed. -/
structure Unanswered (c after : Client) : Prop where
  responses : after.responses = c.responses
  pool : after.pool = c.pool
  gbtEnabled : after.gbtEnabled = c.gbtEnabled

theorem Unserved.unanswered (same : Unserved c after) : Unanswered c after :=
  ⟨responses_of_same same, same.pool, same.gbtEnabled⟩

theorem Unanswered.trans {middle : Client} (first : Unanswered c middle) (second : Unanswered middle after) :
    Unanswered c after :=
  ⟨second.1.trans first.1, second.2.trans first.2, second.3.trans first.3⟩

theorem clientSendRequest_unanswered (sent : clientSendRequest hal stale encode c = some (err, after)) :
    Unanswered c after := by
  simp only [clientSendRequest, get_bind_apply] at sent
  cases encoded : encode (WBuf.init c.wire.txBuf.length) with
  | error e buf =>
    rw [encoded] at sent
    obtain ⟨_, t, filled, rest⟩ := bind_eq_some.mp sent
    obtain ⟨rfl, rfl⟩ : Err.invalid = err ∧ t = after := by simpa using rest
    exact (clientWire_quiet _ _ _ _ filled).unanswered
  | ok u buf =>
    rw [encoded] at sent
    obtain ⟨_, t, filled, rest⟩ := bind_eq_some.mp sent
    rw [modify_bind_apply] at rest
    have logged : Unanswered t { t with exchanged := t.exchanged ++ [.request buf.out] } :=
      ⟨by simp [Client.responses], rfl, rfl⟩
    apply (clientWire_quiet _ _ _ _ filled).unanswered.trans
    exact logged.trans (clientSendApdu_quiet _ _ _ _ _ _ rest).unanswered

/-- What a call has taken when it ends: either it failed before a response was there, or it has one further response, and
ends with what the decoder makes of it. -/
def Concluded {α : Type} (decode : Decode α) (c after : Client) (result : Except Err α) : Prop :=
  (∃ err, result = .error err ∧ err ≠ .ok ∧ Unanswered c after) ∨
    ∃ apdu, after.responses = c.responses ++ [apdu] ∧ after.gbtEnabled = c.gbtEnabled ∧
      ((∃ reply reader, decode ⟨Buf.ofBytes apdu, c.pool⟩ = .ok reply reader ∧ result = .ok reply ∧
          after.pool = reader.pool) ∨
        ∃ e reader, decode ⟨Buf.ofBytes apdu, c.pool⟩ = .error e reader ∧ result = .error .invalid ∧
          after.pool = reader.pool)

theorem clientRecvResponse_concluded (received : clientRecvResponse hal stale decode c = some (result, after)) :
    Concluded decode c after result := by
  obtain ⟨outcome, t, taken, rest⟩ := bind_eq_some.mp received
  have before := (clientRecvApdu_quiet _ _ _ _ _ _ taken).unanswered
  cases outcome with
  | error err =>
    cases err
    case ok =>
      obtain ⟨rfl, rfl⟩ : .error .invalid = result ∧ t = after := by simpa using rest
      exact .inl ⟨.invalid, rfl, by simp, before⟩
    all_goals
      obtain ⟨rfl, rfl⟩ : .error _ = result ∧ t = after := by simpa using rest
      exact .inl ⟨_, rfl, by simp, before⟩
  | ok apdu =>
    simp only [get_bind_apply] at rest
    refine .inr ⟨apdu, ?_⟩
    rw [← before.responses, ← before.pool, ← before.gbtEnabled]
    cases decoded : decode ⟨Buf.ofBytes apdu, t.pool⟩ with
    | error e reader =>
      simp only [decoded, set_bind_apply, pure_apply, Option.some.injEq, Prod.mk.injEq] at rest
      obtain ⟨rfl, rfl⟩ := rest
      exact ⟨by simp [Client.responses], rfl, .inr ⟨e, reader, rfl, rfl, rfl⟩⟩
    | ok reply reader =>
      simp only [decoded, set_bind_apply, pure_apply, Option.some.injEq, Prod.mk.injEq] at rest
      obtain ⟨rfl, rfl⟩ := rest
      exact ⟨by simp [Client.responses], rfl, .inl ⟨reply, reader, rfl, rfl, rfl⟩⟩

/-- An exchange ends with what its response makes of it. -/
theorem exchange_concluded (exchanged : (Port.alone hal stale).exchange encode decode c = some (result, after)) :
    Concluded decode c after result := by
  rw [Port.exchange, Port.alone_run] at exchanged
  obtain ⟨err, t, sent, rest⟩ := bind_eq_some.mp exchanged
  have before := clientSendRequest_unanswered sent
  cases err
  case ok =>
    have received : (Port.alone hal stale).run (clientRecvResponse hal stale decode) t = some (result, after) := rest
    rw [Port.alone_run] at received
    rcases clientRecvResponse_concluded received with ⟨err, failed, bad, none⟩ | ⟨apdu, taken, same, decoded⟩
    · exact .inl ⟨err, failed, bad, before.trans none⟩
    · rw [before.responses] at taken
      rw [before.gbtEnabled] at same
      rw [before.pool] at decoded
      exact .inr ⟨apdu, taken, same, decoded⟩
  all_goals
    obtain ⟨rfl, rfl⟩ : .error _ = result ∧ t = after := by simpa using rest
    exact .inl ⟨_, rfl, by simp, before⟩

/-- An exchange that succeeds takes one response. -/
theorem exchange_responses {reply : α}
    (exchanged : (Port.alone hal stale).exchange encode decode c = some (.ok reply, after)) :
    ∃ apdu pool reader, after.responses = c.responses ++ [apdu] ∧
      decode ⟨Buf.ofBytes apdu, pool⟩ = .ok reply reader := by
  rcases exchange_concluded exchanged with ⟨err, failed, -⟩ | ⟨apdu, taken, -, decoded⟩
  · cases failed
  · rcases decoded with ⟨reply', reader, decoded, same, -⟩ | ⟨e, reader, -, failed, -⟩
    · cases same
      exact ⟨apdu, c.pool, reader, taken, decoded⟩
    · cases failed

theorem exchange_failed (exchanged : (Port.alone hal stale).exchange encode decode c = some (.error err, after)) :
    err ≠ .ok := by
  rcases exchange_concluded exchanged with ⟨err', failed, bad, -⟩ | ⟨apdu, -, -, decoded⟩
  · cases failed
    exact bad
  · rcases decoded with ⟨reply, reader, -, same, -⟩ | ⟨e, reader, -, failed, -⟩
    · cases same
    · cases failed
      simp

theorem clientReadValue_responses {bytes : List UInt8}
    (read : clientReadValue old bytes c = some ((err, value), after)) :
    after.responses = c.responses ∧ (err = .ok → ReadFrom old bytes value) := by
  obtain ⟨result, reader, outcome⟩ : ∃ result reader,
      valueRead old ⟨Buf.ofBytes bytes, c.pool⟩ = (result, reader) := ⟨_, _, rfl⟩
  simp only [clientReadValue, get_bind_apply, outcome, set_bind_apply, pure_apply, Option.some.injEq,
    Prod.mk.injEq] at read
  obtain ⟨⟨rfl, rfl⟩, rfl⟩ := read
  refine ⟨rfl, fun success => ⟨c.pool, ?_⟩⟩
  rw [outcome]
  exact Prod.ext (by simpa using success) rfl

/-- The kind of a block response and its flag say the same. -/
def GetReply.Consistent (reply : GetReply) : Prop :=
  (reply.kind = .block → reply.lastBlock = false) ∧ (reply.kind = .blockLast → reply.lastBlock = true)

theorem getResponseDecode_consistent {old reply : GetReply} {before reader : Reader}
    (decoded : getResponseDecode old before = .ok reply reader) : reply.Consistent := by
  obtain ⟨⟨type, invoke⟩, r, -, decoded⟩ := Fallible.bind_ok_iff.mp decoded
  dsimp only at decoded
  split_ifs at decoded
  · obtain ⟨choice, r, -, decoded⟩ := Fallible.bind_ok_iff.mp decoded
    split_ifs at decoded
    · obtain ⟨data, r, -, decoded⟩ := Fallible.bind_ok_iff.mp decoded
      cases decoded
      constructor <;> simp
    · obtain ⟨code, r, -, decoded⟩ := Fallible.bind_ok_iff.mp decoded
      cases decoded
      constructor <;> simp
  · obtain ⟨last, r, -, decoded⟩ := Fallible.bind_ok_iff.mp decoded
    obtain ⟨number, r, -, decoded⟩ := Fallible.bind_ok_iff.mp decoded
    obtain ⟨choice, r, -, decoded⟩ := Fallible.bind_ok_iff.mp decoded
    obtain ⟨-, decoded⟩ := Fallible.failIf_bind_ok_iff.mp decoded
    obtain ⟨len, r, -, decoded⟩ := Fallible.bind_ok_iff.mp decoded
    obtain ⟨-, decoded⟩ := Fallible.failIf_bind_ok_iff.mp decoded
    obtain ⟨rawData, r, -, decoded⟩ := Fallible.bind_ok_iff.mp decoded
    cases decoded
    by_cases flagged : last = 0 <;> simp [GetReply.Consistent, flagged]
  · obtain ⟨count, r, -, decoded⟩ := Fallible.bind_ok_iff.mp decoded
    obtain ⟨items, r, -, decoded⟩ := Fallible.bind_ok_iff.mp decoded
    cases decoded
    constructor <;> simp
  · cases decoded

variable {resp : GetReply}

/-- One round of the block loop that ends in success: the last block is read, or the next one comes. -/
theorem clientGetBlocks_round (consistent : resp.Consistent)
    (returned : clientGetBlocks (Port.alone hal stale) invoke old rounds resp acc c = some ((.ok, value), after)) :
    (resp.kind = .blockLast ∧ after.responses = c.responses ∧ ReadFrom old (acc ++ resp.raw) value) ∨
      (resp.kind = .block ∧ ∃ rounds' next t apdu pool reader, rounds = rounds' + 1 ∧
        t.responses = c.responses ++ [apdu] ∧ getResponseDecode resp ⟨Buf.ofBytes apdu, pool⟩ = .ok next reader ∧
        clientGetBlocks (Port.alone hal stale) invoke old rounds' next (acc ++ resp.raw) t =
          some ((.ok, value), after)) := by
  unfold clientGetBlocks at returned
  dsimp only at returned
  split_ifs at returned with isBlock long last isLast
  · simp at returned
  · rw [Port.alone_run] at returned
    exact .inl ⟨isLast, (clientReadValue_responses returned).imp_right fun read => read rfl⟩
  · simp at returned
  · have isBlock : resp.kind = .block := isBlock.resolve_right fun isLast => last (consistent.2 isLast)
    cases rounds with
    | zero => cases returned
    | succ rounds =>
      obtain ⟨result, t, exchanged, rest⟩ := bind_eq_some.mp returned
      cases result with
      | error err =>
        have failed := exchange_failed exchanged
        simp only [pure_apply, Option.some.injEq, Prod.mk.injEq] at rest
        exact absurd rest.1.1 failed
      | ok next =>
        obtain ⟨apdu, pool, reader, taken, decoded⟩ := exchange_responses exchanged
        exact .inr ⟨isBlock, rounds, next, t, apdu, pool, reader, rfl, taken, decoded, rest⟩
  · simp at returned

/-- The block loop takes responses until one is flagged last, and reads their raw data in order. -/
theorem clientGetBlocks_responses (consistent : resp.Consistent)
    (returned : clientGetBlocks (Port.alone hal stale) invoke old rounds resp acc c = some ((.ok, value), after)) :
    ∃ apdus replies, after.responses = c.responses ++ apdus ∧ DecodesTo resp apdus replies ∧
      LastFlagged (resp :: replies) ∧ ReadFrom old (acc ++ (resp :: replies).flatMap GetReply.raw) value := by
  induction rounds using Nat.strong_induction_on generalizing resp acc c with
  | _ rounds ih =>
    rcases clientGetBlocks_round consistent returned with
      ⟨isLast, same, read⟩ | ⟨isBlock, rounds', next, t, apdu, pool, reader, rfl, taken, decoded, rest⟩
    · exact ⟨[], [], by simpa using same, .nil, ⟨[], resp, rfl, by simp, isLast⟩, by simpa using read⟩
    · obtain ⟨apdus, replies, taken', decoded', ⟨blocks, last, split, flags, isLast⟩, read⟩ :=
        ih rounds' (Nat.lt_succ_self rounds') (getResponseDecode_consistent decoded) rest
      refine ⟨apdu :: apdus, next :: replies, by simp [taken', taken], .cons decoded decoded', ?_, ?_⟩
      · refine ⟨resp :: blocks, last, by rw [split]; rfl, ?_, isLast⟩
        intro block member
        rcases List.mem_cons.mp member with rfl | member
        · exact isBlock
        · exact flags block member
      · simpa using read

end Alone

/-- A read that succeeds took one response with data, or blocks of which only the last one is flagged
last; all of them decode as GET responses, and the result is their data. -/
theorem get_takes_flagged_responses {hal : Hal} {stale : List UInt8} {stack : GetReply} {rounds : ℕ}
    {attr : Descriptor} {old value : Value} {c after : Client}
    (returned : clientGet (Port.alone hal stale) stack rounds attr old c = some ((.ok, value), after)) :
    ∃ apdus replies, after.responses = c.responses ++ apdus ∧ DecodesTo stack apdus replies ∧
      ((∃ reply, replies = [reply] ∧ reply.kind = .data ∧ reply.data = value) ∨
        LastFlagged replies ∧ ReadFrom old (replies.flatMap GetReply.raw) value) := by
  simp only [clientGet, get_bind_apply] at returned
  split_ifs at returned with associated
  · simp at returned
  · rw [Port.alone_run] at returned
    obtain ⟨invokeIdPriority, t, counted, returned⟩ := bind_eq_some.mp returned
    have same : t.responses = c.responses := by
      cases counted
      rfl
    rw [← same]
    obtain ⟨result, u, exchanged, returned⟩ := bind_eq_some.mp returned
    cases result with
    | error err =>
      have failed := exchange_failed exchanged
      simp only [pure_apply, Option.some.injEq, Prod.mk.injEq] at returned
      exact absurd returned.1.1 failed
    | ok reply =>
      obtain ⟨apdu, pool, reader, taken, decoded⟩ := exchange_responses exchanged
      have blocks (returned : clientGetBlocks (Port.alone hal stale) invokeIdPriority old rounds reply [] u =
          some ((.ok, value), after)) :
          ∃ apdus replies, after.responses = t.responses ++ apdus ∧ DecodesTo stack apdus replies ∧
            LastFlagged replies ∧ ReadFrom old (replies.flatMap GetReply.raw) value := by
        obtain ⟨apdus, replies, taken', decoded', flagged, read⟩ :=
          clientGetBlocks_responses (getResponseDecode_consistent decoded) returned
        exact ⟨apdu :: apdus, reply :: replies, by simp [taken', taken], .cons decoded decoded', flagged, read⟩
      cases kind : reply.kind with
      | data =>
        simp only [kind, pure_apply, Option.some.injEq, Prod.mk.injEq] at returned
        obtain ⟨⟨-, same⟩, rfl⟩ := returned
        exact ⟨[apdu], [reply], taken, .cons decoded .nil, .inl ⟨reply, rfl, kind, same⟩⟩
      | dataError => simp [kind] at returned
      | block | blockLast | withList =>
        simp only [kind, get_bind_apply] at returned
        split_ifs at returned
        · simp at returned
        · obtain ⟨apdus, replies, taken, decoded, found⟩ := blocks returned
          exact ⟨apdus, replies, taken, decoded, .inr found⟩

/-- A client on an unframed transport that is about to deliver the given APDUs. -/
def listeningClient (apdus : List (List UInt8)) : Client where
  wire :=
    { framing := .none
      wrapperSource := 0
      wrapperDest := 0
      hdlc := hdlcSessionInitClient 16 1
      world := { rx := apdus.map .bytes }
      txBuf := List.replicate 16 0
      rxBuf := List.replicate 16 0 }
  hdlcActive := false
  gbtEnabled := false
  cipheringEnabled := false
  cipherRx := secContextInit .suite0 .lowest (Vector.replicate 8 1)
  associated := true

def GetReply.blank : GetReply := ⟨.data, 0, .null, 0, 0, false, Vector.replicate 256 0, 0, []⟩

/-- Two blocks with a foreign invoke id, both numbered seven. -/
def lateBlocks : List (List UInt8) :=
  [[0xC4, 2, 9, 0, 0, 0, 0, 7, 0, 2, 9, 2], [0xC4, 2, 9, 1, 0, 0, 0, 7, 0, 2, 0xAB, 0xCD]]

theorem get_takes_flagged_responses_late :
    ∃ after, clientGet (Port.alone sampleHal []) .blank 1 ⟨1, Vector.replicate 6 0, 2⟩ .null
        (listeningClient lateBlocks) = some ((.ok, .octetString [0xAB, 0xCD]), after) ∧
      ∃ apdus replies, after.responses = (listeningClient lateBlocks).responses ++ apdus ∧
        DecodesTo .blank apdus replies ∧
        ((∃ reply, replies = [reply] ∧ reply.kind = .data ∧ reply.data = .octetString [0xAB, 0xCD]) ∨
          LastFlagged replies ∧ ReadFrom .null (replies.flatMap GetReply.raw) (.octetString [0xAB, 0xCD])) := by
  have returned : (clientGet (Port.alone sampleHal []) .blank 1 ⟨1, Vector.replicate 6 0, 2⟩ .null
      (listeningClient lateBlocks)).map Prod.fst = some (.ok, .octetString [0xAB, 0xCD]) := by
    decide +kernel
  obtain ⟨⟨_, after⟩, returned, rfl⟩ := Option.map_eq_some_iff.mp returned
  exact ⟨after, returned, get_takes_flagged_responses returned⟩

/-- Late responses are taken: the request carries the invoke id 1, both blocks carry 9, and both have
the number 7. -/
theorem get_takes_late_blocks : (clientGet (Port.alone sampleHal []) .blank 1 ⟨1, Vector.replicate 6 0, 2⟩ .null
        (listeningClient lateBlocks)).map (fun returned => (returned.1, returned.2.exchanged)) =
      some ((.ok, .octetString [0xAB, 0xCD]), [.request [0xC0, 1, 1, 0, 1, 0, 0, 0, 0, 0, 0, 2, 0],
          .response [0xC4, 2, 9, 0, 0, 0, 0, 7, 0, 2, 9, 2], .request [0xC0, 2, 1, 0, 0, 0, 7],
          .response [0xC4, 2, 9, 1, 0, 0, 0, 7, 0, 2, 0xAB, 0xCD]]) := by
  decide +kernel

end OpenSpodes
