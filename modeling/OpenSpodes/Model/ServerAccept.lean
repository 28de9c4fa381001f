import OpenSpodes.Model.ServerAarq
import OpenSpodes.Model.ServerServices

/-! # Accepting requests

`osp_server_accept` handles one link event or APDU. An APDU passes, in this order: association
control, deciphering, the gate that only the third handshake pass may pass without an association,
block reassembly, deciphering of what was reassembled, the refusal of plaintext in a ciphered
association, and the services. `Runs` is any sequence of such calls, with the notifications that
the application sends in between and whatever the stack holds at each call.
-/

namespace OpenSpodes

open Machine

variable {σ : Type}

/-- `osp_server_clear_current_association`. -/
def serverClearCurrentAssociation : Program (Server σ) Unit := do
  transition .cleared AssocState.clear
  modify fun s =>
    { s with
      objects := s.objects.clearCurrent
      pendingPush := { s.pendingPush with pending := false, deferFlush := false } }

/-- What a failed reception means for the association, and the code that is returned. -/
def serverReceiveFailed (err : Err) : Program (Server σ) Err := do
  let s ← get
  if err = .disconnected then
    serverClearCurrentAssociation
    if s.wire.framing = .hdlc then
      modify fun s => { s with hdlcActive := false }
      return .timeout
    else return err
  else if err = .io then
    serverClearCurrentAssociation
    return err
  else return err

/-- A request buffer: the first `len` bytes of the receive buffer are valid. -/
def Server.rx (s : Server σ) (len : ℕ) : Buf := ⟨s.wire.rxBuf, 0, len⟩

/-- The first byte of the receive buffer. -/
def Server.rxTag (s : Server σ) : UInt8 := s.wire.rxBuf.getD 0 0

/-- Decode a request; nested values go to the pool. `none` is the decoder's failure. -/
def decodeRequest {α : Type} (decode : Decode α) (len : ℕ) : Program (Server σ) (Option α) := do
  let s ← get
  match decode ⟨s.rx len, s.objects.pool⟩ with
  | .ok req reader =>
      set { s with objects := { s.objects with pool := reader.pool } }
      return some req
  | .error _ reader =>
      set { s with objects := { s.objects with pool := reader.pool } }
      return none

/-- The outgoing context behind a request that was accepted: counter beyond the peer's, its policy. -/
def SecContext.align (tx rx : SecContext) : SecContext :=
  if rx.icValid then
    { tx with
      invocationCounter :=
        if tx.invocationCounter ≤ rx.lastPeerIc then rx.lastPeerIc + 1 else tx.invocationCounter
      policy := rx.policy }
  else tx

/-- Whether an ACTION is the third pass of the handshake. -/
def ActionRequest.isPass3 (req : ActionRequest) : Bool :=
  req.kind = .normal && req.method.classId == 15 && req.method.id == 1

/-- Where an APDU goes after a stage: it is answered, or it goes on with the given length. -/
inductive Stage
  | done (result : Err)
  | next (len : ℕ)

section Accept

variable (env : Env σ)

/-- Decipher the received APDU; `align` says whether the outgoing context follows it. -/
def serverDecipher (align : Bool) (len : ℕ) : Program (Server σ) Stage := do
  let s ← get
  let ciphered := s.wire.rxBuf.take len
  match gloUnprotect env.hal ciphered s.aa.cipherRx with
  | .error rc _ => return .done (← serverSendException env 1 (if rc = -2 then 6 else 5))
  | .ok plain rx =>
      let fits := plain.length ≤ s.wire.rxBuf.length
      let aligned := align && decide fits
      transition (.deciphered aligned ciphered s.aa.cipherRx.peerSystemTitle) fun a =>
        { a with cipherRx := rx, cipherTx := if aligned then a.cipherTx.align rx else a.cipherTx }
      if fits then
        onWire (modify (·.fillRx plain))
        return .next plain.length
      else return .done .nomem

def acceptAarq (len : ℕ) : Program (Server σ) Err := do
  match aarqDecode ((← get).rx len) with
  | .error _ _ => return .invalid
  | .ok aarq _ => handleAarq env aarq

def acceptRlrq (len : ℕ) : Program (Server σ) Err := do
  match rlrqDecode ((← get).rx len) with
  | .error _ _ => return .invalid
  | .ok _ _ =>
      match ← encodeTx (rlreEncode 0) with
      | none => return .invalid
      | some sendLen =>
          transition .released AssocState.clear
          modify fun s => { s with objects := s.objects.clearCurrent }
          serverSend env (.txBuf sendLen)

/-- Without an association: the third pass of a pending handshake, or an exception. -/
def acceptUnassociated (len : ℕ) : Program (Server σ) Err := do
  let s ← get
  let refuse : Program (Server σ) Err := serverSendException env 1 1
  if s.aa.hlsPending ∧ s.rxTag = 0xC3 then
    match ← decodeRequest (actionRequestDecode env.stack.actionRequest) len with
    | none => refuse
    | some req => if req.isPass3 then handleHlsPass3 env req else refuse
  else refuse

/-- Reassemble a general block transfer. -/
def acceptGbt (len : ℕ) : Program (Server σ) Stage := do
  let s ← get
  if !s.gbtEnabled then return .done .unsupported
  else
    match ← onWire (gbtTransportRecv env.stack.block 4096 (s.wire.rxBuf.take len)) with
    | .error err => return .done err
    | .ok apdu =>
        if apdu.length = 0 then return .done .invalid
        else if apdu.length > s.wire.rxBuf.length then return .done .nomem
        else
          onWire (modify (·.fillRx apdu))
          return .next apdu.length

/-- The answer to a GET or SET that does not decode. -/
def answerMalformed (len : ℕ) (encode : UInt8 → Write Unit) : Program (Server σ) Err := do
  let s ← get
  if s.aa.associated then
    sendEncoded env (encode (if len ≥ 3 then s.wire.rxBuf.getD 2 0 else 0))
  else return .invalid

/-- The services: a plaintext request of an association. -/
def acceptService (len : ℕ) : Program (Server σ) Err := do
  let s ← get
  if s.rxTag = 0xC0 then
    match ← decodeRequest (getRequestDecode env.stack.getRequest) len with
    | none =>
        answerMalformed env len (getResponseEncode s.objects.pool · (.dataError .hardwareFault))
    | some req => handleGet env req
  else if s.rxTag = 0xC1 then
    match ← decodeRequest (setRequestDecode env.stack.setRequest) len with
    | none => answerMalformed env len (setResponseEncode · (.normal .hardwareFault))
    | some req => handleSet env req
  else if s.rxTag = 0xC3 then
    match ← decodeRequest (actionRequestDecode env.stack.actionRequest) len with
    | none => return .invalid
    | some req => if req.isPass3 then handleHlsPass3 env req else handleAction env req
  else if s.aa.associated then serverSendException env 1 1
  else return .unsupported

/-- From the second deciphering on; `arrived` says whether the first one succeeded. -/
def acceptReassembled (arrived : Bool) (len : ℕ) : Program (Server σ) Err := do
  let s ← get
  if s.aa.cipheringEnabled ∧ svcIsCipheredTag s.rxTag then
    match ← serverDecipher env false len with
    | .done result => return result
    | .next len => acceptService env len
  else if s.aa.cipheringEnabled ∧ !arrived ∧ gbtAppliesToApdu (s.wire.rxBuf.take len) then
    serverSendException env 1 5
  else acceptService env len

/-- From the association gate on. -/
def acceptPlain (arrived : Bool) (len : ℕ) : Program (Server σ) Err := do
  let s ← get
  if !s.aa.associated then acceptUnassociated env len
  else if s.rxTag = 0xE0 then
    match ← acceptGbt env len with
    | .done result => return result
    | .next len => acceptReassembled env arrived len
  else acceptReassembled env arrived len

/-- `osp_server_accept` behind the reception of an APDU. -/
def acceptApdu (apdu : List UInt8) : Program (Server σ) Err := do
  if apdu.length = 0 then return .invalid
  else
    onWire (modify (·.fillRx apdu))
    let s ← get
    if s.rxTag = 0x60 ∨ s.rxTag = 0x61 then acceptAarq env apdu.length
    else if s.rxTag = 0x62 then acceptRlrq env apdu.length
    else if s.aa.cipheringEnabled ∧ svcIsCipheredTag s.rxTag then
      match ← serverDecipher env true apdu.length with
      | .done result => return result
      | .next len => acceptPlain env true len
    else acceptPlain env false apdu.length

/-- The reception of `osp_server_accept`, for a server that waits for an APDU. -/
def serverReceive : Program (Server σ) (Except Err (List UInt8)) := do
  let s ← get
  let size := s.wire.rxBuf.length
  if s.wire.framing = .hdlc then
    onWire (hdlcSessionRecvApdu (s.wire.hdlc.inactivityTimeoutS == 0) size)
  else onWire (transportRecvApdu size)

/-- `osp_server_accept`. -/
def serverAccept : Program (Server σ) Err := do
  let s ← get
  if s.wire.framing = .hdlc ∧ s.wire.hdlc.state ≠ .connected then
    let result ← onWire (hdlcSessionConnect (s.wire.hdlc.inactivityTimeoutS == 0))
    if result = .ok then
      modify fun s => { s with hdlcActive := true }
    return result
  else
    match ← serverReceive with
    | .error err => serverReceiveFailed err
    | .ok apdu => acceptApdu env apdu

end Accept

/-! ## Runs -/

/-- One call of the application. -/
inductive Calls (hal : Hal) (behaviour : Behaviour σ) : Server σ → Server σ → Prop
  | accept {s t : Server σ} {stack : Stack} {result : Err} :
      serverAccept ⟨hal, behaviour, stack⟩ s = some (result, t) → Calls hal behaviour s t
  | event {s t : Server σ} {stack : Stack} {result : Err} {ev : EventNotification} :
      serverSendEventNotification ⟨hal, behaviour, stack⟩ ev s = some (result, t) → Calls hal behaviour s t
  | data {s t : Server σ} {stack : Stack} {result : Err} {dn : DataNotification} :
      serverSendDataNotification ⟨hal, behaviour, stack⟩ dn s = some (result, t) → Calls hal behaviour s t

/-- Any number of calls. -/
inductive Runs (hal : Hal) (behaviour : Behaviour σ) (origin : Server σ) : Server σ → Prop
  | start : Runs hal behaviour origin origin
  | call {s t : Server σ} :
      Runs hal behaviour origin s → Calls hal behaviour s t → Runs hal behaviour origin t

/-- `osp_server_init` on a transport with its wrapper addresses, for the objects that are registered
afterwards. -/
def serverInit (framing : Framing) (wrapperSource wrapperDest : ℕ) (world : World) (objects : Objects σ) :
    Server σ :=
  let blank := secContextInit .suite0 .lowest (Vector.replicate 8 0)
  { aa := { security := blank, cipherTx := blank, cipherRx := blank }
    wire :=
      { framing := framing
        wrapperSource := wrapperSource
        wrapperDest := wrapperDest
        hdlc := hdlcSessionInitServer 1 1
        world := world
        txBuf := List.replicate 1024 0
        rxBuf := List.replicate 1024 0 }
    objects := objects }

/-- A server that was configured and has not been called yet. -/
structure Server.Fresh (s : Server σ) : Prop where
  log : s.log = []
  associated : s.aa.associated = false
  hlsPending : s.aa.hlsPending = false

end OpenSpodes
