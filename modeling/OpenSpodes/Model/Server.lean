import OpenSpodes.Model.Acse
import OpenSpodes.Model.Dispatcher
import OpenSpodes.Model.Gbt
import OpenSpodes.Model.Glo
import OpenSpodes.Model.HdlcSession

/-! # The server's state and how it sends

`AssocState` is the part of `osp_server_t` that associations and message protection live in; the
rest of the structure holds the link, the objects and the transfers in progress. Beside them stands
`log`, the record of what the server did: it is written and never read.

Everything the server sends leaves through `serverSend`, which protects service messages of a
ciphered association, counts, and hands the result to block transfer, session or transport.
-/

namespace OpenSpodes

open Machine

/-- The fields of `osp_server_t` about association and protection. -/
structure AssocState where
  security : SecContext
  cipherTx : SecContext
  cipherRx : SecContext
  cipheringEnabled : Bool := false
  associated : Bool := false
  hlsPending : Bool := false
  /-- `dispatcher.association`, by the number of its instance. -/
  association : Option ℕ := none
  deriving DecidableEq

/-- The association is gone: not associated, no handshake, no ciphering. -/
def AssocState.clear (a : AssocState) : AssocState :=
  { a with associated := false, hlsPending := false, cipheringEnabled := false }

/-- The services that reach the dispatcher. -/
inductive Service
  | get | set | action
  deriving DecidableEq, Repr

/-- A key with the initialisation vector it is used under. -/
abbrev Nonce := List UInt8 × Vector UInt8 12

/-- What a server did. -/
inductive Event
  | link (event : LinkEvent)
  /-- An association request was decided for an association instance and its record. -/
  | aarq (request : Aarq) (inst : Option ℕ) (record : Option Association) (accepted : Bool)
  | pass3 (verified : Bool)
  /-- Pass 4 was built, or tried; only the GMAC uses a nonce. -/
  | pass4 (nonce : Option Nonce)
  | released
  | cleared
  /-- A ciphered APDU was accepted, with the peer's title at that time; `aligned` when the outgoing
  context then followed it. -/
  | deciphered (aligned : Bool) (ciphered : List UInt8) (title : SystemTitle)
  /-- An outgoing message was protected; without any protection bit no nonce is used. -/
  | sealed (nonce : Option Nonce)
  /-- A message was handed to the link, as it was and as it went out. -/
  | emitted (plain sent : List UInt8)
  | dispatched (service : Service) (target : Descriptor) (association : Option ℕ)
  deriving DecidableEq

/-- A block transfer to the client: `pending_get` and `pending_action_out`. -/
structure BlockOut where
  active : Bool := false
  data : List UInt8 := List.replicate 32768 0
  dataLen : ℕ := 0
  nextBlock : ℕ := 0
  deriving DecidableEq

/-- A block transfer from the client: `pending_set` and `pending_action_in`. -/
structure BlockIn where
  active : Bool := false
  target : Descriptor := .zero
  buffer : List UInt8 := []
  deriving DecidableEq

/-- `osp_server_pending_push_t`. -/
structure PendingPush where
  pending : Bool := false
  deferFlush : Bool := false
  notification : DataNotification := ⟨0, .empty 12, .null⟩
  deriving DecidableEq

/-- `osp_server_t` with the objects it serves and the record of what it did. -/
structure Server (σ : Type) where
  aa : AssocState
  wire : Wire
  objects : Objects σ
  /-- Whether the build demands an association for every access. -/
  requireAcl : Bool := false
  /-- Whether `osp_hal_random_fill` is installed. -/
  hasRandom : Bool := true
  hdlcActive : Bool := false
  longInvokeId : ℕ := 0
  maxPdu : ℕ := 1024
  gbtEnabled : Bool := false
  gbtBlockSize : ℕ := 0
  gbtWindow : ℕ := 0
  gbtStreaming : Bool := false
  pendingGet : BlockOut := {}
  pendingSet : BlockIn := {}
  pendingActionIn : BlockIn := {}
  pendingActionOut : BlockOut := {}
  pendingPush : PendingPush := {}
  log : List Event := []

/-- What the uninitialised variables of one call hold. -/
structure Stack where
  getRequest : GetRequest
  setRequest : SetRequest
  actionRequest : ActionRequest
  value : Value
  block : List UInt8

/-- What the server's code runs on: the installed functions, the classes and the stack. -/
structure Env (σ : Type) where
  hal : Hal
  behaviour : Behaviour σ
  stack : Stack

variable {σ α : Type}

/-- Record something that leaves the state as it is. -/
def note (event : Event) : Program (Server σ) Unit :=
  modify fun s => { s with log := s.log ++ [event] }

/-- Change the association state and record why. -/
def transition (event : Event) (change : AssocState → AssocState) : Program (Server σ) Unit :=
  modify fun s => { s with aa := change s.aa, log := s.log ++ [event] }

/-- Run a step of the link layer; its resets enter the record. -/
def onWire (program : Program Wire α) : Program (Server σ) α :=
  zoom (fun s => { s.wire with links := [] })
    (fun s w => { s with wire := { w with links := [] }, log := s.log ++ w.links.map Event.link })
    program

/-- Encode into the transmit buffer; the length, unless the encoder failed. -/
def encodeTx (encode : Write Unit) : Program (Server σ) (Option ℕ) := do
  match encode (WBuf.init (← get).wire.txBuf.length) with
  | .ok _ buf =>
      onWire (modify (·.fillTx buf.out))
      return some buf.out.length
  | .error _ buf =>
      onWire (modify (·.fillTx buf.out))
      return none

/-- Copy an association over the current one. -/
def serverMirror (inst : Option ℕ) : Program (Server σ) Unit :=
  match inst with
  | none => return ()
  | some inst => modify fun s => { s with objects := s.objects.mirror inst }

/-! ## Sending -/

/-- `server_gbt_payload_max`. -/
def Server.gbtPayloadMax (s : Server σ) : ℕ :=
  let block := if s.gbtBlockSize > 0 then s.gbtBlockSize else 64
  if block > 8 then block - 8 else 1

/-- `server_send_payload_max`. -/
def Server.sendPayloadMax (s : Server σ) : ℕ :=
  let maxPdu := if s.maxPdu > 0 then s.maxPdu else 1024
  let maxInfo := min (infoLimit s.wire.hdlc.xid.maxInfoTx) hdlcMaxFrameSize
  let hdlcPayload := if maxInfo > 16 then maxInfo - 16 else 1
  min (if s.hdlcActive then min hdlcPayload maxPdu else maxPdu) 256

/-- `osp_server_set_max_pdu`. -/
def Server.setMaxPdu (s : Server σ) (maxPdu : ℕ) : Server σ :=
  { s with maxPdu := if maxPdu > 0 then maxPdu else 1024 }

/-- The key and vector of the AEAD call of `osp_glo_protect`, when it makes one. -/
def gloNonce (ctx : SecContext) : Option Nonce :=
  if ctx.policy = .none then none
  else
    let key := if ctx.suite.usesGostKem then (secGostKEmForCipher ctx).toList else secAesEncryptionKey ctx
    some (key, gloBuildIvTx ctx ctx.invocationCounter)

section Sending

variable (env : Env σ)

/-- The end of `server_send`: block transfer, session or plain transport. -/
def serverTransmit (plain : List UInt8) (source : ApduSource) : Program (Server σ) Err := do
  let s ← get
  let sent := source.bytes s.wire
  note (.emitted plain sent)
  if s.gbtEnabled ∧ gbtAppliesToApdu sent ∧ source.length > s.gbtPayloadMax then
    onWire (gbtTransportSend env.stack.block ⟨source, s.gbtPayloadMax, s.gbtWindow, s.gbtStreaming⟩)
  else if s.hdlcActive then onWire (hdlcSessionSendApdu sent)
  else onWire (transportSendApdu sent)

/-- `server_send`. -/
def serverSend (source : ApduSource) : Program (Server σ) Err := do
  let s ← get
  let plain := source.bytes s.wire
  let tx := s.aa.cipherTx
  if s.aa.cipheringEnabled ∧ gbtAppliesToApdu plain then
    match gloProtect env.hal tx (svcCipherTagForPlain tx (plain.getD 0 0)) plain with
    | none => return .security
    | some sealed =>
        transition (.sealed (gloNonce tx)) fun a => { a with cipherTx := a.cipherTx.advance }
        -- the counter is looked at only after the message was protected
        if tx.invocationCounter = 0xFFFFFFFF then return .security
        else serverTransmit env plain (.own sealed)
  else serverTransmit env plain source

/-- Encode into the transmit buffer and send. -/
def sendEncoded (encode : Write Unit) : Program (Server σ) Err := do
  match ← encodeTx encode with
  | none => return .invalid
  | some len => serverSend env (.txBuf len)

/-- `server_send_exception`. -/
def serverSendException (stateError serviceError : UInt8) : Program (Server σ) Err :=
  sendEncoded env (exceptionResponseEncodeSimple stateError serviceError)

/-! ## Notifications -/

/-- `server_flush_pending_push`. -/
def serverFlushPendingPush : Program (Server σ) Err := do
  let s ← get
  if s.pendingPush.pending then
    set { s with pendingPush := { s.pendingPush with pending := false, deferFlush := false } }
    sendEncoded env (dataNotificationEncode s.objects.pool s.pendingPush.notification)
  else return .ok

/-- What follows a service response: a notification that waited for it. -/
def serverFlushDeferred (result : Err) : Program (Server σ) Err := do
  let s ← get
  if result ≠ .ok then return result
  else if s.pendingPush.deferFlush ∧ s.pendingPush.pending then
    set { s with pendingPush := { s.pendingPush with deferFlush := false } }
    serverFlushPendingPush env
  else return .ok

/-- What follows an ACTION response: a queued notification waits on HDLC and is sent elsewhere. -/
def serverFlushAction (result : Err) : Program (Server σ) Err := do
  let s ← get
  if result ≠ .ok then return result
  else if s.hdlcActive ∧ s.pendingPush.pending then
    set { s with pendingPush := { s.pendingPush with deferFlush := true } }
    return .ok
  else serverFlushPendingPush env

/-- `osp_server_send_event_notification`. -/
def serverSendEventNotification (ev : EventNotification) : Program (Server σ) Err := do
  let s ← get
  if s.aa.associated then sendEncoded env (eventNotificationEncode s.objects.pool ev)
  else return .invalid

/-- `osp_server_send_data_notification`. -/
def serverSendDataNotification (dn : DataNotification) : Program (Server σ) Err := do
  let s ← get
  if s.aa.associated then sendEncoded env (dataNotificationEncode s.objects.pool dn)
  else return .invalid

end Sending

/-- `server_build_data_notification_invoke_id`: the number, self-descriptive, maybe confirmed. -/
def dataNotificationInvokeId (longInvokeId : ℕ) (confirmed : Bool) : ℕ :=
  longInvokeId % 2 ^ 24 + 0x10000000 + (if confirmed then 0x40000000 else 0)

/-- `osp_server_queue_pending_push`. -/
def Server.queuePendingPush (s : Server σ) (push : Push) : Server σ :=
  { s with
    longInvokeId := s.longInvokeId % 2 ^ 24 + 1
    pendingPush :=
      { pending := true
        deferFlush := s.hdlcActive
        notification :=
          ⟨dataNotificationInvokeId s.longInvokeId push.confirmed, .empty 12, push.body⟩ } }

end OpenSpodes
