import OpenSpodes.Model.Gbt
import OpenSpodes.Model.Glo
import OpenSpodes.Model.HdlcSession

/-! # How the client sends and receives an APDU

`client_send_apdu` protects service messages, counts, and hands the result to block transfer,
session or transport. `client_recv_apdu` takes one APDU from the link, reassembles a general block
transfer, and removes the protection of what carries a ciphered tag. Beside the data of `osp_client_t`
stand two records that nothing reads: the plaintexts that were deciphered, and the requests and
responses of the services.
-/

namespace OpenSpodes

open Machine

/-- What the services of a client exchanged with the peer, without protection. -/
inductive Exchange
  | request (apdu : List UInt8)
  | response (apdu : List UInt8)
  deriving DecidableEq, Repr

/-- `osp_client_t`, and what was deciphered and exchanged so far. What `osp_client_init` leaves zero is zero. -/
structure Client where
  wire : Wire
  hdlcActive : Bool
  gbtEnabled : Bool
  cipheringEnabled : Bool
  cipherRx : SecContext
  deciphered : List (List UInt8) := []
  security : SecContext := secContextInit .suite0 .lowest (Vector.replicate 8 0)
  cipherTx : SecContext := secContextInit .suite0 .lowest (Vector.replicate 8 0)
  associated : Bool := false
  invokeId : UInt8 := 0
  gbtBlockSize : ℕ := 0
  gbtWindow : ℕ := 0
  gbtStreaming : Bool := false
  /-- The dedicated key to propose, when one was set. -/
  dedicatedKey : Option (BytesUpTo 32) := none
  /-- The pool behind the nested values of responses. -/
  pool : Pool := .empty
  exchanged : List Exchange := []

/-- The responses that services have taken so far. -/
def Client.responses (c : Client) : List (List UInt8) :=
  c.exchanged.filterMap fun
    | .request _ => none
    | .response apdu => some apdu

/-- Run a step of the link layer. -/
def clientWire {α : Type} (program : Program Wire α) : Program Client α :=
  zoom Client.wire (fun c wire => { c with wire := wire }) program

/-! ## Sending -/

/-- `client_gbt_payload_max`. -/
def Client.gbtPayloadMax (c : Client) : ℕ :=
  let block := if c.gbtBlockSize > 0 then c.gbtBlockSize else 64
  if block > 8 then block - 8 else 1

/-- The end of `client_send_apdu`: block transfer, session or plain transport. -/
def clientTransmit (stale : List UInt8) (source : ApduSource) : Program Client Err := do
  let c ← get
  let sent := source.bytes c.wire
  if c.gbtEnabled ∧ gbtAppliesToApdu sent ∧ source.length > c.gbtPayloadMax then
    clientWire (gbtTransportSend stale ⟨source, c.gbtPayloadMax, c.gbtWindow, c.gbtStreaming⟩)
  else if c.hdlcActive then clientWire (hdlcSessionSendApdu sent)
  else clientWire (transportSendApdu sent)

/-- `client_send_apdu`. -/
def clientSendApdu (hal : Hal) (stale : List UInt8) (source : ApduSource) : Program Client Err := do
  let c ← get
  let plain := source.bytes c.wire
  let tx := c.cipherTx
  if c.cipheringEnabled ∧ gbtAppliesToApdu plain then
    match gloProtect hal tx (svcCipherTagForPlain tx (plain.getD 0 0)) plain with
    | none => return .security
    | some sealed =>
        if tx.invocationCounter = 0xFFFFFFFF then return .security
        else
          set { c with cipherTx := tx.advance }
          clientTransmit stale (.own sealed)
  else clientTransmit stale source

/-! ## Receiving -/

/-- What the link and, for a block transfer, its reassembly deliver, for a buffer of `size` bytes. -/
def clientReceive (stale : List UInt8) (size : ℕ) : Program Client (Except Err (List UInt8)) := do
  let c ← get
  let rxSize := c.wire.rxBuf.length
  match ← clientWire (if c.hdlcActive then hdlcSessionRecvApdu false rxSize else transportRecvApdu rxSize) with
  | .error err => return .error err
  | .ok raw =>
      clientWire (modify (·.fillRx raw))
      if c.gbtEnabled ∧ raw.head? = some 0xE0 then clientWire (gbtTransportRecv stale size raw)
      else if raw.length > size then return .error .nomem
      else return .ok raw

/-- Remove the protection of a received APDU. -/
def clientDecipher (hal : Hal) (size : ℕ) (apdu : List UInt8) : Program Client (Except Err (List UInt8)) := do
  let c ← get
  match gloUnprotect hal apdu c.cipherRx with
  | .error _ ctx =>
      set { c with cipherRx := ctx }
      return .error .security
  | .ok plain ctx =>
      set { c with cipherRx := ctx, deciphered := c.deciphered ++ [plain] }
      if plain.length > size then return .error .nomem else return .ok plain

/-- `client_recv_apdu` into a buffer of its own of `size` bytes. -/
def clientRecvApdu (hal : Hal) (stale : List UInt8) (size : ℕ) :
    Program Client (Except Err (List UInt8)) := do
  match ← clientReceive stale size with
  | .error err => return .error err
  | .ok apdu =>
      if (← get).cipheringEnabled ∧ apdu.length > 0 ∧ svcIsCipheredTag (apdu.getD 0 0) then
        clientDecipher hal size apdu
      else return .ok apdu

end OpenSpodes
