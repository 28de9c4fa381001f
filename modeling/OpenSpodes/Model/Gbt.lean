import OpenSpodes.Model.Wire
import OpenSpodes.Model.Xdms

/-! # General block transfer

A long APDU travels as numbered blocks over the plain transport, below any HDLC session. The sender
works out of the caller's APDU and encodes each block into the transmit buffer; when the APDU itself
lies in that buffer, later blocks are cut out of what earlier ones left there. A received block
claims a length and brings as many bytes as it has: the rest is what the decoder's stack held.
-/

namespace OpenSpodes

open Bytes Machine Machine.Fallible

/-- `osp_general_block_transfer_t`. -/
structure GeneralBlock where
  lastBlock : Bool
  streaming : Bool
  window : ℕ
  blockNumber : ℕ
  blockNumberAck : ℕ
  blockData : List UInt8
  deriving DecidableEq, Repr

/-- `osp_gbt_applies_to_apdu`. -/
def gbtAppliesToApdu (apdu : List UInt8) : Bool :=
  match apdu with
  | [] => false
  | tag :: _ => tag ∈ [0xC0, 0xC4, 0xC1, 0xC5, 0xC3, 0xC7, 0x0F, 0xC2]

/-- A GET-, SET- or ACTION-response. -/
def isServiceResponse (apdu : List UInt8) : Bool :=
  match apdu with
  | [] => false
  | tag :: _ => tag ∈ [0xC4, 0xC5, 0xC7]

/-- `osp_gbt_encode`. -/
def gbtEncode (gbt : GeneralBlock) : Write Unit := do
  let flags : ℕ := (if gbt.lastBlock then 0x80 else 0) + (if gbt.streaming then 0x40 else 0)
  axdrWriteU8 0xE0
  axdrWriteU8 (UInt8.ofNat (flags + gbt.window % 64))
  axdrWriteU16 gbt.blockNumber
  axdrWriteU16 gbt.blockNumberAck
  dlmsWriteLen gbt.blockData.length
  writeEach gbt.blockData

/-- `osp_gbt_decode`; `stale` is the old content of the block's array. -/
def gbtDecode (stale : List UInt8) : Read GeneralBlock := do
  let tag ← axdrReadU8
  failIf (tag ≠ 0xE0) .invalid
  let ctrl ← axdrReadU8
  let number ← axdrReadU16
  let numberAck ← axdrReadU16
  let len ← dlmsReadLen
  failIf (len > 256) .invalid
  let present := min (← get).unread len
  let data ← takeBytes present
  return {
    lastBlock := ctrl &&& 0x80 != 0
    streaming := ctrl &&& 0x40 != 0
    window := (ctrl &&& 0x3F).toNat
    blockNumber := number
    blockNumberAck := numberAck
    blockData := data ++ (padTo len stale).drop present }

/-- `gbt_send_block`. -/
def gbtSendBlock (gbt : GeneralBlock) : Program Wire Err := do
  match gbtEncode gbt (WBuf.init (← get).txBuf.length) with
  | .error _ _ => return .invalid
  | .ok _ buf =>
      modify (·.fillTx buf.out)
      transportSendApdu buf.out

/-- A block out of an APDU. -/
def gbtDecodeApdu (stale apdu : List UInt8) : Except Err GeneralBlock :=
  match gbtDecode stale (Buf.ofBytes apdu) with
  | .error _ _ => .error .invalid
  | .ok gbt _ => .ok gbt

/-- `gbt_recv_block`. -/
def gbtRecvBlock (stale : List UInt8) : Program Wire (Except Err GeneralBlock) := do
  match ← transportRecvApdu (← get).rxBuf.length with
  | .error err => return .error err
  | .ok apdu =>
      modify (·.fillRx apdu)
      return gbtDecodeApdu stale apdu

/-- `gbt_send_ack`. -/
def gbtSendAck (window blockNumberAck : ℕ) : Program Wire Err :=
  gbtSendBlock ⟨true, false, window, 1, blockNumberAck, []⟩

/-- `gbt_wait_for_ack`; the number that was acknowledged. -/
def gbtWaitForAck (stale : List UInt8) (blockNumberAck : ℕ) : Program Wire (Except Err ℕ) := do
  match ← gbtRecvBlock stale with
  | .error err => return .error err
  | .ok ack =>
      if ack.blockData.length ≠ 0 ∨ !ack.lastBlock ∨ ack.streaming then return .error .invalid
      else if ack.blockNumberAck < blockNumberAck then return .error .invalid
      else return .ok ack.blockNumberAck

/-- What an APDU is sent from: bytes of its own, or the start of the transmit buffer. -/
inductive ApduSource
  | own (apdu : List UInt8)
  | txBuf (len : ℕ)
  deriving DecidableEq, Repr

def ApduSource.length : ApduSource → ℕ
  | own apdu => apdu.length
  | txBuf len => len

/-- The bytes as they are at the moment. -/
def ApduSource.bytes (w : Wire) : ApduSource → List UInt8
  | own apdu => apdu
  | txBuf len => padTo len w.txBuf

structure GbtSend where
  source : ApduSource
  payloadMax : ℕ
  window : ℕ
  streaming : Bool
  deriving DecidableEq, Repr

/-- Position in a transfer: byte offset, next block number, blocks since the last acknowledgement. -/
structure GbtPos where
  offset : ℕ := 0
  blockNumber : ℕ := 1
  inWindow : ℕ := 0
  deriving DecidableEq, Repr

/-- Where to go on after an acknowledgement: behind the confirmed block, or at the start. -/
def gbtResume (send : GbtSend) (pos : GbtPos) (acked : ℕ) : GbtPos :=
  if acked + 1 < pos.blockNumber then
    if acked * send.payloadMax ≥ send.source.length then {}
    else { offset := acked * send.payloadMax, blockNumber := acked + 1 }
  else { pos with inWindow := 0 }

/-- The loop of `gbt_transport_send`. -/
def gbtSendLoop (stale : List UInt8) (send : GbtSend) : ℕ → GbtPos → Program Wire Err
  | 0, _ => blocked
  | fuel + 1, pos => do
      if pos.offset < send.source.length then
        let chunk := min (send.source.length - pos.offset) send.payloadMax
        let last := pos.offset + chunk ≥ send.source.length
        let data := ((send.source.bytes (← get)).drop pos.offset).take chunk
        let result ← gbtSendBlock ⟨last, send.streaming, send.window, pos.blockNumber, 0, data⟩
        if result ≠ .ok then return result
        else
          let pos : GbtPos := ⟨pos.offset + chunk, (pos.blockNumber + 1) % 2 ^ 16, pos.inWindow + 1⟩
          if send.window > 0 ∧ ¬last ∧ pos.inWindow ≥ send.window then
            match ← gbtWaitForAck stale (pos.blockNumber - 1) with
            | .error err => return err
            | .ok acked => gbtSendLoop stale send fuel (gbtResume send pos acked)
          else gbtSendLoop stale send fuel pos
      else return .ok

/-- `gbt_transport_send`, plain or streaming. Each turn sends at least one byte, and only an
acknowledgement can send the transfer back. -/
def gbtTransportSend (stale : List UInt8) (send : GbtSend) : Program Wire Err := do
  let len := send.source.length
  if len = 0 ∨ len > 4096 ∨ send.payloadMax = 0 ∨ send.payloadMax > 256 then return .invalid
  else
    gbtSendLoop stale { send with window := send.window % 64 }
      (((← get).world.rx.length + 1) * (len + 1) + 1) {}

/-- Position in a reception: bytes so far, next block number, the window the peer announced. -/
structure GbtRecv where
  acc : List UInt8 := []
  expected : ℕ := 1
  peerWindow : ℕ := 0
  deriving DecidableEq, Repr

/-- Acknowledge a block and go on, unless the acknowledgement could not be sent. -/
def gbtAckThen (window number : ℕ) (next : GbtRecv) : Program Wire (Except Err (List UInt8) ⊕ GbtRecv) := do
  let result ← gbtSendAck window number
  return if result = .ok then .inr next else .inl (.error result)

/-- The position behind a block that was expected. -/
def GbtRecv.append (at' : GbtRecv) (gbt : GeneralBlock) : GbtRecv :=
  ⟨at'.acc ++ gbt.blockData, (at'.expected + 1) % 2 ^ 16, if gbt.window > 0 then gbt.window else at'.peerWindow⟩

/-- One received block: the result, or where to go on. -/
def gbtRecvStep (size : ℕ) (at' : GbtRecv) (gbt : GeneralBlock) :
    Program Wire (Except Err (List UInt8) ⊕ GbtRecv) := do
  if gbt.blockNumber > at'.expected then
    -- a gap: ask for the missing blocks
    gbtAckThen (max 1 (min (gbt.blockNumber - at'.expected) 63)) (at'.expected - 1) at'
  else if gbt.blockNumber < at'.expected then
    -- a block that came before
    let window := if gbt.window > 0 then gbt.window else at'.peerWindow
    if window > 0 then gbtAckThen window gbt.blockNumber at' else return .inr at'
  else
    let next := at'.append gbt
    if next.acc.length > size then return .inl (.error .nomem)
    else if gbt.lastBlock then return .inl (.ok next.acc)
    else if next.peerWindow > 0 then gbtAckThen next.peerWindow at'.expected next
    else return .inr next

/-- The loop of `osp_gbt_transport_recv` behind the first block, one turn for each receive call. -/
def gbtRecvLoop (stale : List UInt8) (size : ℕ) : ℕ → GbtRecv → Program Wire (Except Err (List UInt8))
  | 0, _ => blocked
  | fuel + 1, at' => do
      match ← gbtRecvBlock stale with
      | .error err => return .error err
      | .ok gbt =>
          match ← gbtRecvStep size at' gbt with
          | .inl result => return result
          | .inr next => gbtRecvLoop stale size fuel next

/-- `osp_gbt_transport_recv` when the first block was already read, for an APDU of at most `size`. -/
def gbtTransportRecv (stale : List UInt8) (size : ℕ) (first : List UInt8) :
    Program Wire (Except Err (List UInt8)) := do
  match gbtDecodeApdu stale first with
  | .error err => return .error err
  | .ok gbt =>
      match ← gbtRecvStep size {} gbt with
      | .inl result => return result
      | .inr next => gbtRecvLoop stale size ((← get).world.rx.length + 1) next

/-- `osp_gbt_transport_recv` without a first block: every block is read from the transport. -/
def gbtTransportRecvAll (stale : List UInt8) (size : ℕ) : Program Wire (Except Err (List UInt8)) := do
  gbtRecvLoop stale size ((← get).world.rx.length + 1) {}

end OpenSpodes
