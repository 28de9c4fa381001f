import OpenSpodes.Machine.Program
import OpenSpodes.Model.Hdlc
import OpenSpodes.Model.Security

/-! # The transport below a server or client

The HAL transport is a script: what successive receive calls deliver, and what the send, open and
random functions return. Everything above is deterministic, so a property of all scripts is a
property of all behaviours of peer and HAL. A receive call with no event left waits for ever.

`Wire` is what the link layer of one party works on: its HDLC session, its transmit and receive
buffers as memory, whose old content some readers see, and the resets of the link in their order.
-/

namespace OpenSpodes

open Bytes Machine

/-- One receive call, or the deadline that passes before it. -/
inductive RxEvent
  | expired
  | failed (err : Err)
  | bytes (data : List UInt8)
  deriving DecidableEq, Repr

/-- The rest of a HAL's behaviour, and what was sent successfully so far. -/
structure World where
  rx : List RxEvent
  sends : List Err := []
  opens : List Err := []
  randoms : List (Option (List UInt8)) := []
  sent : List (List UInt8) := []
  deriving DecidableEq

/-- `osp_framing_type_t`. -/
inductive Framing
  | none | hdlc | wrapper
  deriving DecidableEq, Repr

/-- `osp_hdlc_state_t`. -/
inductive HdlcState
  | idle | connecting | connected | disconnecting
  deriving DecidableEq, Repr

/-- `osp_hdlc_xid_params_t`. -/
structure XidParams where
  maxInfoTx : ℕ
  maxInfoRx : ℕ
  windowTx : ℕ
  windowRx : ℕ
  deriving DecidableEq, Repr

/-- `osp_hdlc_session_t`. -/
structure HdlcSession where
  clientAddr : HdlcAddress
  serverAddr : HdlcAddress
  receivedClientAddr : HdlcAddress := []
  isClient : Bool
  state : HdlcState := .idle
  sendSeq : UInt8 := 0
  recvSeq : UInt8 := 0
  xidConfigured : XidParams
  xid : XidParams
  inactivityTimeoutS : ℕ := 120
  lastSentInfo : List UInt8 := []
  lastSentSeq : UInt8 := 0
  hasPendingRetransmit : Bool := false
  maxRetransmits : ℕ := 3
  reassembly : List UInt8 := []
  rxBuf : List UInt8
  rxPendingLen : ℕ := 0
  deriving DecidableEq

/-- Resets of the link: a set-up that was answered, a set-up while connected, and a disconnection
that was carried out. -/
inductive LinkEvent
  | setUp | restart | disc
  deriving DecidableEq, Repr

/-- The link layer of one party. -/
structure Wire where
  framing : Framing
  wrapperSource : ℕ
  wrapperDest : ℕ
  hdlc : HdlcSession
  world : World
  txBuf : List UInt8
  rxBuf : List UInt8
  links : List LinkEvent := []
  deriving DecidableEq

/-- Copy bytes over the start of a memory area. -/
def overwrite (mem bytes : List UInt8) : List UInt8 := bytes ++ mem.drop bytes.length

theorem length_overwrite (mem bytes : List UInt8) : (overwrite mem bytes).length = max mem.length bytes.length := by
  simp only [overwrite, List.length_append, List.length_drop]
  omega

namespace Wire

def setWorld (w : Wire) (world : World) : Wire := { w with world := world }

def setHdlc (w : Wire) (hdlc : HdlcSession) : Wire := { w with hdlc := hdlc }

def fillTx (w : Wire) (bytes : List UInt8) : Wire := { w with txBuf := overwrite w.txBuf bytes }

def fillRx (w : Wire) (bytes : List UInt8) : Wire := { w with rxBuf := overwrite w.rxBuf bytes }

def note (w : Wire) (event : LinkEvent) : Wire := { w with links := w.links ++ [event] }

end Wire

def session : Program Wire HdlcSession := return (← get).hdlc

def modifySession (change : HdlcSession → HdlcSession) : Program Wire Unit :=
  modify fun w => w.setHdlc (change w.hdlc)

/-- The transport's `send`. -/
def transportSend (bytes : List UInt8) : Program Wire Err := do
  let w := (← get).world
  let result := w.sends.headD .ok
  let sent := if result = .ok then w.sent ++ [bytes] else w.sent
  modify (·.setWorld { w with sends := w.sends.tail, sent := sent })
  return result

/-- The transport's `open`. -/
def transportOpen : Program Wire Err := do
  let w := (← get).world
  modify (·.setWorld { w with opens := w.opens.tail })
  return w.opens.headD .ok

/-- The next event at the transport's `recv`, with data cut to the room the caller has. -/
def nextRx (room : ℕ) : Program Wire RxEvent := do
  let w := (← get).world
  match w.rx with
  | [] => blocked
  | event :: rest =>
      modify (·.setWorld { w with rx := rest })
      match event with
      | .bytes data => return .bytes (data.take room)
      | other => return other

/-- One `recv` call; a success without data delivers no bytes. -/
def transportRecv (room : ℕ) : Program Wire (Except Err (List UInt8)) := do
  match ← nextRx room with
  | .bytes data => return .ok data
  | .failed .ok => return .ok []
  | .failed err => return .error err
  | .expired => return .error .timeout

/-- `osp_hal_random_fill` for `n` bytes. -/
def randomFill (n : ℕ) : Program Wire (Option (List UInt8)) := do
  let w := (← get).world
  modify (·.setWorld { w with randoms := w.randoms.tail })
  return (w.randoms.headD none).map (padTo n)

/-- The size of the frame buffers on the stack of the two functions below. -/
def framedSize : ℕ := hdlcMaxFrameSize + 32

/-- An APDU in a frame; the HDLC framing cuts what exceeds the information field. -/
def frameApdu (w : Wire) (apdu : List UInt8) : Except Err (List UInt8) :=
  match w.framing with
  | .wrapper => wrapperEncode w.wrapperSource w.wrapperDest apdu framedSize
  | .hdlc =>
      hdlcFrame
        { destination := hdlcAddressInit 1
          source := hdlcAddressInit 1
          control := { type := .i }
          info := apdu.take hdlcMaxFrameSize } framedSize
  | .none => if apdu.length > framedSize then .error .nomem else .ok apdu

/-- `osp_transport_send_apdu`. -/
def transportSendApdu (apdu : List UInt8) : Program Wire Err := do
  match frameApdu (← get) apdu with
  | .error err => return err
  | .ok framed => transportSend framed

/-- The APDU of a received frame, for a buffer of `size` bytes. -/
def unframeApdu (framing : Framing) (raw : List UInt8) (size : ℕ) : Except Err (List UInt8) :=
  let checked (apdu : List UInt8) : Except Err (List UInt8) :=
    if apdu.length > size then .error .nomem else .ok apdu
  match framing with
  | .wrapper =>
      match wrapperDecode raw with
      | .error err => .error err
      | .ok apdu => checked apdu
  | .hdlc =>
      match hdlcDeframe raw raw.length with
      | (.ok, frame) => checked frame.info
      | (err, _) => .error err
  | .none => checked raw

/-- `osp_transport_recv_apdu` for a buffer of `size` bytes. -/
def transportRecvApdu (size : ℕ) : Program Wire (Except Err (List UInt8)) := do
  match ← transportRecv framedSize with
  | .error err => return .error err
  | .ok raw => return unframeApdu (← get).framing raw size

end OpenSpodes
