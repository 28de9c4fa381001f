import OpenSpodes.Machine.History
import OpenSpodes.Model.Wire

/-! # HDLC link-layer sessions

A session collects bytes into its receive buffer, cuts frames out of them, and runs the link: set-up
with parameter negotiation, numbered information frames with reassembly, and disconnection. Reading
a frame may take any number of receive calls; the loops are bounded by what the script still holds.
-/

namespace OpenSpodes

open Bytes Machine

def sessionBufSize : ℕ := hdlcMaxFrameSize + 64

/-- `OSP_HDLC_WAIT_FOREVER_MS`. -/
def hdlcWaitForeverMs : UInt32 := 0

/-- `session_deadline_ms` when the clock shows `now`. -/
def sessionDeadlineMs (now frameTimeoutMs : UInt32) : UInt32 :=
  if frameTimeoutMs = hdlcWaitForeverMs then 0xFFFFFFFF else now + frameTimeoutMs

/-- `session_remaining_ms` when the clock shows `now`. -/
def sessionRemainingMs (now deadline : UInt32) : UInt32 :=
  if deadline = 0xFFFFFFFF then 0xFFFFFFFF
  else if now ≥ deadline then 0 else deadline - now

/-- A session at its initialisation. -/
def hdlcSessionInit (isClient : Bool) (clientAddr serverAddr : ℕ) (maxInfo : ℕ) : HdlcSession :=
  let xid : XidParams := ⟨maxInfo, maxInfo, 1, 1⟩
  { clientAddr := hdlcAddressInit clientAddr
    serverAddr := hdlcAddressInit serverAddr
    isClient := isClient
    xidConfigured := xid
    xid := xid
    rxBuf := List.replicate sessionBufSize 0 }

/-- `osp_hdlc_session_init_client`. -/
def hdlcSessionInitClient (clientAddr serverAddr : ℕ) : HdlcSession :=
  hdlcSessionInit true clientAddr serverAddr 1280

/-- `osp_hdlc_session_init_server`. -/
def hdlcSessionInitServer (serverAddr clientAddr : ℕ) : HdlcSession :=
  hdlcSessionInit false clientAddr serverAddr 512

/-- Set the parameters of a session before it is used. -/
def HdlcSession.configured (s : HdlcSession) (xid : XidParams) (maxRetransmits : ℕ) : HdlcSession :=
  { s with xidConfigured := xid, xid := xid, maxRetransmits := maxRetransmits }

/-! ## Frames out and in -/

def HdlcSession.ownAddr (s : HdlcSession) : HdlcAddress := if s.isClient then s.clientAddr else s.serverAddr

def HdlcSession.peerAddr (s : HdlcSession) : HdlcAddress := if s.isClient then s.serverAddr else s.clientAddr

/-- `session_send_frame`. -/
def sessionSendFrame (frame : HdlcFrame) : Program Wire Err :=
  match hdlcFrame frame sessionBufSize with
  | .error err => return err
  | .ok bytes => transportSend bytes

/-- The sequence numbers in a frame reject. -/
def frmrSeq (sendSeq recvSeq : UInt8) : UInt8 :=
  let low (seq : UInt8) : UInt8 := seq &&& 7
  low sendSeq ||| (low recvSeq <<< 5)

/-- `session_send_frmr`. -/
def sessionSendFrmr (dst : HdlcAddress) (rejectedCtrl reasons : UInt8) : Program Wire Err := do
  let s ← session
  sessionSendFrame
    { destination := dst
      source := s.ownAddr
      control := { type := .frmr }
      info := [rejectedCtrl, frmrSeq s.sendSeq s.recvSeq, reasons &&& 0x0F] }

/-- `session_send_rr`. -/
def sessionSendRr (dst : HdlcAddress) : Program Wire Err := do
  let s ← session
  sessionSendFrame
    { destination := dst, source := s.ownAddr, control := { type := .rr, recvSeq := s.recvSeq } }

/-- `session_send_dm`. -/
def sessionSendDm (dst : HdlcAddress) : Program Wire Err := do
  sessionSendFrame { destination := dst, source := (← session).serverAddr, control := { type := .dm } }

/-- Move the bytes from `start` on, of `total`, to the front of an area. -/
def moveFront (mem : List UInt8) (start total : ℕ) : List UInt8 :=
  (mem.take total).drop start ++ mem.drop (total - start)

/-- What the buffered bytes hold: a frame that was cut out, or the need for more bytes. -/
inductive Parsed
  | frame (err : Err) (frame : HdlcFrame) (mem : List UInt8) (total : ℕ)
  | more (mem : List UInt8) (total : ℕ)

/-- The inner loop of `session_recv_frame` on `total` bytes; each turn drops at least one. -/
def sessionParse : ℕ → List UInt8 → ℕ → Parsed
  | 0, mem, total => .more mem total
  | fuel + 1, mem, total =>
      let start := (mem.take total).findIdx (· == 0x7E)
      let mem := moveFront mem start total
      let total := total - start
      let need := 1 + ((mem.getD 1 0 &&& 7).toNat * 256 + (mem.getD 2 0).toNat) + 1
      if total < 3 then .more mem total
      else if mem.getD 1 0 &&& 0xF0 ≠ 0xA0 ∨ need > sessionBufSize then
        sessionParse fuel (moveFront mem 1 total) (total - 1)
      else if total < need then .more mem total
      else if mem.getD (need - 1) 0 ≠ 0x7E then
        sessionParse fuel (moveFront mem 1 total) (total - 1)
      else
        let (err, frame) := hdlcDeframe mem need
        if total > need then .frame err frame (moveFront mem need total) (total - need)
        else .frame err frame mem 0

/-- Store the receive buffer. -/
def storeRx (mem : List UInt8) (total : ℕ) : Program Wire Unit :=
  modifySession fun s => { s with rxBuf := mem, rxPendingLen := total }

/-- `session_recv_frame`, one turn for each receive event; `forever` is a wait without deadline. -/
def sessionRecvLoop (forever : Bool) : ℕ → Program Wire (Err × HdlcFrame)
  | 0 => blocked
  | fuel + 1 => do
      let s ← session
      match sessionParse (s.rxPendingLen + 1) s.rxBuf s.rxPendingLen with
      | .frame err frame mem total =>
          storeRx mem total
          if err = .unsupported then
            if s.state = .connected then
              let _ ← sessionSendFrmr frame.source frame.controlRaw 0x01
            return (.timeout, frame)
          else return (err, frame)
      | .more mem total =>
          storeRx mem total
          if total ≥ sessionBufSize then return (.nomem, {})
          else
            match ← nextRx (sessionBufSize - total) with
            | .expired => if forever then sessionRecvLoop forever fuel else return (.timeout, {})
            | .failed .timeout =>
                -- a pause inside a frame drops what was collected of it
                storeRx mem 0
                if total > 0 ∨ forever then sessionRecvLoop forever fuel else return (.timeout, {})
            | .failed .ok => return (.io, {})
            | .failed err => return (err, {})
            | .bytes data =>
                if data.isEmpty then return (.io, {})
                else
                  storeRx (mem.take total ++ overwrite (mem.drop total) data) (total + data.length)
                  sessionRecvLoop forever fuel

/-- `session_recv_frame`. -/
def sessionRecvFrame (forever : Bool) : Program Wire (Err × HdlcFrame) := do
  sessionRecvLoop forever ((← get).world.rx.length + 1)

/-! ## Parameter negotiation -/

/-- `encode_xid_params`. -/
def encodeXidParams (p : XidParams) : List UInt8 :=
  [0x81, 0x80, 20, 0x05, 0x02] ++ beBytes 2 p.maxInfoTx ++ [0x06, 0x02] ++ beBytes 2 p.maxInfoRx ++
    [0x07, 0x04, 0, 0, 0, UInt8.ofNat p.windowTx] ++ [0x08, 0x04, 0, 0, 0, UInt8.ofNat p.windowRx]

/-- A length parameter of one or two bytes; of a longer one only the first byte counts. -/
def xidLength (old : ℕ) (value : List UInt8) : ℕ :=
  if value.length = 2 then beNat value else if value.length ≥ 1 then (value.headD 0).toNat else old

/-- A window parameter; its low byte is kept. -/
def xidWindow (old : ℕ) (value : List UInt8) : ℕ :=
  if value.length ≥ 4 then (value.getD 3 0).toNat else old

/-- One parameter of an information field. -/
def xidParam (p : XidParams) (id : UInt8) (value : List UInt8) : XidParams :=
  match id with
  | 0x05 => { p with maxInfoTx := xidLength p.maxInfoTx value }
  | 0x06 => { p with maxInfoRx := xidLength p.maxInfoRx value }
  | 0x07 => { p with windowTx := xidWindow p.windowTx value }
  | 0x08 => { p with windowRx := xidWindow p.windowRx value }
  | _ => p

/-- The parameter loop of `decode_xid_params`, at most `fuel` parameters. -/
def xidParams : ℕ → List UInt8 → XidParams → XidParams
  | fuel + 1, id :: len :: rest, p =>
      if len.toNat > rest.length then p
      else xidParams fuel (rest.drop len.toNat) (xidParam p id (rest.take len.toNat))
  | _, _, p => p

/-- `decode_xid_params`. -/
def decodeXidParams (data : List UInt8) : XidParams :=
  let params := if data.length ≥ 3 ∧ data.take 2 = [0x81, 0x80] then data.drop 3 else data
  xidParams params.length params ⟨0, 0, 0, 0⟩

/-- A negotiated value: the peer's, when it offers a smaller one. -/
def negotiated (own peer : ℕ) : ℕ := if peer > 0 ∧ peer < own then peer else own

/-- `negotiate_xid`. -/
def negotiateXid (xid : XidParams) (info : List UInt8) : XidParams :=
  if info.length = 0 then xid
  else
    let peer := decodeXidParams info
    { maxInfoTx := negotiated xid.maxInfoTx peer.maxInfoRx
      maxInfoRx := negotiated xid.maxInfoRx peer.maxInfoTx
      windowTx := negotiated xid.windowTx peer.windowRx
      windowRx := negotiated xid.windowRx peer.windowTx }

/-- `session_send_ua_xid`. -/
def sessionSendUaXid (dst : HdlcAddress) : Program Wire Err := do
  let s ← session
  sessionSendFrame
    { destination := dst
      source := s.serverAddr
      control := { type := .ua }
      info := encodeXidParams s.xid }

/-! ## Set-up and disconnection -/

/-- `session_enter_ndm`. -/
def HdlcSession.enterNdm (s : HdlcSession) : HdlcSession :=
  { s with
    state := .idle, sendSeq := 0, recvSeq := 0, hasPendingRetransmit := false, reassembly := []
    rxPendingLen := 0 }

/-- Take the peer's address and parameters from a set-up frame. -/
def HdlcSession.adopt (s : HdlcSession) (frame : HdlcFrame) : HdlcSession :=
  { s with
    receivedClientAddr := frame.source
    clientAddr := frame.source
    xid := negotiateXid s.xidConfigured frame.info }

/-- Sequence numbers and reassembly at the start of a connection. -/
def HdlcSession.restart (s : HdlcSession) : HdlcSession :=
  { s with sendSeq := 0, recvSeq := 0, hasPendingRetransmit := false, reassembly := [] }

/-- Whether a frame is addressed to this server. -/
def HdlcSession.addressed (s : HdlcSession) (frame : HdlcFrame) : Bool :=
  hdlcAddressValue frame.destination == hdlcAddressValue s.serverAddr

/-- `session_handle_disc`: acknowledged when connected, refused otherwise. -/
def sessionHandleDisc (src : HdlcAddress) : Program Wire Err := do
  if (← session).state = .connected then
    let result ← sessionSendUaXid src
    if result = .ok then
      modifySession HdlcSession.enterNdm
      modify (·.note .disc)
      return .disconnected
    else return result
  else sessionSendDm src

/-- What the receive loops can still consume: buffered bytes, events and their bytes. -/
def Wire.supply (w : Wire) : ℕ :=
  w.hdlc.rxPendingLen +
    (w.world.rx.map fun event => match event with
      | .bytes data => data.length + 1
      | _ => 1).sum

/-- Answer a set-up frame and go to the connected state. -/
def sessionAcceptSnrm (frame : HdlcFrame) : Program Wire Err := do
  modifySession (·.adopt frame)
  let result ← sessionSendUaXid frame.source
  if result = .ok then
    modifySession fun s => { s.restart with state := .connected }
    modify (·.note .setUp)
  return result

/-- The server's loop of `osp_hdlc_session_connect`. -/
def sessionConnectLoop (forever : Bool) : ℕ → Program Wire Err
  | 0 => blocked
  | fuel + 1 => do
      let (err, frame) ← sessionRecvFrame forever
      if err = .invalid then sessionConnectLoop forever fuel
      else if err ≠ .ok then return err
      else if frame.control.type = .snrm ∧ (← session).addressed frame then sessionAcceptSnrm frame
      else if frame.control.type = .disc then
        let result ← sessionHandleDisc frame.source
        if result = .ok then sessionConnectLoop forever fuel else return result
      else sessionConnectLoop forever fuel

/-- The client's part of `osp_hdlc_session_connect`. -/
def sessionConnectClient (forever : Bool) : Program Wire Err := do
  modifySession fun s => { s with state := .connecting }
  let s ← session
  let result ← sessionSendFrame
    { destination := s.serverAddr
      source := s.clientAddr
      control := { type := .snrm }
      info := encodeXidParams s.xid }
  if result ≠ .ok then return result
  else
    let (err, ua) ← sessionRecvFrame forever
    if err ≠ .ok then
      modifySession fun s => { s with state := .idle }
      return err
    else if ua.control.type ≠ .ua then
      modifySession fun s => { s with state := .idle }
      return .invalid
    else
      modifySession fun s =>
        { s with
          xid := negotiateXid s.xid ua.info, state := .connected, sendSeq := 0, recvSeq := 0
          reassembly := [] }
      return .ok

/-- `osp_hdlc_session_connect`. -/
def hdlcSessionConnect (forever : Bool) : Program Wire Err := do
  let opened ← transportOpen
  if opened ≠ .ok then return opened
  else if (← session).isClient then sessionConnectClient forever
  else
    modifySession fun s => { s with state := .idle }
    sessionConnectLoop forever ((← get).supply + 1)

/-- `osp_hdlc_session_disconnect`; that the transport is closed behind a success has no effect here. -/
def hdlcSessionDisconnect (forever : Bool) : Program Wire Err := do
  let s ← session
  if s.state ≠ .connected then return .invalid
  else
    modifySession fun s => { s with state := .disconnecting }
    let result ← sessionSendFrame
      { destination := s.peerAddr, source := s.ownAddr, control := { type := .disc } }
    if result ≠ .ok then
      modifySession fun s => { s with state := .idle }
      return result
    else
      let (err, resp) ← sessionRecvFrame forever
      modifySession fun s => { s with state := .idle }
      if err ≠ .ok then return err
      else if resp.control.type = .ua ∨ resp.control.type = .dm then return .ok
      else return .invalid

/-! ## Information frames -/

/-- The largest information field that may be sent or received under a negotiated limit. -/
def infoLimit (negotiatedMax : ℕ) : ℕ := if negotiatedMax > 0 then negotiatedMax else hdlcMaxFrameSize

/-- An information frame to the peer. -/
def HdlcSession.infoFrame (s : HdlcSession) (sendSeq : UInt8) (info : List UInt8) : HdlcFrame :=
  { destination := s.peerAddr
    source := s.ownAddr
    control := { type := .i, sendSeq := sendSeq, recvSeq := s.recvSeq }
    info := info }

/-- `osp_hdlc_session_send_apdu`. -/
def hdlcSessionSendApdu (apdu : List UInt8) : Program Wire Err := do
  let s ← session
  if s.state ≠ .connected then return .invalid
  else
    let info := (if s.isClient then [0xE6, 0xE6, 0x00] else [0xE6, 0xE7, 0x00]) ++ apdu
    if info.length > min (infoLimit s.xid.maxInfoTx) hdlcMaxFrameSize then return .nomem
    else
      let result ← sessionSendFrame (s.infoFrame s.sendSeq info)
      if result = .ok then
        modifySession fun s =>
          { s with
            lastSentInfo := info, lastSentSeq := s.sendSeq, hasPendingRetransmit := true
            sendSeq := (s.sendSeq + 1) &&& 7 }
      return result

/-- `frame_allows_info`. -/
def frameAllowsInfo : FrameType → Bool
  | .i | .ui | .xid | .snrm | .ua | .dm | .frmr => true
  | _ => false

/-- Send the last information frame once more. -/
def sessionRetransmit : Program Wire Unit := do
  let s ← session
  if s.hasPendingRetransmit ∧ s.maxRetransmits > 0 then
    let _ ← sessionSendFrame (s.infoFrame s.lastSentSeq s.lastSentInfo)
    modifySession fun s => { s with hasPendingRetransmit := false }

/-- Frames of `osp_hdlc_session_recv_apdu` other than information frames. -/
def sessionHandleControl (frame : HdlcFrame) : Program Wire Err := do
  let s ← session
  match frame.control.type with
  | .ui =>
      if frame.info.length > infoLimit s.xid.maxInfoRx then
        let _ ← sessionSendFrmr frame.source frame.controlRaw 0x04
      return .timeout
  | .snrm =>
      -- a set-up while connected restarts the link; the caller only sees a timeout
      if s.addressed frame then
        modifySession (·.adopt frame)
        let _ ← sessionSendUaXid frame.source
        modifySession HdlcSession.restart
        modify (·.note .restart)
      return .timeout
  | .disc => sessionHandleDisc frame.source
  | .rr =>
      if frame.control.recvSeq ≠ s.sendSeq then
        let _ ← sessionSendFrmr frame.source frame.controlRaw 0x08
      else modifySession fun s => { s with hasPendingRetransmit := false }
      return .timeout
  | .rnr =>
      if frame.control.recvSeq ≠ s.sendSeq then
        let _ ← sessionSendFrmr frame.source frame.controlRaw 0x08
      return .timeout
  | .rej =>
      sessionRetransmit
      return .timeout
  | _ => return .invalid

/-- The APDU of a reassembled unit, its LLC header stripped. -/
def stripLlc (msdu : List UInt8) : List UInt8 :=
  if msdu.getD 0 0 = 0xE6 ∧ (msdu.getD 1 0 = 0xE6 ∨ msdu.getD 1 0 = 0xE7) ∧ msdu.getD 2 0 = 0x00 then
    msdu.drop 3
  else msdu

/-- An information frame of `osp_hdlc_session_recv_apdu`, for a buffer of `size` bytes. -/
def sessionHandleInfo (frame : HdlcFrame) (size : ℕ) : Program Wire (Except Err (List UInt8)) := do
  let s ← session
  if frame.info.length > infoLimit s.xid.maxInfoRx then
    let _ ← sessionSendFrmr frame.source frame.controlRaw 0x04
    return .error .timeout
  else if frame.control.recvSeq ≠ s.sendSeq then
    let _ ← sessionSendFrmr frame.source frame.controlRaw 0x08
    return .error .timeout
  else if frame.control.sendSeq ≠ s.recvSeq then
    let _ ← sessionSendRr frame.source
    return .error .timeout
  else if s.reassembly.length + frame.info.length > hdlcMaxFrameSize then
    let _ ← sessionSendFrmr frame.source frame.controlRaw 0x04
    modifySession fun s => { s with reassembly := [] }
    return .error .timeout
  else
    let msdu := s.reassembly ++ frame.info
    modifySession fun s =>
      { s with reassembly := msdu, recvSeq := (frame.control.sendSeq + 1) &&& 7 }
    if frame.segmented then
      let _ ← sessionSendRr frame.source
      return .error .timeout
    else
      modifySession fun s => { s with reassembly := [] }
      if msdu.length < 3 then return .error .invalid
      else if (stripLlc msdu).length > size then return .error .nomem
      else return .ok (stripLlc msdu)

/-- The frame that `osp_hdlc_session_recv_apdu` waits for; damaged frames are dropped. -/
def sessionRecvIntact (forever : Bool) : ℕ → Program Wire (Err × HdlcFrame)
  | 0 => blocked
  | fuel + 1 => do
      let received ← sessionRecvFrame forever
      if received.1 = .invalid then sessionRecvIntact forever fuel else return received

/-- `osp_hdlc_session_recv_apdu` for a buffer of `size` bytes. -/
def hdlcSessionRecvApdu (forever : Bool) (size : ℕ) : Program Wire (Except Err (List UInt8)) := do
  if (← session).state ≠ .connected then return .error .invalid
  else
    let (err, frame) ← sessionRecvIntact forever ((← get).supply + 1)
    if err ≠ .ok then return .error err
    else if frame.info.length > 0 ∧ !frameAllowsInfo frame.control.type then
      let _ ← sessionSendFrmr frame.source frame.controlRaw 0x03
      return .error .timeout
    else if frame.control.type = .i then sessionHandleInfo frame size
    else return .error (← sessionHandleControl frame)

/-! ## Calls -/

/-- A call of the session's interface. -/
inductive SessionCall
  | connect (forever : Bool)
  | sendApdu (apdu : List UInt8)
  | recvApdu (forever : Bool) (size : ℕ)
  | disconnect (forever : Bool)
  deriving DecidableEq, Repr

/-- Make a call; what a reception returned with success is its APDU. -/
def SessionCall.run : SessionCall → Program Wire (Err × Option (List UInt8))
  | .connect forever => return (← hdlcSessionConnect forever, none)
  | .sendApdu apdu => return (← hdlcSessionSendApdu apdu, none)
  | .recvApdu forever size => do
      match ← hdlcSessionRecvApdu forever size with
      | .ok apdu => return (.ok, some apdu)
      | .error err => return (err, none)
  | .disconnect forever => return (← hdlcSessionDisconnect forever, none)

/-- The calls of a session in their order, with what they returned. -/
abbrev SessionHistory : Wire → List (SessionCall × Err × Option (List UInt8)) → Wire → Prop :=
  History fun w call w' => call.1.run w = some (call.2, w')

end OpenSpodes
