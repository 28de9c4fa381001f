import OpenSpodes.Soundness.SessionBounds

/-! # Agreement on the link parameters

The client offers the parameters it has, which may be those of an earlier connection; the server starts from what
it was configured with, takes the smaller values and answers with them; the client takes the smaller values again.
Each step is a minimum, so both ends hold the same numbers with the directions exchanged.
-/

namespace OpenSpodes

open Bytes Machine

/-- Parameters that can be configured: lengths of 16 bits and windows of 8 bits, none of them zero. -/
structure XidParams.InRange (p : XidParams) : Prop where
  maxInfoTx : 1 ≤ p.maxInfoTx ∧ p.maxInfoTx ≤ 65535
  maxInfoRx : 1 ≤ p.maxInfoRx ∧ p.maxInfoRx ≤ 65535
  windowTx : 1 ≤ p.windowTx ∧ p.windowTx ≤ 255
  windowRx : 1 ≤ p.windowRx ∧ p.windowRx ≤ 255

/-- No parameter is above a limit. -/
structure XidParams.Within (p limit : XidParams) : Prop where
  maxInfoTx : p.maxInfoTx ≤ limit.maxInfoTx
  maxInfoRx : p.maxInfoRx ≤ limit.maxInfoRx
  windowTx : p.windowTx ≤ limit.windowTx
  windowRx : p.windowRx ≤ limit.windowRx

def XidParams.crossed (p : XidParams) : XidParams := ⟨p.maxInfoRx, p.maxInfoTx, p.windowRx, p.windowTx⟩

/-! ## Encoding and negotiation -/

theorem encodeXidParams_length (p : XidParams) : (encodeXidParams p).length = 23 := by
  simp [encodeXidParams, beBytes]

theorem xidParams_param {value : List UInt8} {len : UInt8} (fits : value.length = len.toNat) (fuel : ℕ) (id : UInt8)
    (rest : List UInt8) (p : XidParams) :
    xidParams (fuel + 1) (id :: len :: (value ++ rest)) p = xidParams fuel rest (xidParam p id value) := by
  rw [xidParams, if_neg (by simp [← fits]), ← fits, List.drop_left, List.take_left]

variable {p : XidParams}

/-- Configurable parameters survive their encoding. -/
theorem decodeXidParams_encode (range : p.InRange) : decodeXidParams (encodeXidParams p) = p := by
  have params : (encodeXidParams p).drop 3 = 0x05 :: 0x02 :: (beBytes 2 p.maxInfoTx ++
      0x06 :: 0x02 :: (beBytes 2 p.maxInfoRx ++ 0x07 :: 0x04 :: ([0, 0, 0, UInt8.ofNat p.windowTx] ++
        0x08 :: 0x04 :: ([0, 0, 0, UInt8.ofNat p.windowRx] ++ [])))) := by
    simp [encodeXidParams, beBytes]
  have length : ((encodeXidParams p).drop 3).length = 16 + 4 := by simp [encodeXidParams_length]
  rw [decodeXidParams, if_pos ⟨by simp [encodeXidParams_length], rfl⟩, length, params, xidParams_param rfl,
    xidParams_param rfl, xidParams_param rfl, xidParams_param rfl]
  obtain ⟨maxInfoTx, maxInfoRx, windowTx, windowRx⟩ := p
  obtain ⟨tx, rx, sends, receives⟩ := range
  have byte {n : ℕ} (bound : n ≤ 255) : (UInt8.ofNat n).toNat = n := by
    rw [UInt8.toNat_ofNat', Nat.mod_eq_of_lt (by omega)]
  have word {n : ℕ} (bound : n ≤ 65535) : beNat (beBytes 2 n) = n := beNat_beBytes (by omega)
  change XidParams.mk (beNat (beBytes 2 maxInfoTx)) (beNat (beBytes 2 maxInfoRx)) (UInt8.ofNat windowTx).toNat
    (UInt8.ofNat windowRx).toNat = _
  rw [word tx.2, word rx.2, byte sends.2, byte receives.2]

theorem negotiated_eq_min {own peer : ℕ} (some : 1 ≤ peer) : negotiated own peer = min own peer := by
  unfold negotiated
  split
  · omega
  · omega

/-- The smaller of the own and the offered values. -/
theorem negotiateXid_encode {peer : XidParams} (range : peer.InRange) (xid : XidParams) :
    negotiateXid xid (encodeXidParams peer) =
      ⟨min xid.maxInfoTx peer.maxInfoRx, min xid.maxInfoRx peer.maxInfoTx, min xid.windowTx peer.windowRx,
        min xid.windowRx peer.windowTx⟩ := by
  rw [negotiateXid, if_neg (by simp [encodeXidParams_length]), decodeXidParams_encode range]
  simp only [negotiated_eq_min range.maxInfoRx.1, negotiated_eq_min range.maxInfoTx.1,
    negotiated_eq_min range.windowRx.1, negotiated_eq_min range.windowTx.1]

theorem negotiated_between {own : ℕ} (some : 1 ≤ own) (peer : ℕ) :
    1 ≤ negotiated own peer ∧ negotiated own peer ≤ own := by
  unfold negotiated
  split
  · omega
  · omega

/-- Whatever the peer offers, no value grows and none becomes zero. -/
theorem negotiateXid_between {xid : XidParams} (range : xid.InRange) (info : List UInt8) :
    (negotiateXid xid info).InRange ∧ (negotiateXid xid info).Within xid := by
  unfold negotiateXid
  split
  · exact ⟨range, ⟨le_refl _, le_refl _, le_refl _, le_refl _⟩⟩
  · obtain ⟨tx, rx, sends, receives⟩ := range
    have tx' := negotiated_between tx.1
    have rx' := negotiated_between rx.1
    have sends' := negotiated_between sends.1
    have receives' := negotiated_between receives.1
    exact ⟨⟨⟨(tx' _).1, (tx' _).2.trans tx.2⟩, ⟨(rx' _).1, (rx' _).2.trans rx.2⟩,
      ⟨(sends' _).1, (sends' _).2.trans sends.2⟩, ⟨(receives' _).1, (receives' _).2.trans receives.2⟩⟩,
      ⟨(tx' _).2, (rx' _).2, (sends' _).2, (receives' _).2⟩⟩

/-! ## Parameters along a history -/

/-- The session has a role, a server address and configured parameters, and its negotiated parameters are within
them. -/
structure HdlcSession.Negotiated (isClient : Bool) (serverAddr : HdlcAddress) (xid : XidParams) (s : HdlcSession) :
    Prop where
  role : s.isClient = isClient
  address : s.serverAddr = serverAddr
  configured : s.xidConfigured = xid
  range : s.xid.InRange
  within : s.xid.Within xid

theorem XidParams.Within.trans {q r : XidParams} (first : p.Within q) (second : q.Within r) : p.Within r :=
  ⟨first.1.trans second.1, first.2.trans second.2, first.3.trans second.3, first.4.trans second.4⟩

theorem SessionMove.negotiated {isClient : Bool} {serverAddr : HdlcAddress} {xid : XidParams} (range : xid.InRange)
    {s t : HdlcSession} (move : SessionMove s t) (holds : s.Negotiated isClient serverAddr xid) :
    t.Negotiated isClient serverAddr xid := by
  obtain ⟨role, address, configured, here, within⟩ := holds
  cases move with
  | buffer | state | sent | settled | restarted | established | closed | taken | dropped =>
    exact ⟨role, address, configured, here, within⟩
  | adopted frame =>
    obtain ⟨between, below⟩ := negotiateXid_between range frame.info
    refine ⟨role, address, configured, ?_, ?_⟩
    · simpa only [HdlcSession.adopt, configured] using between
    · simpa only [HdlcSession.adopt, configured] using below
  | answered info =>
    obtain ⟨between, below⟩ := negotiateXid_between here info
    exact ⟨role, address, configured, between, below.trans within⟩

/-! ## One exchange -/

def HdlcSession.snrm (s : HdlcSession) : HdlcFrame :=
  { destination := s.serverAddr, source := s.clientAddr, control := { type := .snrm }, info := encodeXidParams s.xid }

def HdlcSession.ua (s : HdlcSession) (dst : HdlcAddress) : HdlcFrame :=
  { destination := dst, source := s.serverAddr, control := { type := .ua }, info := encodeXidParams s.xid }

variable {forever : Bool} {noise behind ua : List UInt8} {f frame : HdlcFrame} {w after : Wire}

/-- If nothing but one answer was sent since a set-up frame came in, it is the answer to that frame, and the parameters
are negotiated from the configured ones. -/
def TakesSetUp (w after : Wire) (frame : HdlcFrame) (ua : List UInt8) : Prop :=
  after.world.sent = w.world.sent ++ [ua] → after.hdlc.xid = negotiateXid w.hdlc.xidConfigured frame.info ∧
    hdlcFrame ((w.hdlc.adopt frame).ua frame.source) sessionBufSize = .ok ua

theorem TakesSetUp.of_silent (silent : after.world.sent = w.world.sent) : TakesSetUp w after frame ua := by
  intro sent
  simp [silent] at sent

/-- What the server sends when it takes a set-up frame, and what it negotiated, whatever it does behind that. -/
theorem answer_takes {middle : Wire} {result : Err}
    (answered : sessionSendUaXid frame.source (w.setHdlc (w.hdlc.adopt frame)) = some (result, middle))
    (xid : after.hdlc.xid = middle.hdlc.xid) (same : after.world.sent = middle.world.sent) : TakesSetUp w after frame ua := by
  intro sent
  obtain ⟨answer, world, returned, -, accepted, refused⟩ :=
    sessionSendFrame_returns ((w.hdlc.adopt frame).ua frame.source) (w.setHdlc (w.hdlc.adopt frame))
  rw [sessionSendUaXid, session_bind_apply] at answered
  have both := returned.symm.trans answered
  cases both
  by_cases ok : result = .ok
  · obtain ⟨bytes, framed, logged⟩ := accepted ok
    obtain rfl : bytes = ua := by
      have both : w.world.sent ++ [bytes] = w.world.sent ++ [ua] := logged.symm.trans (same.symm.trans sent)
      simpa using both
    exact ⟨xid, framed⟩
  · exact TakesSetUp.of_silent (same.trans (refused ok)) sent

theorem sessionAcceptSnrm_takes {result : Err} (accepted : sessionAcceptSnrm frame w = some (result, after)) :
    TakesSetUp w after frame ua := by
  rw [sessionAcceptSnrm, modifySession_bind_apply] at accepted
  obtain ⟨answer, middle, answered, rest⟩ := bind_eq_some.mp accepted
  by_cases ok : answer = .ok
  · rw [if_pos ok] at rest
    cases rest
    exact answer_takes answered rfl rfl
  · rw [if_neg ok] at rest
    cases rest
    exact answer_takes answered rfl rfl

theorem sessionHandleControl_takes {result : Err} (type : frame.control.type = .snrm)
    (handled : sessionHandleControl frame w = some (result, after)) : TakesSetUp w after frame ua := by
  rw [sessionHandleControl, session_bind_apply, type] at handled
  dsimp only at handled
  by_cases addressed : w.hdlc.addressed frame = true
  · rw [if_pos addressed, modifySession_bind_apply] at handled
    obtain ⟨answer, middle, answered, rest⟩ := bind_eq_some.mp handled
    cases rest
    exact answer_takes answered rfl rfl
  · rw [if_neg addressed] at handled
    cases handled
    exact .of_silent rfl

section Arriving

variable (valid : f.Valid) (small : f.encoding.length ≤ sessionBufSize) (clean : 0x7E ∉ noise)
  (arriving : w.Arriving (noise ++ (f.encoding ++ behind)))

include valid small clean arriving

/-- A client that connects has sent its parameters, and negotiates with those of the frame that arrives. -/
theorem sessionConnectClient_takes (connected : sessionConnectClient forever w = some (.ok, after)) :
    after.hdlc.xid = negotiateXid w.hdlc.xid f.received.info ∧
      ∃ bytes, hdlcFrame w.hdlc.snrm sessionBufSize = .ok bytes ∧ after.world.sent = w.world.sent ++ [bytes] := by
  rw [sessionConnectClient, modifySession_bind_apply, session_bind_apply] at connected
  obtain ⟨result, world, sent, events, accepted, -⟩ :=
    sessionSendFrame_returns w.hdlc.snrm (w.setHdlc { w.hdlc with state := .connecting })
  have connected := (bind_of_some sent).symm.trans connected
  obtain ⟨rfl, connected⟩ := guard_eq_some.mp connected
  have arriving : ((w.setHdlc { w.hdlc with state := .connecting }).setWorld world).Arriving
      (noise ++ (f.encoding ++ behind)) := arriving.congr rfl rfl events
  obtain ⟨bytes, stale, rx, returned, -⟩ := sessionRecvFrame_arriving valid small clean arriving
  have connected := (bind_of_some returned).symm.trans connected
  dsimp only at connected
  rw [if_neg (by simp)] at connected
  by_cases type : f.received.control.type = .ua
  · rw [if_neg (not_not.mpr type), modifySession_bind_apply] at connected
    cases connected
    obtain ⟨snrm, framed, logged⟩ := accepted rfl
    exact ⟨rfl, snrm, framed, logged⟩
  · rw [if_pos type, modifySession_bind_apply] at connected
    cases connected

theorem hdlcSessionConnect_takes (role : w.hdlc.isClient = true)
    (connected : hdlcSessionConnect forever w = some (.ok, after)) :
    after.hdlc.xid = negotiateXid w.hdlc.xid f.received.info ∧
      ∃ bytes, hdlcFrame w.hdlc.snrm sessionBufSize = .ok bytes ∧ after.world.sent = w.world.sent ++ [bytes] := by
  obtain ⟨opened, w₀, openedAt, rest⟩ := bind_eq_some.mp connected
  cases openedAt
  obtain ⟨-, rest⟩ := guard_eq_some.mp rest
  rw [session_bind_apply, if_pos (by exact role)] at rest
  have arriving : (w.setWorld { w.world with opens := w.world.opens.tail }).Arriving
      (noise ++ (f.encoding ++ behind)) := arriving.congr rfl rfl rfl
  obtain ⟨xid, bytes, framed, sent⟩ := sessionConnectClient_takes valid small clean arriving rest
  exact ⟨xid, bytes, framed, sent⟩

theorem sessionConnectLoop_takes {result : Err} {fuel : ℕ} (type : f.received.control.type = .snrm)
    (here : f.destination = w.hdlc.serverAddr)
    (returned : sessionConnectLoop forever (fuel + 1) w = some (result, after)) : TakesSetUp w after f.received ua := by
  obtain ⟨bytes, stale, rx, received, -⟩ := sessionRecvFrame_arriving valid small clean arriving
  have addressed : (w.buffering bytes stale rx).hdlc.addressed f.received = true := by
    simp [HdlcSession.addressed, HdlcFrame.received, here, Wire.buffering]
  rw [sessionConnectLoop, bind_of_some received] at returned
  dsimp only at returned
  rw [if_neg (by decide), if_neg (by simp), session_bind_apply, if_pos ⟨type, addressed⟩] at returned
  have taken := @sessionAcceptSnrm_takes ua _ _ _ _ returned
  exact taken

theorem hdlcSessionRecvApdu_takes {result : Except Err (List UInt8)} {size : ℕ} (type : f.received.control.type = .snrm)
    (returned : hdlcSessionRecvApdu forever size w = some (result, after)) : TakesSetUp w after f.received ua := by
  by_cases idle : w.hdlc.state ≠ .connected
  · rw [hdlcSessionRecvApdu, session_bind_apply, if_pos idle] at returned
    cases returned
    exact .of_silent rfl
  · have connected := not_not.mp idle
    obtain ⟨bytes, stale, rx, handled, -⟩ := hdlcSessionRecvApdu_arriving valid small clean connected arriving
    rw [handled, sessionHandleFrame, type, if_neg (by simp [frameAllowsInfo]), if_neg (by decide)] at returned
    obtain ⟨err, middle, controlled, rest⟩ := bind_eq_some.mp returned
    cases rest
    have taken := @sessionHandleControl_takes ua _ _ _ _ type controlled
    exact taken

/-- A set-up frame is the first thing a server's call receives. -/
theorem serverCall_takes {call : SessionCall} {result : Err × Option (List UInt8)} (role : w.hdlc.isClient = false)
    (type : f.control.type = .snrm) (here : f.destination = w.hdlc.serverAddr)
    (waits : call = .connect forever ∨ ∃ size, call = .recvApdu forever size)
    (returned : call.run w = some (result, after)) : TakesSetUp w after f.received ua := by
  have taken : f.received.control.type = .snrm := by simp [HdlcFrame.received, Control.received, type]
  rcases waits with rfl | ⟨size, rfl⟩
  · obtain ⟨err, middle, connected, rest⟩ := bind_eq_some.mp returned
    cases rest
    obtain ⟨opened, w₀, openedAt, rest⟩ := bind_eq_some.mp connected
    cases openedAt
    by_cases refused : w.world.opens.headD .ok ≠ .ok
    · rw [if_pos refused] at rest
      cases rest
      exact .of_silent rfl
    · rw [if_neg refused, session_bind_apply, if_neg (by simp [Wire.setWorld, role]), modifySession_bind_apply,
        get_bind_apply] at rest
      have arriving : ((w.setWorld { w.world with opens := w.world.opens.tail }).setHdlc
          { w.hdlc with state := .idle }).Arriving (noise ++ (f.encoding ++ behind)) := arriving.congr rfl rfl rfl
      have both := @sessionConnectLoop_takes _ _ _ ua _ _ _ valid small clean arriving _ _ taken (by exact here) rest
      exact both
  · obtain ⟨received, middle, first, rest⟩ := bind_eq_some.mp returned
    cases received with
    | ok | error =>
      cases rest
      exact hdlcSessionRecvApdu_takes valid small clean arriving taken first

end Arriving

/-- A frame that carries parameters is valid and short. -/
theorem parameters_valid {f : HdlcFrame} (destination : f.destination.Valid) (source : f.source.Valid)
    (type : f.control.type ≠ .sabm) (info : f.info = encodeXidParams p) :
    f.Valid ∧ f.encoding.length ≤ sessionBufSize ∧ f.received.info = encodeXidParams p := by
  have length := encodeXidParams_length p
  have bound := f.makeFrameLength_le
  have first := destination.short
  have second := source.short
  rw [info, length] at bound
  refine ⟨⟨destination, source, type, by omega⟩, ?_, ?_⟩
  · rw [f.length_encoding]
    simp only [sessionBufSize, hdlcMaxFrameSize]
    omega
  · rw [HdlcFrame.received, info]
    exact List.take_of_length_le (by simp [length, hdlcMaxFrameSize])

/-- Two minima in a row, with the directions exchanged. -/
theorem XidParams.Within.crossed {q : XidParams} (within : p.Within q) : p.crossed.Within q.crossed :=
  ⟨within.maxInfoRx, within.maxInfoTx, within.windowRx, within.windowTx⟩

theorem negotiateXid_twice {own other : XidParams} (ownRange : own.InRange) (otherRange : other.InRange) :
    let answer := negotiateXid other (encodeXidParams own)
    let taken := negotiateXid own (encodeXidParams answer)
    taken = answer.crossed ∧ taken.InRange ∧ taken.Within own ∧ taken.Within other.crossed := by
  intro answer taken
  have answerRange : answer.InRange := (negotiateXid_between otherRange _).1
  have takenRange := (negotiateXid_between ownRange (encodeXidParams answer)).1
  have takenWithin := (negotiateXid_between ownRange (encodeXidParams answer)).2
  have answerWithin : answer.Within other := (negotiateXid_between otherRange _).2
  have same : taken = answer.crossed := by
    have values := negotiateXid_encode ownRange other
    have back := negotiateXid_encode answerRange own
    rw [show taken = _ from back, show answer = _ from values]
    simp only [XidParams.crossed, XidParams.mk.injEq]
    omega
  refine ⟨same, takenRange, takenWithin, ?_⟩
  rw [same]
  exact answerWithin.crossed

/-- After a set-up frame and its answer that arrive as they were sent, whatever happened on the link before, both
ends hold the same parameters with the directions exchanged, none of them zero and none above what either end was
configured with. -/
theorem xid_agreement {clientOrigin client client' serverOrigin server server' : Wire}
    {clientAddr serverAddr otherAddr clientTries serverTries : ℕ} {clientXid serverXid : XidParams}
    {clientCalls serverCalls : List (SessionCall × Err × Option (List UInt8))} {call : SessionCall}
    {result : Err × Option (List UInt8)} {forever forever' : Bool} {snrm ua noise noise' behind behind' : List UInt8}
    (clientInit : clientOrigin.hdlc = (hdlcSessionInitClient clientAddr serverAddr).configured clientXid clientTries)
    (serverInit : serverOrigin.hdlc = (hdlcSessionInitServer serverAddr otherAddr).configured serverXid serverTries)
    (clientRange : clientXid.InRange) (serverRange : serverXid.InRange)
    (clientHistory : SessionHistory clientOrigin clientCalls client)
    (serverHistory : SessionHistory serverOrigin serverCalls server)
    (addressed : client.hdlc.clientAddr.Valid) (clean : 0x7E ∉ noise) (clean' : 0x7E ∉ noise')
    (offered : hdlcFrame client.hdlc.snrm sessionBufSize = .ok snrm)
    (snrmArrives : server.Arriving (noise ++ (snrm ++ behind)))
    (waits : call = .connect forever' ∨ ∃ size, call = .recvApdu forever' size)
    (answered : call.run server = some (result, server')) (sent : server'.world.sent = server.world.sent ++ [ua])
    (uaArrives : client.Arriving (noise' ++ (ua ++ behind')))
    (connected : hdlcSessionConnect forever client = some (.ok, client')) :
    client'.world.sent = client.world.sent ++ [snrm] ∧ client'.hdlc.xid = server'.hdlc.xid.crossed ∧
      client'.hdlc.xid.InRange ∧ client'.hdlc.xid.Within clientXid ∧ client'.hdlc.xid.Within serverXid.crossed := by
  have clientState : client.hdlc.Negotiated true (hdlcAddressInit serverAddr) clientXid :=
    clientHistory.moves.invariant (fun _ _ => SessionMove.negotiated clientRange)
      (by rw [clientInit]; exact ⟨rfl, rfl, rfl, clientRange, ⟨le_refl _, le_refl _, le_refl _, le_refl _⟩⟩)
  have serverState : server.hdlc.Negotiated false (hdlcAddressInit serverAddr) serverXid :=
    serverHistory.moves.invariant (fun _ _ => SessionMove.negotiated serverRange)
      (by rw [serverInit]; exact ⟨rfl, rfl, rfl, serverRange, ⟨le_refl _, le_refl _, le_refl _, le_refl _⟩⟩)
  have there : (hdlcAddressInit serverAddr).Valid := hdlcAddressInit_valid serverAddr
  obtain rfl : snrm = client.hdlc.snrm.encoding := hdlcFrame_eq offered
  obtain ⟨snrmValid, snrmSmall, snrmInfo⟩ : client.hdlc.snrm.Valid ∧
      client.hdlc.snrm.encoding.length ≤ sessionBufSize ∧
      client.hdlc.snrm.received.info = encodeXidParams client.hdlc.xid :=
    parameters_valid (by simpa only [HdlcSession.snrm, clientState.address] using there) addressed
      (by simp [HdlcSession.snrm]) rfl
  obtain ⟨serverTakes, uaFramed⟩ := serverCall_takes snrmValid snrmSmall clean snrmArrives serverState.role rfl
    (by simp only [HdlcSession.snrm, clientState.address, serverState.address]) waits answered sent
  obtain rfl : ua = _ := hdlcFrame_eq uaFramed
  obtain ⟨uaValid, uaSmall, uaInfo⟩ := parameters_valid
    (f := (server.hdlc.adopt client.hdlc.snrm.received).ua client.hdlc.snrm.source) addressed
    (by simpa only [HdlcSession.ua, HdlcSession.adopt, serverState.address] using there) (by simp [HdlcSession.ua]) rfl
  obtain ⟨clientTakes, bytes, framed, logged⟩ :=
    hdlcSessionConnect_takes uaValid uaSmall clean' uaArrives clientState.role connected
  obtain rfl : client.hdlc.snrm.encoding = bytes := (hdlcFrame_eq framed).symm
  rw [snrmInfo, serverState.configured] at serverTakes
  have answer : (server.hdlc.adopt client.hdlc.snrm.received).xid = server'.hdlc.xid := by
    rw [serverTakes, HdlcSession.adopt, snrmInfo, serverState.configured]
  rw [uaInfo, answer, serverTakes] at clientTakes
  obtain ⟨same, rest⟩ := negotiateXid_twice clientState.range serverRange
  rw [clientTakes, serverTakes]
  exact ⟨logged, same, rest.1, rest.2.1.trans clientState.within, rest.2.2⟩

/-- A client and a server with parameters of their own. -/
def offeringClient : HdlcSession := (hdlcSessionInitClient 16 1).configured ⟨1280, 900, 1, 7⟩ 3

@[inherit_doc offeringClient]
def limitedServer : HdlcSession := (hdlcSessionInitServer 1 16).configured ⟨512, 2030, 3, 1⟩ 3

/-- The answer of the server, with the smaller values. -/
def limitedAnswer : HdlcFrame :=
  { destination := [0x21], source := [0x03], control := { type := .ua }, info := encodeXidParams ⟨512, 1280, 3, 1⟩ }

theorem xid_agreement_limited : ∃ client' server' result,
    hdlcSessionConnect false (linkOf offeringClient [.bytes limitedAnswer.encoding]) = some (.ok, client') ∧
      (SessionCall.connect false).run (linkOf limitedServer [.bytes offeringClient.snrm.encoding]) =
        some (result, server') ∧
      client'.world.sent = [offeringClient.snrm.encoding] ∧ client'.hdlc.xid = server'.hdlc.xid.crossed ∧
      client'.hdlc.xid.InRange ∧ client'.hdlc.xid.Within ⟨1280, 900, 1, 7⟩ ∧
      client'.hdlc.xid.Within (XidParams.mk 512 2030 3 1).crossed := by
  have connects : (hdlcSessionConnect false (linkOf offeringClient [.bytes limitedAnswer.encoding])).map Prod.fst =
      some .ok := by decide +kernel
  have answers : ((SessionCall.connect false).run (linkOf limitedServer [.bytes offeringClient.snrm.encoding])).map
      (fun r => r.2.world.sent) = some [limitedAnswer.encoding] := by decide +kernel
  obtain ⟨⟨_, client'⟩, connected, rfl⟩ := Option.map_eq_some_iff.mp connects
  obtain ⟨⟨result, server'⟩, answered, sent⟩ := Option.map_eq_some_iff.mp answers
  refine ⟨client', server', result, connected, answered, ?_⟩
  exact xid_agreement rfl rfl ⟨by decide, by decide, by decide, by decide⟩
    ⟨by decide, by decide, by decide, by decide⟩ .start .start (hdlcAddressInit_valid 16) List.not_mem_nil List.not_mem_nil
    rfl (linkOf_arriving rfl (by decide) (by decide)) (.inl rfl) answered sent
    (linkOf_arriving rfl (by decide) (by decide)) connected

end OpenSpodes
