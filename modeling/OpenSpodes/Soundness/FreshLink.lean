import OpenSpodes.Proofs.SessionTwins
import OpenSpodes.Soundness.SessionBounds

/-! # A new link starts afresh

A client session keeps most of what earlier links left in it: a connect sets the sequence numbers and the reassembly
back, nothing else. A session with no bytes waiting and no frame to repeat then behaves on the new link as one that
was just initialised. The numbers and the reassembly are not looked at before the link is up, which is shown first; the
rest is the residue.
-/

namespace OpenSpodes

open Machine

/-- A newly initialised client session with the addresses and parameters of another one. -/
def HdlcSession.renewed (s : HdlcSession) : HdlcSession :=
  { hdlcSessionInitClient 0 0 with
    clientAddr := s.clientAddr, serverAddr := s.serverAddr, xidConfigured := s.xidConfigured, xid := s.xid
    inactivityTimeoutS := s.inactivityTimeoutS, maxRetransmits := s.maxRetransmits }

/-! ## Before the link is up -/

/-- The link with its numbers and its reassembly set back. -/
def Wire.cleared (w : Wire) : Wire := w.setHdlc { w.hdlc with sendSeq := 0, recvSeq := 0, reassembly := [] }

/-- The right link is the left one set back, and none is connected. -/
def ClearedTwins (w v : Wire) : Prop := v = w.cleared ∧ w.hdlc.state ≠ .connected

theorem nextRx_cleared (room : ℕ) : Twin ClearedTwins (nextRx room) := by
  rintro w _ ⟨rfl, apart⟩
  refine .get_bind ?_
  dsimp only
  rw [show w.cleared.world.rx = w.world.rx from rfl]
  cases w.world.rx with
  | nil => exact .blocked
  | cons event rx =>
    refine .modify_bind ?_
    cases event with
    | expired => exact .pure _ ⟨rfl, apart⟩
    | failed err => exact .pure _ ⟨rfl, apart⟩
    | bytes data => exact .pure _ ⟨rfl, apart⟩

theorem storeRx_cleared (mem : List UInt8) (total : ℕ) : Twin ClearedTwins (storeRx mem total) := by
  rintro w _ ⟨rfl, apart⟩
  exact .modify ⟨rfl, apart⟩

theorem sessionRecvLoop_cleared (forever : Bool) (fuel : ℕ) : Twin ClearedTwins (sessionRecvLoop forever fuel) := by
  induction fuel with
  | zero => exact fun w v _ => .blocked
  | succ fuel ih =>
    rintro w _ ⟨rfl, apart⟩
    rw [sessionRecvLoop]
    refine .get_bind ?_
    rw [show w.cleared.hdlc.rxPendingLen = w.hdlc.rxPendingLen from rfl,
      show w.cleared.hdlc.rxBuf = w.hdlc.rxBuf from rfl, show w.cleared.hdlc.state = w.hdlc.state from rfl]
    have here : ClearedTwins w w.cleared := ⟨rfl, apart⟩
    cases sessionParse (w.hdlc.rxPendingLen + 1) w.hdlc.rxBuf w.hdlc.rxPendingLen with
    | frame err f mem total =>
      refine (storeRx_cleared mem total w _ here).bind fun _ => Twin.ite ?_ (.pure _)
      -- only a connected session rejects a frame, with its numbers
      simp only [if_neg apart]
      exact .pure _
    | more mem total =>
      refine (storeRx_cleared mem total w _ here).bind fun _ => Twin.ite (.pure _) ?_
      refine (nextRx_cleared _).bind fun event => ?_
      cases event with
      | expired => exact .ite ih (.pure _)
      | failed err =>
        cases err with
        | timeout => exact (storeRx_cleared mem 0).bind fun _ => .ite ih (.pure _)
        | _ => exact .pure _
      | bytes data => exact .ite (.pure _) ((storeRx_cleared _ _).bind fun _ => ih)

theorem sessionRecvFrame_cleared (forever : Bool) : Twin ClearedTwins (sessionRecvFrame forever) := by
  rintro w _ ⟨rfl, apart⟩
  exact .get_bind (sessionRecvLoop_cleared forever _ w _ ⟨rfl, apart⟩)

theorem sessionSendFrame_cleared (frame : HdlcFrame) : Twin ClearedTwins (sessionSendFrame frame) := by
  rintro w _ ⟨rfl, apart⟩
  unfold sessionSendFrame
  cases hdlcFrame frame sessionBufSize with
  | error err => exact .pure _ ⟨rfl, apart⟩
  | ok bytes => exact .get_bind (.modify_bind (.pure _ ⟨rfl, apart⟩))

theorem sessionConnectClient_alike_cleared (forever : Bool) (w : Wire) (state : HdlcState) :
    TwinAt (fun w v => v = w.cleared) w (w.setHdlc { w.cleared.hdlc with state := state })
      (sessionConnectClient forever) (sessionConnectClient forever) := by
  refine .modify_bind ?_
  have here : ClearedTwins (w.setHdlc { w.hdlc with state := .connecting })
      (w.setHdlc { w.hdlc with state := .connecting }).cleared := ⟨rfl, by simp [Wire.setHdlc]⟩
  refine .get_bind ((sessionSendFrame_cleared _ _ _ here).bind fun result s t twins => ?_)
  refine .ite (fun _ => .pure _ twins.1) fun _ => ?_
  refine (sessionRecvFrame_cleared forever s t twins).bind fun received s t twins => ?_
  obtain ⟨rfl, _⟩ := twins
  refine .ite (fun _ => .modify_bind (.pure _ rfl)) fun _ => ?_
  exact .ite (fun _ => .modify_bind (.pure _ rfl)) fun _ => .modify_bind (.pure _ rfl)

theorem sessionConnectClient_clears (forever : Bool) (w : Wire) :
    wp (sessionConnectClient forever) (fun err after => err = .ok → after.cleared = after) w := by
  unfold sessionConnectClient
  simp only [wp_bind, wp_ite, wp_pure]
  intro _ _ _ _ _ _ result _ _
  refine ⟨fun failed ok => absurd ok failed, fun _ received _ _ => ?_⟩
  refine ⟨fun failed _ _ _ ok => absurd ok failed, fun _ => ⟨fun _ _ _ _ ok => by simp at ok, fun _ => ?_⟩⟩
  intro _ _ changed _
  cases changed
  rfl

/-- A client's set-up does not depend on the state, the numbers and the reassembly it starts with, and a success sets
them. -/
theorem hdlcSessionConnect_cleared {forever : Bool} {w after : Wire} (client : w.hdlc.isClient = true)
    (linked : hdlcSessionConnect forever w = some (.ok, after)) (state : HdlcState) :
    hdlcSessionConnect forever (w.setHdlc { w.cleared.hdlc with state := state }) = some (.ok, after) := by
  obtain ⟨opened, v, opening, rest⟩ := bind_eq_some.mp linked
  have opening' : transportOpen (w.setHdlc { w.cleared.hdlc with state := state }) =
      some (opened, v.setHdlc { v.cleared.hdlc with state := state }) := by
    cases opening
    rfl
  refine bind_eq_some.mpr ⟨opened, _, opening', ?_⟩
  have role : v.hdlc.isClient = true := by
    cases opening
    exact client
  by_cases failed : opened ≠ .ok
  · rw [if_pos failed] at rest
    cases rest
    exact absurd rfl failed
  rw [if_neg failed] at rest ⊢
  change (if v.hdlc.isClient = true then sessionConnectClient forever else _) _ = _ at rest
  change (if v.hdlc.isClient = true then sessionConnectClient forever else _) _ = _
  rw [if_pos role] at rest ⊢
  rcases sessionConnectClient_alike_cleared forever v state with ⟨waits, _⟩ | ⟨err, s, t, ran, ran', rfl⟩
  · rw [waits] at rest
    cases rest
  · obtain ⟨rfl, rfl⟩ : err = .ok ∧ s = after := by simpa [ran] using rest
    rw [ran', sessionConnectClient_clears forever v _ _ ran rfl]

/-! ## After the link is up -/

theorem renewed_twins {w : Wire} (client : w.hdlc.isClient = true) (drained : w.hdlc.rxPendingLen = 0)
    (acknowledged : w.hdlc.hasPendingRetransmit = false) :
    SessionTwins w.world.sent w.world.sent (w.setHdlc { w.cleared.hdlc with state := .idle })
      (w.setHdlc w.hdlc.renewed) := by
  refine ⟨⟨List.replicate sessionBufSize 0, [], 0, [], w.world.sent⟩, ?_, ?_⟩
  · simp only [Wire.onto, Wire.setHdlc, HdlcSession.onto, HdlcSession.renewed, hdlcSessionInitClient, hdlcSessionInit,
      Wire.cleared, client, drained, acknowledged]
  · refine ⟨⟨[], by simp [Wire.setHdlc]⟩, ⟨[], w.hdlc.rxBuf, _, rfl, rfl, drained⟩, fun waits => ?_⟩
    rw [show w.hdlc.hasPendingRetransmit = true from waits] at acknowledged
    simp at acknowledged

/-- Whatever a client's earlier links were: when no received byte waits and no frame is to be repeated, its calls on a
new link return and send what they do for a session that was just initialised. -/
theorem fresh_link {forever : Bool} {w after final : Wire} {calls : List (SessionCall × Err × Option (List UInt8))}
    (client : w.hdlc.isClient = true) (drained : w.hdlc.rxPendingLen = 0)
    (acknowledged : w.hdlc.hasPendingRetransmit = false)
    (linked : hdlcSessionConnect forever w = some (.ok, after)) (history : SessionHistory after calls final) :
    ∃ after' final', hdlcSessionConnect forever (w.setHdlc w.hdlc.renewed) = some (.ok, after') ∧
      SessionHistory after' calls final' ∧ final'.world.sent = final.world.sent := by
  have cleared := hdlcSessionConnect_cleared client linked .idle
  have twins := renewed_twins client drained acknowledged
  rcases hdlcSessionConnect_alike forever _ _ twins with ⟨waits, _⟩ | ⟨err, s, after', ran, ran', twins⟩
  · rw [waits] at cleared
    simp at cleared
  · obtain ⟨rfl, rfl⟩ : err = .ok ∧ s = after := by simpa [ran] using cleared
    obtain ⟨final', history', r, rfl, fits⟩ := twins.history history
    obtain ⟨later, sent, sent'⟩ := fits.sent
    exact ⟨after', _, ran', history', sent'.trans sent.symm⟩

/-- The answer of the server of the examples to a set-up or a disconnection. -/
def accepted : HdlcFrame := frameToClient { type := .ua } []

def usedClient : HdlcSession :=
  { hdlcSessionInitClient 16 1 with
    sendSeq := 3, recvSeq := 2, reassembly := [0xE6], lastSentInfo := [0xE6, 0xE6, 0x00, 0xC0], lastSentSeq := 2
    rxBuf := List.replicate sessionBufSize 0x7E }

theorem fresh_link_used :
    ∃ after final after' final', hdlcSessionConnect false (linkOf usedClient [.bytes accepted.encoding]) =
        some (.ok, after) ∧ SessionHistory after [(.sendApdu [0xC0], .ok, none)] final ∧
      hdlcSessionConnect false (linkOf usedClient.renewed [.bytes accepted.encoding]) = some (.ok, after') ∧
      SessionHistory after' [(.sendApdu [0xC0], .ok, none)] final' ∧ final'.world.sent = final.world.sent := by
  have runs : ((do
      let connected ← hdlcSessionConnect false
      let sent ← (SessionCall.sendApdu [0xC0]).run
      return (connected, sent)) (linkOf usedClient [.bytes accepted.encoding])).map Prod.fst =
        some (.ok, .ok, none) := by decide +kernel
  obtain ⟨⟨results, final⟩, both, rfl⟩ := Option.map_eq_some_iff.mp runs
  obtain ⟨connected, after, linked, rest⟩ := bind_eq_some.mp both
  obtain ⟨sent, _, called, last⟩ := bind_eq_some.mp rest
  cases last
  have history : SessionHistory after [(.sendApdu [0xC0], .ok, none)] final := History.singleton_iff.mpr called
  obtain ⟨after', final', linked', history', same⟩ := fresh_link rfl rfl rfl linked history
  exact ⟨after, final, after', final', linked, history, linked', history', same⟩

/-- The script of a link that is set up and taken down, and of a second one on which a frame is asked for again. -/
def repeatScript : List RxEvent :=
  [.bytes accepted.encoding, .bytes accepted.encoding, .bytes accepted.encoding,
    .bytes (frameToClient { type := .rej } []).encoding]

def firstLink : Program Wire (List (Err × Option (List UInt8))) := do
  let connected ← (SessionCall.connect false).run
  let sent ← (SessionCall.sendApdu [0xC0]).run
  let disconnected ← (SessionCall.disconnect false).run
  return [connected, sent, disconnected]

def secondLink : Program Wire (List (Err × Option (List UInt8))) := do
  let connected ← hdlcSessionConnect false
  let received ← (SessionCall.recvApdu false 16).run
  return [(connected, none), received]

/-- How many frames were sent until the end of a second link. -/
def sentBySecond (w : Wire) : Option ℕ := (secondLink w).map fun x => x.2.world.sent.length

/-- The APDU of the first link is sent on the second; a new session sends nothing there. -/
theorem old_apdu_repeated : ∃ w after final, SessionHistory (linkOf (hdlcSessionInitClient 16 1) repeatScript)
        [(.connect false, .ok, none), (.sendApdu [0xC0], .ok, none), (.disconnect false, .ok, none)] w ∧
      hdlcSessionConnect false w = some (.ok, after) ∧
      SessionHistory after [(.recvApdu false 16, .timeout, none)] final ∧
      ¬∃ after' final', hdlcSessionConnect false (w.setHdlc w.hdlc.renewed) = some (.ok, after') ∧
        SessionHistory after' [(.recvApdu false 16, .timeout, none)] final' ∧ final'.world.sent = final.world.sent := by
  have runs : ((do
      let first ← firstLink
      let second ← secondLink
      return [first, second]) (linkOf (hdlcSessionInitClient 16 1) repeatScript)).map Prod.fst =
        some [[(.ok, none), (.ok, none), (.ok, none)], [(.ok, none), (.timeout, none)]] := by decide +kernel
  have counts : (firstLink (linkOf (hdlcSessionInitClient 16 1) repeatScript)).map (fun x =>
      (sentBySecond x.2, sentBySecond (x.2.setHdlc x.2.hdlc.renewed))) = some (some 5, some 4) := by decide +kernel
  obtain ⟨⟨results, final⟩, all, rfl⟩ := Option.map_eq_some_iff.mp runs
  obtain ⟨results, w, first, rest⟩ := bind_eq_some.mp all
  obtain ⟨results', _, both, last⟩ := bind_eq_some.mp rest
  cases last
  rw [first] at counts
  obtain ⟨used, renewed⟩ := Prod.mk.inj (Option.some.inj counts)
  obtain ⟨connected, one, ran, rest⟩ := bind_eq_some.mp first
  obtain ⟨sent, two, ran', rest⟩ := bind_eq_some.mp rest
  obtain ⟨disconnected, _, ran'', last⟩ := bind_eq_some.mp rest
  cases last
  rw [sentBySecond, both] at used
  obtain ⟨err, after, linked, rest⟩ := bind_eq_some.mp both
  obtain ⟨received, _, called, last⟩ := bind_eq_some.mp rest
  cases last
  have history : SessionHistory (linkOf (hdlcSessionInitClient 16 1) repeatScript)
      [(.connect false, .ok, none), (.sendApdu [0xC0], .ok, none), (.disconnect false, .ok, none)] w :=
    ((History.start.extend ran).extend ran').extend ran''
  refine ⟨w, after, final, history, linked, History.singleton_iff.mpr called, ?_⟩
  rintro ⟨after', final', linked', history', same⟩
  have both' : secondLink (w.setHdlc w.hdlc.renewed) = some ([(.ok, none), (.timeout, none)], final') :=
    bind_eq_some.mpr ⟨_, _, linked', bind_eq_some.mpr ⟨_, _, History.singleton_iff.mp history', rfl⟩⟩
  have five : final.world.sent.length = 5 := Option.some.inj used
  have four : final'.world.sent.length = 4 := by
    rw [sentBySecond, both'] at renewed
    exact Option.some.inj renewed
  rw [same, five] at four
  exact absurd four (by decide)

/-- Whatever lies behind the received bytes and in place of a frame to repeat, the same calls are possible, with the same
results and frames. -/
theorem residue_unseen (w : Wire) (bytes : List UInt8) (r r' : SessionResidue) (frames : List (List UInt8))
    (calls : List (SessionCall × Err × Option (List UInt8))) :
    let link (r : SessionResidue) := Wire.onto
      (w.setHdlc { w.hdlc with rxPendingLen := bytes.length, hasPendingRetransmit := false })
      { r with rxBuf := bytes ++ r.rxBuf }
    let possible r := ∃ final, SessionHistory (link r) calls final ∧ final.world.sent = r.sent ++ frames
    possible r ↔ possible r' := by
  intro link possible
  have onward r r' : possible r → possible r' := by
    rintro ⟨final, history, sent⟩
    have twins : SessionTwins r.sent r'.sent (link r) (link r') :=
      ⟨{ r' with rxBuf := bytes ++ r'.rxBuf }, rfl, ⟨[], by simp [link, Wire.onto]⟩, ⟨bytes, _, _, rfl, rfl, rfl⟩, nofun⟩
    obtain ⟨_, history', _, rfl, fits⟩ := twins.history history
    obtain ⟨later, first, second⟩ := fits.sent
    obtain rfl := List.append_cancel_left (first.symm.trans sent)
    exact ⟨_, history', second⟩
  exact ⟨onward r r', onward r' r⟩

end OpenSpodes
