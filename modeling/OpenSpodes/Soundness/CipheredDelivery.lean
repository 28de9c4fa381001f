import OpenSpodes.Proofs.AcceptFront
import OpenSpodes.Proofs.SampleServer
import OpenSpodes.Soundness.ClientReceive
import OpenSpodes.Soundness.ProtectRoundTrip

/-! # Which ciphered APDUs arrive

The sender ciphers every kind of APDU that general block transfer applies to, under a tag that it
computes from the plain one. The receiver deciphers what carries a tag of its own list. The two agree
on requests and responses; a notification leaves under a tag that no receiver takes for ciphered, so
it arrives as ciphertext.
-/

namespace OpenSpodes

open Machine

variable {σ : Type} {apdu plain sent : List UInt8} {hal : Hal} {stale : List UInt8} {size : ℕ} {c c' : Client}
  {next : SecContext} {env : Env σ} {s : Server σ}

/-- A DATA-NOTIFICATION or an EVENT-NOTIFICATION. -/
def isNotification (apdu : List UInt8) : Bool :=
  match apdu with
  | [] => false
  | tag :: _ => tag ∈ [0x0F, 0xC2]

/-- A plain service APDU is neither ciphered nor a general block. Sender's tag for it and receiver's list agree on
everything but notifications, and neither side takes that tag for association control or a general block. -/
theorem gbtApplies_tags (tx : SecContext) (applies : gbtAppliesToApdu apdu = true) :
    (svcIsCipheredTag (apdu.getD 0 0) = false ∧ apdu.getD 0 0 ≠ 0xE0 ∧ 0 < apdu.length) ∧
      svcIsCipheredTag (svcCipherTagForPlain tx (apdu.getD 0 0)) = !isNotification apdu ∧
      svcCipherTagForPlain tx (apdu.getD 0 0) ∉ ([0x60, 0x61, 0x62, 0xE0] : List UInt8) := by
  cases apdu with
  | nil => cases applies
  | cons tag rest =>
    simp only [gbtAppliesToApdu, List.mem_cons, List.not_mem_nil, or_false, decide_eq_true_eq] at applies
    simp only [svcCipherTagForPlain, List.getD_cons_zero, isNotification, List.length_cons, Nat.zero_lt_succ, and_true]
    rcases applies with rfl | rfl | rfl | rfl | rfl | rfl | rfl | rfl <;> split <;> decide

/-- The two ends of a ciphered association, each with the other's keys, title and counter. -/
structure HonestPair (hal : Hal) (s : Server σ) (c : Client) : Prop where
  associated : s.aa.associated = true
  serverCiphers : s.aa.cipheringEnabled = true
  clientCiphers : c.cipheringEnabled = true
  toClient : s.aa.cipherTx.Reaches c.cipherRx
  toServer : c.cipherTx.Reaches s.aa.cipherRx
  serverWorks : hal.Ciphers s.aa.cipherTx.suite
  clientWorks : hal.Ciphers c.cipherTx.suite
  serverCounter : s.aa.cipherTx.invocationCounter ≠ 0xFFFFFFFF
  clientCounter : c.cipherTx.invocationCounter ≠ 0xFFFFFFFF

/-- The front part of the server's accept hands this APDU to the request switch. -/
def ServerRecovers (env : Env σ) (s : Server σ) (delivered plain : List UInt8) : Prop :=
  ∃ t len, acceptFront env delivered s = some (.next len, t) ∧ t.wire.rxBuf.take len = plain

def ClientRecovers (hal : Hal) (stale : List UInt8) (size : ℕ) (c : Client) (plain : List UInt8) : Prop :=
  ∃ c', clientRecvApdu hal stale size c = some (.ok plain, c')

/-- What one side sends for a plain APDU: under a ciphered tag the other side accepts it, and in any
case it is not the plain APDU itself. -/
private theorem sealed_message {tx rx : SecContext} (works : hal.Ciphers tx.suite) (reaches : tx.Reaches rx)
    (applies : gbtAppliesToApdu plain = true) (short : plain.length ≤ 900) :
    ∃ sent, gloProtect hal tx (svcCipherTagForPlain tx (plain.getD 0 0)) plain = some sent ∧
      sent.getD 0 0 = svcCipherTagForPlain tx (plain.getD 0 0) ∧ plain.length < sent.length ∧
      (isNotification plain = false → ∃ next, gloUnprotect hal sent rx = .ok plain next) := by
  obtain ⟨⟨-, -, present⟩, known, -⟩ := gbtApplies_tags tx applies
  obtain ⟨body, done, long, bounded, counter, -, opened⟩ :=
    gloProtect_message works reaches (svcCipherTagForPlain tx (plain.getD 0 0)) present (by omega)
  refine ⟨_, done, rfl, by simp; omega, ?_⟩
  intro service
  have ciphered : svcIsCipheredTag (svcCipherTagForPlain tx (plain.getD 0 0)) = true := by
    rw [known, service]
    rfl
  refine ⟨_, gloUnprotect_of_accepts ⟨gloBody_of_message ciphered (by omega) (by omega), ?_, opened⟩⟩
  intro valid
  rw [counter]
  exact reaches.fresh valid

/-! ## From the server to the client -/

/-! ## From the client to the server -/

private theorem acceptFront_sealed (associated : s.aa.associated = true) (enabled : s.aa.cipheringEnabled = true)
    (tag : sent.getD 0 0 ∉ ([0x60, 0x61, 0x62, 0xE0] : List UInt8))
    (ciphered : svcIsCipheredTag (sent.getD 0 0) = true) (longer : plain.length < sent.length)
    (opened : gloUnprotect env.hal sent s.aa.cipherRx = .ok plain next) (applies : gbtAppliesToApdu plain = true) :
    ServerRecovers env s sent plain := by
  obtain ⟨⟨notCiphered, notBlock, present⟩, -⟩ := gbtApplies_tags next applies
  let r := s.received sent
  have room : plain.length ≤ r.wire.rxBuf.length := longer.le.trans (s.received_room sent)
  have taken : r.wire.rxBuf.take sent.length = sent := s.received_take sent
  refine ⟨r.deciphered true sent plain next, plain.length, ?_, Server.received_take _ plain⟩
  have first : serverDecipher env true sent.length r =
      some (.next plain.length, r.deciphered true sent plain next) := by
    have opens : gloUnprotect env.hal (r.wire.rxBuf.take sent.length) r.aa.cipherRx = .ok plain next := by
      rw [taken]
      exact opened
    rw [serverDecipher_ok env true opens room, taken]
  have plainTag : (r.deciphered true sent plain next).rxTag = plain.getD 0 0 := Server.received_rxTag _ present
  have still : (r.deciphered true sent plain next).aa.associated = true := associated
  rw [acceptFront_service env (by omega) (by simp_all), if_pos ⟨enabled, ciphered⟩, bind_of_some first]
  dsimp only
  rw [frontPlain_direct env true _ still (by rw [plainTag]; exact notBlock)]
  simp only [frontReassembled, get_bind_apply, plainTag, notCiphered, Bool.false_eq_true, and_false, if_false,
    Bool.not_true, false_and]
  rfl

private theorem acceptFront_unciphered (associated : s.aa.associated = true)
    (tag : sent.getD 0 0 ∉ ([0x60, 0x61, 0x62, 0xE0] : List UInt8))
    (unciphered : svcIsCipheredTag (sent.getD 0 0) = false) (longer : plain.length < sent.length) :
    ¬ServerRecovers env s sent plain := by
  rintro ⟨t, len, returned, taken⟩
  have present : 0 < sent.length := by omega
  have sentTag : (s.received sent).rxTag = sent.getD 0 0 := s.received_rxTag present
  have still : (s.received sent).aa.associated = true := associated
  rw [acceptFront_service env present (by simp_all), if_neg (by rw [unciphered]; simp),
    frontPlain_direct env false _ still (by simp_all)] at returned
  simp only [frontReassembled, get_bind_apply, sentTag, unciphered, Bool.false_eq_true, and_false, if_false]
    at returned
  split_ifs at returned
  · obtain ⟨result, middle, -, done⟩ := bind_eq_some.mp returned
    simp at done
  · simp only [pure_apply, Option.some.injEq, Prod.mk.injEq, Stage.next.injEq] at returned
    obtain ⟨rfl, rfl⟩ := returned
    rw [Server.received_take] at taken
    exact absurd (congrArg List.length taken) (by omega)

/-! ## A pair -/

/-- A server in a ciphered association with the client. -/
def pairedServer : Server Unit :=
  let s := secureServer []
  { s with
    aa.associated := true
    aa.cipheringEnabled := true
    aa.cipherTx := { sampleContext serverTitle .encrAuth 5 with peerSystemTitle := clientTitle }
    aa.cipherRx := { sampleContext serverTitle .encrAuth 0 with peerSystemTitle := clientTitle } }

/-- The client of that association, on a transport that is about to deliver the given bytes. -/
def pairedClient (data : List UInt8) : Client where
  wire :=
    { framing := .none
      wrapperSource := 0
      wrapperDest := 0
      hdlc := hdlcSessionInitClient 16 1
      world := { rx := [.bytes data] }
      txBuf := List.replicate 1024 0
      rxBuf := List.replicate 1024 0 }
  hdlcActive := false
  gbtEnabled := false
  cipheringEnabled := true
  cipherRx := { sampleContext clientTitle .encrAuth 0 with peerSystemTitle := serverTitle }
  cipherTx := { sampleContext clientTitle .encrAuth 3 with peerSystemTitle := serverTitle }

theorem pairedServer_honest (data : List UInt8) : HonestPair sampleHal pairedServer (pairedClient data) where
  associated := rfl
  serverCiphers := rfl
  clientCiphers := rfl
  toClient := ⟨⟨rfl, rfl, rfl, rfl, rfl, rfl⟩, rfl, rfl, nofun⟩
  toServer := ⟨⟨rfl, rfl, rfl, rfl, rfl, rfl⟩, rfl, rfl, nofun⟩
  serverWorks := sampleHal_ciphers _
  clientWorks := sampleHal_ciphers _
  serverCounter := by decide
  clientCounter := by
    change (3 : UInt32) ≠ 0xFFFFFFFF
    decide

/-- Between the two ends of a ciphered association, every APDU that the sender ciphers is recovered
exactly when it is not a notification, in both directions. -/
theorem ciphered_apdu_recovered_iff (env : Env σ) (s : Server σ) (c : Client) (stale : List UInt8)
    (pair : HonestPair env.hal s c) : (∀ source : ApduSource, gbtAppliesToApdu (source.bytes s.wire) = true →
        (source.bytes s.wire).length ≤ 900 →
        ∃ sent s', serverSend env source s = serverTransmit env (source.bytes s.wire) (.own sent) s' ∧
          ∀ size c', 1024 ≤ size → clientReceive stale size c = some (.ok sent, c') →
            (ClientRecovers env.hal stale size c (source.bytes s.wire) ↔
              isNotification (source.bytes s.wire) = false)) ∧
      ∀ source : ApduSource, gbtAppliesToApdu (source.bytes c.wire) = true → (source.bytes c.wire).length ≤ 900 →
        ∃ sent c', clientSendApdu env.hal stale source c = clientTransmit stale (.own sent) c' ∧
          (ServerRecovers env s sent (source.bytes c.wire) ↔ isNotification (source.bytes c.wire) = false) := by
  constructor
  · intro source applies short
    obtain ⟨sent, done, tag, longer, opened⟩ := sealed_message pair.serverWorks pair.toClient applies short
    obtain ⟨-, known, -⟩ := gbtApplies_tags s.aa.cipherTx applies
    rw [← tag] at known
    refine ⟨sent, { s with
      aa := { s.aa with cipherTx := s.aa.cipherTx.advance }
      log := s.log ++ [.sealed (gloNonce s.aa.cipherTx)] }, ?_, fun size c' room delivered => ⟨?_, ?_⟩⟩
    · simp only [serverSend, get_bind_apply, pair.serverCiphers, applies, and_self, if_true, done, transition,
        modify_bind_apply, if_neg pair.serverCounter]
    · rintro ⟨c'', returned⟩
      by_contra notification
      rw [clientRecvApdu_unciphered delivered (by simp_all)] at returned
      simp only [Option.some.injEq, Prod.mk.injEq, Except.ok.injEq] at returned
      exact absurd (congrArg List.length returned.1) (by omega)
    · intro service
      obtain ⟨next, opens⟩ := opened service
      have ciphered : svcIsCipheredTag (sent.getD 0 0) = true := by rw [known, service]; rfl
      obtain ⟨wire, rfl⟩ := clientReceive_keeps stale size c _ _ delivered
      refine ⟨{ c with wire := wire, cipherRx := next, deciphered := c.deciphered ++ [source.bytes s.wire] }, ?_⟩
      rw [clientRecvApdu, bind_of_some delivered]
      simp only [get_bind_apply, pair.clientCiphers, gt_iff_lt, show 0 < sent.length by omega, ciphered, and_self,
        if_true, clientDecipher, opens, set_bind_apply, if_neg (show ¬(source.bytes s.wire).length > size by omega)]
      rfl
  · intro source applies short
    obtain ⟨sent, done, tag, longer, opened⟩ := sealed_message pair.clientWorks pair.toServer applies short
    obtain ⟨-, known, outside⟩ := gbtApplies_tags c.cipherTx applies
    rw [← tag] at known outside
    refine ⟨sent, { c with cipherTx := c.cipherTx.advance }, ?_, ⟨?_, ?_⟩⟩
    · simp only [clientSendApdu, get_bind_apply, pair.clientCiphers, applies, and_self, if_true, done,
        if_neg pair.clientCounter, set_bind_apply]
    · intro recovered
      by_contra notification
      exact acceptFront_unciphered pair.associated outside (by simp_all) longer recovered
    · intro service
      obtain ⟨next, opens⟩ := opened service
      exact acceptFront_sealed pair.associated pair.serverCiphers outside (by rw [known, service]; rfl) longer
        opens applies

theorem ciphered_apdu_recovered_iff_get : HonestPair sampleHal pairedServer (pairedClient []) ∧
      ∃ sent c', clientSendApdu sampleHal [] (.own plainGet) (pairedClient []) = clientTransmit [] (.own sent) c' ∧
        (ServerRecovers sampleEnv pairedServer sent plainGet ↔ isNotification plainGet = false) :=
  ⟨pairedServer_honest [],
    (ciphered_apdu_recovered_iff sampleEnv pairedServer (pairedClient []) [] (pairedServer_honest [])).2
      (.own plainGet) rfl (by decide)⟩

def sampleNotification : List UInt8 := [0x0F, 0x10, 0x00, 0x00, 0x01, 0x00, 0x00]

/-- It leaves the server ciphered under its plain tag, and the client returns that ciphertext. -/
theorem ciphered_notification_not_recovered :
    let sent := (gloProtect sampleHal pairedServer.aa.cipherTx 0x0F sampleNotification).getD []
    HonestPair sampleHal pairedServer (pairedClient sent) ∧
      gbtAppliesToApdu sampleNotification = true ∧
      (serverSend sampleEnv (.own sampleNotification) pairedServer).map
          (fun returned => (returned.1, returned.2.wire.world.sent)) = some (.ok, [sent]) ∧
      (clientRecvApdu sampleHal [] 4096 (pairedClient sent)).map (fun returned => returned.1.toOption) =
        some (some sent) ∧
      sent ≠ sampleNotification := by
  refine ⟨pairedServer_honest _, ?_, ?_, ?_, ?_⟩ <;> decide +kernel

end OpenSpodes
