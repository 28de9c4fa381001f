import OpenSpodes.Proofs.HlsAgreement
import OpenSpodes.Proofs.HlsHighInjective
import OpenSpodes.Proofs.Unprotect

/-! # The handshake completes between honest peers

Two mirrored contexts run the four passes to the end under every mechanism: what the client builds
from StoC the server accepts, and what the server then builds from CtoS the client accepts. Hashes
and the GCM function only have to be installed; signatures have to verify under the matching key,
which the ECDSA mechanism refuses to produce under suite 0.
-/

namespace OpenSpodes

open Bytes Kuznyechik HlsHigh Machine.Fallible

variable {ctx : SecContext} {value : List UInt8}

/-- Client and server contexts before pass 3, as the association exchange leaves them. -/
structure Mirrored (client server : SecContext) : Prop where
  shared : SharedSecrets client server
  clientNamed : titleIsZero client.systemTitle = false
  serverNamed : titleIsZero server.systemTitle = false
  ctosLength : 8 ≤ client.ctos.val.length
  stocLength : 8 ≤ client.stoc.val.length
  password : client.mechanism = .hls → client.ctos.val.length = 16 ∧ client.stoc.val.length = 16 ∧
    client.hlsSecret.val.length ≠ 0
  clientFailures : client.hlsFailures < 5
  serverFailures : server.hlsFailures < 5
  freshCounter : server.icValid = true → server.lastPeerIc < client.invocationCounter
  roomInCounter : server.invocationCounter ≠ 0xFFFFFFFF

/-- The HAL functions that a mechanism calls are installed and do their work. -/
structure HalServes (hal : Hal) (mechanism : Mechanism) : Prop where
  gcm : mechanism = .hlsGmac →
    (∃ gcm, hal.gcmCrypt = some gcm ∧ ∀ call, call.dir = .encrypt → (gcm call).rc = 0) ∨
      (hal.gcmCrypt = none ∧ hal.gcmStream.isSome)
  md5 : mechanism = .hlsMd5 → hal.md5.isSome
  sha1 : mechanism = .hlsSha1 → hal.sha1.isSome
  sha256 : mechanism = .hlsSha256 → hal.sha256.isSome
  ecdsa : mechanism = .hlsEcdsa → hal.ecdsaSign.isSome ∧ hal.ecdsaVerify.isSome

/-- Signatures made with the builder's key verify under the key the verifier holds. -/
structure KeysMatch (hal : Hal) (builder verifier : SecContext) : Prop where
  ecdsa : builder.mechanism = .hlsEcdsa →
    ∀ sign ∈ hal.ecdsaSign, ∀ verify ∈ hal.ecdsaVerify, ∀ msg,
      let signed := sign builder.suite builder.signingKey.val msg
      signed.1 = 0 ∧ signed.2 ≠ [] ∧ verify verifier.suite verifier.peerPublicKey.val msg signed.2 = 0
  gost : builder.mechanism = .hlsGostSig →
    ∀ msg, ∃ sig, hal.gost3410Sign builder.signingKey.val msg = some sig ∧
      hal.gost3410Verify verifier.peerPublicKey.val msg sig.toList = 0

/-- Suite and key lengths that the signature mechanisms insist on. -/
structure SignatureKeysFit (builder verifier : SecContext) : Prop where
  ecdsa : builder.mechanism = .hlsEcdsa → builder.suite ≠ .suite0 ∧
    builder.signingKey.val.length ≠ 0 ∧ verifier.peerPublicKey.val.length ≠ 0
  gost : builder.mechanism = .hlsGostSig →
    builder.signingKey.val.length = 32 ∧ verifier.peerPublicKey.val.length = 64

variable {hal : Hal} {builder verifier : SecContext}

private theorem gmac_computes (serves : HalServes hal builder.mechanism) (mechanism : builder.mechanism = .hlsGmac)
    (title : SystemTitle) (ic : UInt32) (data : List UInt8) :
    ∃ tag, hlsGmac hal builder title ic data = some tag ∧ tag.length = 12 := by
  unfold hlsGmac hlsGmacTag
  rcases serves.gcm mechanism with ⟨gcm, installed, works⟩ | ⟨absent, stream⟩
  · rw [installed]
    exact ⟨_, if_neg (not_not.mpr (works _ rfl)), Vector.length_toList⟩
  · obtain ⟨run, installed⟩ := Option.isSome_iff_exists.mp stream
    rw [absent, installed]
    exact ⟨_, rfl, Vector.length_toList⟩

private theorem cmac_computes (kEm : Vector UInt8 64) (iv : Vector UInt8 12) (sc : UInt8)
    (challengeA challengeB : BytesUpTo 64) : ∃ mac, hlsGostCmac kEm iv sc challengeA.val challengeB.val = some mac := by
  have boundA := challengeA.property
  have boundB := challengeB.property
  exact ⟨_, if_neg (by omega)⟩

private theorem sigMessage_exists (stA stB : SystemTitle) (challengeA challengeB : BytesUpTo 64) :
    ∃ msg, hlsBuildSigMessage stA stB challengeA.val challengeB.val = some msg := by
  have boundA := challengeA.property
  have boundB := challengeB.property
  exact ⟨_, if_neg (by omega)⟩

/-- The mechanisms whose verifier computes the value once more. -/
def recomputing : List Mechanism := [.hls, .hlsMd5, .hlsSha1, .hlsSha256, .hlsGostStreebog]

/-- Every other mechanism with a handshake carries a counter or a signature. -/
private theorem handshake_cases {mechanism : Mechanism} (handshake : mechanism.requiresHandshake = true) :
    mechanism ∈ recomputing ∨ mechanism = .hlsGmac ∨ mechanism = .hlsGostCmac ∨
      (mechanism = .hlsEcdsa ∨ mechanism = .hlsGostSig) := by
  cases mechanism <;> simp_all [recomputing, Mechanism.requiresHandshake]

/-- They return a value that is not empty. -/
private theorem recomputed_exists (serves : HalServes hal builder.mechanism)
    (member : builder.mechanism ∈ recomputing) (stA stB : SystemTitle) (challengeA challengeB : BytesUpTo 64)
    (password : builder.mechanism = .hls → challengeA.val.length = 16 ∧ builder.hlsSecret.val.length ≠ 0) :
    ∃ value, hlsRecomputed hal builder stA stB challengeA.val challengeB.val = some value ∧ value ≠ [] := by
  have bound := challengeA.property
  have fits : ¬challengeA.val.length + 16 > 64 + 32 := by omega
  simp only [recomputing, List.mem_cons, List.not_mem_nil, or_false] at member
  rcases member with high | md5 | sha1 | sha256 | streebog
  · obtain ⟨length, secret⟩ := password high
    have within := securedLen_bounds (show 0 < challengeA.val.length by omega) bound builder.hlsSecret.property
    simp only [hlsRecomputed, high]
    rw [hlsPassHigh, if_neg secret, hlsHighSecure, if_neg (by omega), if_neg (by omega)]
    refine ⟨_, rfl, ?_⟩
    intro empty
    have counted := congrArg List.length empty
    rw [length_encryptBlocks, List.length_nil] at counted
    omega
  · obtain ⟨digest, installed⟩ := Option.isSome_iff_exists.mp (serves.md5 md5)
    simp only [hlsRecomputed, md5, hlsHashLegacy, if_neg fits, installed, Option.map_some]
    exact ⟨_, rfl, List.ne_nil_of_length_pos (by simp)⟩
  · obtain ⟨digest, installed⟩ := Option.isSome_iff_exists.mp (serves.sha1 sha1)
    simp only [hlsRecomputed, sha1, hlsHashLegacy, if_neg fits, installed, Option.map_some]
    exact ⟨_, rfl, List.ne_nil_of_length_pos (by simp)⟩
  · obtain ⟨digest, installed⟩ := Option.isSome_iff_exists.mp (serves.sha256 sha256)
    simp only [hlsRecomputed, sha256, hlsHashWithTitles, installed, Option.map_some]
    exact ⟨_, rfl, List.ne_nil_of_length_pos (by simp)⟩
  · simp only [hlsRecomputed, streebog, hlsHashWithTitles]
    exact ⟨_, rfl, List.ne_nil_of_length_pos (by simp)⟩

/-- A signature the builder makes is non-empty and verifies at the other side. -/
private theorem signature_verifies (serves : HalServes hal builder.mechanism)
    (keys : KeysMatch hal builder verifier) (fit : SignatureKeysFit builder verifier)
    (same : verifier.mechanism = builder.mechanism)
    (mechanism : builder.mechanism = .hlsEcdsa ∨ builder.mechanism = .hlsGostSig) (msg : List UInt8) :
    ∃ sig, hlsSigBuild hal builder (some msg) 96 = .ok sig ∧ sig ≠ [] ∧
      hlsSigVerify hal verifier (some msg) sig = 0 := by
  rcases mechanism with ecdsa | gost
  · obtain ⟨signs, verifies⟩ := serves.ecdsa ecdsa
    obtain ⟨sign, signInstalled⟩ := Option.isSome_iff_exists.mp signs
    obtain ⟨verify, verifyInstalled⟩ := Option.isSome_iff_exists.mp verifies
    obtain ⟨made, nonempty, accepted⟩ :=
      keys.ecdsa ecdsa sign signInstalled verify verifyInstalled msg
    obtain ⟨suite, signingKey, publicKey⟩ := fit.ecdsa ecdsa
    refine ⟨_, ?_, nonempty, ?_⟩
    · simp [hlsSigBuild, ecdsa, signInstalled, suite, signingKey, made]
    · simp [hlsSigVerify, same, ecdsa, verifyInstalled, publicKey, accepted]
  · obtain ⟨sig, made, accepted⟩ := keys.gost gost msg
    obtain ⟨signingKey, publicKey⟩ := fit.gost gost
    refine ⟨sig.toList, ?_, List.ne_nil_of_length_pos (by simp), ?_⟩
    · simp [hlsSigBuild, gost, made, signingKey]
    · simp [hlsSigVerify, same, gost, accepted, publicKey]

private theorem counterVerify_accepts {frameLen : ℕ} {mac : SecContext → UInt32 → Option (List UInt8)}
    {frame expected : List UInt8} (long : frameLen ≤ frame.length) (failures : ctx.hlsFailures < 5)
    (fresh : ctx.icValid = true → ctx.lastPeerIc < hlsFrameIc frame)
    (computed : mac ctx (hlsFrameIc frame) = some expected) (carried : (frame.drop 5).take expected.length = expected) :
    hlsPass3CounterVerify frameLen mac frame ctx =
      .ok () { ctx with lastPeerIc := hlsFrameIc frame, icValid := true, hlsFailures := 0 } := by
  have current : ¬(ctx.icValid = true ∧ hlsFrameIc frame ≤ ctx.lastPeerIc) := by
    rintro ⟨valid, stale⟩
    exact UInt32.not_le.mpr (fresh valid) stale
  rw [hlsPass3CounterVerify, failIf_bind_of_not (by omega), get_bind,
    failIf_bind_of_not (UInt8.not_le.mpr failures), if_neg current, computed]
  simp [carried]

/-- Pass 3 accepts `value`, changing at most the counter record of the verifier. -/
def Pass3Accepts (hal : Hal) (ctx : SecContext) (value : List UInt8) : Prop :=
  ∃ last valid failures, hlsPass3Verify hal value ctx =
    .ok () { ctx with lastPeerIc := last, icValid := valid, hlsFailures := failures }

/-- What the client builds for pass 3 is accepted by the server. -/
def Pass3Completes (hal : Hal) (client server : SecContext) : Prop :=
  ∃ value, hlsPass3Build hal client 96 = .ok value ∧ Pass3Accepts hal server value

private theorem Pass3Accepts.of_unchanged (accepted : hlsPass3Verify hal value ctx = .ok () ctx) :
    Pass3Accepts hal ctx value :=
  ⟨ctx.lastPeerIc, ctx.icValid, ctx.hlsFailures, accepted⟩

private theorem pass3_skips_length (nonempty : value ≠ []) :
    (failIf (value.length = 0) (-1) : EStateM Int SecContext Unit) ctx = .ok () ctx := by
  simp [failIf, nonempty]

variable {server client : SecContext}

section Pass3

variable (mirrored : Mirrored client server)

include mirrored

private theorem pass3_recomputed (serves : HalServes hal client.mechanism) (member : client.mechanism ∈ recomputing) :
    Pass3Completes hal client server := by
  have shared := mirrored.shared
  obtain ⟨value, computed, nonempty⟩ := recomputed_exists serves member client.systemTitle client.peerSystemTitle
    client.stoc client.ctos fun high => (mirrored.password high).2
  have expected := shared.recomputed hal server.stoc.val server.ctos.val
  rw [shared.stoc, shared.ctos, computed] at expected
  simp only [recomputing, List.mem_cons, List.not_mem_nil, or_false] at member
  refine ⟨value, ?_, .of_unchanged ?_⟩
  · rcases member with mechanism | mechanism | mechanism | mechanism | mechanism <;>
      simp_all [hlsPass3Build, hlsRecomputed, orFail]
  · rw [hlsPass3Verify, bind_of_ok (pass3_skips_length nonempty), get_bind, shared.stoc, shared.ctos]
    rcases member with mechanism | mechanism | mechanism | mechanism | mechanism <;>
      simp only [hlsRecomputed, shared.mechanism, mechanism] at expected ⊢ <;>
      simp [hlsCompare, failIf, expected]

private theorem pass3_signature (serves : HalServes hal client.mechanism) (keys : KeysMatch hal client server)
    (fit : SignatureKeysFit client server) (mechanism : client.mechanism = .hlsEcdsa ∨ client.mechanism = .hlsGostSig) :
    Pass3Completes hal client server := by
  obtain ⟨msg, message⟩ := sigMessage_exists client.systemTitle client.peerSystemTitle client.stoc client.ctos
  obtain ⟨value, built, nonempty, verified⟩ :=
    signature_verifies serves keys fit mirrored.shared.mechanism mechanism msg
  have accepted : hlsPass3SigVerify hal server value = 0 := by
    rw [hlsPass3SigVerify, mirrored.shared.sigMessage, mirrored.shared.stoc, mirrored.shared.ctos, message, verified]
  refine ⟨value, ?_, .of_unchanged ?_⟩
  · rcases mechanism with mechanism | mechanism <;>
      simp only [hlsPass3Build, hlsPass3SigBuild, mechanism, message, built]
  · rw [hlsPass3Verify, bind_of_ok (pass3_skips_length nonempty), get_bind]
    rcases mechanism with mechanism | mechanism <;>
      simp only [mirrored.shared.mechanism, mechanism] <;>
      simp [failIf, accepted]

private theorem pass3_gmac (serves : HalServes hal client.mechanism) (mechanism : client.mechanism = .hlsGmac) :
    Pass3Completes hal client server := by
  obtain ⟨tag, computed, length⟩ :=
    gmac_computes serves mechanism client.systemTitle client.invocationCounter client.stoc.val
  refine ⟨hlsFrame (hlsSc client) client.invocationCounter tag, ?_,
    hlsFrameIc (hlsFrame (hlsSc client) client.invocationCounter tag), true, 0, ?_⟩
  · simp [hlsPass3Build, hlsPass3GmacBuild, mechanism, computed, orFail]
  · rw [hlsPass3Verify, bind_of_ok (pass3_skips_length (by simp [hlsFrame])), get_bind]
    conv_lhs => simp only [mirrored.shared.mechanism, mechanism]
    apply counterVerify_accepts
    · simp [length]
    · exact mirrored.serverFailures
    · simpa using mirrored.freshCounter
    · rw [mirrored.shared.gmac hal mirrored.clientNamed, mirrored.shared.stoc, hlsFrameIc_hlsFrame, computed]
    · simp

private theorem pass3_cmac (mechanism : client.mechanism = .hlsGostCmac) : Pass3Completes hal client server := by
  obtain ⟨mac, computed⟩ := cmac_computes client.kEm
    (buildIv client.systemTitle client.invocationCounter) (hlsSc client) client.stoc client.ctos
  refine ⟨hlsFrame (hlsSc client) client.invocationCounter mac.toList, ?_,
    hlsFrameIc (hlsFrame (hlsSc client) client.invocationCounter mac.toList), true, 0, ?_⟩
  · simp [hlsPass3Build, hlsPass3GostCmacBuild, mechanism, computed, orFail]
  · rw [hlsPass3Verify, bind_of_ok (pass3_skips_length (by simp [hlsFrame])), get_bind]
    conv_lhs => simp only [mirrored.shared.mechanism, mechanism]
    apply counterVerify_accepts
    · simp
    · exact mirrored.serverFailures
    · simpa using mirrored.freshCounter
    · rw [mirrored.shared.cmac _ (hlsFrame_getD_zero _ _ _), mirrored.shared.stoc,
        mirrored.shared.ctos, hlsFrameIc_hlsFrame, computed, Option.map_some]
    · rw [drop_hlsFrame, List.take_length]

end Pass3

private theorem takeCounter_advances (room : ctx.invocationCounter ≠ 0xFFFFFFFF) : hlsTakeCounter ctx =
      .ok ctx.invocationCounter { ctx with invocationCounter := ctx.invocationCounter + 1 } := by
  rw [hlsTakeCounter, get_bind, failIf_bind_of_not room, set_bind, pure_apply]

/-- The server's pass-4 value as the client will see it. -/
def Pass4Completes (hal : Hal) (server client : SecContext) : Prop :=
  ∃ value next, hlsPass4Build hal 96 server = .ok value next ∧ value ≠ [] ∧
    hlsPass4Matches hal client value = true

section Pass4

variable (shared : SharedSecrets server client)

include shared

private theorem pass4_recomputed (serves : HalServes hal server.mechanism) (member : server.mechanism ∈ recomputing)
    (password : server.mechanism = .hls → server.ctos.val.length = 16 ∧ server.hlsSecret.val.length ≠ 0) :
    Pass4Completes hal server client := by
  obtain ⟨value, computed, nonempty⟩ := recomputed_exists serves member server.systemTitle server.peerSystemTitle
    server.ctos server.stoc password
  have expected := shared.recomputed hal client.ctos.val client.stoc.val
  rw [shared.ctos, shared.stoc, computed] at expected
  simp only [recomputing, List.mem_cons, List.not_mem_nil, or_false] at member
  refine ⟨value, server, ?_, nonempty, ?_⟩
  · rw [hlsPass4Build, get_bind]
    rcases member with mechanism | mechanism | mechanism | mechanism | mechanism <;>
      simp_all [hlsRecomputed, orFail, ofExcept, pure_apply]
  · rcases member with mechanism | mechanism | mechanism | mechanism | mechanism <;>
      simp_all [hlsPass4Matches, hlsRecomputed, shared.mechanism, shared.ctos, shared.stoc]

private theorem pass4_signature (serves : HalServes hal server.mechanism) (keys : KeysMatch hal server client)
    (fit : SignatureKeysFit server client) (mechanism : server.mechanism = .hlsEcdsa ∨ server.mechanism = .hlsGostSig) :
    Pass4Completes hal server client := by
  obtain ⟨msg, message⟩ := sigMessage_exists server.systemTitle server.peerSystemTitle server.ctos server.stoc
  obtain ⟨value, built, nonempty, verified⟩ :=
    signature_verifies serves keys fit shared.mechanism mechanism msg
  have accepted : hlsPass4SigVerify hal client value = 0 := by
    rw [hlsPass4SigVerify, shared.sigMessage, shared.ctos, shared.stoc, message, verified]
  refine ⟨value, server, ?_, nonempty, ?_⟩
  · rw [hlsPass4Build, get_bind]
    rcases mechanism with mechanism | mechanism <;>
      simp only [hlsPass4SigBuild, mechanism, message, built, ofExcept, pure_apply]
  · rcases mechanism with mechanism | mechanism <;>
      simp only [hlsPass4Matches, shared.mechanism, mechanism, accepted, beq_self_eq_true]

private theorem pass4_gmac (serves : HalServes hal server.mechanism)
    (named : titleIsZero server.systemTitle = false) (room : server.invocationCounter ≠ 0xFFFFFFFF)
    (mechanism : server.mechanism = .hlsGmac) : Pass4Completes hal server client := by
  let next : SecContext := { server with invocationCounter := server.invocationCounter + 1 }
  have serves : HalServes hal next.mechanism := serves
  obtain ⟨tag, computed, length⟩ :=
    gmac_computes serves mechanism server.systemTitle server.invocationCounter server.ctos.val
  have expected : hlsGmac hal client (hlsGmacIvTitle client true) server.invocationCounter
      client.ctos.val = some tag := by
    rw [shared.gmac hal named, shared.ctos]
    exact computed
  refine ⟨hlsFrame (hlsSc next) server.invocationCounter tag, next, ?_, by simp [hlsFrame], ?_⟩
  · rw [hlsPass4Build, get_bind]
    simp only [mechanism]
    rw [hlsPass4GmacBuild, failIf_bind_of_not (by omega), bind_of_ok (takeCounter_advances room), get_bind, computed]
    rfl
  · simp only [hlsPass4Matches, shared.mechanism, mechanism]
    exact hlsFrameMatches_hlsFrame expected (by omega)

private theorem pass4_cmac (room : server.invocationCounter ≠ 0xFFFFFFFF) (mechanism : server.mechanism = .hlsGostCmac) :
    Pass4Completes hal server client := by
  let next : SecContext := { server with invocationCounter := server.invocationCounter + 1 }
  obtain ⟨mac, computed⟩ := cmac_computes server.kEm
    (buildIv server.systemTitle server.invocationCounter) (hlsSc server) server.ctos server.stoc
  let frame := hlsFrame (hlsSc server) server.invocationCounter mac.toList
  have expected : hlsExpectedCmac client frame server.invocationCounter client.ctos.val
      client.stoc.val = some mac.toList := by
    rw [shared.cmac frame (hlsFrame_getD_zero _ _ _), shared.ctos, shared.stoc, computed, Option.map_some]
  refine ⟨frame, next, ?_, by simp [frame, hlsFrame], ?_⟩
  · rw [hlsPass4Build, get_bind]
    simp only [mechanism]
    rw [hlsPass4GostCmacBuild, failIf_bind_of_not (by omega), bind_of_ok (takeCounter_advances room),
      get_bind, show hlsGostCmac next.kEm (buildIv next.systemTitle server.invocationCounter)
        (hlsSc next) next.ctos.val next.stoc.val = some mac from computed]
    rfl
  · simp only [hlsPass4Matches, shared.mechanism, mechanism]
    exact hlsFrameMatches_hlsFrame expected (by simp)

end Pass4

/-- The handshake completes: pass 3 of the client is accepted by the server, and the pass 4 that
the server then builds is accepted by the client. -/
theorem hls_handshake_completes (hal : Hal) (client server : SecContext)
    (mirrored : Mirrored client server) (handshake : client.mechanism.requiresHandshake = true)
    (serves : HalServes hal client.mechanism)
    (clientKeys : KeysMatch hal client server) (serverKeys : KeysMatch hal server client)
    (clientFit : SignatureKeysFit client server) (serverFit : SignatureKeysFit server client) :
    ∃ value3 server3 value4 server4,
      hlsPass3Build hal client 96 = .ok value3 ∧ hlsPass3Verify hal value3 server = .ok () server3 ∧
      hlsPass4Build hal 96 server3 = .ok value4 server4 ∧
      hlsPass4Verify hal value4 client = .ok () { client with hlsFailures := 0 } := by
  have shared := mirrored.shared
  obtain ⟨value3, built3, last, valid, failures, accepted3⟩ : Pass3Completes hal client server := by
    rcases handshake_cases handshake with member | gmac | cmac | signature
    · exact pass3_recomputed mirrored serves member
    · exact pass3_gmac mirrored serves gmac
    · exact pass3_cmac mirrored cmac
    · exact pass3_signature mirrored serves clientKeys clientFit signature
  let server3 : SecContext :=
    { server with lastPeerIc := last, icValid := valid, hlsFailures := failures }
  -- counters and failure counts play no part in the shared values
  have shared3 : SharedSecrets server3 client := SharedSecrets.symm { shared with }
  have serves3 : HalServes hal server3.mechanism := shared.mechanism ▸ serves
  have password : server3.mechanism = .hls →
      server3.ctos.val.length = 16 ∧ server3.hlsSecret.val.length ≠ 0 := by
    intro mechanism
    obtain ⟨ctos, -, secret⟩ := mirrored.password (shared.mechanism ▸ mechanism)
    exact ⟨shared3.ctos ▸ ctos, shared3.hlsSecret ▸ secret⟩
  obtain ⟨value4, server4, built4, nonempty, carried⟩ : Pass4Completes hal server3 client := by
    rcases handshake_cases (shared3.mechanism ▸ handshake) with member | gmac | cmac | signature
    · exact pass4_recomputed shared3 serves3 member password
    · exact pass4_gmac shared3 serves3 mirrored.serverNamed mirrored.roomInCounter gmac
    · exact pass4_cmac shared3 mirrored.roomInCounter cmac
    · exact pass4_signature shared3 serves3 ⟨serverKeys.ecdsa, serverKeys.gost⟩ ⟨serverFit.ecdsa, serverFit.gost⟩ signature
  refine ⟨value3, server3, value4, server4, built3, accepted3, built4, ?_⟩
  rw [hlsPass4Verify, bind_of_ok (pass3_skips_length nonempty), get_bind,
    failIf_bind_of_not (UInt8.not_le.mpr mirrored.clientFailures), if_pos carried, set_apply]

/-- One end of a handshake with eight-byte challenges and zero keys. -/
def handshakeContext (suite : Suite) (mechanism : Mechanism) (own peer : UInt8) : SecContext :=
  { secContextInit suite mechanism (Vector.replicate 8 own) with
    peerSystemTitle := Vector.replicate 8 peer
    ctos := BytesUpTo.ofList 64 [1, 2, 3, 4, 5, 6, 7, 8]
    stoc := BytesUpTo.ofList 64 [8, 7, 6, 5, 4, 3, 2, 1]
    signingKey := BytesUpTo.ofList 48 [1]
    peerPublicKey := BytesUpTo.ofList 96 [1] }

theorem mirrored_handshakeContext (suite : Suite) (mechanism : Mechanism) (other : mechanism ≠ .hls) :
    Mirrored (handshakeContext suite mechanism 1 2) (handshakeContext suite mechanism 2 1) where
  shared := ⟨rfl, rfl, rfl, rfl, rfl, rfl, rfl, rfl, rfl, rfl⟩
  clientNamed := rfl
  serverNamed := rfl
  ctosLength := Nat.le_refl 8
  stocLength := Nat.le_refl 8
  password := fun high => absurd high other
  clientFailures := show (0 : UInt8) < 5 by decide
  serverFailures := show (0 : UInt8) < 5 by decide
  freshCounter := fun valid => nomatch valid
  roomInCounter := show (0 : UInt32) ≠ 0xFFFFFFFF by decide

/-- Worked input: a GMAC handshake under suite 0. -/
theorem hls_handshake_completes_gmac :
    ∃ value3 server3 value4 server4,
      hlsPass3Build sampleHal (handshakeContext .suite0 .hlsGmac 1 2) 96 = .ok value3 ∧
      hlsPass3Verify sampleHal value3 (handshakeContext .suite0 .hlsGmac 2 1) = .ok () server3 ∧
      hlsPass4Build sampleHal 96 server3 = .ok value4 server4 ∧
      hlsPass4Verify sampleHal value4 (handshakeContext .suite0 .hlsGmac 1 2) =
        .ok () { handshakeContext .suite0 .hlsGmac 1 2 with hlsFailures := 0 } :=
  hls_handshake_completes sampleHal _ _ (mirrored_handshakeContext .suite0 .hlsGmac (by decide)) rfl
    { gcm := fun _ => .inl ⟨sampleGcm, rfl, fun call encrypt => by simp [sampleGcm, encrypt]⟩
      md5 := fun h => nomatch h
      sha1 := fun h => nomatch h
      sha256 := fun h => nomatch h
      ecdsa := fun h => nomatch h }
    ⟨(fun h => nomatch h), (fun h => nomatch h)⟩ ⟨(fun h => nomatch h), (fun h => nomatch h)⟩
    ⟨(fun h => nomatch h), (fun h => nomatch h)⟩ ⟨(fun h => nomatch h), (fun h => nomatch h)⟩

def signingHal : Hal :=
  { sampleHal with
    ecdsaSign := some fun _ _ _ => (0, [1])
    ecdsaVerify := some fun _ _ _ _ => 0 }

/-- Under suite 0 the ECDSA mechanism builds no pass 3, whatever the keys. -/
theorem hls_handshake_fails_ecdsa_suite0 : ¬∀ (hal : Hal) (client server : SecContext), Mirrored client server →
      client.mechanism.requiresHandshake = true → HalServes hal client.mechanism →
      KeysMatch hal client server → KeysMatch hal server client → ∃ value, hlsPass3Build hal client 96 = .ok value := by
  intro claim
  have keys (own peer : UInt8) : KeysMatch signingHal (handshakeContext .suite0 .hlsEcdsa own peer)
      (handshakeContext .suite0 .hlsEcdsa peer own) :=
    { ecdsa := by
        rintro - sign ⟨⟩ verify ⟨⟩ msg
        exact ⟨rfl, List.cons_ne_nil 1 [], rfl⟩
      gost := fun h => nomatch h }
  obtain ⟨value, built⟩ := claim signingHal _ _
    (mirrored_handshakeContext .suite0 .hlsEcdsa (by decide)) rfl
    { gcm := fun h => nomatch h
      md5 := fun h => nomatch h
      sha1 := fun h => nomatch h
      sha256 := fun h => nomatch h
      ecdsa := fun _ => ⟨rfl, rfl⟩ } (keys 1 2) (keys 2 1)
  cases built

end OpenSpodes
