import OpenSpodes.Proofs.Protect
import OpenSpodes.Proofs.Unprotect
import OpenSpodes.Soundness.Kuznyechik

/-! # What was protected is recovered

`gloUnprotect` with the keys of `gloProtect` returns the plaintext, for both families of suites, all
four policies, global and dedicated keys. The two sides build vector, associated data and the place
of the tag separately; the argument follows that order: the protected part is opened, then the
message around it is parsed, then the counter is accepted.
-/

namespace OpenSpodes

open Bytes Kuznyechik Machine.Fallible

variable {tag plain : List UInt8} {sc : UInt8} {iv : Vector UInt8 12} {payload : List UInt8}
  {gcm : (call : GcmCall) → GcmResult call}

/-- Sender and receiver hold the same suite and keys. -/
structure SecContext.SharesKeys (tx rx : SecContext) : Prop where
  suite : rx.suite = tx.suite
  guek : rx.guek = tx.guek
  gak : rx.gak = tx.gak
  kEm : rx.kEm = tx.kEm
  useDedicatedKey : rx.useDedicatedKey = tx.useDedicatedKey
  dedicatedKey : rx.dedicatedKey = tx.dedicatedKey

namespace SecContext.SharesKeys

variable {tx rx : SecContext}

theorem aesKey (shares : tx.SharesKeys rx) : secAesEncryptionKey rx = secAesEncryptionKey tx := by
  simp only [secAesEncryptionKey, shares.useDedicatedKey, shares.dedicatedKey, shares.guek, shares.suite]

theorem gostKey (shares : tx.SharesKeys rx) : secGostKEmForCipher rx = secGostKEmForCipher tx := by
  simp only [secGostKEmForCipher, shares.useDedicatedKey, shares.dedicatedKey, shares.kEm]

theorem aad (shares : tx.SharesKeys rx) (sc : UInt8) : gloAad rx sc = gloAad tx sc := by
  simp only [gloAad, shares.gak]

end SecContext.SharesKeys

/-- What is assumed of an installed GCM: encryption succeeds, and decryption under the same key, vector
and associated data inverts it and accepts its tag. -/
structure GcmInverts (gcm : (call : GcmCall) → GcmResult call) : Prop where
  encrypts : ∀ key iv aad input wantTag, (gcm ⟨.encrypt, key, iv, aad, input, none, wantTag⟩).rc = 0
  accepts : ∀ key iv aad input,
    let sealed := gcm ⟨.encrypt, key, iv, aad, input, none, true⟩
    let opened := gcm ⟨.decrypt, key, iv, aad, sealed.out.toList, some sealed.tagOut.toList, false⟩
    opened.rc = 0 ∧ opened.out.toList = input
  decrypts : ∀ key iv input,
    let sealed := gcm ⟨.encrypt, key, iv, [], input, none, false⟩
    let opened := gcm ⟨.decrypt, key, iv, [], sealed.out.toList, none, false⟩
    opened.rc = 0 ∧ opened.out.toList = input

/-! ## The protected part -/

/-- Payload and tag of an authenticated part. -/
private theorem split_tag (payload : List UInt8) (length : tag.length = 12) :
    ¬(payload ++ tag).length < 12 ∧ (payload ++ tag).length - 12 = payload.length ∧
      (payload ++ tag).take payload.length = payload ∧ (payload ++ tag).drop payload.length = tag := by
  refine ⟨?_, ?_, List.take_left, List.drop_left⟩ <;> simp [length]

/-- A part that was protected and is opened to its plaintext; both steps for one key. -/
private def Recovers (sealed : Option (List UInt8)) (opened : List UInt8 → Except Int (List UInt8))
    (plain : List UInt8) : Prop :=
  ∃ part, sealed = some part ∧ plain.length ≤ part.length ∧ part.length ≤ plain.length + 12 ∧
    opened part = .ok plain

private theorem recovers_gost (rx : SecContext) (sc : UInt8) (iv : Vector UInt8 12) (present : 0 < plain.length)
    (fits : plain.length ≤ 1024) :
    Recovers ((gostKuznAeadEncrypt (secGostKEmForCipher rx) iv sc [] plain (scAuth sc) (scEncr sc)).map
        fun sealed => sealed.1 ++ sealed.2) (gloOpenGost rx sc iv) plain := by
  obtain ⟨out, tag, sealed, length, tagged, opens⟩ := aead_opens (secGostKEmForCipher rx) iv sc (scAuth sc) (scEncr sc)
    (show ([] : List UInt8).length ≤ 512 by decide) present fits
  have within : ¬out.length > 1024 := by omega
  refine ⟨out ++ tag, by simp [sealed], by simp [length], by rw [List.length_append]; split at tagged <;> omega, ?_⟩
  cases auth : scAuth sc with
  | true =>
    rw [if_pos auth] at tagged
    obtain ⟨long, rest, front, back⟩ := split_tag out tagged
    rw [auth] at opens
    simp only [gloOpenGost, auth, if_true, if_neg long, rest, if_neg within, front, back, opens, ne_eq, not_true_eq_false,
      and_false, if_false]
  | false =>
    obtain rfl : tag = [] := by simpa [auth] using tagged
    cases encr : scEncr sc with
    | true => simp [gloOpenGost, auth, encr, within, auth ▸ encr ▸ opens []]
    | false =>
      have same : plain = out := by
        rw [auth, encr, gostKuznAeadEncrypt] at sealed
        split_ifs at sealed
        simpa using sealed
      simp [gloOpenGost, auth, encr, within, same]

variable {ctx : SecContext}

/-- Opening an authenticated part, with its payload and tag already cut out. -/
private theorem gloOpenGcm_authenticated {part : List UInt8} (auth : scAuth sc = true) (long : ¬part.length < 12)
    (within : ¬part.length - 12 > 1024) (front : part.take (part.length - 12) = payload)
    (back : part.drop (part.length - 12) = tag) : gloOpenGcm gcm ctx sc iv part = if scEncr sc then
        let call : GcmCall := ⟨.decrypt, secAesEncryptionKey ctx, iv, gloAad ctx sc, payload, some tag, false⟩
        if (gcm call).rc ≠ 0 then .error (-3) else .ok (gcm call).out.toList
      else
        let call : GcmCall :=
          ⟨.decrypt, secAesEncryptionKey ctx, iv, gloAad ctx sc ++ payload, [], some tag, false⟩
        if (gcm call).rc ≠ 0 then .error (-3) else .ok payload := by
  subst front back
  simp only [gloOpenGcm, auth, if_true, if_neg long, if_neg within]

/-- The same for AES, where the installed function does the work. -/
private theorem recovers_gcm {hal : Hal} (installed : hal.gcmCrypt = some gcm) (works : GcmInverts gcm)
    (aes : ctx.suite.usesGostKem = false) (sc : UInt8) (iv : Vector UInt8 12) (fits : plain.length ≤ 1024) :
    Recovers (gloSeal hal ctx sc iv plain) (gloOpenGcm gcm ctx sc iv) plain := by
  have within : ¬plain.length > 1024 := by omega
  cases auth : scAuth sc with
  | true =>
    cases encr : scEncr sc with
    | true =>
      let sealed := gcm ⟨.encrypt, secAesEncryptionKey ctx, iv, gloAad ctx sc, plain, none, true⟩
      have length : sealed.out.toList.length = plain.length := Vector.length_toList
      obtain ⟨accepted, recovered⟩ := works.accepts (secAesEncryptionKey ctx) iv (gloAad ctx sc) plain
      obtain ⟨long, rest, front, back⟩ := split_tag sealed.out.toList sealed.tagOut.length_toList
      refine ⟨sealed.out.toList ++ sealed.tagOut.toList, ?_, by simp, by simp, ?_⟩
      · simp [gloSeal, aes, installed, auth, encr, works.encrypts, sealed]
      · rw [gloOpenGcm_authenticated auth long (by omega) (rest ▸ front) (rest ▸ back), if_pos encr]
        dsimp only
        rw [if_neg (not_not.mpr accepted), recovered]
    | false =>
      let sealed := gcm ⟨.encrypt, secAesEncryptionKey ctx, iv, gloAad ctx sc ++ plain, [], none, true⟩
      obtain ⟨accepted, -⟩ := works.accepts (secAesEncryptionKey ctx) iv (gloAad ctx sc ++ plain) []
      obtain ⟨long, rest, front, back⟩ := split_tag plain sealed.tagOut.length_toList
      refine ⟨plain ++ sealed.tagOut.toList, ?_, by simp, by simp, ?_⟩
      · simp [gloSeal, aes, installed, auth, encr, works.encrypts, sealed]
      · rw [gloOpenGcm_authenticated auth long (by omega) (rest ▸ front) (rest ▸ back),
          if_neg (by simp [encr])]
        have empty : sealed.out.toList = [] := List.length_eq_zero_iff.mp Vector.length_toList
        have verified : (gcm ⟨.decrypt, secAesEncryptionKey ctx, iv, gloAad ctx sc ++ plain, [],
            some sealed.tagOut.toList, false⟩).rc = 0 :=
          Eq.subst (motive := fun input => (gcm ⟨.decrypt, secAesEncryptionKey ctx, iv,
            gloAad ctx sc ++ plain, input, some sealed.tagOut.toList, false⟩).rc = 0) empty accepted
        dsimp only
        rw [if_neg (not_not.mpr verified)]
  | false =>
    cases encr : scEncr sc with
    | true =>
      let sealed := gcm ⟨.encrypt, secAesEncryptionKey ctx, iv, [], plain, none, false⟩
      have length : sealed.out.toList.length = plain.length := Vector.length_toList
      obtain ⟨accepted, recovered⟩ := works.decrypts (secAesEncryptionKey ctx) iv plain
      refine ⟨sealed.out.toList, ?_, by omega, by omega, ?_⟩
      · simp [gloSeal, aes, installed, auth, encr, works.encrypts, sealed]
      · have short : ¬sealed.out.toList.length > 1024 := by omega
        simp only [gloOpenGcm, auth, encr, Bool.false_eq_true, if_false, if_true, if_neg short]
        rw [if_neg (not_not.mpr accepted), recovered]
    | false =>
      refine ⟨plain, by simp [gloSeal, aes, installed, auth, encr], by omega, by omega, ?_⟩
      simp [gloOpenGcm, auth, encr, within]

/-- The protected part of a message is opened by a receiver with the same keys and vector. -/
private theorem recovers {hal : Hal} {tx rx : SecContext} (shares : tx.SharesKeys rx)
    (works : tx.suite.usesGostKem = false → ∃ gcm, hal.gcmCrypt = some gcm ∧ GcmInverts gcm) (sc : UInt8)
    {ic : UInt32} (vectors : gloBuildIvRx rx ic = gloBuildIvTx tx ic) (present : 0 < plain.length)
    (fits : plain.length ≤ 1024) :
    Recovers (gloSeal hal tx sc (gloBuildIvTx tx ic) plain) (gloOpen hal rx sc ic) plain := by
  cases family : tx.suite.usesGostKem with
  | true =>
    have recovered := recovers_gost rx sc (gloBuildIvTx tx ic) present fits
    obtain ⟨part, sealed, long, short, opened⟩ := recovered
    refine ⟨part, ?_, long, short, ?_⟩
    · rw [gloSeal, if_pos family, ← shares.gostKey]
      exact sealed
    · rw [gloOpen, shares.suite, if_pos family, vectors]
      exact opened
  | false =>
    obtain ⟨gcm, installed, inverts⟩ := works family
    have recovered := recovers_gcm installed inverts family sc (gloBuildIvTx tx ic) fits
    obtain ⟨part, sealed, long, short, opened⟩ := recovered
    refine ⟨part, sealed, long, short, ?_⟩
    rw [gloOpen, shares.suite, if_neg (by simp [family]), installed, vectors]
    unfold gloOpenGcm at opened ⊢
    rw [shares.aesKey, shares.aad]
    exact opened

/-! ## The message -/

/-- Sender and receiver of one direction: the receiver has the sender's keys, knows its title, and has
not yet seen its counter. -/
structure SecContext.Reaches (tx rx : SecContext) : Prop where
  shares : tx.SharesKeys rx
  title : rx.peerSystemTitle = tx.systemTitle
  nonzero : titleIsZero tx.systemTitle = false
  fresh : rx.icValid = true → rx.lastPeerIc < tx.invocationCounter

/-- An installed primitive for the suite. GOST is part of the library. -/
def Hal.Ciphers (hal : Hal) (suite : Suite) : Prop :=
  suite.usesGostKem = false → ∃ gcm, hal.gcmCrypt = some gcm ∧ GcmInverts gcm

/-- The message of a sender: what the tag is does not matter for its body. -/
theorem gloProtect_message {hal : Hal} {tx rx : SecContext} (works : hal.Ciphers tx.suite) (reaches : tx.Reaches rx)
    (tag : UInt8) (present : 0 < plain.length) (fits : plain.length ≤ 1024) :
    ∃ body, gloProtect hal tx tag plain = some (tag :: (dlmsLenBytes body.length ++ body)) ∧
      plain.length + 5 ≤ body.length ∧ body.length ≤ plain.length + 17 ∧ bodyIc body = tx.invocationCounter ∧
      secControlToPolicy (bodySc body) = tx.policy ∧
      gloOpen hal rx (bodySc body) (bodyIc body) (bodyProtected body) = .ok plain := by
  let sc := secControlByte tx.policy tx.suite
  let ic := tx.invocationCounter
  have vectors : gloBuildIvRx rx ic = gloBuildIvTx tx ic := by
    rw [gloBuildIvRx, gloBuildIvTx, reaches.title, if_neg (by simp [reaches.nonzero])]
  obtain ⟨part, sealed, long, short, opened⟩ := recovers reaches.shares works sc vectors present fits
  let body := [sc] ++ icBytes ic ++ part
  have length : body.length = 5 + part.length := by simp [body]; omega
  have counter : bodyIc body = ic := by simp [bodyIc, body]
  have control : bodySc body = sc := by simp [bodySc, body]
  have payload : bodyProtected body = part := by simp [bodyProtected, body]
  refine ⟨body, ?_, by omega, by omega, counter, ?_, ?_⟩
  · rw [gloProtect, if_neg (by omega)]
    simp only [sealed, sc, ic]
    have room : body.length + 8 ≤ 1056 := by omega
    exact gloWriteCipheredApdu_eq room
  · rw [control]
    exact secControlToPolicy_secControlByte _ _
  · rw [counter, control, payload]
    exact opened

/-- Under a ciphered tag the receiver accepts the message, with the sender's counter and policy. -/
theorem gloProtect_accepted {hal : Hal} {tx rx : SecContext} (works : hal.Ciphers tx.suite) (reaches : tx.Reaches rx)
    {tag : UInt8} (ciphered : svcIsCipheredTag tag = true) (present : 0 < plain.length) (fits : plain.length ≤ 1024) :
    ∃ sent body, gloProtect hal tx tag plain = some sent ∧ Accepts hal rx sent body plain ∧
      bodyIc body = tx.invocationCounter ∧ secControlToPolicy (bodySc body) = tx.policy := by
  obtain ⟨body, done, long, short, counter, policy, opened⟩ :=
    gloProtect_message works reaches tag present fits
  refine ⟨_, body, done, ⟨gloBody_of_message ciphered (by omega) (by omega), ?_, opened⟩, counter, policy⟩
  intro valid
  rw [counter]
  exact reaches.fresh valid

/-- The sample cipher is one of the assumed kind. -/
theorem sampleGcm_inverts : GcmInverts sampleGcm where
  encrypts key iv aad input wantTag := by simp [sampleGcm]
  accepts key iv aad input := by
    refine ⟨by simp [sampleGcm], ?_⟩
    apply List.ext_getElem
    · simp [sampleGcm]
    · intro i _ _
      simp [sampleGcm, UInt8.xor_assoc]
  decrypts key iv input := by
    refine ⟨by simp [sampleGcm], ?_⟩
    apply List.ext_getElem
    · simp [sampleGcm]
    · intro i _ _
      simp [sampleGcm, UInt8.xor_assoc]

theorem sampleHal_ciphers (suite : Suite) : sampleHal.Ciphers suite :=
  fun _ => ⟨sampleGcm, rfl, sampleGcm_inverts⟩

/-- Protection followed by its removal is the identity on plaintexts, and the receiver remembers the
sender's counter. -/
theorem protect_unprotect_round_trip (hal : Hal) (tx rx : SecContext) (tag : UInt8) (plain : List UInt8)
    (works : hal.Ciphers tx.suite) (reaches : tx.Reaches rx) (ciphered : svcIsCipheredTag tag = true)
    (present : 1 ≤ plain.length) (fits : plain.length ≤ 1024) : ∃ sent, gloProtect hal tx tag plain = some sent ∧
      ∃ next, gloUnprotect hal sent rx = .ok plain next ∧ next.lastPeerIc = tx.invocationCounter := by
  obtain ⟨sent, body, done, accepts, counter, -⟩ := gloProtect_accepted works reaches ciphered present fits
  exact ⟨sent, done, rx.accepted body, gloUnprotect_of_accepts accepts, counter⟩

/-- A receiver that has already accepted counter 4 of a sender whose counter is 5. -/
theorem protect_unprotect_round_trip_next_counter :
    let tx := { secContextInit .suite0 .lowest (Vector.replicate 8 9) with
      policy := .encrAuth, invocationCounter := 5 }
    let rx := { secContextInit .suite0 .lowest (Vector.replicate 8 7) with
      peerSystemTitle := Vector.replicate 8 9, lastPeerIc := 4, icValid := true }
    ∃ sent, gloProtect sampleHal tx 0xC8 [0xC0, 1] = some sent ∧
      ∃ next, gloUnprotect sampleHal sent rx = .ok [0xC0, 1] next ∧ next.lastPeerIc = 5 :=
  protect_unprotect_round_trip sampleHal _ _ 0xC8 [0xC0, 1] (sampleHal_ciphers _)
    ⟨⟨rfl, rfl, rfl, rfl, rfl, rfl⟩, rfl, rfl, fun _ => by decide⟩ (by decide) (by decide) (by decide)

/-! ## How long a message is -/

/-- For the suites that need it, a GCM is installed and its encryption succeeds. -/
def Hal.Encrypts (hal : Hal) (suite : Suite) : Prop :=
  suite.usesGostKem = false → ∃ gcm, hal.gcmCrypt = some gcm ∧
    ∀ key iv aad input wantTag, (gcm ⟨.encrypt, key, iv, aad, input, none, wantTag⟩).rc = 0

/-- The protected part has the length of the plaintext and, when authenticated, of a tag. -/
private theorem gloSeal_some {hal : Hal} (works : hal.Encrypts ctx.suite) (sc : UInt8) (iv : Vector UInt8 12)
    (present : 1 ≤ plain.length) (fits : plain.length ≤ 1024) :
    ∃ part, gloSeal hal ctx sc iv plain = some part ∧ part.length = plain.length + if scAuth sc then 12 else 0 := by
  cases family : ctx.suite.usesGostKem with
  | true =>
    obtain ⟨out, tag, sealed, length, tagged, -⟩ := aead_opens (secGostKEmForCipher ctx) iv sc (scAuth sc) (scEncr sc)
      (show ([] : List UInt8).length ≤ 512 by decide) present fits
    exact ⟨out ++ tag, by simp [gloSeal, family, sealed], by rw [List.length_append, length, tagged]⟩
  | false =>
    obtain ⟨gcm, installed, encrypts⟩ := works family
    cases auth : scAuth sc <;> cases encr : scEncr sc <;>
      simp [gloSeal, family, installed, auth, encr, encrypts]

/-- What the senders get for a plaintext fits the 1024 bytes of their area exactly if the header and, when authenticated,
the tag leave room for it. -/
theorem ciphered_fits_iff {hal : Hal} {ctx : SecContext} {plain : List UInt8} (works : hal.Encrypts ctx.suite)
    (present : 1 ≤ plain.length) (fits : plain.length ≤ 1024) :
    (∀ sent, gloProtect hal ctx (svcCipherTagForPlain ctx (plain.getD 0 0)) plain = some sent → sent.length ≤ 1024) ↔
      plain.length + (if ctx.policy.auth then 12 else 0) ≤ 1015 := by
  let sc := secControlByte ctx.policy ctx.suite
  obtain ⟨part, sealed, length⟩ := gloSeal_some works sc (gloBuildIvTx ctx ctx.invocationCounter) present fits
  rw [scAuth_secControlByte] at length
  have few : (if ctx.policy.auth then 12 else 0) ≤ 12 := by split <;> decide
  generalize (if ctx.policy.auth then 12 else 0) = tagLength at *
  let body := [sc] ++ icBytes ctx.invocationCounter ++ part
  have count : body.length = 5 + plain.length + tagLength := by
    simp only [body, List.length_append, List.length_singleton, length_icBytes, length]
    omega
  have wrote : gloProtect hal ctx (svcCipherTagForPlain ctx (plain.getD 0 0)) plain =
      some (svcCipherTagForPlain ctx (plain.getD 0 0) :: (dlmsLenBytes body.length ++ body)) := by
    rw [gloProtect, if_neg (by omega)]
    simp only [sealed, sc]
    exact gloWriteCipheredApdu_eq (show body.length + 8 ≤ 1056 by omega)
  have lengths := dlmsLenBytes_length_le (show body.length ≤ 0xFFFF by omega)
  have wide : 1020 < body.length → (dlmsLenBytes body.length).length = 3 := by
    intro long
    unfold dlmsLenBytes dlmsMinOctets
    split_ifs <;> first | omega | simp
  simp only [wrote, Option.some.injEq, forall_eq', List.length_cons, List.length_append]
  omega

theorem ciphered_fits_iff_short :
    let ctx := secContextInit .suite0 .lowest (Vector.replicate 8 9)
    ctx.policy.auth = false ∧ ∀ sent, gloProtect sampleHal ctx 0xC8 [0xC0, 1] = some sent → sent.length ≤ 1024 := by
  refine ⟨rfl, ?_⟩
  have works : sampleHal.Encrypts .suite0 := fun _ => ⟨sampleGcm, rfl, sampleGcm_inverts.encrypts⟩
  exact (ciphered_fits_iff works (show 1 ≤ [0xC0, 1].length by decide) (by decide)).mpr (by decide)

/-- A plaintext of 1024 bytes takes nine more, without encryption and tag. -/
theorem ciphered_exceeds_area :
    ∃ sent, gloProtect sampleHal (secContextInit .suite0 .lowest (Vector.replicate 8 9)) 0xC8
        (List.replicate 1024 0xC0) = some sent ∧ sent.length = 1033 := by
  have length : (List.replicate 1024 (0xC0 : UInt8)).length = 1024 := List.length_replicate
  generalize List.replicate 1024 (0xC0 : UInt8) = plain at length ⊢
  have count : ([0, 0, 0, 0, 0] ++ plain).length = 1029 := by rw [List.length_append, length]; rfl
  refine ⟨0xC8 :: (dlmsLenBytes 1029 ++ ([0, 0, 0, 0, 0] ++ plain)), ?_, ?_⟩
  · rw [gloProtect, if_neg (by omega), ← count]
    exact gloWriteCipheredApdu_eq (show ([0, 0, 0, 0, 0] ++ plain).length + 8 ≤ 1056 by omega)
  · rw [List.length_cons, List.length_append, count]
    rfl

end OpenSpodes
