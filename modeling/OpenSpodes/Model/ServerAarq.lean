import OpenSpodes.Model.Initiate
import OpenSpodes.Model.Server

/-! # The server's answer to an association request

`handle_aarq` picks an association, validates the request against it, authenticates the client or
starts a handshake, sets up ciphering and answers. All decisions fall before anything is encoded;
from then on only the response can fail.
-/

namespace OpenSpodes

open Machine Bytes

variable {σ : Type}

/-! ## Which association -/

/-- `aarq_mechanism_matches_assoc`. -/
def aarqMechanismMatchesAssoc (mech assocMech : UInt8) : Bool :=
  mech == assocMech || (mech == 2 && assocMech == 5)

/-- `osp_server_get_client_sap`. -/
def Server.clientSap (s : Server σ) : UInt8 :=
  if s.hdlcActive then UInt8.ofNat (hdlcAddressValue s.wire.hdlc.receivedClientAddr) else 0

/-- The record of an association instance. -/
def Server.record (s : Server σ) (inst : ℕ) : Association := (s.objects.instances inst).association

/-- `server_pick_association`: by client SAP, else by mechanism, else the one already bound. -/
def Server.pickAssociation (s : Server σ) (mechanism : UInt8) : Option ℕ :=
  let login := s.objects.associations.filter fun inst => (s.record inst).clientSap != 0
  (login.find? fun inst => s.clientSap != 0 && (s.record inst).clientSap == s.clientSap)
    <|> (login.find? fun inst =>
      aarqMechanismMatchesAssoc mechanism (s.record inst).authenticationMechanism)
    <|> s.aa.association

/-! ## Validation -/

/-- `aarq_reject_info_t`. -/
structure Reject where
  acseDiag : UInt8 := 0
  isProvider : Bool := false
  initiateErr : UInt8 := 0
  deriving DecidableEq, Repr

def Reject.refused (r : Reject) : Bool := r.acseDiag != 0 || r.initiateErr != 0

/-- `app_context_requires_ciphering`. -/
def appContextRequiresCiphering (context : UInt8) : Bool := context == 3 || context == 4

/-- `aarq_context_supported`. -/
def aarqContextSupported (context : UInt8) : Bool := context == 1 || context == 3

/-- `aarq_mechanism_known`. -/
def aarqMechanismKnown (mechanism : UInt8) : Bool :=
  mechanism == 0 || mechanism == 1 || (Mechanism.ofId mechanism).requiresHandshake

/-- `aarq_requires_calling_ap_title`. -/
def aarqRequiresCallingApTitle (aarq : Aarq) : Bool :=
  appContextRequiresCiphering aarq.applicationContext ||
    match Mechanism.ofId aarq.mechanism with
    | .hlsGmac | .hlsSha256 | .hlsEcdsa | .hlsGostCmac | .hlsGostStreebog | .hlsGostSig => true
    | _ => false

/-- The checks of `aarq_validate` on the initiate request. -/
def initiateValidate (ireq : InitiateRequest) : Reject :=
  if ireq.proposedDlmsVersion ≠ 0 ∧ ireq.proposedDlmsVersion ≠ 6 then { acseDiag := 1, initiateErr := 1 }
  else if ireq.proposedConformance = 0 then { acseDiag := 1, initiateErr := 2 }
  else if 0 < ireq.clientMaxReceivePduSize ∧ ireq.clientMaxReceivePduSize < 12 then
    { acseDiag := 1, initiateErr := 3 }
  else {}

/-- The checks of `aarq_validate` for an association that authenticates its clients. -/
def credentialsValidate (aarq : Aarq) (assocMech : UInt8) : Reject :=
  if !aarq.hasMechanism ∧ !aarq.hasCallingAuth then { acseDiag := 14 }
  else if aarq.senderAcseRequirement.any (· != 0x80) then { acseDiag := 13 }
  else if !aarq.hasMechanism then { acseDiag := 13 }
  else if !aarqMechanismKnown aarq.mechanism then { acseDiag := 11 }
  else if !aarq.hasCallingAuth ∧ aarq.mechanism ≠ 0 then { acseDiag := 13 }
  else if !aarqMechanismMatchesAssoc aarq.mechanism assocMech then { acseDiag := 13 }
  else {}

/-- `aarq_validate`. -/
def aarqValidate (aarq : Aarq) (assoc : Option Association) (ireq : Option InitiateRequest) : Reject :=
  let proposal := (ireq.map initiateValidate).getD {}
  if !aarqContextSupported aarq.applicationContext then { acseDiag := 2 }
  else if aarq.protocolVersion.any (· != (0x02, 0x84)) then { acseDiag := 2, isProvider := true }
  else if aarqRequiresCallingApTitle aarq ∧ aarq.callingApTitleLen ≠ 8 then { acseDiag := 3 }
  else if proposal.refused then proposal
  else
    match assoc with
    | none => {}
    | some assoc =>
        -- nothing is asked of a client whose association has no mechanism
        if assoc.authenticationMechanism = 0 then {}
        else credentialsValidate aarq assoc.authenticationMechanism

/-! ## Authentication -/

/-- `secret_eq`. -/
def secretEq (a b : List UInt8) : Bool :=
  let differ (diff : UInt8) (i : ℕ) : UInt8 := diff ||| (a.getD i 0 ^^^ b.getD i 0)
  (List.range (max a.length b.length)).foldl differ (UInt8.ofNat a.length ^^^ UInt8.ofNat b.length) == 0

/-- What became of a request. -/
structure AarqResult where
  reject : Reject := {}
  security : SecContext
  associated : Bool := false
  hlsPending : Bool := false

def AarqResult.accepted (r : AarqResult) : Bool := !r.reject.refused

/-- The handshake branch of `handle_aarq`: store the client's challenge and draw the own one. -/
def aarqChallenge (aarq : Aarq) (assoc : Option Association) (mech : Mechanism) :
    Program (Server σ) AarqResult := do
  let s ← get
  let sec := s.aa.security
  let secret := (assoc.map Association.secret).getD (BytesUpTo.empty 64)
  if !s.hasRandom ∨ (mech = .hls ∧ secret.val.length = 0) then
    return { reject := { acseDiag := 13 }, security := sec }
  else
    let sec := { sec with
      mechanism := mech, hlsSecret := if mech = .hls then secret else BytesUpTo.empty 64 }
    if mech = .hls ∧ aarq.callingAuthValue.val.length ≠ 16 then
      return { reject := { acseDiag := 13 }, security := sec }
    else
      let title := if aarq.callingApTitleLen = 8 then aarq.callingApTitle else sec.peerSystemTitle
      let sec := { sec with ctos := aarq.callingAuthValue, peerSystemTitle := title }
      let len := if mech = .hls then 16 else 8
      match ← onWire (randomFill len) with
      | none =>
          let stoc := BytesUpTo.ofList 64 (padTo len sec.stoc.val)
          return { reject := { acseDiag := 13 }, security := { sec with stoc := stoc } }
      | some bytes =>
          return { security := { sec with stoc := BytesUpTo.ofList 64 bytes }, hlsPending := true }

/-- The branches of `handle_aarq` for a request that passed validation. -/
def aarqAuthenticate (aarq : Aarq) (assoc : Option Association) : Program (Server σ) AarqResult := do
  let sec := (← get).aa.security
  if aarq.mechanism = 0 then
    if assoc.any (·.authenticationMechanism != 0) then
      return { reject := { acseDiag := 13 }, security := sec }
    else return { security := sec, associated := true }
  else if aarq.mechanism = 1 then
    let secret := (assoc.map Association.secret).getD (BytesUpTo.empty 64)
    if secret.val.length = 0 ∨ !secretEq aarq.callingAuthValue.val secret.val then
      return { reject := { acseDiag := 13 }, security := sec }
    else return { security := sec, associated := true }
  else if (Mechanism.ofId aarq.mechanism).requiresHandshake then
    aarqChallenge aarq assoc (Mechanism.ofId aarq.mechanism)
  else return { reject := { acseDiag := 11 }, security := sec }

/-! ## Ciphering -/

/-- A context at the start of an association: no peer counter yet, the client's title if given. -/
def SecContext.forAssociation (ctx : SecContext) (aarq : Aarq) : SecContext :=
  { ctx with
    icValid := false, lastPeerIc := 0
    peerSystemTitle := if aarq.callingApTitleLen = 8 then aarq.callingApTitle else ctx.peerSystemTitle }

/-- `server_apply_ciphering_for_aarq`: contexts in use are kept, others copied from `security`. -/
def AssocState.applyCiphering (a : AssocState) (aarq : Aarq) (accepted : Bool) : AssocState :=
  if !accepted ∨ !appContextRequiresCiphering aarq.applicationContext then
    { a with cipheringEnabled := false }
  else
    { a with
      cipherTx := (if a.cipheringEnabled then a.cipherTx else a.security).forAssociation aarq
      cipherRx := (if a.cipheringEnabled then a.cipherRx else a.security).forAssociation aarq
      cipheringEnabled := true }

/-- `osp_sec_cipher_session_use_dedicated` for a key that the client sent, if any. -/
def AssocState.useDedicated (a : AssocState) (key : Option (BytesUpTo 32)) : AssocState :=
  match key with
  | none => a
  | some key =>
      { a with
        cipherTx := secCipherApplyDedicatedKey a.cipherTx key.val
        cipherRx := secCipherApplyDedicatedKey a.cipherRx key.val }

/-- The dedicated key that takes effect: one sent with an accepted request. -/
def dedicatedKeyFor (ireq : Option InitiateRequest) (accepted : Bool) : Option (BytesUpTo 32) :=
  if accepted then ireq.bind InitiateRequest.dedicatedKey else none

/-- The association state behind a decided request. -/
def AssocState.afterAarq (a : AssocState) (aarq : Aarq) (inst : Option ℕ) (ireq : Option InitiateRequest)
    (result : AarqResult) : AssocState :=
  let decided := { a with
    security := result.security, associated := result.associated, hlsPending := result.hlsPending
    association := inst.or a.association }
  let ciphered := decided.applyCiphering aarq result.accepted
  if ciphered.cipheringEnabled then ciphered.useDedicated (dedicatedKeyFor ireq result.accepted)
  else ciphered

/-! ## The response -/

/-- Encode into a fixed array. -/
def encodeInto (size : ℕ) (encode : Write Unit) : Option (BytesUpTo size) :=
  match encode (WBuf.init size) with
  | .ok _ buf => some (BytesUpTo.ofList size buf.out)
  | .error _ _ => none

/-- `aare_fill_initiate_response`. -/
def aareFillInitiateResponse (ireq : Option InitiateRequest) (conformance : ℕ) : Option (BytesUpTo 128) :=
  let default := initiateResponseDefault
  let proposed := (ireq.map InitiateRequest.proposedConformance).getD 0
  let pdu := (ireq.map InitiateRequest.clientMaxReceivePduSize).getD 0
  encodeInto 128 (initiateResponseEncode
    { default with
      negotiatedConformance := if proposed ≠ 0 then conformance &&& proposed else conformance
      serverMaxReceivePduSize :=
        if 0 < pdu ∧ pdu < default.serverMaxReceivePduSize then pdu else default.serverMaxReceivePduSize })

/-- The conformance granted to a mechanism. -/
def grantedConformance (mechanism : UInt8) : ℕ :=
  if mechanism = 0 then 0x001010
  else if (Mechanism.ofId mechanism).requiresHandshake then 0x40189D
  else 0x001015

/-- The user information of the response. -/
def aareUserInfo (aarq : Aarq) (ireq : Option InitiateRequest) (result : AarqResult) :
    Option (BytesUpTo 128) :=
  if result.reject.initiateErr ≠ 0 then encodeInto 128 (initiateErrorEncode result.reject.initiateErr)
  else if result.accepted then aareFillInitiateResponse ireq (grantedConformance aarq.mechanism)
  else if ireq.isSome ∧ result.reject.acseDiag = 2 then aareFillInitiateResponse ireq 0x001010
  else some (BytesUpTo.empty 128)

/-- The response that `handle_aarq` builds. -/
def aareFor (aarq : Aarq) (result : AarqResult) (userInfo : BytesUpTo 128) : Aare :=
  let rejected := result.reject.refused
  let handshake := (Mechanism.ofId aarq.mechanism).requiresHandshake && !rejected
  { result := if rejected then 1 else 0
    resultSourceDiagnostic :=
      if !rejected then 0 else if result.reject.acseDiag ≠ 0 then result.reject.acseDiag else 1
    resultSourceIsProvider := rejected && result.reject.isProvider
    applicationContext :=
      if rejected && result.reject.acseDiag == 2 then 1
      else if aarq.applicationContext ≠ 0 then aarq.applicationContext else 1
    protocolVersion := some (0x02, 0x84)
    mechanism := aarq.mechanism
    includeAuthentication := handshake
    respondingApTitle :=
      if handshake then BytesUpTo.ofList 8 result.security.systemTitle.toList else BytesUpTo.empty 8
    respondingAuthValue := if result.hlsPending then result.security.stoc else BytesUpTo.empty 64
    userInfo := userInfo }

/-- The initiate request in the user information of an AARQ, when there is one that decodes. -/
def aarqInitiate (aarq : Aarq) : Option InitiateRequest :=
  if aarq.userInfo.val.length > 0 then
    match initiateRequestDecode (Buf.ofBytes aarq.userInfo.val) with
    | .ok ireq _ => some ireq
    | .error _ _ => none
  else none

/-- Decide a request: validation, then authentication. -/
def aarqDecide (aarq : Aarq) (assoc : Option Association) (ireq : Option InitiateRequest) :
    Program (Server σ) AarqResult := do
  let verdict := aarqValidate aarq assoc ireq
  if verdict.refused then return { reject := verdict, security := (← get).aa.security }
  else aarqAuthenticate aarq assoc

/-- `handle_aarq`. -/
def handleAarq (env : Env σ) (aarq : Aarq) : Program (Server σ) Err := do
  let s ← get
  let ireq := aarqInitiate aarq
  let inst := s.pickAssociation aarq.mechanism
  let assoc := inst.map s.record
  let result ← aarqDecide aarq assoc ireq
  transition (.aarq aarq inst assoc result.accepted) (·.afterAarq aarq inst ireq result)
  if result.associated then serverMirror inst
  match aareUserInfo aarq ireq result with
  | none => return .invalid
  | some userInfo => sendEncoded env (aareEncode (aareFor aarq result userInfo))

end OpenSpodes
