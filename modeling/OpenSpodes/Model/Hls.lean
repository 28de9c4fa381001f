import OpenSpodes.Model.HlsHigh
import OpenSpodes.Model.Kuznyechik
import OpenSpodes.Model.Security

/-! # The four-pass HLS handshake

After the association request and response have exchanged the challenges CtoS and StoC, the client
proves itself with a function of StoC (pass 3) and the server with a function of CtoS (pass 4). The
ten mechanisms differ in that function: AES under the password, a keyed hash of one challenge, a
GMAC or CMAC with a counter, a hash or a signature over both titles and both challenges. Builders
name their own title first and verifiers the peer's.
-/

namespace OpenSpodes

open Bytes Kuznyechik HlsHigh Machine.Fallible

/-- The control byte of every handshake authenticator. -/
def hlsSc (ctx : SecContext) : UInt8 := secControlByte .authOnly ctx.suite

/-- `hls_gmac_iv_title`. -/
def hlsGmacIvTitle (ctx : SecContext) (peerOriginator : Bool) : SystemTitle :=
  if peerOriginator && !titleIsZero ctx.peerSystemTitle then ctx.peerSystemTitle else ctx.systemTitle

/-- The associated data of a handshake GMAC. -/
def hlsGmacAad (ctx : SecContext) (data : List UInt8) : List UInt8 :=
  [hlsSc ctx] ++ ctx.gak.toList.take 16 ++ data.take 256

/-- The GMAC of associated data: the one-shot interface, else the streaming one. -/
def hlsGmacTag (hal : Hal) (ctx : SecContext) (iv : Vector UInt8 12) (aad : List UInt8) :
    Option (List UInt8) :=
  match hal.gcmCrypt, hal.gcmStream with
  | some gcm, _ =>
      let call : GcmCall := ⟨.encrypt, ctx.guek.toList.take 16, iv, aad, [], none, true⟩
      if (gcm call).rc ≠ 0 then none else some (gcm call).tagOut.toList
  | none, some stream => some (stream iv aad).toList
  | none, none => none

/-- `osp_hls_gmac`; `none` is its failure return. -/
def hlsGmac (hal : Hal) (ctx : SecContext) (title : SystemTitle) (ic : UInt32) (data : List UInt8) :
    Option (List UInt8) :=
  hlsGmacTag hal ctx (buildIv title ic) (hlsGmacAad ctx data)

/-- `hls_streebog256`. -/
def hlsStreebog256 (hal : Hal) (input : List UInt8) : List UInt8 :=
  match hal.streebog256 with
  | some digest => (digest input).toList
  | none => (hal.gostStreebog256 input).toList

/-- `hls_hash_legacy`: MD5 or SHA-1 of the challenge followed by the authentication key. -/
def hlsHashLegacy (hal : Hal) (ctx : SecContext) (challenge : List UInt8) : Option (List UInt8) :=
  if challenge.length + 16 > 64 + 32 then none
  else
    let input := challenge ++ ctx.gak.toList.take 16
    match ctx.mechanism with
    | .hlsMd5 => hal.md5.map fun digest => (digest input).toList
    | .hlsSha1 => hal.sha1.map fun digest => (digest input).toList
    | _ => none

/-- The input of the title-bound hashes. -/
def hlsTitledInput (ctx : SecContext) (stA stB : SystemTitle) (challengeA challengeB : List UInt8) :
    List UInt8 :=
  ctx.gak.toList.take 16 ++ stA.toList ++ stB.toList ++ challengeA ++ challengeB

/-- `hls_hash_with_titles`. -/
def hlsHashWithTitles (hal : Hal) (ctx : SecContext) (stA stB : SystemTitle)
    (challengeA challengeB : List UInt8) : Option (List UInt8) :=
  let input := hlsTitledInput ctx stA stB challengeA challengeB
  match ctx.mechanism with
  | .hlsSha256 => hal.sha256.map fun digest => (digest input).toList
  | .hlsGostStreebog => some (hlsStreebog256 hal input)
  | _ => none

/-- `hls_build_sig_message`. -/
def hlsBuildSigMessage (stA stB : SystemTitle) (challengeA challengeB : List UInt8) :
    Option (List UInt8) :=
  if 8 * 2 + challengeA.length + challengeB.length > 64 * 2 + 8 * 2 then none
  else some (stA.toList ++ stB.toList ++ challengeA ++ challengeB)

/-- A counter-based authenticator on the wire. -/
def hlsFrame (sc : UInt8) (ic : UInt32) (mac : List UInt8) : List UInt8 := [sc] ++ icBytes ic ++ mac

/-- The counter carried by an authenticator. -/
def hlsFrameIc (frame : List UInt8) : UInt32 := icOfBytes ((frame.drop 1).take 4)

/-- Sign a message with the context's key and mechanism; an error is the non-zero return code. -/
def hlsSigBuild (hal : Hal) (ctx : SecContext) (msg : Option (List UInt8)) (outSize : ℕ) :
    Except Int (List UInt8) :=
  match msg with
  | none => .error (-1)
  | some msg =>
      match ctx.mechanism with
      | .hlsEcdsa =>
          match hal.ecdsaSign with
          | none => .error (-1)
          | some sign =>
              if ctx.suite = .suite0 ∨ ctx.signingKey.val.length = 0 then .error (-1)
              else
                let signed := sign ctx.suite ctx.signingKey.val msg
                if signed.1 ≠ 0 then .error signed.1 else .ok signed.2
      | .hlsGostSig =>
          if outSize < 64 ∨ ctx.signingKey.val.length ≠ 32 then .error (-1)
          else
            match hal.gost3410Sign ctx.signingKey.val msg with
            | none => .error (-1)
            | some sig => .ok sig.toList
      | _ => .error (-1)

/-- Verify a signature over a message with the peer's key; the return code. -/
def hlsSigVerify (hal : Hal) (ctx : SecContext) (msg : Option (List UInt8)) (sig : List UInt8) : Int :=
  match msg with
  | none => -1
  | some msg =>
      match ctx.mechanism with
      | .hlsEcdsa =>
          match hal.ecdsaVerify with
          | none => -1
          | some verify =>
              if ctx.peerPublicKey.val.length = 0 then -1
              else verify ctx.suite ctx.peerPublicKey.val msg sig
      | .hlsGostSig =>
          if sig.length ≠ 64 ∨ ctx.peerPublicKey.val.length ≠ 64 then -1
          else hal.gost3410Verify ctx.peerPublicKey.val msg sig
      | _ => -1

/-- `hls_pass3_sig_build`. -/
def hlsPass3SigBuild (hal : Hal) (ctx : SecContext) (outSize : ℕ) : Except Int (List UInt8) :=
  hlsSigBuild hal ctx
    (hlsBuildSigMessage ctx.systemTitle ctx.peerSystemTitle ctx.stoc.val ctx.ctos.val) outSize

/-- `hls_pass4_sig_build`. -/
def hlsPass4SigBuild (hal : Hal) (ctx : SecContext) (outSize : ℕ) : Except Int (List UInt8) :=
  hlsSigBuild hal ctx
    (hlsBuildSigMessage ctx.systemTitle ctx.peerSystemTitle ctx.ctos.val ctx.stoc.val) outSize

/-- `hls_pass3_sig_verify`. -/
def hlsPass3SigVerify (hal : Hal) (ctx : SecContext) (fStoc : List UInt8) : Int :=
  hlsSigVerify hal ctx
    (hlsBuildSigMessage ctx.peerSystemTitle ctx.systemTitle ctx.stoc.val ctx.ctos.val) fStoc

/-- `hls_pass4_sig_verify`. -/
def hlsPass4SigVerify (hal : Hal) (ctx : SecContext) (fCtos : List UInt8) : Int :=
  hlsSigVerify hal ctx
    (hlsBuildSigMessage ctx.peerSystemTitle ctx.systemTitle ctx.ctos.val ctx.stoc.val) fCtos

/-- `hls_pass_high`. -/
def hlsPassHigh (ctx : SecContext) (challenge : List UInt8) : Option (List UInt8) :=
  if ctx.hlsSecret.val.length = 0 then none else hlsHighSecure challenge ctx.hlsSecret.val

/-- The failure return of an optional result. -/
def orFail (result : Option (List UInt8)) : Except Int (List UInt8) :=
  match result with
  | none => .error (-1)
  | some value => .ok value

/-- `hls_pass3_gmac_build`: the counter is read, not advanced. -/
def hlsPass3GmacBuild (hal : Hal) (ctx : SecContext) (outSize : ℕ) : Except Int (List UInt8) :=
  if outSize < 17 then .error (-1)
  else
    let ic := ctx.invocationCounter
    orFail ((hlsGmac hal ctx ctx.systemTitle ic ctx.stoc.val).map (hlsFrame (hlsSc ctx) ic))

/-- `hls_pass3_gost_cmac_build`: the counter is read, not advanced. -/
def hlsPass3GostCmacBuild (ctx : SecContext) (outSize : ℕ) : Except Int (List UInt8) :=
  if outSize < 21 then .error (-1)
  else
    let ic := ctx.invocationCounter
    orFail ((hlsGostCmac ctx.kEm (buildIv ctx.systemTitle ic) (hlsSc ctx) ctx.stoc.val
      ctx.ctos.val).map fun mac => hlsFrame (hlsSc ctx) ic mac.toList)

/-- `osp_hls_pass3_build`; an error is its non-zero return code. -/
def hlsPass3Build (hal : Hal) (ctx : SecContext) (outSize : ℕ) : Except Int (List UInt8) :=
  match ctx.mechanism with
  | .hls => orFail (hlsPassHigh ctx ctx.stoc.val)
  | .hlsGmac => hlsPass3GmacBuild hal ctx outSize
  | .hlsGostCmac => hlsPass3GostCmacBuild ctx outSize
  | .hlsEcdsa | .hlsGostSig => hlsPass3SigBuild hal ctx outSize
  | .hlsMd5 | .hlsSha1 => orFail (hlsHashLegacy hal ctx ctx.stoc.val)
  | .hlsSha256 | .hlsGostStreebog =>
      orFail (hlsHashWithTitles hal ctx ctx.systemTitle ctx.peerSystemTitle ctx.stoc.val ctx.ctos.val)
  | _ => .error (-1)

/-- Advance the counter for one authenticator, refusing to wrap. -/
def hlsTakeCounter : EStateM Int SecContext UInt32 := do
  let ctx ← get
  failIf (ctx.invocationCounter = 0xFFFFFFFF) (-1)
  set { ctx with invocationCounter := ctx.invocationCounter + 1 }
  return ctx.invocationCounter

/-- `hls_pass4_gmac_build`. -/
def hlsPass4GmacBuild (hal : Hal) (outSize : ℕ) : EStateM Int SecContext (List UInt8) := do
  failIf (outSize < 17) (-1)
  let ic ← hlsTakeCounter
  let ctx ← get
  match hlsGmac hal ctx ctx.systemTitle ic ctx.ctos.val with
  | none => throw (-1)
  | some tag => return hlsFrame (hlsSc ctx) ic tag

/-- `hls_pass4_gost_cmac_build`. -/
def hlsPass4GostCmacBuild (outSize : ℕ) : EStateM Int SecContext (List UInt8) := do
  failIf (outSize < 21) (-1)
  let ic ← hlsTakeCounter
  let ctx ← get
  match hlsGostCmac ctx.kEm (buildIv ctx.systemTitle ic) (hlsSc ctx) ctx.ctos.val ctx.stoc.val with
  | none => throw (-1)
  | some mac => return hlsFrame (hlsSc ctx) ic mac.toList

/-- A result that does not depend on advancing the context. -/
def ofExcept (result : Except Int (List UInt8)) : EStateM Int SecContext (List UInt8) :=
  match result with
  | .ok value => pure value
  | .error rc => throw rc

/-- `osp_hls_pass4_build`; an error is its non-zero return code. -/
def hlsPass4Build (hal : Hal) (outSize : ℕ) : EStateM Int SecContext (List UInt8) := do
  let ctx ← get
  match ctx.mechanism with
  | .hls => ofExcept (orFail (hlsPassHigh ctx ctx.ctos.val))
  | .hlsGmac => hlsPass4GmacBuild hal outSize
  | .hlsGostCmac => hlsPass4GostCmacBuild outSize
  | .hlsEcdsa | .hlsGostSig => ofExcept (hlsPass4SigBuild hal ctx outSize)
  | .hlsMd5 | .hlsSha1 => ofExcept (orFail (hlsHashLegacy hal ctx ctx.ctos.val))
  | .hlsSha256 | .hlsGostStreebog =>
      ofExcept (orFail
        (hlsHashWithTitles hal ctx ctx.systemTitle ctx.peerSystemTitle ctx.ctos.val ctx.stoc.val))
  | _ => throw (-1)

/-- Count a failed verification and return its code. -/
def hlsRefuse (rc : Int) : EStateM Int SecContext Unit := do
  modify fun ctx => { ctx with hlsFailures := ctx.hlsFailures + 1 }
  throw rc

/-- Pass 3 of the two counter-based mechanisms: rate limit, counter above the recorded one, MAC. -/
def hlsPass3CounterVerify (frameLen : ℕ) (mac : SecContext → UInt32 → Option (List UInt8))
    (fStoc : List UInt8) : EStateM Int SecContext Unit := do
  failIf (fStoc.length < frameLen) (-1)
  let ctx ← get
  failIf (ctx.hlsFailures ≥ 5) (-2)
  let ic := hlsFrameIc fStoc
  if ctx.icValid ∧ ic ≤ ctx.lastPeerIc then hlsRefuse (-3)
  else
    match mac ctx ic with
    | none => hlsRefuse (-4)
    | some expected =>
        if (fStoc.drop 5).take expected.length ≠ expected then hlsRefuse (-5)
        else set { ctx with lastPeerIc := ic, icValid := true, hlsFailures := 0 }

/-- Compare an authenticator with the one computed locally. -/
def hlsCompare (expected : Option (List UInt8)) (received : List UInt8) :
    EStateM Int SecContext Unit :=
  match expected with
  | none => throw (-1)
  | some expected => failIf (received ≠ expected) (-5)

/-- The CMAC a verifier expects: peer title, received control byte. -/
def hlsExpectedCmac (ctx : SecContext) (frame : List UInt8) (ic : UInt32)
    (challengeA challengeB : List UInt8) : Option (List UInt8) :=
  (hlsGostCmac ctx.kEm (buildIv ctx.peerSystemTitle ic) (frame.getD 0 0) challengeA challengeB).map
    fun mac => mac.toList

/-- `osp_hls_pass3_verify`; an error is its non-zero return code. -/
def hlsPass3Verify (hal : Hal) (fStoc : List UInt8) : EStateM Int SecContext Unit := do
  failIf (fStoc.length = 0) (-1)
  let ctx ← get
  match ctx.mechanism with
  | .hls => hlsCompare (hlsPassHigh ctx ctx.stoc.val) fStoc
  | .hlsGmac =>
      hlsPass3CounterVerify 17
        (fun ctx ic => hlsGmac hal ctx (hlsGmacIvTitle ctx true) ic ctx.stoc.val) fStoc
  | .hlsGostCmac =>
      hlsPass3CounterVerify 21
        (fun ctx ic => hlsExpectedCmac ctx fStoc ic ctx.stoc.val ctx.ctos.val) fStoc
  | .hlsEcdsa | .hlsGostSig =>
      failIf (hlsPass3SigVerify hal ctx fStoc ≠ 0) (hlsPass3SigVerify hal ctx fStoc)
  | .hlsSha256 | .hlsGostStreebog =>
      hlsCompare
        (hlsHashWithTitles hal ctx ctx.peerSystemTitle ctx.systemTitle ctx.stoc.val ctx.ctos.val) fStoc
  | .hlsMd5 | .hlsSha1 => hlsCompare (hlsHashLegacy hal ctx ctx.stoc.val) fStoc
  | _ => throw (-1)

/-- Whether a counter-based authenticator carries the MAC expected for its counter. -/
def hlsFrameMatches (frameLen : ℕ) (mac : UInt32 → Option (List UInt8)) (frame : List UInt8) : Bool :=
  frameLen ≤ frame.length &&
    match mac (hlsFrameIc frame) with
    | none => false
    | some expected => (frame.drop 5).take expected.length == expected

/-- Whether a received value proves knowledge of the key for pass 4. -/
def hlsPass4Matches (hal : Hal) (ctx : SecContext) (fCtos : List UInt8) : Bool :=
  match ctx.mechanism with
  | .hls => hlsPassHigh ctx ctx.ctos.val == some fCtos
  | .hlsGmac =>
      hlsFrameMatches 17 (fun ic => hlsGmac hal ctx (hlsGmacIvTitle ctx true) ic ctx.ctos.val) fCtos
  | .hlsGostCmac =>
      hlsFrameMatches 21 (fun ic => hlsExpectedCmac ctx fCtos ic ctx.ctos.val ctx.stoc.val) fCtos
  | .hlsEcdsa | .hlsGostSig => hlsPass4SigVerify hal ctx fCtos == 0
  | .hlsSha256 | .hlsGostStreebog =>
      hlsHashWithTitles hal ctx ctx.peerSystemTitle ctx.systemTitle ctx.ctos.val ctx.stoc.val == some fCtos
  | _ => hlsHashLegacy hal ctx ctx.ctos.val == some fCtos

/-- `osp_hls_pass4_verify`; an error is its non-zero return code. -/
def hlsPass4Verify (hal : Hal) (fCtos : List UInt8) : EStateM Int SecContext Unit := do
  failIf (fCtos.length = 0) (-1)
  let ctx ← get
  failIf (ctx.hlsFailures ≥ 5) (-2)
  if hlsPass4Matches hal ctx fCtos then set { ctx with hlsFailures := 0 }
  else hlsRefuse (-1)

end OpenSpodes
