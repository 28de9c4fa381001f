import OpenSpodes.Model.Acse
import OpenSpodes.Model.Hls

/-! # What connecting does to the client's security context

`osp_client_connect` draws the challenge CtoS, takes StoC and the responding title from the AARE,
and then builds pass 3 and verifies pass 4 on one and the same context: sending the ACTION and
receiving its response touch only the separate ciphering contexts.
-/

namespace OpenSpodes

open Bytes Machine.Fallible

/-- The number of random bytes in CtoS. -/
def clientChallengeLen (mechanism : Mechanism) : ℕ := if mechanism = .hls then 16 else 8

/-- Draw CtoS for a mechanism with a handshake. -/
def clientDrawChallenge (ctx : SecContext) (random : List UInt8) : SecContext :=
  { ctx with ctos := BytesUpTo.ofList 64 (padTo (clientChallengeLen ctx.mechanism) random) }

/-- Store StoC and the peer's title; an absent or short field leaves the earlier value. -/
def clientStoreAare (ctx : SecContext) (aare : Aare) : SecContext :=
  { ctx with
    stoc := if aare.respondingAuthValue.val.length > 0 then aare.respondingAuthValue else ctx.stoc
    peerSystemTitle :=
      if aare.respondingApTitle.val.length ≥ 8 then
        Vector.ofFn fun i => aare.respondingApTitle.val.getD i 0
      else ctx.peerSystemTitle }

/-- The context on which `osp_client_connect` runs passes 3 and 4. -/
def clientHandshakeContext (ctx : SecContext) (random : List UInt8) (aare : Aare) : SecContext :=
  clientStoreAare (clientDrawChallenge ctx random) aare

/-- `OSP_SEC_HLS_AUTH_MAX`, the room for the client's pass-3 value. -/
def hlsAuthMax : ℕ := 96

/-- The pass-3 value that `osp_client_connect` sends. -/
def clientPass3 (hal : Hal) (ctx : SecContext) : Except Int (List UInt8) :=
  hlsPass3Build hal ctx hlsAuthMax

end OpenSpodes
