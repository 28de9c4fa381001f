import OpenSpodes.Model.ServerAccept

/-! # The life of an association

What a server's record can look like, without links, buffers, objects and encodings: a transition
system over `AssocState` whose labels are the recorded events. Each transition says under which
condition the server takes it and what it leaves; the code's model refines it, call by call.
-/

namespace OpenSpodes

open Machine

/-- A request meets what its association asks of a client: a mechanism that the association allows,
unless it has none, and its secret where the mechanism is the low-level one. -/
structure Authenticates (aarq : Aarq) (assoc : Option Association) : Prop where
  mechanism : ∀ r, assoc = some r → r.authenticationMechanism = 0 ∨
    aarqMechanismMatchesAssoc aarq.mechanism r.authenticationMechanism = true
  secret : aarq.mechanism = 1 →
    ∃ r, assoc = some r ∧ r.secret.val ≠ [] ∧ aarq.callingAuthValue.val = r.secret.val

/-- The request's mechanism authenticates with a handshake. -/
def Aarq.needsHandshake (aarq : Aarq) : Bool := (Mechanism.ofId aarq.mechanism).requiresHandshake

/-- What holds of every decision on an association request. -/
structure Decided (security : SecContext) (aarq : Aarq) (assoc : Option Association)
    (result : AarqResult) : Prop where
  associated : result.associated = true →
    result.accepted = true ∧ Authenticates aarq assoc ∧ aarq.needsHandshake = false
  pending : result.hlsPending = true →
    result.accepted = true ∧ Authenticates aarq assoc ∧ result.associated = false
  counter : result.security.invocationCounter = security.invocationCounter
  policy : result.security.policy = security.policy

/-- A request that was accepted for an application context with ciphering. -/
def Event.negotiatesCiphering : Event → Bool
  | .aarq request _ _ accepted => accepted && appContextRequiresCiphering request.applicationContext
  | _ => false

/-- The APDU that leaves for a plaintext is protected by the outgoing context, where it has to be. -/
def Protects (hal : Hal) (a : AssocState) (plain sent : List UInt8) : Prop :=
  a.cipheringEnabled = true → gbtAppliesToApdu plain = true →
    ∃ ctx : SecContext, ctx.policy = a.cipherTx.policy ∧ ctx.suite = a.cipherTx.suite ∧
      gloProtect hal ctx (svcCipherTagForPlain ctx (plain.getD 0 0)) plain = some sent

/-- The transitions of a server's associations. -/
inductive AssocStep (hal : Hal) : AssocState → Event → AssocState → Prop
  | setUp {a : AssocState} :
      a.associated = false → a.hlsPending = false → AssocStep hal a (.link .setUp) a
  | restart {a : AssocState} : AssocStep hal a (.link .restart) a
  | disc {a : AssocState} : AssocStep hal a (.link .disc) a.clear
  | cleared {a : AssocState} : AssocStep hal a .cleared a.clear
  | released {a : AssocState} : AssocStep hal a .released a.clear
  | aarq {a : AssocState} {aarq : Aarq} {inst : Option ℕ} {assoc : Option Association}
      {ireq : Option InitiateRequest} {result : AarqResult} :
      (inst = none → a.association = none) → Decided a.security aarq assoc result →
      AssocStep hal a (.aarq aarq inst assoc result.accepted) (a.afterAarq aarq inst ireq result)
  | verified {a : AssocState} {fStoc : List UInt8} {ctx : SecContext} :
      a.associated = true ∨ a.hlsPending = true → hlsPass3Verify hal fStoc a.security = .ok () ctx →
      AssocStep hal a (.pass3 true) { a with security := ctx, associated := true, hlsPending := false }
  | refused {a : AssocState} {fStoc : List UInt8} {rc : Int} {ctx : SecContext} :
      hlsPass3Verify hal fStoc a.security = .error rc ctx →
      AssocStep hal a (.pass3 false) { a with security := ctx }
  | pass4 {a : AssocState} {value : List UInt8} {ctx : SecContext} :
      hlsPass4Build hal 96 a.security = .ok value ctx →
      AssocStep hal a (.pass4 (pass4Nonce a.security)) { a with security := ctx }
  | pass4Failed {a : AssocState} {rc : Int} {ctx : SecContext} :
      hlsPass4Build hal 96 a.security = .error rc ctx →
      AssocStep hal a (.pass4 none) { a with security := ctx }
  | deciphered {a : AssocState} {aligned : Bool} {ciphered plain : List UInt8} {rx : SecContext} :
      a.cipheringEnabled = true → gloUnprotect hal ciphered a.cipherRx = .ok plain rx →
      AssocStep hal a (.deciphered aligned ciphered a.cipherRx.peerSystemTitle)
        { a with cipherRx := rx, cipherTx := if aligned then a.cipherTx.align rx else a.cipherTx }
  | sealed {a : AssocState} :
      a.cipheringEnabled = true →
      AssocStep hal a (.sealed (gloNonce a.cipherTx)) { a with cipherTx := a.cipherTx.advance }
  | emitted {a : AssocState} {plain sent : List UInt8} :
      Protects hal a plain sent → AssocStep hal a (.emitted plain sent) a
  | dispatched {a : AssocState} {service : Service} {target : Descriptor} :
      a.associated = true → AssocStep hal a (.dispatched service target a.association) a

end OpenSpodes
