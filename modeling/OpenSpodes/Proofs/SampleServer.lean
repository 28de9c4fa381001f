import OpenSpodes.Model.ServerAccept
import OpenSpodes.Proofs.Unprotect

/-! # Concrete runs

`acceptTimes` repeats `serverAccept`; what it computes is a run. The server it is used on has one
association without a mechanism and one data object with a readable and writable attribute.
-/

namespace OpenSpodes

open Machine

variable {σ : Type}

/-- Repeat `serverAccept`, whatever it returns. -/
def acceptTimes (env : Env σ) : ℕ → Server σ → Option (Server σ)
  | 0, s => some s
  | n + 1, s => (serverAccept env s).bind fun returned => acceptTimes env n returned.2

theorem Runs.of_acceptTimes {env : Env σ} {n : ℕ} {origin t : Server σ}
    (reached : acceptTimes env n origin = some t) : Runs env.hal env.behaviour origin t := by
  have extended {s : Server σ} (before : Runs env.hal env.behaviour origin s)
      (rest : acceptTimes env n s = some t) : Runs env.hal env.behaviour origin t := by
    clear reached
    induction n generalizing s with
    | zero =>
      cases rest
      exact before
    | succ n ih =>
      obtain ⟨returned, accepted, rest⟩ := Option.bind_eq_some_iff.mp rest
      exact ih (before.call (.accept accepted)) rest
  exact extended .start reached

/-! ## A server -/

def sampleAttr : Descriptor := ⟨1, #v[1, 0, 0, 0, 0, 255], 2⟩

/-- An association without a mechanism, for client SAP 1; its secret is not asked for. -/
def sampleAssociation : Association where
  objectList := [⟨1, #v[1, 0, 0, 0, 0, 255], [(2, .readWrite)], []⟩]
  clientSap := 1
  secret := ⟨[1, 2, 3, 4, 5, 6, 7, 8], by decide⟩

/-- The association, under its own name, and the data object. -/
def sampleObjects : Objects Unit where
  entries := [{ classId := 15, inst := 0 }, { classId := 1, inst := 1 }]
  instances inst :=
    if inst = 0 then ⟨#v[0, 0, 40, 0, 1, 255], sampleAssociation⟩ else ⟨#v[1, 0, 0, 0, 0, 255], {}⟩
  pool := Pool.empty
  hidden := ()

/-- Every attribute reads 42, every write and every method succeeds. -/
def sampleBehaviour : Behaviour Unit where
  get _ _ _ objects := ((.ok, .scalar .unsigned 42), objects)
  set _ _ _ objects := (.ok, objects)
  invoke _ _ _ _ objects := ((.ok, .null, none), objects)
  select _ _ value objects := (value, objects)

def sampleStack : Stack where
  getRequest := ⟨.normal, 0, .zero, ⟨.none, 0, 0⟩, 0, []⟩
  setRequest := ⟨.normal, 0, .zero, .null, .zero, []⟩
  actionRequest := ⟨.normal, 0, .zero, .null, .zero, 0, []⟩
  value := .null
  block := []

def sampleEnv : Env Unit := ⟨sampleHal, sampleBehaviour, sampleStack⟩

/-- A server at its initialisation, to which a client will send the given data. -/
def sampleServer (framing : Framing) (data : List (List UInt8)) : Server Unit :=
  serverInit framing 1 16 { rx := data.map RxEvent.bytes } sampleObjects

def sampleContext (title : SystemTitle) (policy : Policy) (counter : UInt32) : SecContext :=
  { secContextInit .suite0 .lowest title with policy := policy, invocationCounter := counter }

def serverTitle : SystemTitle := Vector.replicate 8 7

/-- The same over a transport without framing, set up for encrypted and authenticated messages. -/
def secureServer (data : List (List UInt8)) : Server Unit :=
  let s := sampleServer .none data
  { s with aa.security := sampleContext serverTitle .encrAuth 0 }

theorem sampleServer_fresh (framing : Framing) (data : List (List UInt8)) :
    (sampleServer framing data).Fresh := ⟨rfl, rfl, rfl⟩

theorem secureServer_fresh (data : List (List UInt8)) : (secureServer data).Fresh := ⟨rfl, rfl, rfl⟩

/-! ## A client -/

def snrmFrame : List UInt8 := [0x7E, 0xA0, 0x07, 0x03, 0x03, 0x93, 0x8C, 0x11, 0x7E]

/-- An information frame, with LLC header, of a client that numbers requests and responses alike. -/
def infoFrame (seq : UInt8) (apdu : List UInt8) : List UInt8 :=
  match hdlcFrame
      { destination := hdlcAddressInit 1
        source := hdlcAddressInit 1
        control := { type := .i, sendSeq := seq, recvSeq := seq }
        info := [0xE6, 0xE6, 0x00] ++ apdu } sessionBufSize with
  | .ok frame => frame
  | .error _ => []

/-- An association request for the application context without ciphering and no mechanism. -/
def plainAarq : List UInt8 :=
  [0x60, 0x0B, 0xA1, 0x09, 0x06, 0x07, 0x60, 0x85, 0x74, 0x05, 0x08, 0x01, 0x01]

def plainRequest : Aarq where
  applicationContext := 1

/-- A response that accepts, by application context and last byte of the conformance it grants. -/
def acceptingAare (context conformance : UInt8) : List UInt8 :=
  [0x61, 0x2D, 0x80, 0x02, 0x02, 0x84, 0xA1, 0x09, 0x06, 0x07, 0x60, 0x85, 0x74, 0x05, 0x08, 0x01, context, 0xA2,
    0x03, 0x02, 0x01, 0x00, 0xA3, 0x05, 0xA1, 0x03, 0x02, 0x01, 0x00, 0xBE, 0x10, 0x04, 0x0E, 0x08, 0x00, 0x06,
    0x5F, 0x1F, 0x04, 0x00, 0x00, 0x10, conformance, 0x08, 0x00, 0x00, 0x07]

/-- An association request with the low-level mechanism and the secret. -/
def lowLevelAarq : List UInt8 :=
  [0x60, 0x24, 0xA1, 0x09, 0x06, 0x07, 0x60, 0x85, 0x74, 0x05, 0x08, 0x01, 0x01, 0x8A, 0x02, 0x07, 0x80, 0x8B,
    0x07, 0x60, 0x85, 0x74, 0x05, 0x08, 0x02, 0x01, 0xAC, 0x0A, 0x80, 0x08, 1, 2, 3, 4, 5, 6, 7, 8]

def lowLevelRequest : Aarq where
  applicationContext := 1
  mechanism := 1
  senderAcseRequirement := some 0x80
  hasMechanism := true
  hasCallingAuth := true
  callingAuthValue := ⟨[1, 2, 3, 4, 5, 6, 7, 8], by decide⟩

def plainGet : List UInt8 :=
  [0xC0, 0x01, 0xC1, 0x00, 0x01, 0x01, 0x00, 0x00, 0x00, 0x00, 0xFF, 0x02, 0x00]

def plainResponse : List UInt8 := [0xC4, 0x01, 0xC1, 0x00, 0x11, 0x2A]

def plainRlrq : List UInt8 := [0x62, 0x03, 0x80, 0x01, 0x00]

/-! ## A client that ciphers -/

def clientTitle : SystemTitle := Vector.replicate 8 9

/-- An association request for the application context with ciphering and no mechanism. -/
def cipheringAarq : List UInt8 :=
  [0x60, 0x17, 0xA1, 0x09, 0x06, 0x07, 0x60, 0x85, 0x74, 0x05, 0x08, 0x01, 0x03, 0xA6, 0x0A, 0x04, 0x08] ++
    clientTitle.toList

def cipheringRequest : Aarq where
  applicationContext := 3
  callingApTitle := clientTitle
  callingApTitleLen := 8

/-- A GET of the attribute under the given protection and counter. -/
def cipheredGet (policy : Policy) (counter : UInt32) : List UInt8 :=
  (gloProtect sampleHal (sampleContext clientTitle policy counter) 0xC8 plainGet).getD []

def openedLog : List Event :=
  [.aarq cipheringRequest (some 0) (some sampleAssociation) true,
    .emitted (acceptingAare 3 0x10) (acceptingAare 3 0x10)]

/-- Its record of a GET that was deciphered, by the counter of the answer. -/
def answeredLog (policy : Policy) (counter : UInt32) : List Event :=
  let ctx := sampleContext serverTitle policy counter
  [.dispatched .get sampleAttr (some 0), .sealed (gloNonce ctx),
    .emitted plainResponse ((gloProtect sampleHal ctx 0xCC plainResponse).getD [])]

/-- Its record of one ciphered GET, by the counters of request and answer. -/
def readLog (policy : Policy) (request response : UInt32) : List Event :=
  .deciphered true (cipheredGet policy request) clientTitle :: answeredLog policy response

def releasedLog : List Event := [.released, .emitted [0x63, 0x01, 0x00] [0x63, 0x01, 0x00]]

/-- A client that repeats its ciphered GET in a second association. -/
def replayingClient : List (List UInt8) :=
  [cipheringAarq, cipheredGet .encrAuth 1, plainRlrq, cipheringAarq, cipheredGet .encrAuth 1]

theorem replayingClient_log : (acceptTimes sampleEnv 5 (secureServer replayingClient)).map Server.log =
      some (openedLog ++ readLog .encrAuth 1 2 ++ releasedLog ++ openedLog ++ readLog .encrAuth 1 2) := by
  decide +kernel

end OpenSpodes
