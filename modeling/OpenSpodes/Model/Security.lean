import OpenSpodes.Model.Codec

/-! # Security contexts and the crypto HAL

A security context holds the suite, the protection policy, both system titles, the two invocation
counters and all key material of one association. Arrays of a fixed size are vectors; an array with
a length field is a byte string that never exceeds the array.

The application installs the cryptographic primitives as global function pointers. `Hal` is that
table: an absent pointer is `none`, outputs have the length the caller's buffer gives them, and the
digest and signature code that the library vendors is a field like the others.
-/

namespace OpenSpodes

open Bytes

/-- `osp_sec_suite_t`. -/
inductive Suite
  | suite0 | suite1 | suite2 | suite8 | suite9
  deriving DecidableEq, Repr

/-- `osp_sec_policy_t`. -/
inductive Policy
  | none | authOnly | encrOnly | encrAuth
  deriving DecidableEq, Repr

/-- `osp_auth_mechanism_t`; an identifier outside the enumeration is kept as it is. -/
inductive Mechanism
  | lowest | lls | hls | hlsMd5 | hlsSha1 | hlsGmac | hlsSha256 | hlsEcdsa
  | hlsGostCmac | hlsGostStreebog | hlsGostSig
  | other (id : UInt8)
  deriving DecidableEq, Repr

/-- `osp_sec_suite_id`. -/
def Suite.id : Suite → UInt8
  | suite0 => 0 | suite1 => 1 | suite2 => 2 | suite8 => 8 | suite9 => 9

/-- `osp_sec_suite_aes_key_len`. -/
def Suite.aesKeyLen : Suite → ℕ
  | suite2 => 32
  | _ => 16

/-- `osp_sec_uses_gost_kem`. -/
def Suite.usesGostKem : Suite → Bool
  | suite8 | suite9 => true
  | _ => false

/-- `osp_sec_control_byte`: suite in the low bits, authentication bit 4, encryption bit 5. -/
def secControlByte (policy : Policy) (suite : Suite) : UInt8 :=
  match policy with
  | .authOnly => suite.id ||| 0x10
  | .encrOnly => suite.id ||| 0x20
  | .encrAuth => suite.id ||| 0x30
  | .none => suite.id

/-- The authentication bit of a security control byte. -/
def scAuth (sc : UInt8) : Bool := sc &&& 0x10 != 0

/-- The encryption bit of a security control byte. -/
def scEncr (sc : UInt8) : Bool := sc &&& 0x20 != 0

/-- `osp_sec_control_to_policy`. -/
def secControlToPolicy (sc : UInt8) : Policy :=
  if scAuth sc then (if scEncr sc then .encrAuth else .authOnly)
  else (if scEncr sc then .encrOnly else .none)

def Policy.auth : Policy → Bool
  | authOnly | encrAuth => true
  | _ => false

def Policy.encr : Policy → Bool
  | encrOnly | encrAuth => true
  | _ => false

def Mechanism.ofId (id : UInt8) : Mechanism :=
  if id = 0 then .lowest else if id = 1 then .lls else if id = 2 then .hls
  else if id = 3 then .hlsMd5 else if id = 4 then .hlsSha1 else if id = 5 then .hlsGmac
  else if id = 6 then .hlsSha256 else if id = 7 then .hlsEcdsa else if id = 8 then .hlsGostCmac
  else if id = 9 then .hlsGostStreebog else if id = 10 then .hlsGostSig else .other id

def Mechanism.id : Mechanism → UInt8
  | lowest => 0 | lls => 1 | hls => 2 | hlsMd5 => 3 | hlsSha1 => 4 | hlsGmac => 5
  | hlsSha256 => 6 | hlsEcdsa => 7 | hlsGostCmac => 8 | hlsGostStreebog => 9 | hlsGostSig => 10
  | other id => id

/-- `osp_hls_requires_handshake`. -/
def Mechanism.requiresHandshake : Mechanism → Bool
  | lowest | lls | other _ => false
  | _ => true

/-- `osp_hls_uses_signature`. -/
def Mechanism.usesSignature : Mechanism → Bool
  | hlsEcdsa | hlsGostSig => true
  | _ => false

/-- A C array of `n` bytes with a length field. -/
abbrev BytesUpTo (n : ℕ) := { bytes : List UInt8 // bytes.length ≤ n }

/-- The first `n` bytes of a string. -/
def BytesUpTo.ofList (n : ℕ) (bytes : List UInt8) : BytesUpTo n :=
  ⟨bytes.take n, by simp⟩

theorem BytesUpTo.ofList_val {n : ℕ} (bytes : BytesUpTo n) : ofList n bytes.val = bytes :=
  Subtype.ext (List.take_of_length_le bytes.property)

def BytesUpTo.empty (n : ℕ) : BytesUpTo n := ⟨[], Nat.zero_le n⟩

abbrev SystemTitle := Vector UInt8 8

/-- `osp_sec_context_t`. -/
structure SecContext where
  suite : Suite
  policy : Policy
  mechanism : Mechanism
  systemTitle : SystemTitle
  peerSystemTitle : SystemTitle
  invocationCounter : UInt32
  lastPeerIc : UInt32
  icValid : Bool
  guek : Vector UInt8 32
  gak : Vector UInt8 32
  kEm : Vector UInt8 64
  useDedicatedKey : Bool
  dedicatedKey : BytesUpTo 32
  signingKey : BytesUpTo 48
  peerPublicKey : BytesUpTo 96
  hlsSecret : BytesUpTo 64
  ctos : BytesUpTo 64
  stoc : BytesUpTo 64
  hlsFailures : UInt8
  deriving DecidableEq

/-- `osp_sec_context_init`: everything zero except suite, mechanism and title. -/
def secContextInit (suite : Suite) (mech : Mechanism) (title : SystemTitle) : SecContext where
  suite := suite
  policy := .none
  mechanism := mech
  systemTitle := title
  peerSystemTitle := Vector.replicate 8 0
  invocationCounter := 0
  lastPeerIc := 0
  icValid := false
  guek := Vector.replicate 32 0
  gak := Vector.replicate 32 0
  kEm := Vector.replicate 64 0
  useDedicatedKey := false
  dedicatedKey := .empty 32
  signingKey := .empty 48
  peerPublicKey := .empty 96
  hlsSecret := .empty 64
  ctos := .empty 64
  stoc := .empty 64
  hlsFailures := 0

/-- `osp_gcm_dir_t`. -/
inductive GcmDir
  | encrypt | decrypt
  deriving DecidableEq, Repr

/-- The arguments of one `osp_hal_gcm_crypt` call. -/
structure GcmCall where
  dir : GcmDir
  key : List UInt8
  iv : Vector UInt8 12
  aad : List UInt8
  input : List UInt8
  /-- The tag to verify; absent when the caller passes no tag. -/
  tagIn : Option (List UInt8)
  /-- Whether the caller asks for a tag. -/
  wantTag : Bool
  deriving DecidableEq

/-- What one `osp_hal_gcm_crypt` call returns and leaves in its output buffers. -/
structure GcmResult (call : GcmCall) where
  rc : Int
  out : Vector UInt8 call.input.length
  tagOut : Vector UInt8 12

/-- The installed cryptographic functions. -/
structure Hal where
  gcmCrypt : Option ((call : GcmCall) → GcmResult call)
  /-- The streaming interface: tag of an empty plaintext under the unicast key slot. -/
  gcmStream : Option (Vector UInt8 12 → List UInt8 → Vector UInt8 12)
  md5 : Option (List UInt8 → Vector UInt8 16)
  sha1 : Option (List UInt8 → Vector UInt8 20)
  sha256 : Option (List UInt8 → Vector UInt8 32)
  streebog256 : Option (List UInt8 → Vector UInt8 32)
  gostStreebog256 : List UInt8 → Vector UInt8 32
  /-- Return code and signature bytes for suite, private key and message. -/
  ecdsaSign : Option (Suite → List UInt8 → List UInt8 → Int × List UInt8)
  ecdsaVerify : Option (Suite → List UInt8 → List UInt8 → List UInt8 → Int)
  gost3410Sign : List UInt8 → List UInt8 → Option (Vector UInt8 64)
  gost3410Verify : List UInt8 → List UInt8 → List UInt8 → Int

/-- The big-endian bytes of an invocation counter. -/
def icBytes (ic : UInt32) : List UInt8 := beBytes 4 ic.toNat

/-- The counter that four big-endian bytes denote. -/
def icOfBytes (bytes : List UInt8) : UInt32 := UInt32.ofNat (beNat bytes)

@[simp] theorem length_icBytes (ic : UInt32) : (icBytes ic).length = 4 := length_beBytes 4 _

/-- A transmitted counter is read back exactly. -/
@[simp] theorem icOfBytes_icBytes (ic : UInt32) : icOfBytes (icBytes ic) = ic := by
  have bound : ic.toNat < 256 ^ 4 := ic.toNat_lt
  simp only [icOfBytes, icBytes, beNat_beBytes bound, UInt32.ofNat_toNat]

theorem icBytes_injective : Function.Injective icBytes := by
  intro left right same
  rw [← icOfBytes_icBytes left, same, icOfBytes_icBytes]

/-- An initialisation vector: originator title followed by the counter. -/
def buildIv (title : SystemTitle) (ic : UInt32) : Vector UInt8 12 :=
  ⟨(title.toList ++ icBytes ic).toArray, by simp⟩

theorem buildIv_injective {title title' : SystemTitle} {ic ic' : UInt32}
    (same : buildIv title ic = buildIv title' ic') : title = title' ∧ ic = ic' := by
  have lists : title.toList ++ icBytes ic = title'.toList ++ icBytes ic' := by
    have arrays := congrArg Vector.toList same
    simpa [buildIv] using arrays
  obtain ⟨titles, counters⟩ := List.append_inj lists (by simp)
  exact ⟨Vector.toList_inj.mp titles, icBytes_injective counters⟩

/-- `sec_system_title_is_zero`. -/
def titleIsZero (title : SystemTitle) : Bool := title.toList.all (· == 0)

end OpenSpodes
