import OpenSpodes.Model.Hls

/-! # Builders and verifiers of the handshake compute the same values

Each mechanism has its own builder and verifier code. For two contexts that share keys and
challenges and name each other, the value the verifier expects is the value the builder computes;
the lemmas below say so mechanism by mechanism, for either direction of the handshake.
-/

namespace OpenSpodes

open Bytes Kuznyechik HlsHigh Machine.Fallible

/-- Two contexts of one handshake: same suite, mechanism, keys, password and challenges, and the
verifier knows the builder's title and the other way round. -/
structure SharedSecrets (builder verifier : SecContext) : Prop where
  suite : verifier.suite = builder.suite
  mechanism : verifier.mechanism = builder.mechanism
  guek : verifier.guek = builder.guek
  gak : verifier.gak = builder.gak
  kEm : verifier.kEm = builder.kEm
  hlsSecret : verifier.hlsSecret = builder.hlsSecret
  ctos : verifier.ctos = builder.ctos
  stoc : verifier.stoc = builder.stoc
  builderTitle : verifier.peerSystemTitle = builder.systemTitle
  verifierTitle : builder.peerSystemTitle = verifier.systemTitle

variable {builder verifier : SecContext}

theorem SharedSecrets.symm (shared : SharedSecrets builder verifier) :
    SharedSecrets verifier builder where
  suite := shared.suite.symm
  mechanism := shared.mechanism.symm
  guek := shared.guek.symm
  gak := shared.gak.symm
  kEm := shared.kEm.symm
  hlsSecret := shared.hlsSecret.symm
  ctos := shared.ctos.symm
  stoc := shared.stoc.symm
  builderTitle := shared.verifierTitle
  verifierTitle := shared.builderTitle

theorem SharedSecrets.sc (shared : SharedSecrets builder verifier) : hlsSc verifier = hlsSc builder := by
  simp only [hlsSc, shared.suite]

theorem SharedSecrets.gmac (shared : SharedSecrets builder verifier) (hal : Hal)
    (named : titleIsZero builder.systemTitle = false) (ic : UInt32) (data : List UInt8) :
    hlsGmac hal verifier (hlsGmacIvTitle verifier true) ic data = hlsGmac hal builder builder.systemTitle ic data := by
  have title : hlsGmacIvTitle verifier true = builder.systemTitle := by
    simp [hlsGmacIvTitle, shared.builderTitle, named]
  have aad : hlsGmacAad verifier data = hlsGmacAad builder data := by
    simp only [hlsGmacAad, shared.sc, shared.gak]
  unfold hlsGmac hlsGmacTag
  rw [title, aad, shared.guek]

theorem SharedSecrets.cmac (shared : SharedSecrets builder verifier) (frame : List UInt8)
    (control : frame.getD 0 0 = hlsSc builder) (ic : UInt32) (challengeA challengeB : List UInt8) :
    hlsExpectedCmac verifier frame ic challengeA challengeB =
      (hlsGostCmac builder.kEm (buildIv builder.systemTitle ic) (hlsSc builder) challengeA
        challengeB).map (·.toList) := by
  simp only [hlsExpectedCmac, control, shared.kEm, shared.builderTitle]

/-- The value of the mechanisms whose verifier computes it once more. -/
def hlsRecomputed (hal : Hal) (ctx : SecContext) (titleA titleB : SystemTitle) (challengeA challengeB : List UInt8) :
    Option (List UInt8) :=
  match ctx.mechanism with
  | .hls => hlsPassHigh ctx challengeA
  | .hlsMd5 | .hlsSha1 => hlsHashLegacy hal ctx challengeA
  | .hlsSha256 | .hlsGostStreebog => hlsHashWithTitles hal ctx titleA titleB challengeA challengeB
  | _ => none

theorem SharedSecrets.recomputed (shared : SharedSecrets builder verifier) (hal : Hal)
    (challengeA challengeB : List UInt8) :
    hlsRecomputed hal verifier verifier.peerSystemTitle verifier.systemTitle challengeA challengeB =
      hlsRecomputed hal builder builder.systemTitle builder.peerSystemTitle challengeA challengeB := by
  simp only [hlsRecomputed, hlsPassHigh, hlsHashLegacy, hlsHashWithTitles, hlsTitledInput, shared.mechanism, shared.gak,
    shared.hlsSecret, shared.builderTitle, shared.verifierTitle]

theorem SharedSecrets.sigMessage (shared : SharedSecrets builder verifier) (challengeA challengeB : List UInt8) :
    hlsBuildSigMessage verifier.peerSystemTitle verifier.systemTitle challengeA challengeB =
      hlsBuildSigMessage builder.systemTitle builder.peerSystemTitle challengeA challengeB := by
  simp only [shared.builderTitle, shared.verifierTitle]

@[simp] theorem length_hlsStreebog256 (hal : Hal) (input : List UInt8) : (hlsStreebog256 hal input).length = 32 := by
  unfold hlsStreebog256
  cases hal.streebog256 <;> simp

/-! ## Authenticator frames -/

@[simp] theorem hlsFrameIc_hlsFrame (sc : UInt8) (ic : UInt32) (mac : List UInt8) :
    hlsFrameIc (hlsFrame sc ic mac) = ic := by
  have counter : ((hlsFrame sc ic mac).drop 1).take 4 = icBytes ic := by
    simp [hlsFrame]
  rw [hlsFrameIc, counter, icOfBytes_icBytes]

@[simp] theorem drop_hlsFrame (sc : UInt8) (ic : UInt32) (mac : List UInt8) : (hlsFrame sc ic mac).drop 5 = mac := by
  rw [hlsFrame, List.drop_append_of_le_length (by simp)]
  simp

@[simp] theorem hlsFrame_getD_zero (sc : UInt8) (ic : UInt32) (mac : List UInt8) :
    (hlsFrame sc ic mac).getD 0 0 = sc := by
  simp [hlsFrame]

@[simp] theorem length_hlsFrame (sc : UInt8) (ic : UInt32) (mac : List UInt8) :
    (hlsFrame sc ic mac).length = 5 + mac.length := by
  simp only [hlsFrame, List.length_append, List.length_singleton, length_icBytes]

/-- A frame matches when its MAC is the one computed for its counter. -/
theorem hlsFrameMatches_hlsFrame {frameLen : ℕ} {mac : UInt32 → Option (List UInt8)} {sc : UInt8}
    {ic : UInt32} {expected : List UInt8} (computed : mac ic = some expected) (long : frameLen ≤ 5 + expected.length) :
    hlsFrameMatches frameLen mac (hlsFrame sc ic expected) = true := by
  simp only [hlsFrameMatches, hlsFrameIc_hlsFrame, computed, length_hlsFrame, drop_hlsFrame,
    List.take_length, beq_self_eq_true, Bool.and_true, decide_eq_true_eq]
  exact long

end OpenSpodes
