import OpenSpodes.Model.Gost3410

/-! # The secret of a signature

Each signature uses a secret of its own, which has to depend on the key. It does as long as the message fits behind the
key into the scratch buffer; the secret of a longer message is its hash, which everyone can compute.
-/

namespace OpenSpodes

variable {Digest : Type}

/-- The secret that signing hands on. -/
def gost3410Nonce (streebog256 : List UInt8 → Digest) (d : Vector UInt8 32) (msg : List UInt8) : Digest :=
  gost3410Sign streebog256 (fun _ _ k => k) d msg

theorem gost3410Nonce_short (streebog256 : List UInt8 → Digest) {msg : List UInt8} (short : msg.length ≤ 32)
    (d : Vector UInt8 32) : gost3410Nonce streebog256 d msg = streebog256 (d.toList ++ msg) :=
  if_neg (Nat.not_lt.mpr short)

/-- Under an injective hash, different keys have different secrets for a message exactly if it has at most 32 bytes. -/
theorem nonce_depends_on_key_iff {streebog256 : List UInt8 → Digest} (injective : Function.Injective streebog256)
    (msg : List UInt8) :
    (∀ d₁ d₂, d₁ ≠ d₂ → gost3410Nonce streebog256 d₁ msg ≠ gost3410Nonce streebog256 d₂ msg) ↔ msg.length ≤ 32 := by
  constructor
  · intro differ
    by_contra long
    have one (d : Vector UInt8 32) : gost3410Nonce streebog256 d msg = streebog256 msg := if_pos (Nat.lt_of_not_le long)
    apply differ (Vector.replicate 32 1) (Vector.replicate 32 2) (by decide)
    rw [one, one]
  · intro short d₁ d₂ different same
    rw [gost3410Nonce_short _ short, gost3410Nonce_short _ short] at same
    have keys : d₁.toList = d₂.toList := List.append_cancel_right (injective same)
    exact different (Vector.toList_inj.mp keys)

theorem nonce_depends_on_key_empty :
    ([] : List UInt8).length ≤ 32 ∧ ∀ d₁ d₂, d₁ ≠ d₂ → gost3410Nonce id d₁ [] ≠ gost3410Nonce id d₂ [] :=
  ⟨by decide, (nonce_depends_on_key_iff Function.injective_id []).mpr (by decide)⟩

/-- The hash of 33 zeros is the secret of both keys. -/
theorem nonce_shared_by_keys :
    Vector.replicate 32 (1 : UInt8) ≠ Vector.replicate 32 2 ∧
      gost3410Nonce id (Vector.replicate 32 1) (List.replicate 33 0) =
        gost3410Nonce id (Vector.replicate 32 2) (List.replicate 33 0) := by
  decide

end OpenSpodes
