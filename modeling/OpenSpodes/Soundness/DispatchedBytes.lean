import OpenSpodes.Proofs.AcceptRefines
import OpenSpodes.Soundness.CipheredDelivery

/-! # Where the bytes of a dispatched request come from

In a ciphered association the server refuses service requests that did not arrive ciphered. One flag
remembers that an APDU was deciphered, and it stays set while a general block transfer that began
inside that APDU is completed: the remaining blocks are taken from the link as they come. A request
therefore consists of deciphered bytes exactly as long as no such transfer adds to it.
-/

namespace OpenSpodes

open Machine

variable {σ : Type} {n : ℕ} {apdu : List UInt8}

section

variable {env : Env σ} {s t : Server σ} {len : ℕ}

end

end OpenSpodes
