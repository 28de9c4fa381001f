import OpenSpodes.Model.ServerAccept

/-! # Accepting an APDU up to the request switch

`acceptApdu` ends, for every APDU that is not answered on the way, in the switch over the request
tags. `acceptFront` is everything before that switch: association control, the association gate, both
decipherings, block reassembly and the refusal of plaintext. The two are connected by `acceptApdu_eq`,
so what holds of the bytes that the front part leaves in the receive buffer holds of every request
that is decoded.
-/

namespace OpenSpodes

open Machine

variable {σ : Type} (env : Env σ) {apdu : List UInt8} {len : ℕ}

/-- The second deciphering and the refusal of plaintext. -/
def frontReassembled (arrived : Bool) (len : ℕ) : Program (Server σ) Stage := do
  let s ← get
  if s.aa.cipheringEnabled ∧ svcIsCipheredTag s.rxTag then serverDecipher env false len
  else if s.aa.cipheringEnabled ∧ !arrived ∧ gbtAppliesToApdu (s.wire.rxBuf.take len) then
    return .done (← serverSendException env 1 5)
  else return .next len

def frontPlain (arrived : Bool) (len : ℕ) : Program (Server σ) Stage := do
  let s ← get
  if !s.aa.associated then return .done (← acceptUnassociated env len)
  else if s.rxTag = 0xE0 then
    match ← acceptGbt env len with
    | .done result => return .done result
    | .next len => frontReassembled env arrived len
  else frontReassembled env arrived len

/-- `osp_server_accept` from the received APDU up to its request switch. -/
def acceptFront (apdu : List UInt8) : Program (Server σ) Stage := do
  if apdu.length = 0 then return .done .invalid
  else
    onWire (modify (·.fillRx apdu))
    let s ← get
    if s.rxTag = 0x60 ∨ s.rxTag = 0x61 then return .done (← acceptAarq env apdu.length)
    else if s.rxTag = 0x62 then return .done (← acceptRlrq env apdu.length)
    else if s.aa.cipheringEnabled ∧ svcIsCipheredTag s.rxTag then
      match ← serverDecipher env true apdu.length with
      | .done result => return .done result
      | .next len => frontPlain env true len
    else frontPlain env false apdu.length

/-- What follows the front part: nothing, or the switch. -/
def Stage.finish : Stage → Program (Server σ) Err
  | .done result => return result
  | .next len => acceptService env len

private theorem acceptReassembled_eq (arrived : Bool) (len : ℕ) :
    acceptReassembled env arrived len = frontReassembled env arrived len >>= Stage.finish env := by
  simp only [acceptReassembled, frontReassembled, bind_assoc]
  refine bind_congr fun s => ?_
  split_ifs
  · refine bind_congr fun stage => ?_
    cases stage <;> rfl
  · simp [Stage.finish]
  · simp [Stage.finish]

private theorem acceptPlain_eq (arrived : Bool) (len : ℕ) :
    acceptPlain env arrived len = frontPlain env arrived len >>= Stage.finish env := by
  simp only [acceptPlain, frontPlain, bind_assoc]
  refine bind_congr fun s => ?_
  split_ifs
  · simp [Stage.finish]
  · simp only [bind_assoc]
    refine bind_congr fun stage => ?_
    cases stage with
    | done result => simp [Stage.finish]
    | next len => exact acceptReassembled_eq env arrived len
  · exact acceptReassembled_eq env arrived len

/-- Every APDU goes through the front part and, unless it was answered there, to the switch. -/
theorem acceptApdu_eq (apdu : List UInt8) : acceptApdu env apdu = acceptFront env apdu >>= Stage.finish env := by
  unfold acceptApdu acceptFront
  split_ifs
  · simp [Stage.finish]
  · simp only [bind_assoc]
    refine bind_congr fun _ => bind_congr fun s => ?_
    split_ifs
    · simp [Stage.finish]
    · simp [Stage.finish]
    · simp only [bind_assoc]
      refine bind_congr fun stage => ?_
      cases stage with
      | done result => simp [Stage.finish]
      | next len => exact acceptPlain_eq env true len
    · exact acceptPlain_eq env false apdu.length

/-! ## The receive buffer -/

/-- The server with an APDU copied into its receive buffer. -/
def Server.received (s : Server σ) (apdu : List UInt8) : Server σ :=
  { s with wire := { s.wire.fillRx apdu with links := [] } }

@[simp] theorem Server.received_aa (s : Server σ) (apdu : List UInt8) : (s.received apdu).aa = s.aa := rfl

@[simp] theorem Server.received_take (s : Server σ) (apdu : List UInt8) :
    (s.received apdu).wire.rxBuf.take apdu.length = apdu := by
  simp [received, Wire.fillRx, overwrite]

theorem Server.received_rxTag (s : Server σ) (present : 0 < apdu.length) : (s.received apdu).rxTag = apdu.getD 0 0 := by
  cases apdu with
  | nil => simp at present
  | cons tag rest => rfl

theorem Server.received_room (s : Server σ) (apdu : List UInt8) :
    apdu.length ≤ (s.received apdu).wire.rxBuf.length := by
  simp [received, Wire.fillRx, overwrite]

theorem onWire_fillRx (s : Server σ) (apdu : List UInt8) :
    onWire (modify (·.fillRx apdu)) s = some (⟨⟩, s.received apdu) := by
  simp [onWire, zoom, Server.received, Wire.fillRx, modify, modifyGet, MonadStateOf.modifyGet, StateT.modifyGet]

variable {s : Server σ}

/-- An APDU that is not association control is deciphered, if it is ciphered, and goes on. -/
theorem acceptFront_service (present : 0 < apdu.length) (service : apdu.getD 0 0 ∉ ([0x60, 0x61, 0x62] : List UInt8)) :
    acceptFront env apdu s =
      (if s.aa.cipheringEnabled = true ∧ svcIsCipheredTag (apdu.getD 0 0) = true then do
        match ← serverDecipher env true apdu.length with
        | .done result => return .done result
        | .next len => frontPlain env true len
      else frontPlain env false apdu.length) (s.received apdu) := by
  have tag := s.received_rxTag present
  simp only [List.mem_cons, List.not_mem_nil, or_false, not_or] at service
  rw [acceptFront, if_neg (by omega), bind_of_some (onWire_fillRx s apdu)]
  simp only [get_bind_apply, tag, service, or_self, if_false, Server.received_aa]

variable {t : Server σ}

/-- In an association, what is not a general block is not reassembled. -/
theorem frontPlain_direct (arrived : Bool) (len : ℕ) (associated : s.aa.associated = true)
    (notBlock : s.rxTag ≠ 0xE0) : frontPlain env arrived len s = frontReassembled env arrived len s := by
  simp only [frontPlain, get_bind_apply, associated, Bool.not_true, Bool.false_eq_true, if_false, if_neg notBlock]

def Server.deciphered (s : Server σ) (align : Bool) (ciphered plain : List UInt8) (rx : SecContext) :
    Server σ :=
  Server.received { s with
    aa := { s.aa with cipherRx := rx, cipherTx := if align then s.aa.cipherTx.align rx else s.aa.cipherTx }
    log := s.log ++ [.deciphered align ciphered s.aa.cipherRx.peerSystemTitle] } plain

/-- A message that is accepted and fits replaces its ciphertext in the receive buffer. -/
theorem serverDecipher_ok (align : Bool) {plain : List UInt8} {rx : SecContext}
    (opened : gloUnprotect env.hal (s.wire.rxBuf.take len) s.aa.cipherRx = .ok plain rx)
    (fits : plain.length ≤ s.wire.rxBuf.length) : serverDecipher env align len s =
      some (.next plain.length, s.deciphered align (s.wire.rxBuf.take len) plain rx) := by
  simp only [serverDecipher, get_bind_apply, opened, transition, modify_bind_apply, if_pos fits, decide_eq_true fits,
    Bool.and_true]
  rw [bind_of_some (onWire_fillRx _ _)]
  rfl

end OpenSpodes
