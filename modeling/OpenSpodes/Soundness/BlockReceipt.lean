import OpenSpodes.Soundness.BlockTransfer

/-! # What a receiver of blocks assembles

Whatever blocks arrive, in whatever order and however often, the receiver takes a block when its number is the next
one and passes over the others, acknowledging some of them. A reception that succeeds has therefore taken the blocks
`1, …, k`, of which only the last one carries the flag, and returns their data.
-/

namespace OpenSpodes

open Machine

variable {outcome : Except Err (List UInt8) ⊕ GbtRecv}

/-- The blocks that are taken: each one when its number is the next. -/
def takenFrom : ℕ → List GeneralBlock → List GeneralBlock
  | _, [] => []
  | next, gbt :: rest =>
      if gbt.blockNumber = next then gbt :: takenFrom ((next + 1) % 2 ^ 16) rest else takenFrom next rest

theorem takenFrom_numbers {next : ℕ} (small : next < 2 ^ 16) (blocks : List GeneralBlock) :
    (takenFrom next blocks).map (·.blockNumber) =
      (List.range (takenFrom next blocks).length).map fun i => (next + i) % 2 ^ 16 := by
  induction blocks generalizing next with
  | nil => rfl
  | cons gbt rest ih =>
    rw [takenFrom]
    split
    · next same =>
        rw [List.map_cons, List.length_cons, List.range_succ_eq_map, List.map_cons, List.map_map,
          ih (Nat.mod_lt _ (by decide)), same, show (next + 0) % 2 ^ 16 = next from Nat.mod_eq_of_lt small]
        congr 1
        apply List.map_congr_left
        intro i _
        simp only [Function.comp_apply, Nat.mod_add_mod]
        congr 1
        omega
    · exact ih small

/-- From a position on, the blocks complete the APDU: those taken end with the first one that carries the flag, and
their data follows what was there. -/
structure Completes (size : ℕ) (pos : GbtRecv) (blocks : List GeneralBlock) (apdu : List UInt8) : Prop where
  last : ∃ front final, takenFrom pos.expected blocks = front ++ [final] ∧ final.lastBlock = true ∧
    ∀ gbt ∈ front, gbt.lastBlock = false
  content : apdu = pos.acc ++ (takenFrom pos.expected blocks).flatMap (·.blockData)
  fits : apdu.length ≤ size

variable {stale : List UInt8} {size : ℕ} {pos next : GbtRecv} {gbt : GeneralBlock} {blocks : List GeneralBlock}
  {apdu : List UInt8} {w u v after : Wire}

theorem Completes.skip (other : gbt.blockNumber ≠ pos.expected) (rest : Completes size pos blocks apdu) :
    Completes size pos (gbt :: blocks) apdu := by
  have same : takenFrom pos.expected (gbt :: blocks) = takenFrom pos.expected blocks := if_neg other
  exact ⟨same ▸ rest.last, same ▸ rest.content, rest.fits⟩

theorem Completes.take (due : gbt.blockNumber = pos.expected) (more : gbt.lastBlock = false)
    (rest : Completes size (pos.append gbt) blocks apdu) : Completes size pos (gbt :: blocks) apdu := by
  have taken : takenFrom pos.expected (gbt :: blocks) = gbt :: takenFrom (pos.append gbt).expected blocks := if_pos due
  obtain ⟨front, final, split, last, others⟩ := rest.last
  refine ⟨⟨gbt :: front, final, ?_, last, ?_⟩, ?_, rest.fits⟩
  · rw [taken, split, List.cons_append]
  · exact List.forall_mem_cons.mpr ⟨more, others⟩
  · rw [taken, List.flatMap_cons, ← List.append_assoc]
    exact rest.content

def Acked (u v : Wire) : Prop := v = u ∨ ∃ window number, gbtSendAck window number u = some (.ok, v)

theorem gbtAckThen_cases {window number : ℕ} (returned : gbtAckThen window number pos u = some (outcome, v)) :
    (∃ err, outcome = .inl (.error err)) ∨ outcome = .inr pos ∧ Acked u v := by
  obtain ⟨result, t, sent, rest⟩ := bind_eq_some.mp returned
  simp only [pure_apply, Option.some.injEq, Prod.mk.injEq] at rest
  obtain ⟨rfl, rfl⟩ := rest
  split
  · next ok => exact .inr ⟨rfl, .inr ⟨window, number, ok ▸ sent⟩⟩
  · exact .inl ⟨result, rfl⟩

/-- The block that ends a reception is due, carries the flag and fits. Any other is passed over, or it is due and the
next position lies behind it. -/
theorem gbtRecvStep_cases (returned : gbtRecvStep size pos gbt u = some (outcome, v)) :
    (∃ err, outcome = .inl (.error err)) ∨
      (∃ apdu, outcome = .inl (.ok apdu) ∧ Completes size pos [gbt] apdu ∧ v = u) ∨
      ∃ next, outcome = .inr next ∧ Acked u v ∧ (gbt.blockNumber ≠ pos.expected ∧ next = pos ∨
        gbt.blockNumber = pos.expected ∧ gbt.lastBlock = false ∧ next = pos.append gbt) := by
  rw [gbtRecvStep] at returned
  by_cases gap : gbt.blockNumber > pos.expected
  · rw [if_pos gap] at returned
    obtain failed | ⟨same, acked⟩ := gbtAckThen_cases returned
    · exact .inl failed
    · exact .inr (.inr ⟨pos, same, acked, .inl ⟨by omega, rfl⟩⟩)
  rw [if_neg gap] at returned
  by_cases before : gbt.blockNumber < pos.expected
  · rw [if_pos before] at returned
    generalize (if gbt.window > 0 then gbt.window else pos.peerWindow) = window at returned
    split at returned
    · obtain failed | ⟨same, acked⟩ := gbtAckThen_cases returned
      · exact .inl failed
      · exact .inr (.inr ⟨pos, same, acked, .inl ⟨by omega, rfl⟩⟩)
    · cases returned
      exact .inr (.inr ⟨pos, rfl, .inl rfl, .inl ⟨by omega, rfl⟩⟩)
  rw [if_neg before] at returned
  have due : gbt.blockNumber = pos.expected := by omega
  split_ifs at returned with full last paced
  · cases returned
    exact .inl ⟨_, rfl⟩
  · cases returned
    have taken : takenFrom pos.expected [gbt] = [gbt] := if_pos due
    refine .inr (.inl ⟨_, rfl, ⟨⟨[], gbt, taken, last, by simp⟩, ?_, Nat.not_lt.mp full⟩, rfl⟩)
    rw [taken]
    simp [GbtRecv.append]
  · obtain failed | ⟨same, acked⟩ := gbtAckThen_cases returned
    · exact .inl failed
    · exact .inr (.inr ⟨_, same, acked, .inr ⟨due, by simpa using last, rfl⟩⟩)
  · cases returned
    exact .inr (.inr ⟨_, rfl, .inl rfl, .inr ⟨due, by simpa using last, rfl⟩⟩)

/-- Receive calls that return these blocks, each with at most one acknowledgement behind it. -/
inductive Heard (stale : List UInt8) : List GeneralBlock → Wire → Wire → Prop
  | nothing (w : Wire) : Heard stale [] w w
  | block {gbt : GeneralBlock} {blocks : List GeneralBlock} {w u v after : Wire} :
      gbtRecvBlock stale w = some (.ok gbt, u) → Acked u v → Heard stale blocks v after →
      Heard stale (gbt :: blocks) w after

theorem gbtRecvLoop_completes {fuel : ℕ} (returned : gbtRecvLoop stale size fuel pos w = some (.ok apdu, after)) :
    ∃ blocks, Heard stale blocks w after ∧ Completes size pos blocks apdu := by
  induction fuel generalizing pos w with
  | zero => cases returned
  | succ fuel ih =>
    obtain ⟨received, u, heard, handled⟩ := bind_eq_some.mp returned
    cases received with
    | error err => cases handled
    | ok gbt =>
      obtain ⟨outcome, v, stepped, rest⟩ := bind_eq_some.mp handled
      obtain ⟨err, rfl⟩ | ⟨_, rfl, completes, rfl⟩ | ⟨next, rfl, acked, passed⟩ := gbtRecvStep_cases stepped
      · cases rest
      · cases rest
        exact ⟨[gbt], .block heard (.inl rfl) (.nothing _), completes⟩
      · obtain ⟨blocks, later, completes⟩ := ih rest
        refine ⟨gbt :: blocks, .block heard acked later, ?_⟩
        rcases passed with ⟨other, rfl⟩ | ⟨due, more, rfl⟩
        · exact completes.skip other
        · exact completes.take due more

/-- `osp_gbt_transport_recv`, with or without a block that the caller has read. -/
def gbtReception (stale : List UInt8) (size : ℕ) : Option (List UInt8) → Program Wire (Except Err (List UInt8))
  | some first => gbtTransportRecv stale size first
  | none => gbtTransportRecvAll stale size

/-- The blocks of a reception: the caller's, then those of the receive calls. -/
def Reception (stale : List UInt8) : Option (List UInt8) → List GeneralBlock → Wire → Wire → Prop
  | none, blocks, w, after => Heard stale blocks w after
  | some first, blocks, w, after => ∃ gbt rest v, blocks = gbt :: rest ∧ gbtDecodeApdu stale first = .ok gbt ∧
      Acked w v ∧ Heard stale rest v after

/-- A reception that succeeds returns the data of the blocks `1, …, k` of those received, each taken when it was due,
where `k` is the first with the flag, and no more than the caller has room for. -/
theorem reception_assembles {stale : List UInt8} {size : ℕ} {first : Option (List UInt8)} {w after : Wire}
    {apdu : List UInt8} (returned : gbtReception stale size first w = some (.ok apdu, after)) :
    ∃ blocks taken, Reception stale first blocks w after ∧ taken = takenFrom 1 blocks ∧
      taken.map (·.blockNumber) = (List.range taken.length).map (fun i => (1 + i) % 2 ^ 16) ∧
      (∃ front final, taken = front ++ [final] ∧ final.lastBlock = true ∧ ∀ gbt ∈ front, gbt.lastBlock = false) ∧
      apdu = taken.flatMap (·.blockData) ∧ apdu.length ≤ size := by
  suffices completed : ∃ blocks, Reception stale first blocks w after ∧ Completes size {} blocks apdu by
    obtain ⟨blocks, received, completes⟩ := completed
    exact ⟨blocks, _, received, rfl, takenFrom_numbers (by decide) blocks, completes.last, completes.content,
      completes.fits⟩
  cases first with
  | none =>
    exact gbtRecvLoop_completes returned
  | some first =>
    rw [gbtReception, gbtTransportRecv] at returned
    cases decoded : gbtDecodeApdu stale first with
    | error err =>
      rw [decoded] at returned
      cases returned
    | ok gbt =>
      rw [decoded] at returned
      obtain ⟨outcome, v, stepped, rest⟩ := bind_eq_some.mp returned
      obtain ⟨err, rfl⟩ | ⟨_, rfl, completes, rfl⟩ | ⟨next, rfl, acked, passed⟩ := gbtRecvStep_cases stepped
      · cases rest
      · cases rest
        exact ⟨_, ⟨gbt, [], _, rfl, decoded, .inl rfl, .nothing _⟩, completes⟩
      · obtain ⟨blocks, later, completes⟩ := gbtRecvLoop_completes rest
        refine ⟨_, ⟨gbt, blocks, v, rfl, decoded, acked, later⟩, ?_⟩
        rcases passed with ⟨other, rfl⟩ | ⟨due, more, rfl⟩
        · exact completes.skip other
        · exact completes.take due more

/-- A link on which block 1 comes once more, then block 3, then block 2 with the flag. -/
def disorderedLink : Wire :=
  BlockTransfer.unframedLink.setWorld
    { rx := [.bytes [0xE0, 0, 0, 1, 0, 0, 1, 0xAA], .bytes [0xE0, 0, 0, 3, 0, 0, 1, 0xCC],
        .bytes [0xE0, 0x80, 0, 2, 0, 0, 1, 0xBB]] }

theorem reception_assembles_disordered :
    ∃ after blocks, gbtReception [] 2 (some [0xE0, 0, 0, 1, 0, 0, 1, 0xAA]) disorderedLink =
        some (.ok [0xAA, 0xBB], after) ∧
      Reception [] (some [0xE0, 0, 0, 1, 0, 0, 1, 0xAA]) blocks disorderedLink after ∧
      [0xAA, 0xBB] = (takenFrom 1 blocks).flatMap (·.blockData) := by
  have runs : (gbtReception [] 2 (some [0xE0, 0, 0, 1, 0, 0, 1, 0xAA]) disorderedLink).map Prod.fst =
      some (.ok [0xAA, 0xBB]) := by decide +kernel
  obtain ⟨⟨_, after⟩, returned, rfl⟩ := Option.map_eq_some_iff.mp runs
  obtain ⟨blocks, _, received, rfl, -, -, content, -⟩ := reception_assembles returned
  exact ⟨after, blocks, returned, received, content⟩

end OpenSpodes
