import Mathlib
import OpenSpodes.Proofs.AcceptTwins
import OpenSpodes.Proofs.SampleServer

/-! # Isolation between associations

An earlier association leaves bytes in the buffers of a server, frames that were sent, and the data of long
transfers. Two servers that differ only there answer a later association alike, provided that neither is in
the middle of a long transfer when it starts and that no association request is read beyond its end. The
classes of the objects are arbitrary, so "the objects end the same" also says that the dispatcher was called
with the same values: a class may record what it is called with.

Neither a release nor a new association request ends a long transfer. The data of a GET that was not read to
its end is delivered to the next association, whoever opened it.
-/

namespace OpenSpodes

open Machine

variable {σ : Type}

/-- What happens to a server during an association: an APDU arrives, or the application notifies. -/
inductive Input
  | apdu (bytes : List UInt8)
  | event (ev : EventNotification)
  | data (dn : DataNotification)

def Input.handle (env : Env σ) : Input → Program (Server σ) Err
  | apdu bytes => acceptApdu env bytes
  | event ev => serverSendEventNotification env ev
  | data dn => serverSendDataNotification env dn

/-- The results of an association's inputs, each handled with what the stack holds at that call. -/
def handleAll (hal : Hal) (behaviour : Behaviour σ) : List (Stack × Input) → Program (Server σ) (List Err)
  | [] => return []
  | (stack, input) :: rest => do
      let result ← input.handle ⟨hal, behaviour, stack⟩
      return result :: (← handleAll hal behaviour rest)

/-- An APDU fits the receive buffer and, if it asks for an association, is decoded from its own bytes. -/
def Input.Contained (room : ℕ) : Input → Prop
  | apdu bytes => bytes.length ≤ room ∧ AarqContained bytes
  | event _ => True
  | data _ => True

/-- No long GET, SET or ACTION is in progress. -/
structure Server.Settled (s : Server σ) : Prop where
  get : s.pendingGet.active = false
  set : s.pendingSet.active = false
  actionIn : s.pendingActionIn.active = false
  actionOut : s.pendingActionOut.active = false

/-- What two servers have in common when a later association starts. -/
structure Residue.Left (s : Server σ) (r : Residue) : Prop where
  txLength : r.wire.txBuf.length = s.wire.txBuf.length
  rxLength : r.wire.rxBuf.length = s.wire.rxBuf.length
  push : PendingPush.Same s.pendingPush r.pendingPush

/-- Two servers end alike: both wait, or they return the same, have sent and recorded the same since, and
have the same objects. -/
def EndAlike {α : Type} (p : Program (Server σ) α) (s t : Server σ) : Prop :=
  (p s = none ∧ p t = none) ∨
    ∃ result s' t' sent events, p s = some (result, s') ∧ p t = some (result, t') ∧
      s'.wire.world.sent = s.wire.world.sent ++ sent ∧ t'.wire.world.sent = t.wire.world.sent ++ sent ∧
      s'.log = s.log ++ events ∧ t'.log = t.log ++ events ∧ t'.objects = s'.objects

def Origin.start (s : Server σ) (r : Residue) : Origin where
  wire := ⟨s.wire.world.sent, r.wire.sent, s.wire.hdlc.xid.maxInfoTx, s.wire.rxBuf.length⟩
  logLeft := s.log
  logRight := r.log
  hdlcActive := s.hdlcActive
  maxPdu := s.maxPdu

variable {s : Server σ}

theorem twins_start {r : Residue} (short : s.wire.rxBuf.length < 2 ^ 32) (left : r.Left s) (settled : s.Settled)
    (settled' : (s.graft r).Settled) : Twins (.start s r) 0 0 s (s.graft r) := by
  refine ⟨r, rfl, ?_⟩
  exact
    { wire :=
        { sent := ⟨[], by simp [Origin.start]⟩
          maxInfoTx := rfl
          txLength := left.txLength
          rxLength := left.rxLength
          rxRoom := le_rfl
          rxShort := short
          tx := rfl
          rx := rfl }
      log := ⟨[], by simp [Origin.start]⟩
      hdlcActive := rfl
      maxPdu := rfl
      get := BlockOut.same_inactive settled.get settled'.get
      set := ⟨settled'.set.trans settled.set.symm, fun active => by simp [settled.set] at active⟩
      actionIn := ⟨settled'.actionIn.trans settled.actionIn.symm, fun active => by simp [settled.actionIn] at active⟩
      actionOut := BlockOut.same_inactive settled.actionOut settled'.actionOut
      push := left.push }

theorem handle_twinAt {o : Origin} (env : Env σ) {input : Input} (contained : input.Contained o.wire.room)
    {t : Server σ} (twins : Twins o 0 0 s t) : TwinAt (Twins o 0 0) s t (input.handle env) (input.handle env) := by
  cases input with
  | apdu bytes => exact acceptApdu_twinAt env contained.2 contained.1 twins
  | event ev => exact serverSendEventNotification_twin env ev s t twins
  | data dn => exact serverSendDataNotification_twin env dn s t twins

/-- Every input keeps the servers the same apart from their residue, so all of them do. -/
theorem handleAll_twin {o : Origin} (hal : Hal) (behaviour : Behaviour σ) {inputs : List (Stack × Input)}
    (contained : ∀ i ∈ inputs, i.2.Contained o.wire.room) : Twin (Twins o 0 0) (handleAll hal behaviour inputs) := by
  induction inputs with
  | nil => exact .pure _
  | cons first rest ih =>
    have head : first.2.Contained o.wire.room := contained first List.mem_cons_self
    have tail := ih fun i mem => contained i (List.mem_cons_of_mem _ mem)
    intro s t twins
    exact (handle_twinAt _ head twins).bind fun result => tail.bind fun results => .pure _

theorem endAlike_of_twinAt {α : Type} {r : Residue} {p : Program (Server σ) α}
    (twin : TwinAt (Twins (.start s r) 0 0) s (s.graft r) p p) : EndAlike p s (s.graft r) := by
  rcases twin with waits | ⟨result, s', t', left, right, r', rfl, fits⟩
  · exact .inl waits
  · obtain ⟨sent, sentLeft, sentRight⟩ := fits.wire.sent
    obtain ⟨events, logLeft, logRight⟩ := fits.log
    exact .inr ⟨result, s', _, sent, events, left, right, sentLeft, sentRight, logLeft, logRight, rfl⟩

/-- Two servers that differ only in what earlier associations left answer the same inputs alike: the same
results, the same bytes, and the same calls of the objects, whatever their classes are. -/
theorem later_association_isolated (hal : Hal) (behaviour : Behaviour σ) (s : Server σ) (r : Residue)
    (short : s.wire.rxBuf.length < 2 ^ 32) (left : r.Left s) (settled : s.Settled)
    (settled' : (s.graft r).Settled) (inputs : List (Stack × Input))
    (contained : ∀ i ∈ inputs, i.2.Contained s.wire.rxBuf.length) :
    EndAlike (handleAll hal behaviour inputs) s (s.graft r) :=
  endAlike_of_twinAt (handleAll_twin hal behaviour contained s _ (twins_start short left settled settled'))

/-! ## A server that stores one byte -/

/-- The attribute reads as 256 copies of the byte that is stored; a write stores another one. -/
def storeBehaviour : Behaviour UInt8 where
  get _ _ _ objects := ((.ok, .octetString (List.replicate 256 objects.hidden)), objects)
  set _ _ value objects :=
    (.ok, { objects with hidden := match value with | .scalar _ n => UInt8.ofNat n | _ => 0 })
  invoke _ _ _ _ objects := ((.ok, .null, none), objects)
  select _ _ value objects := (value, objects)

/-- A server with the sample association, by the stored byte and what its client will send. -/
def storeServer (stored : UInt8) (data : List (List UInt8)) : Server UInt8 :=
  serverInit .none 1 16 { rx := data.map RxEvent.bytes }
    { entries := sampleObjects.entries
      instances := sampleObjects.instances
      pool := Pool.empty
      hidden := stored }

def plainSet : List UInt8 :=
  [0xC1, 0x01, 0xC1, 0x00, 0x01, 0x01, 0x00, 0x00, 0x00, 0x00, 0xFF, 0x02, 0x00, 0x11, 0x2A]

def plainGetNext : List UInt8 := [0xC0, 0x02, 0xC1, 0x00, 0x00, 0x00, 0x01]

theorem aarqDecode_plainAarq (behind : List UInt8) :
    Fallible.outcome aarqDecode ⟨plainAarq ++ behind, 0, plainAarq.length⟩ = some plainRequest := by
  cbv

theorem plainAarq_contained : AarqContained plainAarq := by
  intro _ behind behind'
  rw [aarqDecode_plainAarq, aarqDecode_plainAarq]

/-- What an association that read 256 copies of a byte leaves behind. -/
def readResidue (byte : UInt8) : Residue where
  wire :=
    { sent := [[0xC4, 0x02, 0xC1, 0x01, 0x00, 0x00, 0x00, 0x02, 0x00, 0x04, byte, byte, byte, byte]]
      sessionRx := []
      lastSentInfo := []
      lastSentSeq := 0
      txBuf := overwrite (List.replicate 1024 0) (List.replicate 260 byte)
      rxBuf := overwrite (List.replicate 1024 0) plainGetNext }
  pendingGet := { data := List.replicate 260 byte, dataLen := 260, nextBlock := 3 }
  pendingSet := {}
  pendingActionIn := {}
  pendingActionOut := {}
  pendingPush := {}
  log := []

theorem later_association_isolated_read : EndAlike (handleAll sampleHal storeBehaviour
        [(sampleStack, .apdu plainAarq), (sampleStack, .apdu plainGet), (sampleStack, .apdu plainGetNext)])
      (storeServer 42 []) ((storeServer 42 []).graft (readResidue 7)) := by
  refine later_association_isolated sampleHal storeBehaviour _ (readResidue 7) ?_ ⟨?_, ?_, ⟨rfl, ?_⟩⟩
    ⟨rfl, rfl, rfl, rfl⟩ ⟨rfl, rfl, rfl, rfl⟩ _ ?_
  · decide +kernel
  · decide +kernel
  · decide +kernel
  · intro pending
    cases pending
  · intro i mem
    simp only [List.mem_cons, List.not_mem_nil, or_false] at mem
    rcases mem with rfl | rfl | rfl
    · exact ⟨by decide +kernel, plainAarq_contained⟩
    · exact ⟨by decide +kernel, fun aarq => absurd aarq (by decide)⟩
    · exact ⟨by decide +kernel, fun aarq => absurd aarq (by decide)⟩

/-- A client that reads the attribute in part, overwrites it and releases; in its next association it asks
for a block of a GET that it did not start. -/
def lingeringClient : List (List UInt8) := [plainAarq, plainGet, plainSet, plainRlrq, plainAarq, plainGetNext]

/-- The attribute stores the same byte when the second association starts, and that association gets to see
what it was in the first one. -/
theorem getNext_crosses_associations :
    let run (stored : UInt8) (calls : ℕ) :=
      acceptTimes ⟨sampleHal, storeBehaviour, sampleStack⟩ calls (storeServer stored lingeringClient)
    ((run 1 5).map fun s => (s.objects.hidden, s.aa.associated)) = some (42, true) ∧
      ((run 2 5).map fun s => (s.objects.hidden, s.aa.associated)) = some (42, true) ∧
      ((run 1 6).bind fun s => s.wire.world.sent.getLast?) =
        some [0xC4, 0x02, 0xC1, 0x01, 0x00, 0x00, 0x00, 0x02, 0x00, 0x04, 1, 1, 1, 1] ∧
      ((run 2 6).bind fun s => s.wire.world.sent.getLast?) =
        some [0xC4, 0x02, 0xC1, 0x01, 0x00, 0x00, 0x00, 0x02, 0x00, 0x04, 2, 2, 2, 2] := by
  decide +kernel

end OpenSpodes
