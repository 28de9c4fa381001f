import OpenSpodes.Model.ServerAccept
import OpenSpodes.Proofs.RequestLocal
import OpenSpodes.Proofs.WireTwins

/-! # Two servers that differ in what an earlier association left

The residue of a server is that of its link, the transfers that are not in progress, a notification that
is not queued, and the record. Two servers that are the same apart from their residue treat every request
alike: the same answers leave, the objects are called with the same values, and the servers are again the
same apart from their residue.

A transfer in progress belongs to the present association on both sides. Its bytes and its position are the
same, and its next block starts inside its data.
-/

namespace OpenSpodes

open Bytes Machine

variable {σ : Type} {source : ApduSource}

/-- What an earlier association leaves in a server. -/
structure Residue where
  wire : WireResidue
  pendingGet : BlockOut
  pendingSet : BlockIn
  pendingActionIn : BlockIn
  pendingActionOut : BlockOut
  pendingPush : PendingPush
  log : List Event

def Server.graft (s : Server σ) (r : Residue) : Server σ :=
  { s with
    wire := s.wire.graft r.wire
    pendingGet := r.pendingGet
    pendingSet := r.pendingSet
    pendingActionIn := r.pendingActionIn
    pendingActionOut := r.pendingActionOut
    pendingPush := r.pendingPush
    log := r.log }

/-- The same transfer to the client in blocks of `size`, when there is one. -/
structure BlockOut.Same (size : ℕ) (out other : BlockOut) : Prop where
  active : other.active = out.active
  dataLen : out.active = true → other.dataLen = out.dataLen
  nextBlock : out.active = true → other.nextBlock = out.nextBlock
  data : out.active = true → other.data.take out.dataLen = out.data.take out.dataLen
  bounded : out.active = true → out.dataLen ≤ 32768 ∧ 1 ≤ size ∧ size ≤ 32768
  started : out.active = true → 1 ≤ out.nextBlock ∧ (out.nextBlock - 1) * size ≤ out.dataLen

/-- The same transfer from the client, when there is one. -/
structure BlockIn.Same (pending other : BlockIn) : Prop where
  active : other.active = pending.active
  content : pending.active = true → other = pending

/-- The same notification in the queue, when there is one. -/
structure PendingPush.Same (push other : PendingPush) : Prop where
  pending : other.pending = push.pending
  content : push.pending = true → other = push

/-- What two runs have in common that is not in the present states: the records and sent messages at their
start, and what block sizes are computed from. -/
structure Origin where
  wire : WireOrigin
  logLeft : List Event
  logRight : List Event
  hdlcActive : Bool
  maxPdu : ℕ

def Origin.actionSize (o : Origin) : ℕ := if o.maxPdu > 0 then o.maxPdu else 1024

/-- `server_send_payload_max` from what it is computed from. -/
def Origin.getSize (o : Origin) : ℕ :=
  let maxPdu := if o.maxPdu > 0 then o.maxPdu else 1024
  let maxInfo := min (infoLimit o.wire.maxInfoTx) hdlcMaxFrameSize
  let hdlcPayload := if maxInfo > 16 then maxInfo - 16 else 1
  min (if o.hdlcActive then min hdlcPayload maxPdu else maxPdu) 256

/-- The residue goes with a server. -/
structure Residue.Fits (o : Origin) (tx rx : ℕ) (s : Server σ) (r : Residue) : Prop where
  wire : r.wire.Fits o.wire tx rx s.wire
  log : ∃ later, s.log = o.logLeft ++ later ∧ r.log = o.logRight ++ later
  hdlcActive : s.hdlcActive = o.hdlcActive
  maxPdu : s.maxPdu = o.maxPdu
  get : BlockOut.Same o.getSize s.pendingGet r.pendingGet
  set : BlockIn.Same s.pendingSet r.pendingSet
  actionIn : BlockIn.Same s.pendingActionIn r.pendingActionIn
  actionOut : BlockOut.Same o.actionSize s.pendingActionOut r.pendingActionOut
  push : PendingPush.Same s.pendingPush r.pendingPush

/-- Two servers that are the same apart from their residue. -/
def Twins (o : Origin) (tx rx : ℕ) (s t : Server σ) : Prop := ∃ r, t = s.graft r ∧ r.Fits o tx rx s

section Steps

variable {o : Origin} {tx rx : ℕ} {α : Type} {s t : Server σ}

theorem Twins.weaken {tx' rx' : ℕ} (twins : Twins o tx rx s t) (lessTx : tx' ≤ tx) (lessRx : rx' ≤ rx) :
    Twins o tx' rx' s t := by
  obtain ⟨r, rfl, fits⟩ := twins
  exact ⟨r, rfl, { fits with
    wire := { fits.wire with tx := take_mono fits.wire.tx lessTx, rx := take_mono fits.wire.rx lessRx } }⟩

theorem note_twin (event : Event) : Twin (Twins (σ := σ) o tx rx) (note event) := by
  rintro s _ ⟨r, rfl, fits⟩
  obtain ⟨later, left, right⟩ := fits.log
  refine .modify ⟨{ r with log := r.log ++ [event] }, rfl, { fits with log := ⟨later ++ [event], ?_, ?_⟩ }⟩
  · simp only [left, List.append_assoc]
  · simp only [right, List.append_assoc]

theorem transition_twin (event : Event) (change : AssocState → AssocState) :
    Twin (Twins (σ := σ) o tx rx) (transition event change) := by
  rintro s _ ⟨r, rfl, fits⟩
  obtain ⟨later, left, right⟩ := fits.log
  refine .modify ⟨{ r with log := r.log ++ [event] }, rfl, { fits with log := ⟨later ++ [event], ?_, ?_⟩ }⟩
  · simp only [left, List.append_assoc]
  · simp only [right, List.append_assoc]

/-- A step of the link layer that links do alike is done alike by servers. -/
theorem onWire_twinAt (tx' rx' : ℕ) {p : Program Wire α} (twins : Twins o tx rx s t)
    (inner : ∀ w v, WireTwins o.wire tx rx w v → TwinAt (WireTwins o.wire tx' rx') w v p p) :
    TwinAt (Twins o tx' rx') s t (onWire p) (onWire p) := by
  obtain ⟨r, rfl, fits⟩ := twins
  refine .zoom (inner _ _ ⟨r.wire, rfl, { fits.wire with }⟩) ?_
  rintro w _ ⟨r', rfl, fits'⟩
  obtain ⟨later, left, right⟩ := fits.log
  refine ⟨{ r with wire := r', log := r.log ++ w.links.map Event.link }, rfl,
    { fits with wire := { fits' with }, log := ⟨later ++ w.links.map Event.link, ?_, ?_⟩ }⟩
  · simp only [left, List.append_assoc]
  · simp only [right, List.append_assoc]

theorem Twins.bytes (twins : Twins o tx rx s t) (inside : source.Within tx) :
    source.bytes t.wire = source.bytes s.wire := by
  obtain ⟨r, rfl, fits⟩ := twins
  exact WireTwins.bytes ⟨r.wire, rfl, fits.wire⟩ inside

theorem Twins.txLength (twins : Twins o tx rx s t) : t.wire.txBuf.length = s.wire.txBuf.length := by
  obtain ⟨r, rfl, fits⟩ := twins
  exact fits.wire.txLength

theorem Twins.rxLength (twins : Twins o tx rx s t) : t.wire.rxBuf.length = s.wire.rxBuf.length := by
  obtain ⟨r, rfl, fits⟩ := twins
  exact fits.wire.rxLength

theorem Twins.rxTake (twins : Twins o tx rx s t) : t.wire.rxBuf.take rx = s.wire.rxBuf.take rx := by
  obtain ⟨r, rfl, fits⟩ := twins
  exact fits.wire.rx

theorem Twins.withObjects (twins : Twins o tx rx s t) (objects : Objects σ) :
    Twins o tx rx { s with objects := objects } { t with objects := objects } := by
  obtain ⟨r, rfl, fits⟩ := twins
  exact ⟨r, rfl, { fits with }⟩

theorem Twins.withGet (twins : Twins o tx rx s t) {out other : BlockOut} (same : BlockOut.Same o.getSize out other) :
    Twins o tx rx { s with pendingGet := out } { t with pendingGet := other } := by
  obtain ⟨r, rfl, fits⟩ := twins
  exact ⟨{ r with pendingGet := other }, rfl, { fits with get := same }⟩

theorem Twins.withSet (twins : Twins o tx rx s t) {pending other : BlockIn} (same : BlockIn.Same pending other) :
    Twins o tx rx { s with pendingSet := pending } { t with pendingSet := other } := by
  obtain ⟨r, rfl, fits⟩ := twins
  exact ⟨{ r with pendingSet := other }, rfl, { fits with set := same }⟩

theorem Twins.withActionIn (twins : Twins o tx rx s t) {pending other : BlockIn} (same : BlockIn.Same pending other) :
    Twins o tx rx { s with pendingActionIn := pending } { t with pendingActionIn := other } := by
  obtain ⟨r, rfl, fits⟩ := twins
  exact ⟨{ r with pendingActionIn := other }, rfl, { fits with actionIn := same }⟩

theorem Twins.withActionOut (twins : Twins o tx rx s t) {out other : BlockOut}
    (same : BlockOut.Same o.actionSize out other) :
    Twins o tx rx { s with pendingActionOut := out } { t with pendingActionOut := other } := by
  obtain ⟨r, rfl, fits⟩ := twins
  exact ⟨{ r with pendingActionOut := other }, rfl, { fits with actionOut := same }⟩

theorem Twins.withPush (twins : Twins o tx rx s t) {push other : PendingPush} (same : PendingPush.Same push other) :
    Twins o tx rx { s with pendingPush := push } { t with pendingPush := other } := by
  obtain ⟨r, rfl, fits⟩ := twins
  exact ⟨{ r with pendingPush := other }, rfl, { fits with push := same }⟩

theorem PendingPush.Same.refl (push : PendingPush) : Same push push := ⟨rfl, fun _ => rfl⟩

theorem BlockIn.Same.refl (pending : BlockIn) : Same pending pending := ⟨rfl, fun _ => rfl⟩

theorem serverMirror_twin (inst : Option ℕ) : Twin (Twins (σ := σ) o tx rx) (serverMirror inst) := by
  rintro s _ ⟨r, rfl, fits⟩
  cases inst with
  | none => exact .pure _ ⟨r, rfl, fits⟩
  | some inst => exact .modify ⟨r, rfl, { fits with }⟩

end Steps

/-! ## Sending -/

section Sending

variable {o : Origin} {tx rx : ℕ} {s t : Server σ} (env : Env σ)

theorem serverTransmit_twinAt (plain : List UInt8) (inside : source.Within tx) (twins : Twins o tx rx s t) :
    TwinAt (Twins o 0 rx) s t (serverTransmit env plain source) (serverTransmit env plain source) := by
  have sent := twins.bytes inside
  refine .get_bind ?_
  dsimp only
  rw [sent]
  refine .bind (note_twin _ s t twins) fun _ s' t' twins' => ?_
  obtain ⟨r, rfl, fits⟩ := twins
  refine TwinAt.mono (Q := Twins o tx rx) ?_ fun _ _ twins => twins.weaken (Nat.zero_le _) le_rfl
  refine .ite (fun _ => ?_) fun _ => .ite (fun _ => ?_) fun _ => ?_
  · exact onWire_twinAt tx rx twins' fun w v twins => gbtTransportSend_twin env.stack.block inside w v twins
  · exact onWire_twinAt tx rx twins' fun w v twins => hdlcSessionSendApdu_twin _ w v twins
  · exact onWire_twinAt tx rx twins' fun w v twins => transportSendApdu_twin _ w v twins

theorem serverSend_twinAt (inside : source.Within tx) (twins : Twins o tx rx s t) :
    TwinAt (Twins o 0 rx) s t (serverSend env source) (serverSend env source) := by
  have plain := twins.bytes inside
  have aa : t.aa = s.aa := by
    obtain ⟨r, rfl, fits⟩ := twins
    rfl
  have stop : Twins o 0 rx s t := twins.weaken (Nat.zero_le _) le_rfl
  refine .get_bind ?_
  dsimp only
  rw [plain, aa]
  refine .ite (fun _ => ?_) fun _ => serverTransmit_twinAt env _ inside twins
  cases gloProtect env.hal s.aa.cipherTx
      (svcCipherTagForPlain s.aa.cipherTx ((source.bytes s.wire).getD 0 0)) (source.bytes s.wire) with
  | none => exact .pure _ stop
  | some sealed =>
    refine .bind (transition_twin _ _ s t twins) fun _ s' t' twins => ?_
    refine .ite (fun _ => .pure _ (twins.weaken (Nat.zero_le _) le_rfl)) fun _ => ?_
    exact serverTransmit_twinAt env _ trivial twins

theorem sendEncoded_twin (encode : Write Unit) : Twin (Twins o 0 rx) (sendEncoded env encode) := by
  intro s t twins
  unfold sendEncoded encodeTx
  simp only [bind_assoc]
  refine .get_bind ?_
  rw [twins.txLength]
  cases encode (WBuf.init s.wire.txBuf.length) with
  | error e buf =>
    have filled := onWire_twinAt 0 rx twins fun w v twins =>
      .modify ((twins.fillTx buf.out).weaken (Nat.zero_le _) le_rfl)
    simp only [bind_assoc, pure_bind]
    exact filled.bind fun _ s t twins => .pure _ twins
  | ok u buf =>
    have filled := onWire_twinAt buf.out.length rx twins fun w v twins =>
      .modify ((twins.fillTx buf.out).weaken (le_max_right _ _) le_rfl)
    simp only [bind_assoc, pure_bind]
    exact filled.bind fun _ s t twins => serverSend_twinAt env le_rfl twins

theorem serverSendException_twin (stateError serviceError : UInt8) :
    Twin (Twins o 0 rx) (serverSendException env stateError serviceError) :=
  sendEncoded_twin env _

/-! ## Notifications -/

theorem serverFlushPendingPush_twin : Twin (Twins o 0 rx) (serverFlushPendingPush env) := by
  intro s t twins
  obtain ⟨r, rfl, fits⟩ := id twins
  refine .get_bind ?_
  rw [show (s.graft r).pendingPush.pending = s.pendingPush.pending from fits.push.pending]
  refine .ite (fun pending => .set_bind ?_) fun _ => .pure _ twins
  rw [show (s.graft r).pendingPush.notification = s.pendingPush.notification from
    congrArg _ (fits.push.content pending)]
  exact sendEncoded_twin env _ _ _ (twins.withPush ⟨rfl, fun pending => nomatch pending⟩)

theorem serverFlushDeferred_twin (result : Err) : Twin (Twins o 0 rx) (serverFlushDeferred env result) := by
  intro s t twins
  obtain ⟨r, rfl, fits⟩ := id twins
  refine .get_bind (.ite (fun _ => .pure _ twins) fun _ => ?_)
  by_cases pending : s.pendingPush.pending = true
  · have same : (s.graft r).pendingPush = s.pendingPush := fits.push.content pending
    rw [same]
    refine .ite (fun _ => .set_bind ?_) fun _ => .pure _ twins
    exact serverFlushPendingPush_twin env _ _ (twins.withPush (.refl _))
  · have other : ¬(s.graft r).pendingPush.pending = true := fun set => pending (fits.push.pending ▸ set)
    rw [if_neg fun both => pending both.2, if_neg fun both => other both.2]
    exact .pure _ twins

theorem serverFlushAction_twin (result : Err) : Twin (Twins o 0 rx) (serverFlushAction env result) := by
  intro s t twins
  obtain ⟨r, rfl, fits⟩ := id twins
  refine .get_bind (.ite (fun _ => .pure _ twins) fun _ => ?_)
  rw [show (s.graft r).pendingPush.pending = s.pendingPush.pending from fits.push.pending]
  refine .ite (fun held => .set_bind (.pure _ ?_)) fun _ => serverFlushPendingPush_twin env s _ twins
  have same : (s.graft r).pendingPush = s.pendingPush := fits.push.content held.2
  rw [same]
  exact twins.withPush (.refl _)

theorem serverSendEventNotification_twin (ev : EventNotification) :
    Twin (Twins o 0 rx) (serverSendEventNotification env ev) := by
  rintro s _ ⟨r, rfl, fits⟩
  refine .get_bind (.ite (fun _ => ?_) fun _ => .pure _ ⟨r, rfl, fits⟩)
  exact sendEncoded_twin env _ s _ ⟨r, rfl, fits⟩

theorem serverSendDataNotification_twin (dn : DataNotification) :
    Twin (Twins o 0 rx) (serverSendDataNotification env dn) := by
  rintro s _ ⟨r, rfl, fits⟩
  refine .get_bind (.ite (fun _ => ?_) fun _ => .pure _ ⟨r, rfl, fits⟩)
  exact sendEncoded_twin env _ s _ ⟨r, rfl, fits⟩

end Sending

end OpenSpodes
