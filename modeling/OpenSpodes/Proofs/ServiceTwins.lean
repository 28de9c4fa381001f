import OpenSpodes.Proofs.Encoders
import OpenSpodes.Proofs.ServerTwins

/-! # Services on two servers with different residues

Each service handler runs alike on two servers that are the same apart from their residue. The block transfers are where the residue
could come out: a block is cut out of the data of a transfer in progress, and never reaches behind it.
-/

namespace OpenSpodes

open Bytes Machine

variable {σ : Type} {tx : ℕ} {s t : Server σ}

/-- What a value writes into the buffer of a transfer fits its size. -/
theorem length_valueWrite {pool : Pool} {value : Value} {written : WBuf}
    (done : valueWrite pool value (WBuf.init serverPendingMax) = .ok () written) : written.out.length ≤ 32768 := by
  have size : written.size = serverPendingMax := ((extends_valueWrite pool value).of_ok done).2
  exact written.fits.trans (le_of_eq size)

/-! ## Transfers to the client -/

namespace BlockOut

variable {size : ℕ} {out other : BlockOut}

/-- The position of the next block of a transfer in progress. -/
theorem block_eq (bounded : out.dataLen ≤ 32768 ∧ 1 ≤ size ∧ size ≤ 32768)
    (started : 1 ≤ out.nextBlock ∧ (out.nextBlock - 1) * size ≤ out.dataLen) : out.block size =
      (((out.data.take out.dataLen).drop ((out.nextBlock - 1) * size)).take size,
        decide (out.dataLen ≤ (out.nextBlock - 1) * size + size)) := by
  obtain ⟨short, some, small⟩ := bounded
  obtain ⟨one, inside⟩ := started
  have few : out.nextBlock - 1 ≤ (out.nextBlock - 1) * size := Nat.le_mul_of_pos_right _ some
  have number : (out.nextBlock + 2 ^ 32 - 1) % 2 ^ 32 = out.nextBlock - 1 := by omega
  have first : (out.nextBlock - 1) * size % 2 ^ 32 = (out.nextBlock - 1) * size :=
    Nat.mod_eq_of_lt (by omega)
  rw [block, number, first]
  generalize (out.nextBlock - 1) * size = first at inside
  have stop : (first + size) % 2 ^ 32 = first + size := Nat.mod_eq_of_lt (by omega)
  have width : (min (first + size) out.dataLen + 2 ^ 32 - first) % 2 ^ 32 = min size (out.dataLen - first) := by
    omega
  rw [stop, width, List.drop_take, List.take_take]
  refine Prod.ext rfl ?_
  simp only [ge_iff_le, Nat.le_min, le_refl, and_true]

theorem Same.block (same : Same size out other) (active : out.active = true) : other.block size = out.block size := by
  have bounded := same.bounded active
  have started := same.started active
  rw [block_eq bounded started, block_eq (by rwa [same.dataLen active])
    (by rwa [same.dataLen active, same.nextBlock active]), same.dataLen active, same.nextBlock active,
    same.data active]

/-- Behind a block both transfers are at the same position. -/
theorem Same.advance (same : Same size out other) (active : out.active = true) :
    Same size (out.advance (out.block size).2) (other.advance (out.block size).2) := by
  have bounded := same.bounded active
  obtain ⟨one, inside⟩ := same.started active
  have few : out.nextBlock - 1 ≤ (out.nextBlock - 1) * size := Nat.le_mul_of_pos_right _ bounded.2.1
  have next : (out.nextBlock + 1) % 2 ^ 32 = out.nextBlock + 1 := Nat.mod_eq_of_lt (by omega)
  refine ⟨?_, fun _ => same.dataLen active, fun _ => ?_, fun _ => same.data active, fun _ => bounded, ?_⟩
  · simp only [BlockOut.advance, same.active]
  · simp only [BlockOut.advance, same.nextBlock active]
  · intro still
    have more : (out.block size).2 = false := by
      simp only [BlockOut.advance, active, Bool.true_and, Bool.not_eq_true'] at still
      exact still
    rw [block_eq bounded ⟨one, inside⟩, decide_eq_false_iff_not] at more
    have step : out.nextBlock * size = (out.nextBlock - 1) * size + size := by
      rw [← Nat.succ_mul, Nat.succ_eq_add_one, Nat.sub_add_cancel one]
    simp only [BlockOut.advance, next, Nat.add_sub_cancel]
    omega

theorem Same.overwrite (same : Same size out other) (bytes : List UInt8) :
    Same size { out with data := overwrite out.data bytes } { other with data := overwrite other.data bytes } :=
  { same with
    data := fun active => take_mono (take_overwrite (same.data active) bytes) (le_max_left _ _) }

/-- A transfer that starts now is the same on both sides, whatever its buffer held. -/
theorem same_start (size : ℕ) (mem mem' bytes : List UInt8) (short : bytes.length ≤ 32768)
    (bounded : 1 ≤ size ∧ size ≤ 32768) :
    Same size ⟨true, OpenSpodes.overwrite mem bytes, bytes.length, 1⟩
      ⟨true, OpenSpodes.overwrite mem' bytes, bytes.length, 1⟩ where
  active := rfl
  dataLen _ := rfl
  nextBlock _ := rfl
  data _ := by rw [take_overwrite_self, take_overwrite_self]
  bounded _ := ⟨short, bounded⟩
  started _ := ⟨le_rfl, by simp⟩

theorem same_inactive {size : ℕ} (left : out.active = false) (right : other.active = false) :
    Same size out other where
  active := right.trans left.symm
  dataLen active := by simp [left] at active
  nextBlock active := by simp [left] at active
  data active := by simp [left] at active
  bounded active := by simp [left] at active
  started active := by simp [left] at active

end BlockOut

theorem Twins.sendPayloadMax {o : Origin} {rx : ℕ} (twins : Twins o tx rx s t) : s.sendPayloadMax = o.getSize := by
  obtain ⟨r, rfl, fits⟩ := twins
  simp only [Server.sendPayloadMax, Origin.getSize, fits.wire.maxInfoTx, fits.hdlcActive, fits.maxPdu]

theorem Origin.getSize_bounds (o : Origin) : 1 ≤ o.getSize ∧ o.getSize ≤ 32768 := by
  simp only [Origin.getSize]
  split_ifs <;> omega

section Services

variable {o : Origin} {rx : ℕ} (env : Env σ) {α : Type} {encode : α → Program (Server σ) (Write Unit)}
  (attr : Descriptor) (invoke : UInt8)

/-! ## Calls of the dispatcher -/

theorem dispatchGet_twin : Twin (Twins o 0 rx) (dispatchGet env attr) := by
  rintro s _ ⟨r, rfl, fits⟩
  refine .get_bind ((note_twin _ s _ ⟨r, rfl, fits⟩).bind fun _ s t twins => ?_)
  obtain ⟨r, rfl, fits⟩ := id twins
  exact .get_bind (.set_bind (.pure _ (twins.withObjects _)))

theorem dispatchSet_twin (value : Value) : Twin (Twins o 0 rx) (dispatchSet env attr value) := by
  rintro s _ ⟨r, rfl, fits⟩
  refine .get_bind ((note_twin _ s _ ⟨r, rfl, fits⟩).bind fun _ s t twins => ?_)
  obtain ⟨r, rfl, fits⟩ := id twins
  exact .get_bind (.set_bind (.pure _ (twins.withObjects _)))

theorem Twins.queuePendingPush (twins : Twins o tx rx s t) (push : Push) :
    Twins o tx rx (s.queuePendingPush push) (t.queuePendingPush push) := by
  obtain ⟨r, rfl, fits⟩ := twins
  exact ⟨{ r with pendingPush := (s.queuePendingPush push).pendingPush }, rfl, { fits with push := .refl _ }⟩

theorem dispatchAction_twin (method : Descriptor) (param old : Value) :
    Twin (Twins o 0 rx) (dispatchAction env method param old) := by
  have queued {s t : Server σ} (twins : Twins o 0 rx s t) (push : Option Push) :
      Twins o 0 rx ((push.map s.queuePendingPush).getD s) ((push.map t.queuePendingPush).getD t) := by
    cases push with
    | none => exact twins
    | some push => exact twins.queuePendingPush push
  rintro s _ ⟨r, rfl, fits⟩
  refine .get_bind ((note_twin _ s _ ⟨r, rfl, fits⟩).bind fun _ s t twins => ?_)
  obtain ⟨r, rfl, fits⟩ := id twins
  exact .get_bind (.set_bind (.pure _ (queued (twins.withObjects _) _)))

theorem encodeList_twin (one : ∀ entry, Twin (Twins o 0 rx) (encode entry)) (items : List α) (buf : WBuf) :
    Twin (Twins o 0 rx) (encodeList encode items buf) := by
  induction items generalizing buf with
  | nil => exact .pure _
  | cons entry rest ih =>
    refine (one entry).bind fun write => ?_
    cases write buf with
    | error e buf => exact .pure _
    | ok u buf => exact ih buf

theorem sendList_twin (tag invoke : UInt8) (one : ∀ entry, Twin (Twins o 0 rx) (encode entry))
    (items : List α) : Twin (Twins o 0 rx) (sendList env tag invoke encode items) := by
  intro s t twins
  refine .get_bind ?_
  rw [twins.txLength]
  cases listResponseHeader tag invoke items.length (WBuf.init s.wire.txBuf.length) with
  | error e buf => exact .pure _ twins
  | ok u buf =>
    refine (encodeList_twin one items buf s t twins).bind fun written s t twins => ?_
    cases written with
    | none => exact .pure _ twins
    | some buf =>
      have filled := onWire_twinAt buf.out.length rx twins fun w v twins =>
        .modify ((twins.fillTx buf.out).weaken (le_max_right _ _) le_rfl)
      exact filled.bind fun _ s t twins => serverSend_twinAt env le_rfl twins

theorem readBuffered_twin (buffer : List UInt8) : Twin (Twins o 0 rx) (readBuffered env buffer) := by
  intro s t twins
  obtain ⟨r, rfl, fits⟩ := id twins
  exact .get_bind (.set_bind (.pure _ (twins.withObjects _)))

/-! ## GET -/

theorem dispatchGetAttr_twin : Twin (Twins o 0 rx) (dispatchGetAttr env attr) :=
  (dispatchGet_twin env attr).bind fun _ => .pure _

theorem sendGetResponse_twin (resp : GetResponse) :
    Twin (Twins o 0 rx) (sendGetResponse env invoke resp) := by
  rintro s _ ⟨r, rfl, fits⟩
  exact .get_bind ((sendEncoded_twin env _ s _ ⟨r, rfl, fits⟩).bind fun result =>
    serverFlushDeferred_twin env result)

theorem handleGetNext_twin (ackedBlock : ℕ) : Twin (Twins o 0 rx) (handleGetNext env invoke ackedBlock) := by
  intro s t twins
  obtain ⟨r, rfl, fits⟩ := id twins
  have get : BlockOut.Same o.getSize s.pendingGet (s.graft r).pendingGet := fits.get
  refine .get_bind ?_
  dsimp only
  rw [get.active, twins.sendPayloadMax]
  refine .ite (fun _ => sendGetResponse_twin env _ _ s _ twins) fun idle => ?_
  have active : s.pendingGet.active = true := by simpa using idle
  rw [get.nextBlock active, show (s.graft r).sendPayloadMax = s.sendPayloadMax from rfl, twins.sendPayloadMax,
    get.block active]
  refine .ite (fun _ => sendGetResponse_twin env _ _ s _ twins) fun _ => .set_bind ?_
  exact sendGetResponse_twin env _ _ _ _ (twins.withGet (get.advance active))

theorem selectValue_twin (selection : SelectiveAccess) (attrId : UInt8) (value : Value) :
    Twin (Twins o 0 rx) (selectValue env selection attrId value) := by
  intro s t twins
  obtain ⟨r, rfl, fits⟩ := id twins
  refine .ite (fun _ => .get_bind ?_) fun _ => .pure _ twins
  cases value with
  | array | owned => exact .set_bind (.pure _ (twins.withObjects _))
  | _ => exact .pure _ twins

theorem sendGetData_twin (value : Value) : Twin (Twins o 0 rx) (sendGetData env invoke value) := by
  intro s t twins
  obtain ⟨r, rfl, fits⟩ := id twins
  refine .get_bind ?_
  dsimp only
  rw [show (s.graft r).objects = s.objects from rfl, show (s.graft r).sendPayloadMax = s.sendPayloadMax from rfl,
    show (s.graft r).gbtPayloadMax = s.gbtPayloadMax from rfl,
    show (s.graft r).gbtEnabled = s.gbtEnabled from rfl]
  have direct := sendGetResponse_twin env invoke (.data value) s _ twins
  cases wrote : valueWrite s.objects.pool value (WBuf.init serverPendingMax) with
  | error e written =>
    have blocks := sendGetResponse_twin env invoke (.dataError .temporaryFailure) _ _
      (twins.withGet (fits.get.overwrite written.out))
    cases getResponseEncode s.objects.pool invoke (.data value) (WBuf.init 1024) with
    | error e buf => exact .set_bind blocks
    | ok u buf =>
      refine .ite (fun _ => .ite (fun _ => ?_) fun _ => .set_bind blocks) fun _ => direct
      exact serverSend_twinAt env trivial twins
  | ok u written =>
    have started := BlockOut.same_start o.getSize s.pendingGet.data (s.graft r).pendingGet.data written.out
      (length_valueWrite wrote) o.getSize_bounds
    have blocks := handleGetNext_twin env invoke 0 _ _ (twins.withGet started)
    cases getResponseEncode s.objects.pool invoke (.data value) (WBuf.init 1024) with
    | error e buf => exact .set_bind blocks
    | ok u buf =>
      refine .ite (fun _ => .ite (fun _ => ?_) fun _ => .set_bind blocks) fun _ => direct
      exact serverSend_twinAt env trivial twins

theorem handleGet_twin (req : GetRequest) : Twin (Twins o 0 rx) (handleGet env req) := by
  unfold handleGet
  cases req.kind with
  | withBlock => exact handleGetNext_twin env _ _
  | withList =>
    refine (sendList_twin env 0xC4 _ (fun attr => ?_) req.items).bind fun result =>
      serverFlushDeferred_twin env result
    refine (dispatchGetAttr_twin env attr).bind fun item s t twins => ?_
    obtain ⟨r, rfl, fits⟩ := id twins
    exact .get_bind (.pure _ twins)
  | normal =>
    refine (dispatchGetAttr_twin env req.attr).bind fun result => ?_
    cases result with
    | accessResult result => exact sendGetResponse_twin env _ _
    | data value => exact (selectValue_twin env _ _ value).bind fun value => sendGetData_twin env _ value

/-! ## SET -/

theorem sendSetResponse_twin (resp : SetResponse) : Twin (Twins o 0 rx) (sendSetResponse env invoke resp) :=
  (sendEncoded_twin env _).bind fun result => serverFlushDeferred_twin env result

theorem accumulateSetBlock_twin (block : DataBlock) :
    Twin (Twins o 0 rx) (accumulateSetBlock env invoke block) := by
  intro s t twins
  have respond (resp : SetResponse) {s t : Server σ} (twins : Twins o 0 rx s t) :=
    sendSetResponse_twin env invoke resp s t twins
  obtain ⟨r, rfl, fits⟩ := id twins
  have pending : BlockIn.Same s.pendingSet (s.graft r).pendingSet := fits.set
  refine .get_bind ?_
  dsimp only
  rw [pending.active]
  refine .ite (fun _ => respond _ twins) fun idle => ?_
  have same : (s.graft r).pendingSet = s.pendingSet := pending.content (by simpa using idle)
  rw [same]
  refine .ite (fun _ => .set_bind (respond _ (twins.withSet (.refl _)))) fun _ => ?_
  refine .ite (fun _ => .set_bind (respond _ (twins.withSet (.refl _)))) fun _ => .set_bind ?_
  refine (readBuffered_twin env _ _ _ (twins.withSet (.refl _))).bind fun read s t twins => ?_
  obtain ⟨err, value⟩ := read
  cases err with
  | ok => exact (dispatchSet_twin env _ value s t twins).bind fun result s t twins => respond _ twins
  | _ => exact respond _ twins

theorem setEntries_twin (entries : List (Descriptor × Value)) : Twin (Twins o 0 rx) (setEntries env entries) := by
  induction entries with
  | nil => exact .pure _
  | cons entry rest ih => exact (dispatchSet_twin env _ _).bind fun result => ih.bind fun results => .pure _

theorem handleSet_twin (req : SetRequest) : Twin (Twins o 0 rx) (handleSet env req) := by
  unfold handleSet
  cases req.kind with
  | withFirstDatablock =>
    intro s t twins
    exact .modify_bind (accumulateSetBlock_twin env _ _ _ _ (twins.withSet (.refl _)))
  | withDatablock => exact accumulateSetBlock_twin env _ _
  | withList => exact (setEntries_twin env _).bind fun results => sendSetResponse_twin env _ _
  | normal => exact (dispatchSet_twin env _ _).bind fun result => sendSetResponse_twin env _ _

/-! ## ACTION -/

theorem sendActionResponse_twin (resp : ActionResponse) :
    Twin (Twins o 0 rx) (sendActionResponse env invoke resp) := by
  intro s t twins
  obtain ⟨r, rfl, fits⟩ := id twins
  exact .get_bind (sendEncoded_twin env _ s _ twins)

theorem handleActionRespNext_twin (ackedBlock : ℕ) :
    Twin (Twins o 0 rx) (handleActionRespNext env invoke ackedBlock) := by
  intro s t twins
  have respond (resp : ActionResponse) {s t : Server σ} (twins : Twins o 0 rx s t) :=
    sendActionResponse_twin env invoke resp s t twins
  obtain ⟨r, rfl, fits⟩ := id twins
  have out : BlockOut.Same o.actionSize s.pendingActionOut (s.graft r).pendingActionOut := fits.actionOut
  have size : (if s.maxPdu > 0 then s.maxPdu else 1024) = o.actionSize := by
    rw [fits.maxPdu, Origin.actionSize]
  refine .get_bind ?_
  dsimp only
  rw [out.active]
  refine .ite (fun _ => respond _ twins) fun idle => ?_
  have active : s.pendingActionOut.active = true := by simpa using idle
  rw [out.nextBlock active, show (s.graft r).maxPdu = s.maxPdu from rfl, size, out.block active]
  refine .ite (fun _ => .set_bind (respond _ (twins.withActionOut (BlockOut.same_inactive rfl rfl)))) fun _ => ?_
  exact .set_bind (respond _ (twins.withActionOut (out.advance active)))

theorem sendActionInvokeResult_twin (dar : Dar) (result : Value) :
    Twin (Twins o 0 rx) (sendActionInvokeResult env invoke dar result) := by
  intro s t twins
  have respond (resp : ActionResponse) {s t : Server σ} (twins : Twins o 0 rx s t) :=
    sendActionResponse_twin env invoke resp s t twins
  obtain ⟨r, rfl, fits⟩ := id twins
  refine .get_bind (.ite (fun _ => respond _ twins) fun _ => ?_)
  rw [show (s.graft r).objects = s.objects from rfl, show (s.graft r).maxPdu = s.maxPdu from rfl]
  cases wrote : valueWrite s.objects.pool result (WBuf.init serverPendingMax) with
  | error e written => exact .set_bind (.pure _ (twins.withActionOut (fits.actionOut.overwrite written.out)))
  | ok u written =>
    have short := length_valueWrite wrote
    refine .ite (fun long => .set_bind ?_) fun _ => ?_
    · have bounds : 1 ≤ o.actionSize ∧ o.actionSize ≤ 32768 := by
        rw [Origin.actionSize, ← fits.maxPdu]
        split_ifs <;> omega
      exact handleActionRespNext_twin env _ _ _ _
        (twins.withActionOut (BlockOut.same_start _ _ _ written.out short bounds))
    · exact .set_bind (respond _ (twins.withActionOut (fits.actionOut.overwrite written.out)))

theorem accumulateActionParamBlock_twin (block : DataBlock) :
    Twin (Twins o 0 rx) (accumulateActionParamBlock env invoke block) := by
  intro s t twins
  have respond (resp : ActionResponse) {s t : Server σ} (twins : Twins o 0 rx s t) :=
    sendActionResponse_twin env invoke resp s t twins
  obtain ⟨r, rfl, fits⟩ := id twins
  have pending : BlockIn.Same s.pendingActionIn (s.graft r).pendingActionIn := fits.actionIn
  refine .get_bind ?_
  dsimp only
  rw [pending.active]
  refine .ite (fun _ => respond _ twins) fun idle => ?_
  have same : (s.graft r).pendingActionIn = s.pendingActionIn := pending.content (by simpa using idle)
  rw [same]
  refine .ite (fun _ => .set_bind (respond _ (twins.withActionIn (.refl _)))) fun _ => ?_
  refine .ite (fun _ => .set_bind (respond _ (twins.withActionIn (.refl _)))) fun _ => .set_bind ?_
  refine (readBuffered_twin env _ _ _ (twins.withActionIn (.refl _))).bind fun read s t twins => ?_
  obtain ⟨err, param⟩ := read
  cases err with
  | ok =>
    exact (dispatchAction_twin env _ param .null s t twins).bind fun result =>
      sendActionInvokeResult_twin env _ _ _
  | _ => exact sendActionInvokeResult_twin env _ _ _ s t twins

theorem handleAction_twin (req : ActionRequest) : Twin (Twins o 0 rx) (handleAction env req) := by
  unfold handleAction
  cases req.kind with
  | nextParamBlock => exact handleActionRespNext_twin env _ _
  | withFirstParamBlock =>
    intro s t twins
    exact .modify_bind (accumulateActionParamBlock_twin env _ _ _ _ (twins.withActionIn (.refl _)))
  | withParamBlock => exact accumulateActionParamBlock_twin env _ _
  | withList =>
    refine (sendList_twin env 0xC7 _ (fun item => ?_) req.items).bind fun result =>
      serverFlushAction_twin env result
    refine (dispatchAction_twin env _ _ _).bind fun result s t twins => ?_
    obtain ⟨r, rfl, fits⟩ := id twins
    exact .get_bind (.pure _ twins)
  | normal =>
    refine (dispatchAction_twin env _ _ _).bind fun result => ?_
    exact (sendActionResponse_twin env _ _).bind fun sent => serverFlushAction_twin env sent

end Services

end OpenSpodes
