import OpenSpodes.Proofs.InfoFrames

/-! # Receptions from a script of whole frames

When every piece that the transport delivers is one whole frame and nothing waits in the buffer, a reception reads
past timeouts and failures to the next frame and handles it, or it ends without one. Either way nothing waits in the
buffer behind it.
-/

namespace OpenSpodes

open Machine

variable {rx : List RxEvent} {event : RxEvent} {fuel : ℕ} {mem : List UInt8}

theorem HdlcFrame.encoding_ne_nil (f : HdlcFrame) : f.encoding ≠ [] := by
  intro empty
  have length := f.length_encoding
  rw [empty, List.length_nil] at length
  omega

/-- Every piece of a script is one frame that fits into the receive buffer. -/
def WholeFrames (rx : List RxEvent) : Prop :=
  ∀ bytes, .bytes bytes ∈ rx → ∃ f : HdlcFrame, f.Valid ∧ f.encoding.length ≤ sessionBufSize ∧ bytes = f.encoding

theorem WholeFrames.tail (whole : WholeFrames (event :: rx)) : WholeFrames rx :=
  fun bytes member => whole bytes (List.mem_cons_of_mem _ member)

/-- How a wait for a frame ends: without one, or with the first of the script. -/
inductive Waited (w : Wire) (rx : List RxEvent) : Err × HdlcFrame → Wire → Prop
  | ended {received : Err × HdlcFrame} {idle rest : List RxEvent} {mem : List UInt8} : received.1 ≠ .ok →
      rx = idle ++ rest → (∀ event ∈ idle, event.data? = none) → Waited w rx received (w.buffering [] mem rest)
  | frame {f : HdlcFrame} {idle rest : List RxEvent} {mem : List UInt8} : f.Valid →
      f.encoding.length ≤ sessionBufSize → rx = idle ++ .bytes f.encoding :: rest →
      (∀ event ∈ idle, event.data? = none) → Waited w rx (.ok, f.received) (w.buffering [] mem rest)

theorem Waited.behind {w after : Wire} {idle : List RxEvent} {received : Err × HdlcFrame}
    (quiet : ∀ event ∈ idle, event.data? = none) (waited : Waited w rx received after) :
    Waited w (idle ++ rx) received after := by
  cases waited with
  | @ended _ more rest _ failed split quiet' =>
    refine .ended failed (by rw [split, List.append_assoc]) ?_
    exact List.forall_mem_append.mpr ⟨quiet, quiet'⟩
  | @frame f more rest _ valid small split quiet' =>
    refine .frame valid small (by rw [split, List.append_assoc]) ?_
    exact List.forall_mem_append.mpr ⟨quiet, quiet'⟩

theorem Waited.cons {w after : Wire} {received : Err × HdlcFrame} (quiet : event.data? = none)
    (waited : Waited w rx received after) : Waited w (event :: rx) received after := by
  rw [← List.singleton_append]
  exact waited.behind (by simpa using quiet)

theorem sessionParse_empty (mem : List UInt8) : sessionParse 1 mem 0 = .more mem 0 := by
  simp [sessionParse, moveFront]

variable {w after : Wire} {forever : Bool} {received : Err × HdlcFrame}

theorem sessionRecvLoop_waited (whole : WholeFrames rx)
    (returned : sessionRecvLoop forever fuel (w.buffering [] mem rx) = some (received, after)) :
    Waited w rx received after := by
  -- a timeout or a failure at the head of the script ends the wait
  have quiet {mem : List UInt8} {rx : List RxEvent} (event : RxEvent) {received : Err × HdlcFrame}
      (idle : event.data? = none) (failed : received.1 ≠ .ok) : Waited w (event :: rx) received (w.buffering [] mem rx) :=
    .ended failed (List.singleton_append).symm (by simpa using idle)
  induction fuel generalizing mem rx with
  | zero => cases returned
  | succ fuel ih =>
    have parsed : sessionParse ((w.buffering [] mem rx).hdlc.rxPendingLen + 1) (w.buffering [] mem rx).hdlc.rxBuf
        (w.buffering [] mem rx).hdlc.rxPendingLen = .more mem 0 := sessionParse_empty mem
    cases rx with
    | nil =>
      rw [sessionRecvLoop, session_bind_apply, parsed] at returned
      cases returned
    | cons event rx =>
      cases event with
      | expired =>
        rw [sessionRecvLoop, session_bind_apply, parsed] at returned
        change (if forever then _ else _ : Program Wire _) (w.buffering [] mem rx) = _ at returned
        by_cases patient : forever = true
        · rw [if_pos patient] at returned
          exact (ih whole.tail returned).cons rfl
        · rw [if_neg patient] at returned
          cases returned
          exact quiet (.expired) rfl (by decide)
      | failed err =>
        rw [sessionRecvLoop, session_bind_apply, parsed] at returned
        cases err with
        | timeout =>
          change (if 0 > 0 ∨ forever then _ else _ : Program Wire _) (w.buffering [] mem rx) = _ at returned
          by_cases patient : 0 > 0 ∨ forever = true
          · rw [if_pos patient] at returned
            exact (ih whole.tail returned).cons rfl
          · rw [if_neg patient] at returned
            cases returned
            exact quiet _ rfl (by decide)
        | _ =>
          cases returned
          exact quiet _ rfl (by decide)
      | bytes data =>
        obtain ⟨f, valid, small, rfl⟩ := whole data List.mem_cons_self
        have parsed : sessionParse (([] : List UInt8).length + 1) ([] ++ mem) ([] : List UInt8).length =
            .more ([] ++ mem) ([] : List UInt8).length := sessionParse_empty mem
        rw [sessionRecvLoop_fed parsed f.encoding_ne_nil (by simpa using small)] at returned
        cases fuel with
        | zero => cases returned
        | succ fuel =>
          obtain ⟨mem', taken⟩ := sessionParse_whole valid small List.not_mem_nil []
            (mem.drop f.encoding.length) f.encoding.length
          rw [List.append_nil, List.nil_append] at taken
          rw [List.nil_append, sessionRecvLoop_parsed taken (by decide)] at returned
          cases returned
          exact .frame valid small (List.nil_append _).symm (by simp)

theorem sessionRecvIntact_waited (whole : WholeFrames rx)
    (returned : sessionRecvIntact forever fuel (w.buffering [] mem rx) = some (received, after)) :
    Waited w rx received after := by
  induction fuel generalizing mem rx with
  | zero => cases returned
  | succ fuel ih =>
    obtain ⟨first, middle, waited, rest⟩ := bind_eq_some.mp returned
    rw [sessionRecvFrame, get_bind_apply] at waited
    cases sessionRecvLoop_waited whole waited with
    | @ended _ idle behind _ failed split quiet =>
      by_cases damaged : first.1 = .invalid
      · rw [if_pos damaged] at rest
        have whole' : WholeFrames behind := fun bytes member => whole bytes (by simp [split, member])
        rw [split]
        exact (ih whole' rest).behind quiet
      · rw [if_neg damaged] at rest
        cases rest
        exact .ended failed split quiet
    | frame valid small split quiet =>
      rw [if_neg (by simp)] at rest
      cases rest
      exact .frame valid small split quiet

/-- A reception ends without a frame, or it handles the first one of the script. -/
theorem hdlcSessionRecvApdu_waited {size : ℕ} {result : Except Err (List UInt8)}
    (connected : w.hdlc.state = .connected) (fresh : w.hdlc.rxPendingLen = 0) (whole : WholeFrames w.world.rx)
    (returned : hdlcSessionRecvApdu forever size w = some (result, after)) :
    ∃ idle, (∀ event ∈ idle, RxEvent.data? event = none) ∧
      ((∃ err rest mem, result = .error err ∧ w.world.rx = idle ++ rest ∧ after = w.buffering [] mem rest) ∨
        ∃ f rest mem, w.world.rx = idle ++ .bytes (HdlcFrame.encoding f) :: rest ∧ f.Valid ∧
          sessionHandleFrame f.received size (w.buffering [] mem rest) = some (result, after)) := by
  rw [hdlcSessionRecvApdu, session_bind_apply, if_neg (not_not.mpr connected), get_bind_apply] at returned
  obtain ⟨received, middle, waited, rest⟩ := bind_eq_some.mp returned
  rw [← Wire.buffering_nil fresh] at waited
  cases sessionRecvIntact_waited whole waited with
  | @ended _ idle behind mem failed split quiet =>
    dsimp only at rest
    rw [if_pos failed] at rest
    cases rest
    exact ⟨idle, quiet, .inl ⟨_, behind, mem, rfl, split, rfl⟩⟩
  | @frame f idle behind mem valid small split quiet =>
    dsimp only at rest
    rw [if_neg (by simp)] at rest
    exact ⟨idle, quiet, .inr ⟨f, behind, mem, split, valid, rest⟩⟩

/-- An acknowledgement or a frame reject leaves the session as it is, but for the frame it settles. -/
theorem sessionHandleFrame_reply {frame : HdlcFrame} (size : ℕ) (w : Wire)
    (type : frame.control.type = .rr ∨ frame.control.type = .frmr) :
    ∃ err hdlc world, sessionHandleFrame frame size w = some (.error err, (w.setHdlc hdlc).setWorld world) ∧
      (hdlc = w.hdlc ∨ hdlc = { w.hdlc with hasPendingRetransmit := false }) ∧ w.Replied frame.source world := by
  let timeout : Program Wire (Except Err (List UInt8)) := return .error .timeout
  rw [sessionHandleFrame]
  by_cases info : frame.info.length > 0 ∧ !frameAllowsInfo frame.control.type
  · rw [if_pos info]
    obtain ⟨world, returned, replied, -⟩ := frmr_then w frame.source frame.controlRaw 0x03 timeout
    exact ⟨_, _, world, returned, .inl rfl, replied⟩
  rw [if_neg info]
  rcases type with type | type
  · rw [if_neg (by simp [type])]
    by_cases number : frame.control.recvSeq ≠ w.hdlc.sendSeq
    · obtain ⟨world, returned, replied, -⟩ := frmr_then w frame.source frame.controlRaw 0x08 (return Err.timeout)
      have handled : sessionHandleControl frame w = some (.timeout, w.setWorld world) := by
        rw [sessionHandleControl, session_bind_apply, type]
        exact (congrFun (if_pos number) w).trans returned
      exact ⟨_, _, world, bind_of_some handled, .inl rfl, replied⟩
    · have handled : sessionHandleControl frame w =
          some (.timeout, w.setHdlc { w.hdlc with hasPendingRetransmit := false }) := by
        rw [sessionHandleControl, session_bind_apply, type]
        exact congrFun (if_neg number) w
      exact ⟨_, _, w.world, bind_of_some handled, .inr rfl, .silent _ _⟩
  · rw [if_neg (by simp [type])]
    have handled : sessionHandleControl frame w = some (.invalid, w) := by
      rw [sessionHandleControl, session_bind_apply, type]
      rfl
    exact ⟨_, _, w.world, bind_of_some handled, .inl rfl, .silent _ _⟩

end OpenSpodes
