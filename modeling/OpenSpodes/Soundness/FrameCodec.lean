import OpenSpodes.Proofs.ParserLocal
import OpenSpodes.Soundness.FrameExtraction

/-! # The frame codec

What the encoder writes is decoded to the same frame; a short burst of errors in it is always noticed, since the frame
check sequence covers everything between the flags; and whatever is decoded, no byte outside the frame is read. The last
rests on the two check sequences: where they overlap the length of the information field would wrap around, but then they
are not both right.
-/

namespace OpenSpodes

variable {data : List UInt8} {pos : ℕ}

/-! ## Round trip -/

/-- A frame that the encoder was given comes back from the decoder. -/
theorem frame_round_trip {f : HdlcFrame} {maxLen : ℕ} (destination : f.destination.Valid) (source : f.source.Valid)
    (type : f.control.type ≠ .sabm) (sendSeq : f.control.sendSeq < 8) (recvSeq : f.control.recvSeq < 8)
    (unsegmented : f.segmented = false) (short : f.info.length ≤ 1024) (room : makeFrameLength f + 4 ≤ maxLen) :
    ∃ bytes got, hdlcFrame f maxLen = .ok bytes ∧ hdlcDeframe bytes bytes.length = (.ok, got) ∧
      f.Conveys got ∧ got.segmented = f.segmented ∧ (f.control.type = .i → got.control.sendSeq = f.control.sendSeq) ∧
      (f.control.type ∈ [.i, .rr, .rnr, .rej] → got.control.recvSeq = f.control.recvSeq) := by
  have low {seq : UInt8} (bound : seq < 8) : seq &&& 7 = seq := by
    have all : ∀ n : Fin 8, UInt8.ofNat n &&& 7 = UInt8.ofNat n := by decide
    simpa using all ⟨seq.toNat, UInt8.lt_iff_toNat_lt.mp bound⟩
  obtain ⟨valid, -⟩ := HdlcFrame.valid_of_short destination source type short
  have conveys := HdlcFrame.conveys_received short
  have framed : hdlcFrame f maxLen = .ok f.unsegmented.encoding := by
    unfold hdlcFrame
    dsimp only
    rw [if_neg (by omega)]
    rfl
  have read := hdlcDeframe_encoding valid []
  rw [List.append_nil] at read
  refine ⟨_, _, framed, read, conveys, conveys.segmented.trans unsegmented.symm, ?_, ?_⟩
  · intro isInfo
    rw [conveys.sendSeq isInfo, low sendSeq]
  · intro numbered
    rw [conveys.recvSeq numbered, low recvSeq]

/-- An answer of five bytes from a server to its client. -/
def shortAnswer : HdlcFrame :=
  { destination := [0x21], source := [0x03], control := { type := .i, sendSeq := 2, recvSeq := 5 }
    info := [0xE6, 0xE7, 0x00, 0xC4, 0x01] }

theorem shortAnswer_valid : shortAnswer.destination.Valid ∧ shortAnswer.source.Valid :=
  ⟨⟨by decide, [], 0x21, rfl, by simp, by decide⟩, ⟨by decide, [], 0x03, rfl, by simp, by decide⟩⟩

theorem frame_round_trip_answer :
    ∃ bytes got, hdlcFrame shortAnswer 64 = .ok bytes ∧ hdlcDeframe bytes bytes.length = (.ok, got) ∧
      shortAnswer.Conveys got ∧ got.segmented = false ∧ got.control.sendSeq = 2 ∧ got.control.recvSeq = 5 := by
  have room : makeFrameLength shortAnswer + 4 ≤ 64 := by decide
  obtain ⟨bytes, got, framed, read, conveys, unsegmented, send, recv⟩ := frame_round_trip shortAnswer_valid.1
    shortAnswer_valid.2 (by decide) (by decide) (by decide) rfl (by decide) room
  exact ⟨bytes, got, framed, read, conveys, unsegmented, send rfl, recv (by decide)⟩

/-! ## What is accepted -/

/-- Where the control byte of a decoded frame stands. -/
def HdlcFrame.controlAt (f : HdlcFrame) : ℕ := 3 + f.destination.length + f.source.length

/-- What the decoder checked in a frame that it accepted, and which bytes it took for the information field. -/
structure Accepted (mem : List UInt8) (len : ℕ) (f : HdlcFrame) : Prop where
  long : 6 ≤ len
  frameCheck : fcsBytes (hdlcFcs16 ((mem.drop 1).take (len - 4))) = fcsAt mem (len - 3)
  info : f.controlAt + 1 = len - 3 ∧ f.info = [] ∨
    f.controlAt + 1 < len - 3 ∧ fcsBytes (hdlcFcs16 ((mem.drop 1).take f.controlAt)) = fcsAt mem (f.controlAt + 1) ∧
      f.info = hdlcInfo mem (len - 3) (f.controlAt + 3)

theorem hdlcDeframe_accepted {mem : List UInt8} {len : ℕ} {f : HdlcFrame} (read : hdlcDeframe mem len = (.ok, f)) :
    Accepted mem len f := by
  unfold hdlcDeframe at read
  dsimp only at read
  split_ifs at read with unframed announced checked outside more header
  · cases read
  · cases read
  · cases read
  · cases read
  · split at read <;> cases read
  · split at read
    · cases read
    · cases read
      exact ⟨by omega, not_not.mp checked, .inr ⟨more, not_not.mp header, rfl⟩⟩
  · split at read
    · cases read
    · cases read
      exact ⟨by omega, not_not.mp checked, .inl ⟨by simp only [HdlcFrame.controlAt]; omega, rfl⟩⟩

/-! ## Bursts of errors -/

/-- A frame that is accepted has its own check sequence before the closing flag. -/
theorem Accepted.checked {body : List UInt8} {f : HdlcFrame}
    (accepted : Accepted (0x7E :: body ++ [0x7E]) (body.length + 2) f) :
    ∃ content, body = content ++ fcsBytes (hdlcFcs16 content) := by
  have long := accepted.long
  obtain ⟨content, first, second, rfl⟩ : ∃ content first second, body = content ++ [first, second] := by
    rcases List.eq_nil_or_concat body with rfl | ⟨front, second, rfl⟩
    · simp at long
    · rcases List.eq_nil_or_concat front with rfl | ⟨content, first, rfl⟩
      · simp at long
      · exact ⟨content, first, second, by simp⟩
  have check := accepted.frameCheck
  have covered : ((0x7E :: (content ++ [first, second]) ++ [0x7E]).drop 1).take ((content ++ [first, second]).length + 2 - 4) =
      content := by simp
  have sequence : fcsAt (0x7E :: (content ++ [first, second]) ++ [0x7E]) ((content ++ [first, second]).length + 2 - 3) =
      [first, second] := by simp [fcsAt]
  rw [covered, sequence] at check
  exact ⟨content, by rw [check]⟩

/-- A burst of at most 16 bits between the flags of a frame is always noticed. -/
theorem burst_detected {f : HdlcFrame} {maxLen : ℕ} {body noise : List UInt8} {start : ℕ}
    (framed : hdlcFrame f maxLen = .ok (0x7E :: body ++ [0x7E])) (same : noise.length = body.length)
    (flipped : true ∈ bitsOf noise) (burst : ∀ i, (bitsOf noise)[i]? = some true → start ≤ i ∧ i < start + 16) :
    (hdlcDeframe (0x7E :: List.zipWith (· ^^^ ·) body noise ++ [0x7E]) (body.length + 2)).1 ≠ .ok := by
  obtain ⟨content, rfl⟩ : ∃ content, body = content ++ fcsBytes (hdlcFcs16 content) := by
    refine ⟨f.unsegmented.content, ?_⟩
    have encoded := hdlcFrame_eq framed
    rw [HdlcFrame.encoding, List.append_assoc [0x7E]] at encoded
    exact (List.cons.inj (List.append_cancel_right encoded)).2
  intro accepted
  have length : (List.zipWith (· ^^^ ·) (content ++ fcsBytes (hdlcFcs16 content)) noise).length =
      (content ++ fcsBytes (hdlcFcs16 content)).length := by
    rw [List.length_zipWith, same, Nat.min_self]
  rw [← length] at accepted
  obtain ⟨content', changed⟩ := (hdlcDeframe_accepted (Prod.ext accepted rfl)).checked
  exact no_burst_between_checked same changed.symm burst flipped

/-- The bytes between the flags of the answer, and 16 flipped bits across three of them. -/
theorem burst_detected_answer : ∃ body, hdlcFrame shortAnswer 64 = .ok (0x7E :: body ++ [0x7E]) ∧
      (hdlcDeframe (0x7E :: List.zipWith (· ^^^ ·) body (List.replicate 7 0 ++ [0xF0, 0xFF, 0x0F] ++ List.replicate 4 0) ++
        [0x7E]) (body.length + 2)).1 ≠ .ok := by
  have framed : hdlcFrame shortAnswer 64 = .ok (0x7E :: (shortAnswer.content ++ fcsBytes (hdlcFcs16 shortAnswer.content)) ++
      [0x7E]) := by decide +kernel
  have set : ∀ i < 112, (bitsOf (List.replicate 7 0 ++ [0xF0, 0xFF, 0x0F] ++ List.replicate 4 0))[i]? = some true →
      60 ≤ i ∧ i < 60 + 16 := by decide +kernel
  have burst (i : ℕ) (one : (bitsOf (List.replicate 7 0 ++ [0xF0, 0xFF, 0x0F] ++ List.replicate 4 0))[i]? = some true) :=
    set i (by simpa [length_bitsOf] using (List.getElem?_eq_some_iff.mp one).1) one
  exact ⟨_, framed, burst_detected framed (by decide +kernel) (by decide +kernel) burst⟩

/-! ## Hostile input -/

/-- The bytes of an array from `pos` on, each access checked. -/
def bytesAt (data : List UInt8) (pos n : ℕ) : Option (List UInt8) := (List.range' pos n).mapM (data[·]?)

/-- The address loop of `osp_hdlc_deframe`, each access checked. -/
def addressAt (data : List UInt8) (stop : ℕ) : ℕ → ℕ → Option HdlcAddress
  | 0, _ => some []
  | n + 1, idx =>
      if idx < stop then do
        let byte ← data[idx]?
        if byte &&& 1 ≠ 0 then return [byte] else return byte :: (← addressAt data stop n (idx + 1))
      else some []

/-- `osp_hdlc_deframe` on an array of exactly the given bytes: `none` as soon as an index outside is read. -/
def hdlcDeframeChecked (data : List UInt8) : Option (Err × HdlcFrame) := do
  let len := data.length
  if len < 6 then return (.invalid, {})
  if (← data[0]?) ≠ 0x7E then return (.invalid, {})
  if (← data[len - 1]?) ≠ 0x7E then return (.invalid, {})
  let format : UInt8 ← data[1]?
  if format &&& 0xF0 ≠ 0xA0 then return (.invalid, {})
  let flen := (format &&& 7).toNat * 256 + (← data[2]?).toNat
  if flen < 4 ∨ flen + 2 > len then return (.invalid, {})
  let fcsStart := len - 3
  if fcsBytes (hdlcFcs16 (← bytesAt data 1 (len - 4))) ≠ (← bytesAt data fcsStart 2) then return (.invalid, {})
  let destination ← addressAt data fcsStart 4 3
  let source ← addressAt data fcsStart 4 (3 + destination.length)
  let idx := 3 + destination.length + source.length
  if idx ≥ fcsStart then return (.invalid, {})
  let raw ← data[idx]?
  let frame : HdlcFrame :=
    { destination := destination, source := source, controlRaw := raw, segmented := format &&& 8 != 0 }
  match hdlcControlDecode raw with
  | none => return (.unsupported, frame)
  | some control =>
      let idx := idx + 1
      if idx < fcsStart then
        if fcsBytes (hdlcFcs16 (← bytesAt data 1 (idx - 1))) ≠ (← bytesAt data idx 2) then return (.invalid, {})
        -- a 16-bit difference, cut to the array
        let infoLen := min ((fcsStart + 2 ^ 16 - (idx + 2)) % 2 ^ 16) hdlcMaxFrameSize
        return (.ok, { frame with control := control, info := ← bytesAt data (idx + 2) infoLen })
      else return (.ok, { frame with control := control })

theorem bytesAt_inside {n : ℕ} (inside : pos + n ≤ data.length) :
    bytesAt data pos n = some ((data.drop pos).take n) := by
  induction n generalizing pos with
  | zero => simp [bytesAt]
  | succ n ih =>
    have here : pos < data.length := by omega
    have later := ih (show pos + 1 + n ≤ data.length by omega)
    unfold bytesAt at later ⊢
    rw [List.range'_succ, List.mapM_cons, later, List.getElem?_eq_getElem here, List.drop_eq_getElem_cons here,
      List.take_succ_cons]
    rfl

theorem addressAt_inside {stop : ℕ} (inside : stop ≤ data.length) (n idx : ℕ) :
    addressAt data stop n idx = some (hdlcReadAddress n ((data.take stop).drop idx)) := by
  induction n generalizing idx with
  | zero => rfl
  | succ n ih =>
    unfold addressAt
    by_cases more : idx < stop
    · have here : idx < (data.take stop).length := by rw [List.length_take]; omega
      rw [if_pos more, List.getElem?_eq_getElem (by omega), List.drop_eq_getElem_cons here, List.getElem_take,
        hdlcReadAddress, ih]
      change (if _ then _ else _) = _
      split
      · rfl
      · rfl
    · rw [if_neg more, List.drop_eq_nil_of_le (by rw [List.length_take]; omega)]
      rfl

theorem bytesAt_two (inside : pos + 2 ≤ data.length) : bytesAt data pos 2 = some (fcsAt data pos) := by
  have byte {i : ℕ} (here : i < data.length) : data[i]? = some (data.getD i 0) := by simp [here]
  change (do return [← data[pos]?, ← data[pos + 1]?]) = _
  rw [byte (by omega), byte (by omega)]
  rfl

/-- Where both check sequences are right, the information field lies between them. -/
theorem hdlcInfo_between {len : ℕ} (held : len ≤ data.length) (small : len < 2 ^ 16)
    (frame : fcsBytes (hdlcFcs16 ((data.drop 1).take (len - 4))) = fcsAt data (len - 3)) (more : pos + 1 < len - 3)
    (header : fcsBytes (hdlcFcs16 ((data.drop 1).take pos)) = fcsAt data (pos + 1)) :
    pos + 3 ≤ len - 3 ∧ (len - 3 + 2 ^ 16 - (pos + 3)) % 2 ^ 16 = len - 3 - (pos + 3) ∧
      hdlcInfo data (len - 3) (pos + 3) = (data.drop (pos + 3)).take (min (len - 3 - (pos + 3)) hdlcMaxFrameSize) := by
  have room : pos + 3 ≤ len - 3 := by
    by_contra overlap
    rw [show len - 4 = pos + 1 by omega, show len - 3 = pos + 2 by omega] at frame
    exact checks_overlap (by omega) header frame
  have length : (len - 3 + 2 ^ 16 - (pos + 3)) % 2 ^ 16 = len - 3 - (pos + 3) := by omega
  refine ⟨room, length, ?_⟩
  rw [hdlcInfo, length, ← List.append_nil (data.drop _), padTo_append, List.append_nil]
  rw [List.length_drop]
  omega

/-- Every access of the decoder is inside the array. -/
theorem hdlcDeframeChecked_eq (small : data.length < 2 ^ 16) :
    hdlcDeframeChecked data = some (hdlcDeframe data data.length) := by
  by_cases short : data.length < 6
  · simp [hdlcDeframeChecked, hdlcDeframe, short]
  have byte {i : ℕ} (inside : i < data.length) : data[i]? = some (data.getD i 0) := by
    simp [inside]
  unfold hdlcDeframeChecked hdlcDeframe
  simp only [short, byte (show 0 < data.length by omega), byte (show data.length - 1 < data.length by omega),
    byte (show 1 < data.length by omega), byte (show 2 < data.length by omega),
    bytesAt_inside (show 1 + (data.length - 4) ≤ data.length by omega),
    bytesAt_two (show data.length - 3 + 2 ≤ data.length by omega),
    addressAt_inside (show data.length - 3 ≤ data.length by omega), Option.pure_def, Option.bind_eq_bind,
    Option.bind_some, if_false, false_or]
  generalize hdlcReadAddress 4 ((data.take (data.length - 3)).drop 3) = destination
  generalize hdlcReadAddress 4 ((data.take (data.length - 3)).drop (3 + destination.length)) = source
  generalize place : 3 + destination.length + source.length = idx
  simp only [ite_or, apply_ite some]
  refine ite_congr rfl (fun _ => rfl) fun _ => ite_congr rfl (fun _ => rfl) fun _ => ?_
  refine ite_congr rfl (fun _ => rfl) fun _ => ite_congr rfl (fun _ => rfl) fun _ => ?_
  refine ite_congr rfl (fun _ => rfl) fun _ => ite_congr rfl (fun _ => rfl) fun checked => ?_
  refine ite_congr rfl (fun _ => rfl) fun inside => ?_
  rw [byte (by omega), Option.bind_some]
  cases hdlcControlDecode (data.getD idx 0) with
  | none => rfl
  | some control =>
    simp only [apply_ite some]
    refine ite_congr rfl (fun more => ?_) fun _ => rfl
    rw [bytesAt_inside (by omega), bytesAt_two (by omega), Option.bind_some, Option.bind_some]
    refine ite_congr rfl (fun _ => rfl) fun header => ?_
    obtain ⟨room, length, info⟩ := hdlcInfo_between le_rfl small (not_not.mp checked) more (not_not.mp header)
    rw [show idx + 1 + 2 = idx + 3 from rfl, length, info, bytesAt_inside (by omega)]
    rfl

/-- Whatever up to 1088 bytes are, the decoder reads no index outside them, and an information field that it returns is
taken from between the header check sequence and the last three bytes. -/
theorem deframe_safe {data : List UInt8} (bounded : data.length ≤ 1088) :
    hdlcDeframeChecked data = some (hdlcDeframe data data.length) ∧
      ∀ f, hdlcDeframe data data.length = (.ok, f) → f.info = [] ∨
        f.controlAt + 3 ≤ data.length - 3 ∧ f.info.length ≤ 1024 ∧
          f.info <+: (data.take (data.length - 3)).drop (f.controlAt + 3) := by
  have small : data.length < 2 ^ 16 := by omega
  refine ⟨hdlcDeframeChecked_eq small, fun f read => ?_⟩
  have accepted := hdlcDeframe_accepted read
  rcases accepted.info with ⟨-, none⟩ | ⟨more, header, info⟩
  · exact .inl none
  · obtain ⟨room, -, between⟩ := hdlcInfo_between le_rfl small accepted.frameCheck more header
    rw [between] at info
    refine .inr ⟨room, ?_, ?_⟩
    · rw [info, List.length_take]
      exact (min_le_left _ _).trans (min_le_right _ _)
    · rw [info, List.drop_take]
      exact List.take_prefix_take_left (min_le_left _ _)

theorem deframe_safe_answer :
    ∃ bytes f, hdlcFrame shortAnswer 64 = .ok bytes ∧ hdlcDeframe bytes bytes.length = (.ok, f) ∧
      hdlcDeframeChecked bytes = some (.ok, f) ∧ f.info.length = 5 ∧
      f.info <+: (bytes.take (bytes.length - 3)).drop (f.controlAt + 3) := by
  have read := hdlcDeframe_encoding (f := shortAnswer)
    ⟨shortAnswer_valid.1, shortAnswer_valid.2, by decide, by decide⟩ []
  rw [List.append_nil] at read
  obtain ⟨checked, inside⟩ := deframe_safe (show shortAnswer.encoding.length ≤ 1088 by decide +kernel)
  rw [read] at checked
  rcases inside _ read with none | ⟨-, -, taken⟩
  · cases none
  · exact ⟨_, _, rfl, read, checked, rfl, taken⟩

end OpenSpodes
