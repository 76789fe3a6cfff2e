import Can4vscp.AdapterHears
import Can4vscp.Deframe
import Can4vscp.Lib.Lockstep

/-!
# Can4vscp.Deframers

The receive machine of the driver and the parser of the adapter emulator on one line.

Both take the frames out of a line, written down twice.  They differ in three places
(`parts`): a DLE before the DLE STX of a frame makes the driver miss the frame, a frame that
is too long for its buffer is given up by the driver, and a DLE in a frame before a byte that
is no delimiter is dropped by the driver, where the emulator gives the frame up.
`deframers_agree` shows that there are no others.
-/

namespace Can4vscp

open Memory ByteStuffing Pipeline

variable (crc8 : UInt8 → UInt8 → UInt8) (garbage : Mem UInt8)

/-! ## the two parsers -/

/-- One byte for the driver, and the content of the frame it completes. -/
def report (rx : RxState) (c : UInt8) : RxState × List (List UInt8) :=
  ((rxByte rx c).1, if (rxByte rx c).2 then [(rxByte rx c).1.content] else [])

theorem transduce_report (k : Nat) (rx : RxState) (cs : List UInt8) :
    transduce report rx cs = ((feed k rx cs).1, (feed k rx cs).2.map fun r => r.rx.content) := by
  induction cs generalizing k rx with
  | nil => rfl
  | cons c cs ih =>
      simp only [transduce, report, feed, ih (k + 1)]
      cases (rxByte rx c).2 <;> simp

/-- The parsers are both between frames, or hold the same part of a frame. -/
inductive SamePlace (rx : RxState) (e : Emulator) : Prop where
  | between (hs : rx.rxMsgState = .none) (hin : e.bInFrame = false) (hno : e.bPendingDLE = false)
      (hdle : e.bLastWasDLE = (rx.rxMsgSubState == .dle))
  | inside (hs : rx.rxMsgState = .stx) (hin : e.bInFrame = true)
      (hdle : e.bPendingDLE = (rx.rxMsgSubState == .dle)) (hframe : e.frame = rx.content)

/-- The bytes that take them apart. -/
def parts (rx : RxState) (c : UInt8) : Bool :=
  match rx.rxMsgState, rx.rxMsgSubState with
  -- the driver forgets the DLE before it, and the emulator does not
  | .none, .dle => c == DLE
  -- no room: the driver starts all over
  | .stx, .none => c != DLE && bufferMsgRcvSize ≤ rx.lengthMsgRcv
  | .stx, .dle =>
    if c = DLE then bufferMsgRcvSize ≤ rx.lengthMsgRcv
    -- the driver stores the byte, and the emulator starts all over
    else !delimits c && rx.lengthMsgRcv < bufferMsgRcvSize
  | _, _ => false

variable {crc8} {garbage} {rx : RxState} {e : Emulator} {c : UInt8}

/-! ## where the parsers are -/

variable (rx) in
theorem samePlace_none_iff (hs : rx.rxMsgState = .none) :
    SamePlace rx e ↔ e.bInFrame = false ∧ e.bPendingDLE = false ∧
      e.bLastWasDLE = (rx.rxMsgSubState == .dle) := by
  constructor
  · intro h
    cases h with
    | between _ hin hno hdle => exact ⟨hin, hno, hdle⟩
    | inside hstx => simp [hs] at hstx
  · rintro ⟨hin, hno, hdle⟩
    exact .between hs hin hno hdle

variable (rx) in
theorem samePlace_stx_iff (hs : rx.rxMsgState = .stx) :
    SamePlace rx e ↔ e.bInFrame = true ∧ e.bPendingDLE = (rx.rxMsgSubState == .dle) ∧
      e.frame = rx.content := by
  constructor
  · intro h
    cases h with
    | between hnone => simp [hs] at hnone
    | inside _ hin hdle hframe => exact ⟨hin, hdle, hframe⟩
  · rintro ⟨hin, hdle, hframe⟩
    exact .inside hs hin hdle hframe

theorem samePlace_reset_iff :
    SamePlace rx.reset e ↔ e.bInFrame = false ∧ e.bPendingDLE = false ∧ e.bLastWasDLE = false :=
  samePlace_none_iff rx.reset rfl

theorem samePlace_start_iff :
    SamePlace rx.start e ↔ e.bInFrame = true ∧ e.bPendingDLE = false ∧ e.frame = [] :=
  samePlace_stx_iff rx.start rfl

/-- A byte of a frame, as long as there is room. -/
theorem samePlace_data_iff (hs : rx.rxMsgState = .stx) :
    SamePlace (rx.data c) e ↔
      if rx.lengthMsgRcv < bufferMsgRcvSize then
        e.bInFrame = true ∧ e.bPendingDLE = false ∧ e.frame = rx.content ++ [c]
      else e.bInFrame = false ∧ e.bPendingDLE = false ∧ e.bLastWasDLE = false := by
  by_cases hroom : rx.lengthMsgRcv < bufferMsgRcvSize
  · have hstx : (rx.data c).rxMsgState = .stx := by
      rw [RxState.data, if_pos hroom, hs]
    rw [if_pos hroom, samePlace_stx_iff _ hstx, data_sub, content_data hroom]
    rfl
  · rw [if_neg hroom, RxState.data, if_neg hroom]
    exact samePlace_reset_iff

/-! ## one byte -/

/-- The end of a frame. -/
theorem rxByte_etx (hs : rx.rxMsgState = .stx) (hsub : rx.rxMsgSubState = .dle) :
    rxByte rx ETX = ({ rx with rxMsgState := .none, rxMsgSubState := .none }, true) := by
  simp [rxByte, hs, hsub, Ne.symm ETX_ne_STX]

/-- They complete the same frames. -/
theorem SamePlace.writes (h : SamePlace rx e) :
    (report rx c).2 = (Emulator.hear crc8 garbage e c).2 := by
  by_cases hdone : (rxByte rx c).2 = true
  · obtain ⟨hs, hsub, rfl⟩ := rxByte_completes hdone
    obtain ⟨hin, hdle, hframe⟩ := (samePlace_stx_iff rx hs).mp h
    have hcontent : (rxByte rx ETX).1.content = rx.content := by
      rw [rxByte_etx hs hsub]
      rfl
    simp [report, Emulator.hear, Emulator.completed, hdone, hcontent, hin, hdle, hsub, hframe]
  · have hno : ¬ (e.bInFrame = true ∧ e.bPendingDLE = true ∧ ETX = c) := by
      rintro ⟨hin, hpending, rfl⟩
      cases h with
      | between _ hout => simp [hin] at hout
      | inside hs _ hdle _ =>
          have hsub : rx.rxMsgSubState = .dle := by simpa [hpending] using hdle.symm
          exact hdone (by rw [rxByte_etx hs hsub])
    simp [report, Emulator.hear, Emulator.completed, hdone, hno]

/-- Between frames. -/
theorem SamePlace.stays_between (hs : rx.rxMsgState = .none) (h : SamePlace rx e) :
    SamePlace (rxByte rx c).1 (Emulator.feed crc8 garbage e c).1 ↔ parts rx c = false := by
  obtain ⟨hin, hno, hdle⟩ := (samePlace_none_iff rx hs).mp h
  cases hsub : rx.rxMsgSubState with
  | none =>
      have hparts : parts rx c = false := by simp [parts, hs, hsub]
      by_cases hc : DLE = c
      · have hbyte : (rxByte rx c).1 = { rx with rxMsgSubState := .dle } := by
          simp [rxByte, hs, hsub, hc]
        rw [hbyte, samePlace_none_iff { rx with rxMsgSubState := .dle } hs]
        simp [Emulator.feed, hin, hno, hdle, hsub, hparts, hc]
      · have hbyte : (rxByte rx c).1 = rx.reset := by
          simp [rxByte, hs, hsub, hc]
        rw [hbyte, samePlace_reset_iff]
        simp [Emulator.feed, hin, hno, hdle, hsub, hparts, hc]
  | dle =>
      by_cases hstx : STX = c
      · subst hstx
        have hbyte : (rxByte rx STX).1 = rx.start := by
          simp [rxByte, hs, hsub]
        rw [hbyte, samePlace_start_iff]
        simp [Emulator.feed, hin, hno, hdle, hsub, parts, hs, STX_ne_DLE]
      · have hbyte : (rxByte rx c).1 = rx.reset := by
          simp [rxByte, hs, hsub, hstx]
        rw [hbyte, samePlace_reset_iff]
        by_cases hc : c = DLE
        · simp [Emulator.feed, hin, hno, hdle, hsub, parts, hs, hc]
        · simp [Emulator.feed, hin, hno, hdle, hsub, parts, hs, hstx, hc, Ne.symm hc]

/-- Inside a frame. -/
theorem SamePlace.stays_inside (hs : rx.rxMsgState = .stx) (h : SamePlace rx e) :
    SamePlace (rxByte rx c).1 (Emulator.feed crc8 garbage e c).1 ↔ parts rx c = false := by
  obtain ⟨hin, hdle, hframe⟩ := (samePlace_stx_iff rx hs).mp h
  cases hsub : rx.rxMsgSubState with
  | none =>
      by_cases hc : c = DLE
      · subst hc
        rw [rxByte_stx_dle rx hs hsub, samePlace_stx_iff { rx with rxMsgSubState := .dle } hs]
        simp [Emulator.feed, hin, hdle, hsub, hframe, parts, hs, RxState.content]
      · rw [rxByte_stx_data rx c hs hsub hc, samePlace_data_iff hs]
        simp [Emulator.feed, hin, hdle, hsub, hframe, parts, hs, hc, Ne.symm hc]
  | dle =>
      by_cases hc : c = DLE
      · subst hc
        rw [rxByte_stx_dle_dle rx hs hsub, samePlace_data_iff hs]
        simp [Emulator.feed, hin, hdle, hsub, hframe, parts, hs]
      · by_cases hetx : c = ETX
        · subst hetx
          rw [rxByte_etx hs hsub,
            samePlace_none_iff { rx with rxMsgState := .none, rxMsgSubState := .none } rfl]
          simp [Emulator.feed, hin, hdle, hsub, parts, hs, hc, Ne.symm hc, delimits,
            Emulator.handleFrame_flags]
        · by_cases hstx : c = STX
          · subst hstx
            have hbyte : (rxByte rx STX).1 = rx.start := by
              simp [rxByte, hs, hsub]
            rw [hbyte, samePlace_start_iff]
            simp [Emulator.feed, hin, hdle, hsub, parts, hs, hc, Ne.symm hc, Ne.symm hetx, delimits]
          · have hbyte : (rxByte rx c).1 = rx.data c := by
              simp [rxByte, hs, hsub, Ne.symm hstx, Ne.symm hetx]
            rw [hbyte, samePlace_data_iff hs]
            simp [Emulator.feed, hin, hdle, hsub, parts, hs, hc, Ne.symm hc, hetx, Ne.symm hetx, hstx,
              Ne.symm hstx, delimits]

variable (crc8) (garbage) in
theorem report_lockstep_hear :
    Lockstep report (Emulator.hear crc8 garbage) SamePlace (fun rx c => parts rx c = true) where
  writes _ _ _ h := h.writes
  stays rx e c h := by
    rw [Bool.not_eq_true]
    cases id h with
    | between hs => exact h.stays_between hs
    | inside hs => exact h.stays_inside hs

/-! ## lines of frames -/

/-- No byte of the line takes the parsers apart. -/
@[irreducible] def Undivided (rx : RxState) (line : List UInt8) : Prop :=
  Never report (fun rx c => parts rx c = true) rx line

theorem undivided_append (xs ys : List UInt8) :
    Undivided rx (xs ++ ys) ↔ Undivided rx xs ∧ Undivided (feed 0 rx xs).1 ys := by
  simp only [Undivided, never_append, transduce_report 0]

/-- A stuffed body for which there is room. -/
theorem undivided_stuff (xs : List UInt8) (hs : rx.rxMsgState = .stx) (hsub : rx.rxMsgSubState = .none)
    (hlen : rx.lengthMsgRcv + xs.length ≤ bufferMsgRcvSize) : Undivided rx (stuff DLE xs) := by
  induction xs generalizing rx with
  | nil => simp [Undivided, Never]
  | cons c xs ih =>
      rw [List.length_cons] at hlen
      have hroom : rx.lengthMsgRcv < bufferMsgRcvSize := by omega
      have hbyte : Undivided rx (stuff1 DLE c) := by
        by_cases hc : c = DLE
        · subst hc
          simp [Undivided, Never, report, rxByte_stx_dle rx hs hsub, parts, hs, hsub, hroom]
        · simp [stuff1_of_ne hc, Undivided, Never, parts, hs, hsub, hroom]
      rw [stuff_cons, undivided_append, feed_stuff1_stx 0 rx c hs hsub]
      refine ⟨hbyte, ih ?_ (data_sub rx c) ?_⟩
      · rw [RxState.data, if_pos hroom, hs]
      · rw [RxState.data, if_pos hroom]
        simp only
        omega

variable (crc8) in
/-- A frame. -/
theorem undivided_frame (f : SerialFrame) (h : rx.Live) (hsub : rx.rxMsgSubState = .none) :
    Undivided rx (f.encode crc8) := by
  have hlen := f.toFrame.length_content crc8
  have hroom : rx.start.lengthMsgRcv + (f.content crc8).length ≤ bufferMsgRcvSize := by
    have := f.fits
    simp only [RxState.start]
    omega
  rw [f.encode_eq crc8, undivided_append, undivided_append, feed_append, feed_dle_stx 0 rx h hsub,
    feed_stuff _ rx.start (f.content crc8) rfl rfl hroom]
  refine ⟨⟨?_, undivided_stuff _ rfl rfl hroom⟩, ?_⟩
  · cases h.state with
    | inl hs => simp [Undivided, Never, report, rxByte_dle rx h hsub, parts, hs, hsub, STX_ne_DLE]
    | inr hs => simp [Undivided, Never, report, rxByte_dle rx h hsub, parts, hs, hsub, STX_ne_DLE, delimits]
  · simp [Undivided, Never, report, rxByte, RxState.start, parts, ETX_ne_DLE, delimits]

variable (crc8) in
/-- Whatever frames there are, one behind the other. -/
theorem undivided_stream (fs : List SerialFrame) (h : rx.Live) (hidle : rx.Idle) :
    Undivided rx (stream crc8 fs) := by
  induction fs generalizing rx with
  | nil => simp [stream, Undivided, Never]
  | cons f fs ih =>
      obtain ⟨r, hfeed, -, -, hrIdle⟩ := feed_frame crc8 0 rx f h hidle.sub
      have hrlive : r.rx.Live := by
        have hlive := (feed_live 0 rx (f.encode crc8) h).1
        rwa [hfeed] at hlive
      rw [stream, List.flatMap_cons, undivided_append, hfeed]
      exact ⟨undivided_frame crc8 f h hidle.sub, ih hrlive hrIdle⟩

/-! ## the result -/

/-- **The two parsers agree**: from the same place they stay at the same place exactly as long
as no byte takes them apart; along such a line the frames the calls of the driver report are
the frames the emulator handles; and every line of frames is such a line. -/
theorem deframers_agree (h : SamePlace rx e) (n : Nat) (input : List ReadChar) (hn : input.length ≤ n) :
    (Together report (Emulator.hear crc8 garbage) SamePlace rx e (bytesOf input) ↔
        Undivided rx (bytesOf input)) ∧
      (Undivided rx (bytesOf input) → (rxCalls n 0 rx input).2.1.map (fun r => r.rx.content) =
        Emulator.handled crc8 garbage e (bytesOf input)) ∧
      (rx.Live → rx.Idle → ∀ fs, Undivided rx (stream crc8 fs)) := by
  refine ⟨?_, fun hundivided => ?_, fun hlive hidle fs => undivided_stream crc8 fs hlive hidle⟩
  · rw [Undivided]
    exact together_iff (report_lockstep_hear crc8 garbage) h _
  rw [Undivided] at hundivided
  have hsame := (transduce_eq (report_lockstep_hear crc8 garbage) h hundivided).1
  rw [transduce_report 0] at hsame
  rw [rxCalls_eq n 0 rx input hn]
  exact hsame

/-- Two frames; the second has a DLE in its header and one in its payload. -/
def twoFrames : List SerialFrame :=
  [⟨⟨0, 0, 5, 0, []⟩, by decide, by decide, by decide⟩,
    ⟨⟨254, 0, DLE, 2, [0, DLE]⟩, by decide, by decide, by decide⟩]

theorem deframers_agree_two :
    let input := (stream crc8Update twoFrames).map ReadChar.byte
    let frames := (rxCalls input.length 0 RxState.new input).2.1.map fun r => r.rx.content
    frames = Emulator.handled crc8Update (fun _ => 0) Emulator.new (bytesOf input) ∧ frames.length = 2 := by
  intro input frames
  have hplace : SamePlace RxState.new Emulator.new := .between rfl rfl rfl rfl
  have hagree := @deframers_agree crc8Update (fun _ => 0) _ _ hplace _ input (Nat.le_refl _)
  have hline : bytesOf input = stream crc8Update twoFrames := by decide +kernel
  have hundivided : Undivided RxState.new (bytesOf input) := by
    rw [hline]
    exact hagree.2.2 ⟨.inl rfl, Nat.zero_le _⟩ ⟨rfl, rfl⟩ twoFrames
  exact ⟨hagree.2.1 hundivided, by decide +kernel⟩

-- behind a DLE between frames, the emulator handles a frame that the driver misses
example : let line : List UInt8 := [DLE, DLE, STX, 7, DLE, ETX]
    (feed 0 RxState.new line).2.length = 0 ∧
      Emulator.handled crc8Update (fun _ => 0) Emulator.new line = [[7]] := by decide

end Can4vscp
