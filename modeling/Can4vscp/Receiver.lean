import Can4vscp.Protocol

/-!
# Can4vscp.Receiver

The receive state machine (`CCan4VSCPObj::serialData2StateMachine`).

`rxByte` is the body of its loop, one byte at a time; `serialData2StateMachine`
is one call, which reads until the serial line has nothing more to give or a
frame is complete.  How the bytes arrive is the list of the results of the
successive `readChar` calls, so every way a stream is cut into calls is some
such list.  `rxCalls_eq` removes the cuts: successive calls report what feeding
the bytes one by one reports.

The last two sections say what the body of one frame does to the machine: in a
receiver that is between frames or inside one (`feed_stuff`), and in one that
lost the beginning (`feed_stuff_aligned`).
-/

namespace Can4vscp

open Memory ByteStuffing ReadProgram

/-! ## the machine -/

/-- `INCOMING_STATE_...` -/
inductive RxMsgState where
  | none
  | stx
  | etx
  | complete
  deriving DecidableEq, Repr

/-- `INCOMING_SUBSTATE_...` -/
inductive RxMsgSubState where
  | none
  | dle
  deriving DecidableEq, Repr

/-- `sizeof(m_bufferMsgRcv)` -/
def bufferMsgRcvSize : Nat := 5120

/-- The members the receive machine works on. -/
structure RxState where
  rxMsgState : RxMsgState
  rxMsgSubState : RxMsgSubState
  bufferMsgRcv : Mem UInt8
  lengthMsgRcv : Nat

namespace RxState

/-- The receiver as it is constructed, its buffer cleared. -/
def new : RxState := ⟨.none, .none, fun _ => 0, 0⟩

/-- Start all over. -/
def reset (s : RxState) : RxState :=
  { s with lengthMsgRcv := 0, rxMsgState := .none, rxMsgSubState := .none }

/-- A frame begins. -/
def start (s : RxState) : RxState :=
  { s with rxMsgState := .stx, rxMsgSubState := .none, lengthMsgRcv := 0 }

/-- A data byte: stored if there is room, else the frame has a wrong format and
the machine starts all over. -/
def data (s : RxState) (c : UInt8) : RxState :=
  if s.lengthMsgRcv < bufferMsgRcvSize then
    { s with
      rxMsgSubState := .none
      bufferMsgRcv := store s.bufferMsgRcv s.lengthMsgRcv c
      lengthMsgRcv := s.lengthMsgRcv + 1 }
  else s.reset

/-- The bytes received of the current frame. -/
def content (s : RxState) : List UInt8 := slice s.bufferMsgRcv 0 s.lengthMsgRcv

end RxState

/-- The loop body of `serialData2StateMachine`; the flag is true when the byte
completes a frame. -/
def rxByte (s : RxState) (c : UInt8) : RxState × Bool :=
  match s.rxMsgState with
  -- We are virgin - no package start received yet
  | .none =>
    if s.rxMsgSubState = .none ∧ DLE = c then ({ s with rxMsgSubState := .dle }, false)
    else if s.rxMsgSubState = .dle ∧ STX = c then (s.start, false)
    else (s.reset, false)
  -- We have received package start but not end
  | .stx =>
    if s.rxMsgSubState = .none ∧ DLE = c then ({ s with rxMsgSubState := .dle }, false)
    -- a DLE STX is not expected here, sync up again
    else if s.rxMsgSubState = .dle ∧ STX = c then (s.start, false)
    else if s.rxMsgSubState = .dle ∧ ETX = c then
      ({ s with rxMsgState := .none, rxMsgSubState := .none }, true)
    else (s.data c, false)
  | .etx => (s, false)
  | .complete => (s, false)

/-- The result of one `m_com.readChar`: a byte (`cnt > 0`), nothing (`cnt == 0`)
or an error with its `errno` (`cnt < 0`). -/
inductive ReadChar where
  | byte (c : UInt8)
  | noData
  | error (errno : Int)
  deriving DecidableEq, Repr

/-- One call, over the results the successive `readChar` calls will give: the
state after it, whether it reports a frame, and the results not asked for. -/
def serialData2StateMachine (s : RxState) : List ReadChar → RxState × Bool × List ReadChar
  | [] => (s, false, [])
  | .byte c :: rest =>
    match rxByte s c with
    | (t, true) => (t, true, rest)
    | (t, false) => serialData2StateMachine t rest
  | .noData :: rest => (s, false, rest)
  | .error _ :: rest => (s, false, rest)

/-- The bytes among the results. -/
def bytesOf : List ReadChar → List UInt8
  | [] => []
  | .byte c :: rest => c :: bytesOf rest
  | .noData :: rest => bytesOf rest
  | .error _ :: rest => bytesOf rest

/-- A reported frame: how many bytes of the stream had been read, and the
receiver at that moment. -/
structure Report where
  consumed : Nat
  rx : RxState

/-- `n` successive calls, from the point where `k` bytes have been read. -/
def rxCalls : Nat → Nat → RxState → List ReadChar → RxState × List Report × List ReadChar
  | 0, _, s, input => (s, [], input)
  | n + 1, k, s, input =>
    let (t, done, rest) := serialData2StateMachine s input
    let k' := k + ((bytesOf input).length - (bytesOf rest).length)
    let (u, reports, left) := rxCalls n k' t rest
    (u, if done then ⟨k', t⟩ :: reports else reports, left)

/-! ## feeding bytes -/

/-- Feed bytes one by one, collecting the frames reported. -/
def feed : Nat → RxState → List UInt8 → RxState × List Report
  | _, s, [] => (s, [])
  | k, s, c :: cs =>
    let (t, done) := rxByte s c
    let (u, reports) := feed (k + 1) t cs
    (u, if done then ⟨k + 1, t⟩ :: reports else reports)

theorem feed_append (k : Nat) (s : RxState) (xs ys : List UInt8) :
    feed k s (xs ++ ys) =
      ((feed (k + xs.length) (feed k s xs).1 ys).1,
        (feed k s xs).2 ++ (feed (k + xs.length) (feed k s xs).1 ys).2) := by
  induction xs generalizing k s with
  | nil => simp [feed]
  | cons c xs ih =>
      have hk : k + 1 + xs.length = k + (xs.length + 1) := by omega
      simp only [List.cons_append, feed, ih, List.length_cons, hk]
      cases (rxByte s c).2 <;> simp

/-- One call reads some first part of the input, and reports exactly what
feeding it reports. -/
theorem serialData2StateMachine_spec (k : Nat) (s : RxState) (input : List ReadChar) :
    ∃ used, bytesOf input = used ++ bytesOf (serialData2StateMachine s input).2.2 ∧
      feed k s used =
        ((serialData2StateMachine s input).1,
          if (serialData2StateMachine s input).2.1 then
            [⟨k + used.length, (serialData2StateMachine s input).1⟩] else []) ∧
      (serialData2StateMachine s input).2.2.length ≤ input.length - 1 := by
  induction input generalizing k s with
  | nil => exact ⟨[], by simp [serialData2StateMachine, feed, bytesOf]⟩
  | cons r rest ih =>
      cases r with
      | noData => exact ⟨[], by simp [serialData2StateMachine, feed, bytesOf]⟩
      | error e => exact ⟨[], by simp [serialData2StateMachine, feed, bytesOf]⟩
      | byte c =>
          cases hb : rxByte s c with
          | mk t done =>
            cases done with
            | true => exact ⟨[c], by simp [serialData2StateMachine, feed, bytesOf, hb]⟩
            | false =>
                obtain ⟨used, h1, h2, h3⟩ := ih (k + 1) t
                refine ⟨c :: used, ?_, ?_, ?_⟩
                · simp only [serialData2StateMachine, hb, bytesOf, List.cons_append]
                  rw [← h1]
                · simp only [serialData2StateMachine, hb, feed, h2, List.length_cons]
                  simp only [Bool.false_eq_true, if_false]
                  rw [show k + 1 + used.length = k + (used.length + 1) by omega]
                · simp only [serialData2StateMachine, hb, List.length_cons]
                  omega

/-- **Cuts are invisible**: enough successive calls read the whole input and
report what feeding its bytes one by one reports. -/
theorem rxCalls_eq (n k : Nat) (s : RxState) (input : List ReadChar) (hn : input.length ≤ n) :
    rxCalls n k s input = ((feed k s (bytesOf input)).1, (feed k s (bytesOf input)).2, []) := by
  induction n generalizing k s input with
  | zero =>
      have : input = [] := List.length_eq_zero_iff.mp (by omega)
      subst this
      simp [rxCalls, bytesOf, feed]
  | succ n ih =>
      obtain ⟨used, h1, h2, h3⟩ := serialData2StateMachine_spec k s input
      have hlen : (bytesOf input).length - (bytesOf (serialData2StateMachine s input).2.2).length =
          used.length := by
        rw [h1, List.length_append]
        omega
      simp only [rxCalls, hlen]
      rw [ih _ _ _ (Nat.le_trans h3 (by omega)), h1, feed_append, h2]
      cases (serialData2StateMachine s input).2.1 <;> simp

/-! ## what holds in every state -/

/-- The receiver is between frames or inside one, and inside its buffer. -/
structure RxState.Live (s : RxState) : Prop where
  state : s.rxMsgState = .none ∨ s.rxMsgState = .stx
  length : s.lengthMsgRcv ≤ bufferMsgRcvSize

/-- The receiver is between frames. -/
structure RxState.Idle (s : RxState) : Prop where
  state : s.rxMsgState = .none
  sub : s.rxMsgSubState = .none

/-- Memory behind the buffer is untouched. -/
def SameBeyond (s t : RxState) : Prop :=
  ∀ i, bufferMsgRcvSize ≤ i → t.bufferMsgRcv i = s.bufferMsgRcv i

theorem SameBeyond.trans {s t u : RxState} (h1 : SameBeyond s t) (h2 : SameBeyond t u) :
    SameBeyond s u := fun i hi => (h2 i hi).trans (h1 i hi)

theorem data_live (s : RxState) (c : UInt8) (h : s.Live) :
    (s.data c).Live ∧ SameBeyond s (s.data c) := by
  unfold RxState.data
  split
  · next hlt =>
      exact ⟨⟨h.state, hlt⟩, fun i hi => store_of_ne _ _ (by omega)⟩
  · exact ⟨⟨.inl rfl, Nat.zero_le _⟩, fun _ _ => rfl⟩

/-- One byte keeps the receiver inside its buffer. -/
theorem rxByte_live (s : RxState) (c : UInt8) (h : s.Live) :
    (rxByte s c).1.Live ∧ SameBeyond s (rxByte s c).1 := by
  have hreset : s.reset.Live ∧ SameBeyond s s.reset :=
    ⟨⟨.inl rfl, Nat.zero_le _⟩, fun _ _ => rfl⟩
  have hstart : s.start.Live ∧ SameBeyond s s.start :=
    ⟨⟨.inr rfl, Nat.zero_le _⟩, fun _ _ => rfl⟩
  rcases h.state with hs | hs
  · simp only [rxByte, hs]
    split
    · exact ⟨⟨.inl rfl, h.length⟩, fun _ _ => rfl⟩
    · split
      · exact hstart
      · exact hreset
  · simp only [rxByte, hs]
    split
    · exact ⟨⟨.inr rfl, h.length⟩, fun _ _ => rfl⟩
    · split
      · exact hstart
      · split
        · exact ⟨⟨.inl rfl, h.length⟩, fun _ _ => rfl⟩
        · exact data_live s c h

/-- Any stream keeps the receiver inside its buffer. -/
theorem feed_live (k : Nat) (s : RxState) (cs : List UInt8) (h : s.Live) :
    (feed k s cs).1.Live ∧ SameBeyond s (feed k s cs).1 := by
  induction cs generalizing k s with
  | nil => exact ⟨h, fun _ _ => rfl⟩
  | cons c cs ih =>
      obtain ⟨h1, h2⟩ := rxByte_live s c h
      obtain ⟨h3, h4⟩ := ih (k + 1) (rxByte s c).1 h1
      exact ⟨h3, h2.trans h4⟩

/-! ## a frame body inside a frame -/

theorem rxByte_stx_data (s : RxState) (c : UInt8) (hs : s.rxMsgState = .stx)
    (hsub : s.rxMsgSubState = .none) (hc : c ≠ DLE) : rxByte s c = (s.data c, false) := by
  simp [rxByte, hs, hsub, Ne.symm hc]

theorem rxByte_stx_dle (s : RxState) (hs : s.rxMsgState = .stx) (hsub : s.rxMsgSubState = .none) :
    rxByte s DLE = ({ s with rxMsgSubState := .dle }, false) := by
  simp [rxByte, hs, hsub]

theorem rxByte_stx_dle_dle (s : RxState) (hs : s.rxMsgState = .stx)
    (hsub : s.rxMsgSubState = .dle) : rxByte s DLE = (s.data DLE, false) := by
  simp [rxByte, hs, hsub, STX_ne_DLE, ETX_ne_DLE]

theorem data_sub_dle (s : RxState) (c : UInt8) :
    RxState.data { s with rxMsgSubState := .dle } c = s.data c := by
  simp [RxState.data, RxState.reset]

/-- One stuffed byte inside a frame is one data byte. -/
theorem feed_stuff1_stx (k : Nat) (s : RxState) (c : UInt8) (hs : s.rxMsgState = .stx)
    (hsub : s.rxMsgSubState = .none) : feed k s (stuff1 DLE c) = (s.data c, []) := by
  by_cases hc : c = DLE
  · subst hc
    simp only [stuff1_esc, feed, rxByte_stx_dle s hs hsub]
    rw [rxByte_stx_dle_dle { s with rxMsgSubState := .dle } hs rfl, data_sub_dle s DLE]
    rfl
  · rw [stuff1_of_ne hc]
    simp only [feed, rxByte_stx_data s c hs hsub hc]
    rfl

/-- **A body inside a frame**: as long as there is room, the destuffed bytes are
stored one after the other. -/
theorem feed_stuff (k : Nat) (s : RxState) (xs : List UInt8) (hs : s.rxMsgState = .stx)
    (hsub : s.rxMsgSubState = .none) (hlen : s.lengthMsgRcv + xs.length ≤ bufferMsgRcvSize) :
    feed k s (stuff DLE xs) =
      ({ s with
         bufferMsgRcv := storeAll s.bufferMsgRcv s.lengthMsgRcv xs
         lengthMsgRcv := s.lengthMsgRcv + xs.length }, []) := by
  induction xs generalizing k s with
  | nil => simp [feed, storeAll]
  | cons c xs ih =>
      rw [List.length_cons] at hlen
      have hdata : s.data c = { s with
          bufferMsgRcv := store s.bufferMsgRcv s.lengthMsgRcv c
          lengthMsgRcv := s.lengthMsgRcv + 1 } := by
        rw [RxState.data, if_pos (by omega), hsub]
      have hrest := ih (k + (stuff1 DLE c).length) { s with
          bufferMsgRcv := store s.bufferMsgRcv s.lengthMsgRcv c
          lengthMsgRcv := s.lengthMsgRcv + 1 } hs hsub (by simp only; omega)
      rw [stuff_cons, feed_append, feed_stuff1_stx k s c hs hsub, hdata, hrest]
      simp only [storeAll, List.length_cons, List.nil_append]
      rw [show s.lengthMsgRcv + 1 + xs.length = s.lengthMsgRcv + (xs.length + 1) by omega]

/-! ## a frame body after a lost beginning -/

theorem data_sub (s : RxState) (c : UInt8) : (s.data c).rxMsgSubState = .none := by
  unfold RxState.data RxState.reset
  split <;> rfl

/-- Between frames, one stuffed byte changes nothing but the length. -/
theorem feed_stuff1_none (k : Nat) (s : RxState) (c : UInt8) (hs : s.rxMsgState = .none)
    (hsub : s.rxMsgSubState = .none) : feed k s (stuff1 DLE c) = (s.reset, []) := by
  by_cases hc : c = DLE
  · subst hc
    simp [feed, rxByte, hs, hsub, STX_ne_DLE, RxState.reset]
  · simp [stuff1_of_ne hc, feed, rxByte, hs, hsub, Ne.symm hc, RxState.reset]

/-- **A body after a lost beginning**: doubled DLEs keep the machine in step, so
nothing in the body is taken for a delimiter. -/
theorem feed_stuff_aligned (k : Nat) (s : RxState) (xs : List UInt8) (h : s.Live)
    (hsub : s.rxMsgSubState = .none) :
    (feed k s (stuff DLE xs)).1.rxMsgSubState = .none ∧ (feed k s (stuff DLE xs)).2 = [] := by
  induction xs generalizing k s with
  | nil => exact ⟨hsub, rfl⟩
  | cons c xs ih =>
      rw [stuff_cons, feed_append]
      rcases h.state with hs | hs
      · rw [feed_stuff1_none k s c hs hsub]
        simpa using ih _ s.reset ⟨.inl rfl, Nat.zero_le _⟩ rfl
      · rw [feed_stuff1_stx k s c hs hsub]
        simpa using ih _ (s.data c) (data_live s c h).1 (data_sub s c)

end Can4vscp
