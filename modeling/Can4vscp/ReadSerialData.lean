import Can4vscp.Driver

/-!
# Can4vscp.ReadSerialData

What the driver does with a received frame (`CCan4VSCPObj::readSerialData`,
`CCan4VSCPObj::addToResponseQueue`).

The frame is read out of `m_bufferMsgRcv` by a `ReadProgram`, so the indices
that are read are part of the model.  The buffer is memory seen from its base
pointer: nothing here keeps an index inside the buffer, or inside the frame,
that the source does not keep there.

The three payload loops take a fuel, which is the declared payload size when
they start.  A pass takes off at least five bytes, so the loops end before the
fuel does (`guardedLoop_fuel`, `multiLoop_fuel`).
-/

namespace Can4vscp

open Memory ReadProgram

variable (x : External)

/-! ## reading a frame -/

/-- `((uint16_t) m_bufferMsgRcv[3] << 8) + m_bufferMsgRcv[4]` -/
def sizePayload : ReadProgram UInt8 Nat := do
  let msb ← get 3
  let lsb ← get 4
  pure (msb.toNat * 256 + lsb.toNat)

/-- The trace output for a frame.  The source reads the size again at every turn
of the loop, which reads nothing new. -/
def traceFrame : ReadProgram UInt8 Unit := do
  let _ ← get 0
  let size ← sizePayload
  let _ ← getSlice 5 size
  pure ()

/-- Four bytes put together, the way an id and a time stamp are. -/
def joinBytes (b0 b1 b2 b3 : UInt8) : UInt32 :=
  let w0 : UInt32 := (b0.toUInt32 <<< 24) &&& 0x1f000000
  let w1 : UInt32 := (b1.toUInt32 <<< 16) &&& 0x00ff0000
  let w2 : UInt32 := (b2.toUInt32 <<< 8) &&& 0x0000ff00
  let w3 : UInt32 := b3.toUInt32 &&& 0x000000ff
  w0 ||| w1 ||| w2 ||| w3

/-- The four bytes of an id or a time stamp, the way all decode paths read them. -/
def word29 (p : Nat) : ReadProgram UInt8 UInt32 := do
  let b0 ← get p
  let b1 ← get (p + 1)
  let b2 ← get (p + 2)
  let b3 ← get (p + 3)
  pure (joinBytes b0 b1 b2 b3)

/-- `if (pMsg->sizeData > 8) pMsg->sizeData = 8` -/
def clamp8 (n : UInt8) : UInt8 := if n > 8 then 8 else n

/-! ## the decode paths -/

/-- Decode a message if there is room for it in the receive queue. -/
def ifRoom (d : Driver) (decode : ReadProgram UInt8 Driver) : ReadProgram UInt8 Driver :=
  if d.hasRoom then decode else pure d.overrun

/-- A CANAL sub-frame at `posFrame`: its id is read at the start of the payload. -/
def canalDecode (posFrame : Nat) (dataLen : UInt8) (d : Driver) : ReadProgram UInt8 Driver := do
  let timestamp := x.getClockMicroSeconds d.ticks
  let id ← word29 5
  let data ← getSlice (posFrame + 5) dataLen.toNat
  pure (d.tick.receive x
    { flags := x.CANAL_IDFLAG_EXTENDED, obid := 0, id, sizeData := dataLen, data, timestamp })

/-- A time stamped sub-frame of a multi-frame. -/
def multiTimestampDecode (posFrame : Nat) (dataLen : UInt8) (d : Driver) :
    ReadProgram UInt8 Driver := do
  let id ← word29 posFrame
  let timestamp ← word29 (posFrame + 4)
  let data ← getSlice (posFrame + 9) dataLen.toNat
  pure (d.receive x
    { flags := 0 ||| x.CANAL_IDFLAG_EXTENDED, obid := 0, id, sizeData := dataLen, data, timestamp })

/-- The loop of the CANAL and of the time stamped multi-frame branch: a sub-frame
is a head that ends with its dlc byte, and dlc data bytes.  A dlc above 8 ends
the loop. -/
def guardedLoop (head : Nat) (decode : Nat → UInt8 → Driver → ReadProgram UInt8 Driver) :
    Nat → Nat → Nat → Driver → ReadProgram UInt8 Driver
  | 0, _, _, d => pure d
  | fuel + 1, posFrame, left, d =>
    if left = 0 then pure d
    else do
      let dataLen ← get (posFrame + (head - 1))
      if dataLen > 8 then pure d.overrun
      else do
        let d' ← ifRoom d (decode posFrame dataLen d)
        let frameSize := head + dataLen.toNat
        guardedLoop head decode fuel (posFrame + frameSize) (left - frameSize) d'

/-- The CANAL branch. -/
def canalFrame (d : Driver) : ReadProgram UInt8 Driver := do
  let size ← sizePayload
  guardedLoop 5 (canalDecode x) size 5 size d

/-- The time stamped multi-frame branch. -/
def multiFrameCanalTimestamp (d : Driver) : ReadProgram UInt8 Driver := do
  let size ← sizePayload
  guardedLoop 9 (multiTimestampDecode x) size 5 size d

/-- The time stamped CANAL branch. -/
def canalTimestampFrame (d : Driver) : ReadProgram UInt8 Driver :=
  ifRoom d do
    let id ← word29 5
    let timestamp ← word29 9
    let size ← get 13
    let sizeData := clamp8 size
    let data ← getSlice 14 sizeData.toNat
    pure (d.receive x
      { flags := 0 ||| x.CANAL_IDFLAG_EXTENDED, obid := 0, id, sizeData, data, timestamp })

/-- A sub-frame of a multi-frame. -/
def multiDecode (posFrame : Nat) (d : Driver) : ReadProgram UInt8 Driver := do
  let timestamp := x.getClockMicroSeconds d.ticks
  let id ← word29 posFrame
  let size ← get (posFrame + 4)
  let sizeData := clamp8 size
  let data ← getSlice (posFrame + 5) sizeData.toNat
  pure (d.tick.receive x
    { flags := 0 ||| x.CANAL_IDFLAG_EXTENDED, obid := 0, id, sizeData, data, timestamp })

/-- The loop of the multi-frame branch.  A dlc above 8 is cut for the message but
not for the way to the next sub-frame. -/
def multiLoop : Nat → Nat → Nat → Driver → ReadProgram UInt8 Driver
  | 0, _, _, d => pure d
  | fuel + 1, posFrame, left, d =>
    if left = 0 then pure d
    else do
      let d' ← ifRoom d (multiDecode x posFrame d)
      let dlc ← get (posFrame + 4)
      multiLoop fuel (posFrame + (5 + dlc.toNat)) (left - (5 + dlc.toNat)) d'

/-- The multi-frame branch. -/
def multiFrameCanal (d : Driver) : ReadProgram UInt8 Driver := do
  let size ← sizePayload
  multiLoop x size 5 size d

/-! ## responses -/

/-- `addToResponseQueue`, the ACK/NACK part. -/
def answerFrame (d : Driver) : ReadProgram UInt8 Driver :=
  if d.initFlag &&& CAN4VSCP_FLAG_ENABLE_WAIT_FOR_ACK ≠ 0 ∧
      d.msgResponseInfo.bWaitingForAckNack then do
    let channel ← get 1
    if d.msgResponseInfo.channel = channel then do
      let seq ← get 2
      if d.msgResponseInfo.seq = seq then do
        let op ← get 0
        if x.code .ack = op then pure (d.answer true)
        else if x.code .nack = op then pure (d.answer false)
        else pure d
      else pure d
    else pure d
  else pure d

/-- `addToResponseQueue` -/
def addToResponseQueue (d : Driver) : ReadProgram UInt8 Driver := do
  let d ← answerFrame x d
  let op ← get 0
  let channel ← get 1
  let seq ← get 2
  let size ← sizePayload
  let payload ← getSlice 5 (if size > 512 then 512 else size)
  pure (d.addResponse { op, seq, channel, sizePayload := UInt16.ofNat size, payload })

/-- A frame the driver does not handle is answered with a NACK. -/
def nackFrame (d : Driver) : ReadProgram UInt8 Driver := do
  let seq ← get 2
  pure (d.sendNACK x seq)

/-- A NOOP frame is answered with an ACK. -/
def ackFrame (d : Driver) : ReadProgram UInt8 Driver := do
  let seq ← get 2
  pure (d.sendACK x seq)

/-! ## the dispatch -/

/-- The branch of `readSerialData` for a frame type. -/
def dispatch (op : UInt8) (d : Driver) : ReadProgram UInt8 Driver :=
  if x.code .noop = op then ackFrame x (d.touch x)
  else if x.code .canal = op then canalFrame x (d.touch x)
  else if x.code .canalTimestamp = op then canalTimestampFrame x (d.touch x)
  else if x.code .vscpEvent = op then nackFrame x (d.touch x)
  else if x.code .vscpEventTimestamp = op then nackFrame x (d.touch x)
  else if x.code .configure = op then nackFrame x (d.touch x)
  else if x.code .poll = op then nackFrame x (d.touch x)
  else if x.code .noEvent = op then nackFrame x (d.touch x)
  else if x.code .multiFrameVscp = op then nackFrame x (d.touch x)
  else if x.code .multiFrameVscpTimestamp = op then nackFrame x (d.touch x)
  else if x.code .multiFrameCanal = op then multiFrameCanal x (d.touch x)
  else if x.code .multiFrameCanalTimestamp = op then multiFrameCanalTimestamp x (d.touch x)
  else if x.code .sentAck = op then addToResponseQueue x (d.touch x)
  else if x.code .sentNack = op then addToResponseQueue x (d.touch x)
  else if x.code .ack = op then addToResponseQueue x (d.touch x)
  else if x.code .nack = op then addToResponseQueue x (d.touch x)
  else if x.code .error = op then addToResponseQueue x (d.touch x)
  else if x.code .commandReply = op then addToResponseQueue x (d.touch x)
  else if x.code .capsResponse = op then addToResponseQueue x (d.touch x)
  else if x.code .command = op then addToResponseQueue x (d.touch x)
  else pure d

variable {x} in
/-- What relates the handlers of two drivers relates what the drivers do with a frame. -/
theorem dispatch_rel {R : ReadProgram UInt8 Driver → ReadProgram UInt8 Driver → Prop} (op : UInt8)
    {d e : Driver} (hack : R (ackFrame x (d.touch x)) (ackFrame x (e.touch x)))
    (hnack : R (nackFrame x (d.touch x)) (nackFrame x (e.touch x)))
    (hresponse : R (addToResponseQueue x (d.touch x)) (addToResponseQueue x (e.touch x)))
    (hcanal : R (canalFrame x (d.touch x)) (canalFrame x (e.touch x)))
    (htimestamp : R (canalTimestampFrame x (d.touch x)) (canalTimestampFrame x (e.touch x)))
    (hmulti : R (multiFrameCanal x (d.touch x)) (multiFrameCanal x (e.touch x)))
    (hmultiTimestamp :
      R (multiFrameCanalTimestamp x (d.touch x)) (multiFrameCanalTimestamp x (e.touch x)))
    (hother : R (pure d) (pure e)) : R (dispatch x op d) (dispatch x op e) := by
  have hite : ∀ {c : Prop} {_ : Decidable c} {p q p' q' : ReadProgram UInt8 Driver},
      R p p' → R q q' → R (if c then p else q) (if c then p' else q') := by
    intro c _ p q p' q' hp hq
    split
    · exact hp
    · exact hq
  exact hite hack <| hite hcanal <| hite htimestamp <|
    hite hnack <| hite hnack <| hite hnack <| hite hnack <| hite hnack <| hite hnack <| hite hnack <|
    hite hmulti <| hite hmultiTimestamp <|
    hite hresponse <| hite hresponse <| hite hresponse <| hite hresponse <|
    hite hresponse <| hite hresponse <| hite hresponse <| hite hresponse hother

/-- What `readSerialData` does with a frame of length `len`: trace it, check it,
act on it. -/
def actOnFrame (len : UInt16) (d : Driver) : ReadProgram UInt8 Driver := do
  traceFrame
  let ok ← checkCRC x.crc8 len
  if ok then do
    let op ← get 0
    dispatch x op d
  else do
    traceFrame
    pure d

/-- `readSerialData`: the receive machine and the driver after one call, and the
results of `readChar` not asked for. -/
def readSerialData (rx : RxState) (d : Driver) (input : List ReadChar) :
    RxState × Driver × List ReadChar :=
  match serialData2StateMachine rx input with
  | (rx', true, rest) =>
    let d' := (actOnFrame x (UInt16.ofNat rx'.lengthMsgRcv) d).run rx'.bufferMsgRcv
    ({ rx' with rxMsgState := .none, rxMsgSubState := .none }, d', rest)
  | (rx', false, rest) => (rx', d, rest)

/-! ## the branches -/

theorem dispatch_canal (d : Driver) :
    dispatch x (x.code .canal) d = canalFrame x (d.touch x) := by
  simp [dispatch, x.code_injective.eq_iff]

theorem dispatch_canalTimestamp (d : Driver) :
    dispatch x (x.code .canalTimestamp) d = canalTimestampFrame x (d.touch x) := by
  simp [dispatch, x.code_injective.eq_iff]

theorem dispatch_multiFrameCanal (d : Driver) :
    dispatch x (x.code .multiFrameCanal) d = multiFrameCanal x (d.touch x) := by
  simp [dispatch, x.code_injective.eq_iff]

theorem dispatch_multiFrameCanalTimestamp (d : Driver) :
    dispatch x (x.code .multiFrameCanalTimestamp) d =
      multiFrameCanalTimestamp x (d.touch x) := by
  simp [dispatch, x.code_injective.eq_iff]

/-- The frames that are put into the response queue. -/
def FrameType.response : FrameType → Bool
  | .sentAck | .sentNack | .ack | .nack | .error | .commandReply | .capsResponse | .command => true
  | _ => false

theorem dispatch_response (d : Driver) {t : FrameType} (ht : t.response = true) :
    dispatch x (x.code t) d = addToResponseQueue x (d.touch x) := by
  cases t <;> simp [FrameType.response] at ht <;> simp [dispatch, x.code_injective.eq_iff]

/-! ## fuel -/

/-- The guarded loop ends before its fuel does. -/
theorem guardedLoop_fuel (head : Nat)
    (decode : Nat → UInt8 → Driver → ReadProgram UInt8 Driver) (hhead : 0 < head)
    (m n posFrame left : Nat) (d : Driver) (hm : left ≤ m) (hn : left ≤ n) :
    guardedLoop head decode m posFrame left d = guardedLoop head decode n posFrame left d := by
  induction m generalizing n posFrame left d with
  | zero =>
      have h0 : left = 0 := Nat.le_zero.mp hm
      cases n with
      | zero => rfl
      | succ n => simp [guardedLoop, h0]
  | succ m ih =>
      cases n with
      | zero =>
          have h0 : left = 0 := Nat.le_zero.mp hn
          simp [guardedLoop, h0]
      | succ n =>
          have hrest : ∀ (k : Nat) (p : Nat) (d' : Driver),
              guardedLoop head decode m p (left - (head + k)) d' =
                guardedLoop head decode n p (left - (head + k)) d' :=
            fun k p d' => ih n p _ d' (by omega) (by omega)
          simp only [guardedLoop, hrest]

/-- The multi-frame loop ends before its fuel does. -/
theorem multiLoop_fuel (m n posFrame left : Nat) (d : Driver) (hm : left ≤ m) (hn : left ≤ n) :
    multiLoop x m posFrame left d = multiLoop x n posFrame left d := by
  induction m generalizing n posFrame left d with
  | zero =>
      have h0 : left = 0 := Nat.le_zero.mp hm
      cases n with
      | zero => rfl
      | succ n => simp [multiLoop, h0]
  | succ m ih =>
      cases n with
      | zero =>
          have h0 : left = 0 := Nat.le_zero.mp hn
          simp [multiLoop, h0]
      | succ n =>
          have hrest : ∀ (k : Nat) (p : Nat) (d' : Driver),
              multiLoop x m p (left - (5 + k)) d' = multiLoop x n p (left - (5 + k)) d' :=
            fun k p d' => ih n p _ d' (by omega) (by omega)
          simp only [multiLoop, hrest]

end Can4vscp
