import Can4vscp.Receiver

/-!
# Can4vscp.Driver

The driver's data: messages, responses, the ACK/NACK bookkeeping, the
statistics, and the members of `CCan4VSCPObj` that the receive side works on.

`External` is what the driver takes from outside the repository (`canal.h`,
`vscp-serial.h`, `crc8.c`, the clock): the frame type codes are only known to be
different from each other, apart from the ones the adapter emulator of the
tests spells out.
-/

namespace Can4vscp

/-! ## constants -/

def CAN4VSCP_FLAG_ENABLE_WAIT_FOR_ACK : UInt32 := 0x00000008
def CAN4VSCP_FLAG_ENABLE_TIMESTAMP : UInt32 := 0x00000010
def CAN4VSCP_FLAG_ENABLE_STRICT : UInt32 := 0x00000080

def CAN4VSCP_MAX_RCVMSG : Nat := 4096
def CAN4VSCP_MAX_SNDMSG : Nat := 4096
def CAN4VSCP_MAX_RESPONSEMSG : Nat := 32

/-- `VSCP_SERIAL_DRIVER_FRAME_TYPE_...` -/
inductive FrameType where
  | noop
  | vscpEvent
  | canal
  | configure
  | poll
  | noEvent
  | multiFrameVscp
  | multiFrameCanal
  | capsRequest
  | capsResponse
  | vscpEventTimestamp
  | canalTimestamp
  | multiFrameVscpTimestamp
  | multiFrameCanalTimestamp
  | sentAck
  | sentNack
  | ack
  | nack
  | error
  | commandReply
  | command
  deriving DecidableEq, Repr

/-- What the driver takes from outside the repository.  The clocks are read at
successive ticks. -/
structure External where
  crc8 : UInt8 → UInt8 → UInt8
  code : FrameType → UInt8
  code_injective : Function.Injective code
  canal : code .canal = 2
  configure : code .configure = 3
  capsRequest : code .capsRequest = 8
  capsResponse : code .capsResponse = 9
  ack : code .ack = 251
  commandReply : code .commandReply = 254
  command : code .command = 255
  CANAL_IDFLAG_EXTENDED : UInt32
  CANAL_IDFLAG_RTR : UInt32
  getClockMilliSeconds : Nat → UInt32
  getClockMicroSeconds : Nat → UInt32

/-- The frame type codes of the CAN4VSCP protocol. -/
def vscpCode : FrameType → UInt8
  | .noop => 0
  | .vscpEvent => 1
  | .canal => 2
  | .configure => 3
  | .poll => 4
  | .noEvent => 5
  | .multiFrameVscp => 6
  | .multiFrameCanal => 7
  | .capsRequest => 8
  | .capsResponse => 9
  | .vscpEventTimestamp => 10
  | .canalTimestamp => 11
  | .multiFrameCanalTimestamp => 12
  | .multiFrameVscpTimestamp => 13
  | .sentAck => 249
  | .sentNack => 250
  | .ack => 251
  | .nack => 252
  | .error => 253
  | .commandReply => 254
  | .command => 255

theorem vscpCode_injective : Function.Injective vscpCode := by
  intro a b h
  cases a <;> cases b <;> first | rfl | exact absurd h (by decide)

/-- A value for the outside world, with a clock that stands still. -/
def External.vscp : External where
  crc8 := crc8Update
  code := vscpCode
  code_injective := vscpCode_injective
  canal := rfl
  configure := rfl
  capsRequest := rfl
  capsResponse := rfl
  ack := rfl
  commandReply := rfl
  command := rfl
  CANAL_IDFLAG_EXTENDED := 1
  CANAL_IDFLAG_RTR := 2
  getClockMilliSeconds := fun _ => 0
  getClockMicroSeconds := fun _ => 0

/-- `CANAL_ERROR_...`, as far as the driver returns them. -/
inductive CanalError where
  | success
  | generic
  | parameter
  | notOpen
  | memory
  | fifoEmpty
  | fifoFull
  | initFail
  | timeout
  deriving DecidableEq, Repr

/-! ## data -/

/-- `canalMsg`; `data` are the bytes that were given a value. -/
structure CanalMsg where
  flags : UInt32
  obid : UInt32
  id : UInt32
  sizeData : UInt8
  data : List UInt8
  timestamp : UInt32
  deriving DecidableEq, Repr

/-- `cmdResponseMsg`; `payload` are the bytes that were given a value. -/
structure CmdResponseMsg where
  op : UInt8
  seq : UInt8
  channel : UInt8
  sizePayload : UInt16
  payload : List UInt8
  deriving DecidableEq, Repr

/-- `msgResponseInfoStruct` -/
structure MsgResponseInfo where
  bWaitingForAckNack : Bool
  bAck : Bool
  seq : UInt8
  channel : UInt8
  deriving DecidableEq, Repr

/-- `canalStatistics`, as far as the driver counts. -/
structure CanalStatistics where
  cntReceiveFrames : Nat
  cntTransmitFrames : Nat
  cntReceiveData : Nat
  cntTransmitData : Nat
  cntOverruns : Nat
  deriving DecidableEq, Repr

/-- The members of `CCan4VSCPObj` the receive side works on, apart from the
receive machine.  `com` are the buffers handed to `sendMsg`, `ticks` counts the
clock readings. -/
structure Driver where
  initFlag : UInt32
  filter : UInt32
  mask : UInt32
  receiveList : List CanalMsg
  receiveDataSem : Nat
  responseList : List CmdResponseMsg
  msgResponseInfo : MsgResponseInfo
  transmitAckNackSem : Nat
  stat : CanalStatistics
  activity : UInt32
  com : List (List UInt8)
  ticks : Nat

/-- A driver as it is constructed. -/
def Driver.new : Driver where
  initFlag := 0
  filter := 0
  mask := 0
  receiveList := []
  receiveDataSem := 0
  responseList := []
  msgResponseInfo := ⟨false, false, 0, 0⟩
  transmitAckNackSem := 0
  stat := ⟨0, 0, 0, 0, 0⟩
  activity := 0
  com := []
  ticks := 0

variable (x : External)

/-- A known frame type is not taken for a delimiter. -/
theorem code_ne_DLE {t : FrameType} {n : UInt8} (h : x.code t = n) (hn : n ≠ DLE) :
    x.code t ≠ DLE := by
  rw [h]
  exact hn

/-! ## the filter -/

/-- `doFilter` -/
def doFilter (filter mask : UInt32) (msg : CanalMsg) : Bool :=
  if mask = 0 then true -- fast escape
  else
    let msgid := msg.id &&& 0x1fffffff
    -- Extended message
    let msgid :=
      if msg.flags ||| x.CANAL_IDFLAG_EXTENDED ≠ 0 then (msgid &&& 0x1fffffff) ||| 80000000
      else msgid &&& 0x000007ff
    -- RTR
    let msgid := if msg.flags ||| x.CANAL_IDFLAG_RTR ≠ 0 then msgid ||| 40000000 else msgid
    (filter ^^^ msgid) &&& mask = 0

theorem doFilter_mask_zero (filter : UInt32) (msg : CanalMsg) :
    doFilter x filter 0 msg = true := by
  simp [doFilter]

/-- Put a response into the response queue: the oldest one is dropped if the queue
is full. -/
def pushResponse {α : Type} (responses : List α) (msg : α) : List α :=
  (if responses.length ≥ CAN4VSCP_MAX_RESPONSEMSG then responses.tail else responses) ++ [msg]

theorem mem_pushResponse {α : Type} {responses : List α} {msg e : α}
    (h : e ∈ pushResponse responses msg) : e ∈ responses ∨ e = msg := by
  unfold pushResponse at h
  cases List.mem_append.mp h with
  | inl hold =>
      split at hold
      · exact .inl (List.mem_of_mem_tail hold)
      · exact .inl hold
  | inr hnew => exact .inr (List.mem_singleton.mp hnew)

namespace Driver

/-! ## the receive queue -/

/-- There is room in the receive queue. -/
def hasRoom (d : Driver) : Bool := d.receiveList.length < CAN4VSCP_MAX_RCVMSG

/-- `m_stat.cntOverruns++` -/
def overrun (d : Driver) : Driver :=
  { d with stat := { d.stat with cntOverruns := d.stat.cntOverruns + 1 } }

/-- A decoded message: queued and counted if it passes the filter. -/
def receive (d : Driver) (msg : CanalMsg) : Driver :=
  if doFilter x d.filter d.mask msg then
    { d with
      receiveList := d.receiveList ++ [msg]
      receiveDataSem := d.receiveDataSem + 1
      stat := { d.stat with
        cntReceiveData := d.stat.cntReceiveData + msg.sizeData.toNat
        cntReceiveFrames := d.stat.cntReceiveFrames + 1 } }
  else d

theorem receive_com (d : Driver) (msg : CanalMsg) : (d.receive x msg).com = d.com := by
  unfold receive
  split
  · rfl
  · rfl

/-- Take the first message off the receive queue; the tokens are drained when it
was the last. -/
def takeFirst (d : Driver) (rest : List CanalMsg) : Driver :=
  { d with
    receiveList := rest
    receiveDataSem := if rest.length = 0 then 0 else d.receiveDataSem }

@[simp] theorem takeFirst_receiveList (d : Driver) (rest : List CanalMsg) :
    (d.takeFirst rest).receiveList = rest := rfl

/-- `readMsg`, when nobody else works on the queue. -/
def readMsg (bOpen : Bool) (d : Driver) : Driver × CanalError × Option CanalMsg :=
  if bOpen then
    match d.receiveList with
    | [] => (d, .fifoEmpty, none)
    | m :: rest => (d.takeFirst rest, .success, some m)
  else (d, .notOpen, none)

/-- What `n` successive calls of `readMsg` return. -/
def readMsgs (bOpen : Bool) : Nat → Driver → List (CanalError × Option CanalMsg)
  | 0, _ => []
  | n + 1, d => (d.readMsg bOpen).2 :: readMsgs bOpen n (d.readMsg bOpen).1

/-- Successive calls return the queue from its head on, and then that it is
empty. -/
theorem readMsgs_eq (d : Driver) (k : Nat) :
    readMsgs true (d.receiveList.length + k) d =
      (d.receiveList.map fun m => (.success, some m)) ++ List.replicate k (.fifoEmpty, none) := by
  generalize hlist : d.receiveList = ms
  induction ms generalizing d with
  | nil =>
      rw [List.length_nil, Nat.zero_add, List.map_nil, List.nil_append]
      induction k with
      | zero => rfl
      | succ k ih =>
          have hempty : d.readMsg true = (d, .fifoEmpty, none) := by simp [readMsg, hlist]
          rw [readMsgs, hempty, ih, List.replicate_succ]
  | cons m rest ih =>
      have hfirst : d.readMsg true = (d.takeFirst rest, .success, some m) := by
        simp [readMsg, hlist]
      rw [List.length_cons, Nat.add_right_comm, readMsgs, hfirst, ih (d.takeFirst rest) rfl]
      rfl

/-! ## the response queue -/

/-- `addToResponseQueue`, the queue part. -/
def addResponse (d : Driver) (msg : CmdResponseMsg) : Driver :=
  { d with responseList := pushResponse d.responseList msg }

/-- An answer to the frame in transmit. -/
def answer (d : Driver) (bAck : Bool) : Driver :=
  { d with
    msgResponseInfo := { d.msgResponseInfo with bAck, bWaitingForAckNack := false }
    transmitAckNackSem := d.transmitAckNackSem + 1 }

/-! ## the clock and the serial port -/

/-- `m_activity = getClockMilliSeconds()` -/
def touch (d : Driver) : Driver :=
  { d with activity := x.getClockMilliSeconds d.ticks, ticks := d.ticks + 1 }

/-- One clock reading. -/
def tick (d : Driver) : Driver := { d with ticks := d.ticks + 1 }

/-- `sendMsg`, as far as the receive side is concerned: the result is ignored. -/
def sendMsg (d : Driver) (buffer : List UInt8) : Driver := { d with com := d.com ++ [buffer] }

/-- `sendACK` -/
def sendACK (d : Driver) (seq : UInt8) : Driver :=
  d.sendMsg (Frame.encode x.crc8 ⟨x.code .ack, 0, seq, 0, []⟩)

/-- `sendNACK` -/
def sendNACK (d : Driver) (seq : UInt8) : Driver :=
  d.sendMsg (Frame.encode x.crc8 ⟨x.code .nack, 0, seq, 0, []⟩)

end Driver

end Can4vscp
