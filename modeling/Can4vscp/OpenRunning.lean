import Can4vscp.ConfigParse
import Can4vscp.SubFrames

/-!
# Can4vscp.OpenRunning

What `open` does to a driver that is running.

`open` sets the flags, the baud rate code, the receive machine and the statistics, and only
then looks whether there is anything to open.  `open_running_iff` says for which drivers
nothing is changed by that.  In a run in which every second `open` finds such a driver, the
second calls could have been left out.
-/

namespace Can4vscp.OpenRunning

open CString Memory OpenPort Handshake

variable (x : External) (stack : Mem UInt8) (limit : Nat)

/-! ## the machine -/

/-- A driver; `cntBusOff` and `cntBusWarnings` are the members of `m_stat` that nothing
counts. -/
structure State where
  driver : Driver
  rx : RxState
  transmitList : List CanalMsg
  -- the messages of the writers that are between their tests and `dll_addNode`
  writers : List CanalMsg
  nBaud : UInt8
  bStrict : Bool
  bRun : Bool
  bOpen : Bool
  cntBusOff : Nat
  cntBusWarnings : Nat

/-- The constructor; it does not give `m_stat` a value. -/
def State.new (stat : CanalStatistics) (cntBusOff cntBusWarnings : Nat) : State where
  driver := { Driver.new with stat }
  rx := RxState.new
  transmitList := []
  writers := []
  nBaud := SET_BAUDRATE_115200
  bStrict := false
  bRun := false
  bOpen := false
  cntBusOff
  cntBusWarnings

/-- What `open` does before it looks whether the driver is running. -/
def State.begin (s : State) (flags : UInt64) : State :=
  { s with
    nBaud := SET_BAUDRATE_115200
    bStrict := if flags &&& CAN4VSCP_FLAG_ENABLE_STRICT.toUInt64 ≠ 0 then true else s.bStrict
    rx := { s.rx with rxMsgState := .none, rxMsgSubState := .none }
    driver := { s.driver with initFlag := flags.toUInt32, stat := ⟨0, 0, 0, 0, 0⟩ }
    cntBusOff := 0
    cntBusWarnings := 0 }

/-- `open`, up to the start of the threads; `serial` is the result of
`OpenSerialInterface`. -/
def openDriver (serial : CanalError) (pConfig : Option (List UInt8)) (flags : UInt64) (s : State) :
    CanalError × State :=
  let s := s.begin flags
  if s.bRun then (.success, s)
  else
    let t := tokens limit (szDrvParams stack PATH_MAX (pConfig.getD (ascii "/dev/ttyUSB0;0")))
    let s := { s with nBaud := baudField t.baud }
    if serial ≠ .success then (serial, s) else (.success, { s with bRun := true, bOpen := true })

/-- What happens to a driver.  `flush` and `takeResponse` are what the callers of commands do
with the response queue, `open` and `softOpen` among them. -/
inductive Act where
  | openDriver (serial : CanalError) (pConfig : Option (List UInt8)) (flags : UInt64)
  | close
  | setFilter (filter : UInt32)
  | setMask (mask : UInt32)
  | receive (input : List ReadChar)
  | flush
  | takeResponse
  -- the tests of the writers, and what they do behind them
  | writeMsg (msg : CanalMsg)
  | writeMsgBlocking (msg : CanalMsg)
  | addNode (n : Nat)
  | transmit
  | read
  deriving DecidableEq

def next : Act → State → Option State
  | .openDriver serial pConfig flags, s => some (openDriver stack limit serial pConfig flags s).2
  | .close, s => some { s with bRun := false, bOpen := false }
  | .setFilter filter, s => some { s with driver := { s.driver with filter } }
  | .setMask mask, s => some { s with driver := { s.driver with mask } }
  | .receive input, s =>
    if s.bRun then
      let (rx, driver, _) := readSerialData x s.rx s.driver input
      some { s with rx, driver }
    else none
  | .flush, s => some { s with driver := { s.driver with responseList := [] } }
  | .takeResponse, s =>
    some { s with driver := { s.driver with responseList := s.driver.responseList.tail } }
  | .writeMsg msg, s =>
    if s.bOpen ∧ ¬ s.transmitList.length > CAN4VSCP_MAX_SNDMSG then
      some { s with writers := s.writers ++ [msg] }
    else none
  -- with a full queue it waits, but a token may end that with the queue still full
  | .writeMsgBlocking msg, s =>
    if s.bOpen then some { s with writers := s.writers ++ [msg] } else none
  | .addNode n, s =>
    match s.writers[n]? with
    | some msg =>
      some { s with transmitList := s.transmitList ++ [msg], writers := s.writers.eraseIdx n }
    | none => none
  | .transmit, s =>
    match s.transmitList with
    | msg :: rest =>
      if s.bRun then
        let stat := { s.driver.stat with
          cntTransmitData := s.driver.stat.cntTransmitData + msg.sizeData.toNat
          cntTransmitFrames := s.driver.stat.cntTransmitFrames + 1 }
        some { s with transmitList := rest, driver := { s.driver with stat } }
      else none
    | [] => none
  | .read, s => some { s with driver := { s.driver with receiveList := s.driver.receiveList.tail } }

def machine : Machine State Act where
  init s := ∃ stat cntBusOff cntBusWarnings, s = .new stat cntBusOff cntBusWarnings
  next := next x stack limit

/-! ## what every step keeps -/

/-- A running driver has been opened, and nothing counts on the bus. -/
def Opened (s : State) : Prop := s.bRun = true → s.cntBusOff = 0 ∧ s.cntBusWarnings = 0

theorem opened_openDriver (serial : CanalError) (pConfig : Option (List UInt8)) (flags : UInt64)
    (s : State) : Opened (openDriver stack limit serial pConfig flags s).2 := by
  unfold openDriver
  dsimp only
  split
  · exact fun _ => ⟨rfl, rfl⟩
  · split <;> exact fun _ => ⟨rfl, rfl⟩

variable {x} {stack} {limit} {s t : State}

theorem Opened.step {a : Act} (hs : Opened s) (h : next x stack limit a s = some t) : Opened t := by
  cases a with
  | openDriver serial pConfig flags =>
      cases h
      exact opened_openDriver stack limit serial pConfig flags s
  | close =>
      cases h
      exact fun hrun => nomatch hrun
  | receive input =>
      simp only [next, Option.ite_none_right_eq_some] at h
      obtain ⟨hrun, h⟩ := h
      cases h
      exact fun _ => hs hrun
  | writeMsg msg | writeMsgBlocking msg =>
      simp only [next, Option.ite_none_right_eq_some] at h
      obtain ⟨-, h⟩ := h
      cases h
      exact hs
  | addNode n =>
      simp only [next] at h
      split at h
      next msg hmsg =>
        cases h
        exact hs
      next => cases h
  | transmit =>
      simp only [next] at h
      split at h
      next msg rest hlist =>
        simp only [Option.ite_none_right_eq_some] at h
        obtain ⟨hrun, h⟩ := h
        cases h
        exact fun _ => hs hrun
      next => cases h
  | setFilter | setMask | flush | takeResponse | read =>
      cases h
      exact hs

theorem Opened.of_reachable {c : Act → State → Prop} (h : (machine x stack limit).ReachableWhen c s) :
    Opened s := by
  refine h.invariant ?_ fun s t a hs _ hnext => hs.step hnext
  rintro s ⟨stat, cntBusOff, cntBusWarnings, rfl⟩
  exact fun hrun => nomatch hrun

/-! ## open on a running driver -/

/-- What is to stay as it is. -/
structure Unchanged (s t : State) : Prop where
  initFlag : t.driver.initFlag = s.driver.initFlag
  nBaud : t.nBaud = s.nBaud
  bStrict : t.bStrict = s.bStrict
  rxMsgState : t.rx.rxMsgState = s.rx.rxMsgState
  rxMsgSubState : t.rx.rxMsgSubState = s.rx.rxMsgSubState
  stat : t.driver.stat = s.driver.stat ∧ t.cntBusOff = s.cntBusOff ∧
    t.cntBusWarnings = s.cntBusWarnings
  transmitList : t.transmitList = s.transmitList
  receiveList : t.driver.receiveList = s.driver.receiveList
  responseList : t.driver.responseList = s.driver.responseList

/-- A driver that is as `open` with these flags sets it: with the flags and the default
baud rate, in strict mode if the flags say so, between two frames and with nothing
counted. -/
structure AsOpened (s : State) (flags : UInt64) : Prop where
  initFlag : s.driver.initFlag = flags.toUInt32
  nBaud : s.nBaud = SET_BAUDRATE_115200
  bStrict : flags &&& CAN4VSCP_FLAG_ENABLE_STRICT.toUInt64 ≠ 0 → s.bStrict = true
  rxMsgState : s.rx.rxMsgState = .none
  rxMsgSubState : s.rx.rxMsgSubState = .none
  stat : s.driver.stat = ⟨0, 0, 0, 0, 0⟩

theorem openDriver_running (hrun : s.bRun = true) (serial : CanalError)
    (pConfig : Option (List UInt8)) (flags : UInt64) :
    openDriver stack limit serial pConfig flags s = (.success, s.begin flags) := by
  have hbegin : (s.begin flags).bRun = true := hrun
  simp only [openDriver, hbegin, if_true]

/-- A driver that is not running takes its baud rate code from the configuration. -/
theorem nBaud_openDriver (hrun : s.bRun = false) (serial : CanalError)
    (pConfig : Option (List UInt8)) (flags : UInt64) :
    (openDriver stack limit serial pConfig flags s).2.nBaud =
      baudField (tokens limit (szDrvParams stack PATH_MAX (pConfig.getD (ascii "/dev/ttyUSB0;0")))).baud := by
  have hbegin : (s.begin flags).bRun = false := hrun
  simp only [openDriver, hbegin, Bool.false_eq_true, if_false]
  split <;> rfl

/-- A driver that is as `open` sets it is left alone. -/
theorem begin_eq_self {flags : UInt64} (hs : Opened s) (hrun : s.bRun = true)
    (h : AsOpened s flags) : s.begin flags = s := by
  have hstrict : (if flags &&& CAN4VSCP_FLAG_ENABLE_STRICT.toUInt64 ≠ 0 then true else s.bStrict) =
      s.bStrict := by
    split
    next hflag => exact (h.bStrict hflag).symm
    next => rfl
  obtain ⟨hbusOff, hbusWarnings⟩ := hs hrun
  rw [State.begin, hstrict, ← h.nBaud, ← h.rxMsgState, ← h.initFlag, ← h.stat]
  obtain ⟨driver, ⟨_, rxMsgSubState, _, _⟩, _, _, _, _, _, _, cntBusOff, cntBusWarnings⟩ := s
  obtain rfl : rxMsgSubState = .none := h.rxMsgSubState
  obtain rfl : cntBusOff = 0 := hbusOff
  obtain rfl : cntBusWarnings = 0 := hbusWarnings
  rfl

theorem asOpened_of_unchanged {flags : UInt64} (h : Unchanged s (s.begin flags)) :
    AsOpened s flags where
  initFlag := h.initFlag.symm
  nBaud := h.nBaud.symm
  bStrict hflag := by
    have hstrict := h.bStrict
    simp only [State.begin] at hstrict
    rwa [if_pos hflag, eq_comm] at hstrict
  rxMsgState := h.rxMsgState.symm
  rxMsgSubState := h.rxMsgSubState.symm
  stat := h.stat.1.symm

theorem Unchanged.refl (s : State) : Unchanged s s :=
  ⟨rfl, rfl, rfl, rfl, rfl, ⟨rfl, rfl, rfl⟩, rfl, rfl, rfl⟩

/-! ## runs -/

/-- A driver that runs is opened only with what it is opened with already. -/
def Again (a : Act) (s : State) : Prop :=
  ∀ serial pConfig flags, a = .openDriver serial pConfig flags → s.bRun = true → AsOpened s flags

/-- A driver that runs is not opened. -/
def Once (a : Act) (s : State) : Prop :=
  ∀ serial pConfig flags, a = .openDriver serial pConfig flags → s.bRun = false

/-- Calls of `open` that change nothing could have been left out. -/
theorem reachable_once (h : (machine x stack limit).ReachableWhen Again s) :
    (machine x stack limit).ReachableWhen Once s := by
  induction h with
  | init h => exact .init h
  | @step s t a hs hc h ih =>
      by_cases hopen : ∃ serial pConfig flags, a = .openDriver serial pConfig flags ∧ s.bRun = true
      · obtain ⟨serial, pConfig, flags, rfl, hrun⟩ := hopen
        have hsame := begin_eq_self (Opened.of_reachable hs) hrun (hc _ _ _ rfl hrun)
        simp only [machine, next, openDriver_running hrun, hsame, Option.some.injEq] at h
        exact h ▸ ih
      · refine .step a ih (fun serial pConfig flags ha => ?_) h
        exact Bool.eq_false_iff.mpr fun hrun => hopen ⟨serial, pConfig, flags, ha, hrun⟩

/-- **When a second open does nothing**: it succeeds and leaves everything as it is if and
only if the driver is as `open` with these flags sets it; and a run in which every second
`open` is like that reaches nothing that it would not reach without them. -/
theorem open_running_iff (s : State) (hs : (machine x stack limit).Reachable s)
    (hrun : s.bRun = true) :
    (∀ serial pConfig flags,
      ((openDriver stack limit serial pConfig flags s).1 = .success ∧
        Unchanged s (openDriver stack limit serial pConfig flags s).2) ↔ AsOpened s flags) ∧
    ∀ t, (machine x stack limit).ReachableWhen Again t →
      (machine x stack limit).ReachableWhen Once t := by
  refine ⟨fun serial pConfig flags => ?_, fun t ht => reachable_once ht⟩
  rw [openDriver_running hrun]
  constructor
  · exact fun h => asOpened_of_unchanged h.2
  · intro h
    rw [begin_eq_self (Opened.of_reachable hs) hrun h]
    exact ⟨rfl, Unchanged.refl s⟩

/-- A driver that has been constructed and opened. -/
def opened : State :=
  (openDriver (fun _ => 0) PATH_MAX .success none 0 (.new ⟨0, 0, 0, 0, 0⟩ 0 0)).2

/-- It is as `open` sets it; the default device has the code 0. -/
theorem asOpened_opened : AsOpened opened 0 where
  initFlag := rfl
  nBaud := by
    have hshort : Holds (szDrvParams (fun _ => 0) PATH_MAX (ascii "/dev/ttyUSB0;0")) 0
        (ascii "/dev/ttyUSB0;0") := ConfigParse.szDrvParams_short _ (by decide) (by decide)
    have hbaud := ConfigParse.tokens_baud hshort (by decide : _ < PATH_MAX)
    rw [opened, nBaud_openDriver rfl, Option.getD_none, hbaud]
    decide
  bStrict hflag := absurd (by decide) hflag
  rxMsgState := rfl
  rxMsgSubState := rfl
  stat := rfl

theorem reachable_opened : (machine External.vscp (fun _ => 0) PATH_MAX).Reachable opened :=
  .step (.openDriver .success none 0) (.init ⟨⟨0, 0, 0, 0, 0⟩, 0, 0, rfl⟩) trivial rfl

/-- A call of `readSerialData` that gets these bytes. -/
def State.receive (s : State) (bytes : List UInt8) : State :=
  let r := readSerialData External.vscp s.rx s.driver (bytes.map ReadChar.byte)
  { s with rx := r.1, driver := r.2.1 }

theorem Reachable.receive (hs : (machine External.vscp stack limit).Reachable s)
    (hrun : s.bRun = true) (bytes : List UInt8) :
    (machine External.vscp stack limit).Reachable (s.receive bytes) := by
  refine .step (.receive (bytes.map ReadChar.byte)) hs trivial ?_
  simp [machine, next, hrun, State.receive]

/-- A frame with one message, as it comes over the line. -/
def oneMsg : List UInt8 :=
  (payloadFrame External.vscp .canal 0 0 (idBytes 5 ++ [1, 7])).encode crc8Update

/-- One frame has been received and counted, and the next one is under way. -/
def midSecond : State := (opened.receive oneMsg).receive (oneMsg.take 9)

/-- Such a driver is changed by every `open`; one that has just been opened is not. -/
theorem open_running_iff_midSecond :
    (midSecond.rx.rxMsgState = .stx ∧ midSecond.driver.stat.cntReceiveFrames = 1 ∧
      ∀ serial pConfig flags, ¬ ((openDriver (fun _ => 0) PATH_MAX serial pConfig flags midSecond).1 =
        .success ∧ Unchanged midSecond (openDriver (fun _ => 0) PATH_MAX serial pConfig flags midSecond).2)) ∧
    (openDriver (fun _ => 0) PATH_MAX .success none 0 opened).1 = .success ∧
      Unchanged opened (openDriver (fun _ => 0) PATH_MAX .success none 0 opened).2 := by
  have hmid : (machine External.vscp (fun _ => 0) PATH_MAX).Reachable midSecond :=
    Reachable.receive (Reachable.receive reachable_opened rfl oneMsg) rfl (oneMsg.take 9)
  have hstx : midSecond.rx.rxMsgState = .stx := by decide +kernel
  refine ⟨⟨hstx, by decide +kernel, fun serial pConfig flags hsame => ?_⟩, ?_⟩
  · have has := ((open_running_iff midSecond hmid rfl).1 serial pConfig flags).mp hsame
    exact nomatch hstx.symm.trans has.rxMsgState
  · exact ((open_running_iff opened reachable_opened rfl).1 .success none 0).mpr asOpened_opened

/-- In the middle of the frame. -/
def midFrame : State := opened.receive (oneMsg.take 9)

theorem reachable_midFrame : (machine External.vscp (fun _ => 0) PATH_MAX).Reachable midFrame :=
  Reachable.receive reachable_opened rfl (oneMsg.take 9)

/-- Opened again in the middle of a frame, a driver does not receive it. -/
theorem frame_lost :
    (machine External.vscp (fun _ => 0) PATH_MAX).Reachable midFrame ∧ midFrame.bRun = true ∧
      ¬ Unchanged midFrame (openDriver (fun _ => 0) PATH_MAX .success none 0 midFrame).2 ∧
      (midFrame.receive (oneMsg.drop 9)).driver.receiveList.length = 1 ∧
      ((openDriver (fun _ => 0) PATH_MAX .success none 0 midFrame).2.receive
        (oneMsg.drop 9)).driver.receiveList = [] := by
  refine ⟨reachable_midFrame, rfl, fun h => ?_, by decide +kernel, by decide +kernel⟩
  have hstate := h.rxMsgState
  revert hstate
  decide +kernel

end Can4vscp.OpenRunning
