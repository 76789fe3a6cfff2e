import Can4vscp.Driver
import Can4vscp.Lib.Machine
import Mathlib.Algebra.Ring.Nat
import Mathlib.Logic.Function.Basic

/-!
# Can4vscp.Transmit

The transmit side as a machine (POSIX build): the transmit thread
(`workThreadTransmit`, `transmitMessage`), any number of writers (`writeMsg`,
`writeMsgBlocking`), the ACK/NACK part of the receive thread
(`addToResponseQueue`) and the thread that opens and closes the driver.

A step is a mutex section, a semaphore operation, a read of a shared variable
outside the locks, or the call that hands a frame to the serial port.  What a
thread does on its own variables goes with the step before it; the transmit
counters are such variables.

The last fields of `State` are history: no step of the source depends on them.
-/

namespace Can4vscp.Transmit

/-! ## states -/

/-- A frame `transmitMessage` builds: the number of the attempt, the message and
its position among all accepted messages, and the sequence number.  The channel
is 0. -/
structure TxFrame where
  index : Nat
  pos : Nat
  msg : CanalMsg
  seq : UInt8
  deriving DecidableEq, Repr

/-- A token of `m_transmitAckNackSem`, with what it was posted for: an answer to
the attempt that was armed, or closing. -/
inductive Token where
  | answer (armed : Option TxFrame)
  | close
  deriving DecidableEq, Repr

/-- Where the transmit thread is.  The flag tells a retransmission from a first
transmission. -/
inductive TxPc where
  | exited
  | start
  | loop
  -- waiting for ACK/NACK
  | waitAck
  | readAck (token : Token)
  | popAck
  | postPut (acked : Bool)
  -- looking for something to transmit
  | checkCount
  | waitGet
  | checkCount2
  | idle
  -- transmitMessage
  | txOpen (again : Bool)
  | fetch (again : Bool)
  | arm (again : Bool) (f : TxFrame)
  | send (again : Bool) (f : TxFrame)
  | disarm (again : Bool)
  -- removal without ACK
  | popPlain
  deriving DecidableEq, Repr

/-- Where a writer is. -/
inductive WriterPc where
  | outside (rv : Option CanalError)
  | test (blocking : Bool) (msg : CanalMsg)
  | waitPut (msg : CanalMsg)
  | add (msg : CanalMsg)
  | post
  deriving DecidableEq, Repr

/-- Where the thread that opens and closes the driver is. -/
inductive ApiPc where
  | closed
  | opening
  | opened
  | stopped
  -- posting m_transmitDataPutSem, m_transmitDataGetSem and m_transmitAckNackSem
  | postingPut
  | postingGet
  | postingAck
  | joining
  deriving DecidableEq, Repr

structure State (ι : Type) where
  transmitList : List CanalMsg
  msgResponseInfo : MsgResponseInfo
  transmitAckNackSem : List Token
  transmitDataGetSem : Nat
  transmitDataPutSem : Nat
  cntTransmitFrames : Nat
  cntTransmitData : Nat
  bRun : Bool
  bOpen : Bool
  waitForAck : Bool
  pc : TxPc
  bTransmissionInProgress : Bool
  seq : UInt8
  writer : ι → WriterPc
  api : ApiPc
  -- history
  accepted : List CanalMsg
  removed : List CanalMsg
  attempts : Nat
  sent : List TxFrame
  sessionStart : Nat
  countedFrom : Nat
  acked : List TxFrame
  armed : Option TxFrame
  expired : Bool
  nacked : Bool

variable {ι : Type}

/-- A driver as it is constructed. -/
def State.new : State ι where
  transmitList := []
  msgResponseInfo := ⟨false, false, 0, 0⟩
  transmitAckNackSem := []
  transmitDataGetSem := 0
  transmitDataPutSem := 0
  cntTransmitFrames := 0
  cntTransmitData := 0
  bRun := false
  bOpen := false
  waitForAck := false
  pc := .exited
  bTransmissionInProgress := false
  seq := 0
  writer := fun _ => .outside none
  api := .closed
  accepted := []
  removed := []
  attempts := 0
  sent := []
  sessionStart := 0
  countedFrom := 0
  acked := []
  armed := none
  expired := false
  nacked := false

/-! ## the transmit thread -/

/-- How the environment lets a step of the transmit thread end. -/
inductive Outcome where
  | ok
  | expired
  | interrupted
  | sendFails
  deriving DecidableEq, Repr

/-- Take the first message off the queue and count it. -/
def State.pop (s : State ι) (m : CanalMsg) (rest : List CanalMsg) : State ι :=
  { s with
    transmitList := rest
    cntTransmitData := s.cntTransmitData + m.sizeData.toNat
    cntTransmitFrames := s.cntTransmitFrames + 1
    removed := s.removed ++ [m] }

/-- The frame `transmitMessage` builds for a message. -/
def State.build (s : State ι) (m : CanalMsg) : TxFrame :=
  { index := s.attempts, pos := s.removed.length, msg := m, seq := s.seq }

/-- One step of the transmit thread. -/
def txNext (o : Outcome) (s : State ι) : Option (State ι) :=
  match s.pc, o with
  -- Clear ACK/NACK response structure
  | .start, .ok => some { s with msgResponseInfo := ⟨false, false, 0, 0⟩, pc := .loop }
  | .loop, .ok =>
    if s.bRun then
      if s.waitForAck && s.bTransmissionInProgress then some { s with pc := .waitAck }
      else some { s with pc := .checkCount }
    else some { s with pc := .exited }
  -- semaphoreTimedWait(&m_transmitAckNackSem, 20)
  | .waitAck, .ok =>
    match s.transmitAckNackSem with
    | [] => none
    | token :: rest => some { s with transmitAckNackSem := rest, pc := .readAck token }
  | .waitAck, .expired =>
    if s.transmitAckNackSem = [] then some { s with pc := .txOpen true, expired := true } else none
  | .waitAck, .interrupted => some { s with pc := .txOpen true }
  | .readAck _, .ok =>
    if s.msgResponseInfo.bAck then some { s with pc := .popAck } else some { s with pc := .txOpen true }
  | .popAck, .ok =>
    match s.transmitList with
    | [] => some { s with bTransmissionInProgress := false, pc := .loop }
    | m :: rest => some { s.pop m rest with bTransmissionInProgress := false, pc := .postPut true }
  | .postPut acked, .ok =>
    some { s with
      transmitDataPutSem := s.transmitDataPutSem + 1
      pc := if acked then .checkCount else .loop }
  | .checkCount, .ok =>
    if s.transmitList.length = 0 then some { s with pc := .waitGet } else some { s with pc := .checkCount2 }
  -- semaphoreTimedWait(&m_transmitDataGetSem, 1)
  | .waitGet, .ok =>
    if 0 < s.transmitDataGetSem then
      some { s with transmitDataGetSem := s.transmitDataGetSem - 1, pc := .checkCount2 }
    else none
  | .waitGet, .expired =>
    if s.transmitDataGetSem = 0 then some { s with pc := .loop } else none
  | .waitGet, .interrupted => some { s with pc := .loop }
  | .checkCount2, .ok =>
    if s.transmitList.length > 0 then some { s with pc := .txOpen false } else some { s with pc := .idle }
  -- softOpen works on other data
  | .idle, .ok => some { s with pc := .loop }
  | .txOpen again, .ok =>
    if s.bOpen then some { s with pc := .fetch again } else some { s with pc := .loop }
  | .fetch again, .ok =>
    match s.transmitList with
    | [] => some { s with pc := .loop }
    | m :: _ =>
      some { s with seq := s.seq + 1, attempts := s.attempts + 1, pc := .arm again (s.build m) }
  | .arm again f, .ok =>
    some { s with
      msgResponseInfo := { bAck := false, channel := 0, seq := s.seq - 1, bWaitingForAckNack := true }
      pc := .send again f
      armed := some f
      expired := false
      nacked := false }
  | .send again f, .ok =>
    if again then some { s with sent := s.sent ++ [f], pc := .loop }
    else if s.waitForAck then
      some { s with sent := s.sent ++ [f], bTransmissionInProgress := true, pc := .loop }
    else some { s with sent := s.sent ++ [f], pc := .popPlain }
  | .send again _, .sendFails => some { s with pc := .disarm again }
  | .disarm _, .ok =>
    some { s with
      msgResponseInfo := { s.msgResponseInfo with bWaitingForAckNack := false }
      pc := .loop }
  | .popPlain, .ok =>
    match s.transmitList with
    | [] => some { s with pc := .loop }
    | m :: rest => some { s.pop m rest with pc := .postPut false }
  | _, _ => none

/-! ## the writers -/

/-- What a writer does next. -/
inductive WriterAct where
  | call (blocking : Bool) (msg : CanalMsg)
  | go
  | expired
  | interrupted
  deriving DecidableEq, Repr

/-- One step of a writer: `writeMsg`, or `writeMsgBlocking`. -/
def writerNext [DecidableEq ι] (w : ι) (a : WriterAct) (s : State ι) : Option (State ι) :=
  let goto (s : State ι) (pc : WriterPc) : State ι :=
    { s with writer := Function.update s.writer w pc }
  match s.writer w, a with
  | .outside _, .call blocking m =>
    if s.bOpen then some (goto s (.test blocking m))
    else some (goto s (.outside (some .notOpen)))
  | .test blocking m, .go =>
    if s.transmitList.length > CAN4VSCP_MAX_SNDMSG then
      if blocking then some (goto s (.waitPut m)) else some (goto s (.outside (some .fifoFull)))
    else some (goto s (.add m))
  -- semaphoreTimedWait(&m_transmitDataPutSem, Timeout)
  | .waitPut m, .go =>
    if 0 < s.transmitDataPutSem then
      some (goto { s with transmitDataPutSem := s.transmitDataPutSem - 1 } (.add m))
    else none
  | .waitPut _, .expired =>
    if s.transmitDataPutSem = 0 then some (goto s (.outside (some .timeout))) else none
  | .waitPut _, .interrupted => some (goto s (.outside (some .generic)))
  | .add m, .go =>
    some (goto { s with transmitList := s.transmitList ++ [m], accepted := s.accepted ++ [m] } .post)
  | .post, .go =>
    some (goto { s with transmitDataGetSem := s.transmitDataGetSem + 1 } (.outside (some .success)))
  | _, _ => none

/-! ## the receive thread -/

/-- An ACK or NACK frame handed to `addToResponseQueue`; `frame` is the frame it
answers, if it answers one. -/
structure Answer where
  ack : Bool
  channel : UInt8
  seq : UInt8
  frame : Option TxFrame
  deriving DecidableEq, Repr

/-- The answer is for the frame in transmit. -/
def State.Matches (s : State ι) (a : Answer) : Prop :=
  s.waitForAck ∧ s.msgResponseInfo.bWaitingForAckNack ∧ s.msgResponseInfo.channel = a.channel ∧
    s.msgResponseInfo.seq = a.seq

instance (s : State ι) (a : Answer) : Decidable (s.Matches a) :=
  inferInstanceAs (Decidable (_ ∧ _ ∧ _ ∧ _))

/-- A NACK with the channel and the sequence number of the armed attempt. -/
def State.nacks (s : State ι) (a : Answer) : Bool :=
  !a.ack && a.channel == 0 && s.armed.any fun f => f.seq == a.seq

/-- The history keeps every ACK of a frame and every NACK of the armed attempt. -/
def State.record (s : State ι) (a : Answer) : State ι :=
  { s with
    acked := if a.ack then s.acked ++ a.frame.toList else s.acked
    nacked := s.nacked || s.nacks a }

/-- `addToResponseQueue`, the ACK/NACK part: one section of `m_responseMutex`. -/
def answerNext (a : Answer) (s : State ι) : State ι :=
  if s.Matches a then
    { s.record a with
      msgResponseInfo := { s.msgResponseInfo with bAck := a.ack, bWaitingForAckNack := false }
      transmitAckNackSem := s.transmitAckNackSem ++ [.answer s.armed] }
  else s.record a

/-! ## opening and closing -/

/-- One step of the thread that opens and closes the driver; `open` gets the
flag of the new session, and resets the statistics. -/
def apiNext (waitForAck : Bool) (s : State ι) : Option (State ι) :=
  match s.api with
  | .closed =>
    some { s with
      cntTransmitFrames := 0
      cntTransmitData := 0
      bRun := true
      waitForAck
      pc := .start
      bTransmissionInProgress := false
      seq := 0
      api := .opening
      sessionStart := s.sent.length
      countedFrom := s.removed.length }
  | .opening => some { s with bOpen := true, api := .opened }
  | .opened => some { s with bRun := false, api := .stopped }
  | .stopped => some { s with bOpen := false, api := .postingPut }
  | .postingPut =>
    some { s with transmitDataPutSem := s.transmitDataPutSem + 1, api := .postingGet }
  | .postingGet =>
    some { s with transmitDataGetSem := s.transmitDataGetSem + 1, api := .postingAck }
  | .postingAck =>
    some { s with transmitAckNackSem := s.transmitAckNackSem ++ [.close], api := .joining }
  | .joining => if s.pc = .exited then some { s with api := .closed } else none

/-! ## the machine -/

/-- Who moves. -/
inductive Act (ι : Type) where
  | transmit (o : Outcome)
  | writer (w : ι) (a : WriterAct)
  | answer (a : Answer)
  | api (waitForAck : Bool)
  deriving DecidableEq

/-- The transmit side, from an initial state. -/
def machine [DecidableEq ι] (s₀ : State ι) : Machine (State ι) (Act ι) where
  init := (· = s₀)
  next
    | .transmit o, s => txNext o s
    | .writer w a, s => writerNext w a s
    | .answer a, s => some (answerNext a s)
    | .api waitForAck, s => apiNext waitForAck s

/-! ## what a step can do -/

/-- The steps of the transmit thread. -/
inductive TxStep (s : State ι) : State ι → Prop where
  | start (hpc : s.pc = .start) :
      TxStep s { s with msgResponseInfo := ⟨false, false, 0, 0⟩, pc := .loop }
  | exit (hpc : s.pc = .loop) : TxStep s { s with pc := .exited }
  | toWait (hpc : s.pc = .loop) (hrun : s.bRun) (hack : s.waitForAck)
      (hprogress : s.bTransmissionInProgress) : TxStep s { s with pc := .waitAck }
  | toCheck (hpc : s.pc = .loop) (hplain : ¬ (s.waitForAck ∧ s.bTransmissionInProgress)) :
      TxStep s { s with pc := .checkCount }
  | take (hpc : s.pc = .waitAck) (token : Token) (rest : List Token)
      (hsem : s.transmitAckNackSem = token :: rest) :
      TxStep s { s with transmitAckNackSem := rest, pc := .readAck token }
  | expire (hpc : s.pc = .waitAck) (hsem : s.transmitAckNackSem = []) :
      TxStep s { s with pc := .txOpen true, expired := true }
  | interrupt (hpc : s.pc = .waitAck) : TxStep s { s with pc := .txOpen true }
  | ack (token : Token) (hpc : s.pc = .readAck token) (hack : s.msgResponseInfo.bAck) :
      TxStep s { s with pc := .popAck }
  | nack (token : Token) (hpc : s.pc = .readAck token) (hack : s.msgResponseInfo.bAck = false) :
      TxStep s { s with pc := .txOpen true }
  | popAckEmpty (hpc : s.pc = .popAck) (hlist : s.transmitList = []) :
      TxStep s { s with bTransmissionInProgress := false, pc := .loop }
  | popAck (hpc : s.pc = .popAck) (m : CanalMsg) (rest : List CanalMsg)
      (hlist : s.transmitList = m :: rest) :
      TxStep s { s.pop m rest with bTransmissionInProgress := false, pc := .postPut true }
  | postPut (acked : Bool) (hpc : s.pc = .postPut acked) :
      TxStep s { s with
        transmitDataPutSem := s.transmitDataPutSem + 1
        pc := if acked then .checkCount else .loop }
  | check (hpc : s.pc = .checkCount) (pc : TxPc) (hto : pc = .waitGet ∨ pc = .checkCount2) :
      TxStep s { s with pc }
  | takeGet (hpc : s.pc = .waitGet) :
      TxStep s { s with transmitDataGetSem := s.transmitDataGetSem - 1, pc := .checkCount2 }
  | missGet (hpc : s.pc = .waitGet) : TxStep s { s with pc := .loop }
  | check2 (hpc : s.pc = .checkCount2) (pc : TxPc) (hto : pc = .txOpen false ∨ pc = .idle) :
      TxStep s { s with pc }
  | idle (hpc : s.pc = .idle) : TxStep s { s with pc := .loop }
  | notOpen (again : Bool) (hpc : s.pc = .txOpen again) : TxStep s { s with pc := .loop }
  | isOpen (again : Bool) (hpc : s.pc = .txOpen again) (hopen : s.bOpen) :
      TxStep s { s with pc := .fetch again }
  | fetchEmpty (again : Bool) (hpc : s.pc = .fetch again) (hlist : s.transmitList = []) :
      TxStep s { s with pc := .loop }
  | fetch (again : Bool) (hpc : s.pc = .fetch again) (m : CanalMsg) (rest : List CanalMsg)
      (hlist : s.transmitList = m :: rest) :
      TxStep s { s with
        seq := s.seq + 1
        attempts := s.attempts + 1
        pc := .arm again (s.build m) }
  | arm (again : Bool) (f : TxFrame) (hpc : s.pc = .arm again f) :
      TxStep s { s with
        msgResponseInfo := { bAck := false, channel := 0, seq := s.seq - 1, bWaitingForAckNack := true }
        pc := .send again f
        armed := some f
        expired := false
        nacked := false }
  | sendAgain (f : TxFrame) (hpc : s.pc = .send true f) :
      TxStep s { s with sent := s.sent ++ [f], pc := .loop }
  | sendAck (f : TxFrame) (hpc : s.pc = .send false f) (hack : s.waitForAck) :
      TxStep s { s with sent := s.sent ++ [f], bTransmissionInProgress := true, pc := .loop }
  | sendPlain (f : TxFrame) (hpc : s.pc = .send false f) (hplain : s.waitForAck = false) :
      TxStep s { s with sent := s.sent ++ [f], pc := .popPlain }
  | sendFails (again : Bool) (f : TxFrame) (hpc : s.pc = .send again f) :
      TxStep s { s with pc := .disarm again }
  | disarm (again : Bool) (hpc : s.pc = .disarm again) :
      TxStep s { s with
        msgResponseInfo := { s.msgResponseInfo with bWaitingForAckNack := false }
        pc := .loop }
  | popPlainEmpty (hpc : s.pc = .popPlain) (hlist : s.transmitList = []) :
      TxStep s { s with pc := .loop }
  | popPlain (hpc : s.pc = .popPlain) (m : CanalMsg) (rest : List CanalMsg)
      (hlist : s.transmitList = m :: rest) :
      TxStep s { s.pop m rest with pc := .postPut false }

theorem txNext_step {o : Outcome} {s t : State ι} (h : txNext o s = some t) : TxStep s t := by
  unfold txNext at h
  split at h
  · next hpc =>
      cases h
      exact .start hpc
  · next hpc =>
      split at h
      · next hrun =>
          split at h
          · next hwait =>
              cases h
              rw [Bool.and_eq_true] at hwait
              exact .toWait hpc hrun hwait.1 hwait.2
          · next hwait =>
              cases h
              exact .toCheck hpc (by simpa using hwait)
      · cases h
        exact .exit hpc
  · next hpc =>
      split at h
      · cases h
      · next token rest hsem =>
          cases h
          exact .take hpc token rest hsem
  · next hpc =>
      split at h
      · next hsem =>
          cases h
          exact .expire hpc hsem
      · cases h
  · next hpc =>
      cases h
      exact .interrupt hpc
  · next token hpc =>
      split at h
      · next hack =>
          cases h
          exact .ack token hpc hack
      · next hack =>
          cases h
          exact .nack token hpc (by simpa using hack)
  · next hpc =>
      split at h
      · next hlist =>
          cases h
          exact .popAckEmpty hpc hlist
      · next m rest hlist =>
          cases h
          exact .popAck hpc m rest hlist
  · next acked hpc =>
      cases h
      exact .postPut acked hpc
  · next hpc =>
      split at h
      · cases h
        exact .check hpc _ (.inl rfl)
      · cases h
        exact .check hpc _ (.inr rfl)
  · next hpc =>
      split at h
      · cases h
        exact .takeGet hpc
      · cases h
  · next hpc =>
      split at h
      · cases h
        exact .missGet hpc
      · cases h
  · next hpc =>
      cases h
      exact .missGet hpc
  · next hpc =>
      split at h
      · cases h
        exact .check2 hpc _ (.inl rfl)
      · cases h
        exact .check2 hpc _ (.inr rfl)
  · next hpc =>
      cases h
      exact .idle hpc
  · next again hpc =>
      split at h
      · next hopen =>
          cases h
          exact .isOpen again hpc hopen
      · cases h
        exact .notOpen again hpc
  · next again hpc =>
      split at h
      · next hlist =>
          cases h
          exact .fetchEmpty again hpc hlist
      · next m rest hlist =>
          cases h
          exact .fetch again hpc m rest hlist
  · next again f hpc =>
      cases h
      exact .arm again f hpc
  · next again f hpc =>
      split at h
      · next hagain =>
          cases h
          exact .sendAgain f (by rw [hpc, hagain])
      · next hagain =>
          rw [Bool.not_eq_true] at hagain
          split at h
          · next hack =>
              cases h
              exact .sendAck f (by rw [hpc, hagain]) hack
          · next hack =>
              cases h
              exact .sendPlain f (by rw [hpc, hagain]) (by simpa using hack)
  · next again f hpc =>
      cases h
      exact .sendFails again f hpc
  · next again hpc =>
      cases h
      exact .disarm again hpc
  · next hpc =>
      split at h
      · next hlist =>
          cases h
          exact .popPlainEmpty hpc hlist
      · next m rest hlist =>
          cases h
          exact .popPlain hpc m rest hlist
  · cases h

/-- Frames only go out where `sendMsg` is called. -/
theorem TxStep.sent_eq {s t : State ι} (h : TxStep s t) (hpc : ∀ again f, s.pc ≠ .send again f) :
    t.sent = s.sent := by
  cases h with
  | sendAgain f h => exact absurd h (hpc true f)
  | sendAck f h => exact absurd h (hpc false f)
  | sendPlain f h => exact absurd h (hpc false f)
  | _ => rfl

/-- The part of the state that writers change: the queue, the semaphores they
share with the transmit thread, and their own places. -/
def State.withWriters (s : State ι) (ms : List CanalMsg) (getSem putSem : Nat)
    (writer : ι → WriterPc) : State ι :=
  { s with
    transmitList := s.transmitList ++ ms
    accepted := s.accepted ++ ms
    transmitDataGetSem := getSem
    transmitDataPutSem := putSem
    writer }

theorem withWriters_nil (s : State ι) (getSem putSem : Nat) (writer : ι → WriterPc) :
    s.withWriters [] getSem putSem writer =
      { s with transmitDataGetSem := getSem, transmitDataPutSem := putSem, writer } := by
  simp [State.withWriters]

/-- A writer goes to a place. -/
def State.writerTo [DecidableEq ι] (s : State ι) (w : ι) (pc : WriterPc) : State ι :=
  { s with writer := Function.update s.writer w pc }

@[simp] theorem writerTo_writer [DecidableEq ι] (s : State ι) (w : ι) (pc : WriterPc) :
    (s.writerTo w pc).writer w = pc := by
  simp [State.writerTo]

/-- The steps of a writer. -/
inductive WriterStep [DecidableEq ι] (w : ι) (s : State ι) : WriterAct → State ι → Prop where
  | call (rv : Option CanalError) (blocking : Bool) (m : CanalMsg) (hpc : s.writer w = .outside rv)
      (hopen : s.bOpen) : WriterStep w s (.call blocking m) (s.writerTo w (.test blocking m))
  | notOpen (rv : Option CanalError) (blocking : Bool) (m : CanalMsg)
      (hpc : s.writer w = .outside rv) (hopen : s.bOpen = false) :
      WriterStep w s (.call blocking m) (s.writerTo w (.outside (some .notOpen)))
  | pass (blocking : Bool) (m : CanalMsg) (hpc : s.writer w = .test blocking m)
      (hlen : s.transmitList.length ≤ CAN4VSCP_MAX_SNDMSG) :
      WriterStep w s .go (s.writerTo w (.add m))
  | refuse (m : CanalMsg) (hpc : s.writer w = .test false m)
      (hlen : CAN4VSCP_MAX_SNDMSG < s.transmitList.length) :
      WriterStep w s .go (s.writerTo w (.outside (some .fifoFull)))
  | wait (m : CanalMsg) (hpc : s.writer w = .test true m)
      (hlen : CAN4VSCP_MAX_SNDMSG < s.transmitList.length) :
      WriterStep w s .go (s.writerTo w (.waitPut m))
  | take (m : CanalMsg) (hpc : s.writer w = .waitPut m) (hsem : 0 < s.transmitDataPutSem) :
      WriterStep w s .go
        ({ s with transmitDataPutSem := s.transmitDataPutSem - 1 }.writerTo w (.add m))
  | expire (m : CanalMsg) (hpc : s.writer w = .waitPut m) (hsem : s.transmitDataPutSem = 0) :
      WriterStep w s .expired (s.writerTo w (.outside (some .timeout)))
  | interrupt (m : CanalMsg) (hpc : s.writer w = .waitPut m) :
      WriterStep w s .interrupted (s.writerTo w (.outside (some .generic)))
  | add (m : CanalMsg) (hpc : s.writer w = .add m) :
      WriterStep w s .go ({ s with
        transmitList := s.transmitList ++ [m]
        accepted := s.accepted ++ [m] }.writerTo w .post)
  | post (hpc : s.writer w = .post) :
      WriterStep w s .go ({ s with
        transmitDataGetSem := s.transmitDataGetSem + 1 }.writerTo w (.outside (some .success)))

theorem writerNext_step [DecidableEq ι] {w : ι} {a : WriterAct} {s t : State ι}
    (h : writerNext w a s = some t) : WriterStep w s a t := by
  unfold writerNext at h
  split at h
  · next rv blocking m hpc =>
      split at h
      · next hopen =>
          cases h
          exact .call rv blocking m hpc hopen
      · next hopen =>
          cases h
          exact .notOpen rv blocking m hpc (by simpa using hopen)
  · next blocking m hpc =>
      split at h
      · next hlen =>
          split at h
          · next hblocking =>
              cases h
              exact .wait m (by rw [hpc, hblocking]) hlen
          · next hblocking =>
              rw [Bool.not_eq_true] at hblocking
              cases h
              exact .refuse m (by rw [hpc, hblocking]) hlen
      · next hlen =>
          cases h
          exact .pass blocking m hpc (Nat.not_lt.mp hlen)
  · next m hpc =>
      split at h
      · next hsem =>
          cases h
          exact .take m hpc hsem
      · cases h
  · next m hpc =>
      split at h
      · next hsem =>
          cases h
          exact .expire m hpc hsem
      · cases h
  · next m hpc =>
      cases h
      exact .interrupt m hpc
  · next m hpc =>
      cases h
      exact .add m hpc
  · next hpc =>
      cases h
      exact .post hpc
  · cases h

/-- A writer appends messages to the queue and counts semaphores up or down. -/
theorem writerNext_effect [DecidableEq ι] {w : ι} {a : WriterAct} {s t : State ι}
    (h : writerNext w a s = some t) :
    ∃ ms getSem putSem writer, t = s.withWriters ms getSem putSem writer := by
  have hquiet : ∀ getSem putSem writer,
      ∃ ms getSem' putSem' writer',
        ({ s with transmitDataGetSem := getSem, transmitDataPutSem := putSem, writer } : State ι) =
          s.withWriters ms getSem' putSem' writer' :=
    fun getSem putSem writer => ⟨[], getSem, putSem, writer, by rw [withWriters_nil]⟩
  cases writerNext_step h with
  | add m hpc => exact ⟨[m], _, _, _, rfl⟩
  | _ => exact hquiet _ _ _

/-- An answer changes the ACK/NACK bookkeeping and nothing else. -/
theorem answerNext_effect (a : Answer) (s : State ι) :
    ∃ msgResponseInfo transmitAckNackSem acked nacked, answerNext a s =
      { s with msgResponseInfo, transmitAckNackSem, acked, nacked } := by
  unfold answerNext
  split
  · exact ⟨_, _, _, _, rfl⟩
  · exact ⟨_, _, _, _, rfl⟩

/-- The steps of the thread that opens and closes the driver. -/
inductive ApiStep (waitForAck : Bool) (s : State ι) : State ι → Prop where
  | opens (hapi : s.api = .closed) :
      ApiStep waitForAck s { s with
        cntTransmitFrames := 0
        cntTransmitData := 0
        bRun := true
        waitForAck
        pc := .start
        bTransmissionInProgress := false
        seq := 0
        api := .opening
        sessionStart := s.sent.length
        countedFrom := s.removed.length }
  | isOpen (hapi : s.api = .opening) : ApiStep waitForAck s { s with bOpen := true, api := .opened }
  | stops (hapi : s.api = .opened) : ApiStep waitForAck s { s with bRun := false, api := .stopped }
  | shuts (hapi : s.api = .stopped) :
      ApiStep waitForAck s { s with bOpen := false, api := .postingPut }
  | postsPut (hapi : s.api = .postingPut) :
      ApiStep waitForAck s { s with
        transmitDataPutSem := s.transmitDataPutSem + 1
        api := .postingGet }
  | postsGet (hapi : s.api = .postingGet) :
      ApiStep waitForAck s { s with
        transmitDataGetSem := s.transmitDataGetSem + 1
        api := .postingAck }
  | postsAck (hapi : s.api = .postingAck) :
      ApiStep waitForAck s { s with
        transmitAckNackSem := s.transmitAckNackSem ++ [.close]
        api := .joining }
  | joins (hapi : s.api = .joining) (hexit : s.pc = .exited) : ApiStep waitForAck s { s with api := .closed }

theorem apiNext_step {b : Bool} {s t : State ι} (h : apiNext b s = some t) : ApiStep b s t := by
  unfold apiNext at h
  split at h
  · next hapi =>
      cases h
      exact .opens hapi
  · next hapi =>
      cases h
      exact .isOpen hapi
  · next hapi =>
      cases h
      exact .stops hapi
  · next hapi =>
      cases h
      exact .shuts hapi
  · next hapi =>
      cases h
      exact .postsPut hapi
  · next hapi =>
      cases h
      exact .postsGet hapi
  · next hapi =>
      cases h
      exact .postsAck hapi
  · next hapi =>
      split at h
      · next hexit =>
          cases h
          exact .joins hapi hexit
      · cases h

/-! ## what every step keeps -/

/-- The messages counted: those removed since the counters were reset. -/
def State.counted (s : State ι) : List CanalMsg := s.removed.drop s.countedFrom

/-- What holds of the queue and the counters in every run, with and without ACK:
accepted messages are in the queue or removed, in order, and the counters count
the removed ones.  A closed driver has no transmit thread. -/
structure Ledger (s : State ι) : Prop where
  conserved : s.removed ++ s.transmitList = s.accepted
  countedFrom : s.countedFrom ≤ s.removed.length
  frames : s.cntTransmitFrames = s.counted.length
  data : s.cntTransmitData = (s.counted.map fun m => m.sizeData.toNat).sum
  closed : s.api = .closed → s.pc = .exited

variable {s₀ s t : State ι}

/-- The queue is what has been accepted behind what has been removed. -/
theorem Ledger.getElem?_accepted (h : Ledger s) {m : CanalMsg} {rest : List CanalMsg}
    (hlist : s.transmitList = m :: rest) : s.accepted[s.removed.length]? = some m := by
  rw [← h.conserved, hlist]
  simp

/-- A message that is removed is counted. -/
theorem Ledger.counted_pop (h : Ledger s) (m : CanalMsg) (rest : List CanalMsg) :
    (s.pop m rest).counted = s.counted ++ [m] :=
  List.drop_append_of_le_length h.countedFrom

theorem Ledger.pop (h : Ledger s) {m : CanalMsg} {rest : List CanalMsg}
    (hlist : s.transmitList = m :: rest) (hpc : s.pc ≠ .exited) : Ledger (s.pop m rest) where
  conserved := by simp [State.pop, ← h.conserved, hlist]
  countedFrom := by
    have hle := h.countedFrom
    simp only [State.pop, List.length_append]
    omega
  frames := by
    rw [h.counted_pop, List.length_append, ← h.frames]
    rfl
  data := by
    rw [h.counted_pop, List.map_append, List.sum_append, ← h.data]
    simp [State.pop]
  closed := fun hapi => absurd (h.closed hapi) hpc

/-- Away from the queue and the counters, the ledger only depends on the place
of the threads. -/
theorem Ledger.tx (h : Ledger s) (ht : TxStep s t) : Ledger t := by
  have hclosed : s.pc ≠ .exited → s.api = .closed → False :=
    fun hpc hapi => hpc (h.closed hapi)
  cases ht with
  | exit hpc => exact { h with closed := fun _ => rfl }
  | popAck hpc m rest hlist =>
      exact { h.pop hlist (by simp [hpc]) with
        closed := fun hapi => (hclosed (by simp [hpc]) hapi).elim }
  | popPlain hpc m rest hlist =>
      exact { h.pop hlist (by simp [hpc]) with
        closed := fun hapi => (hclosed (by simp [hpc]) hapi).elim }
  | _ => exact { h with closed := fun hapi => (hclosed (by simp [*]) hapi).elim }

theorem Ledger.writers (h : Ledger s) (ms : List CanalMsg) (getSem putSem : Nat)
    (writer : ι → WriterPc) : Ledger (s.withWriters ms getSem putSem writer) :=
  { h with conserved := by simp [State.withWriters, ← h.conserved] }

theorem Ledger.api {b : Bool} (h : Ledger s) (ht : ApiStep b s t) : Ledger t := by
  cases ht with
  | opens hapi =>
      exact { h with
        countedFrom := Nat.le_refl _
        frames := by simp [State.counted]
        data := by simp [State.counted]
        closed := fun hapi => by cases hapi }
  | joins hapi hexit => exact { h with closed := fun _ => hexit }
  | _ => exact { h with closed := fun hapi => by cases hapi }

theorem Ledger.answer (h : Ledger s) (a : Answer) : Ledger (answerNext a s) := by
  unfold answerNext
  split <;> exact { h with }

/-- Where the machine may start: what is in the queue has been accepted, nothing
has been sent or counted, and a closed driver has no transmit thread. -/
structure Start (s₀ : State ι) : Prop where
  accepted : s₀.accepted = s₀.transmitList
  removed : s₀.removed = []
  attempts : s₀.attempts = 0
  sent : s₀.sent = []
  sessionStart : s₀.sessionStart = 0
  countedFrom : s₀.countedFrom = 0
  frames : s₀.cntTransmitFrames = 0
  data : s₀.cntTransmitData = 0
  acked : s₀.acked = []
  armed : s₀.armed = none
  pc : s₀.pc = .start ∨ s₀.pc = .exited
  closed : s₀.api = .closed → s₀.pc = .exited

theorem start_new : Start (State.new : State ι) :=
  ⟨rfl, rfl, rfl, rfl, rfl, rfl, rfl, rfl, rfl, rfl, .inr rfl, fun _ => rfl⟩

variable [DecidableEq ι]

/-- The flag, and where the counters begin, only change when a closed driver is
opened. -/
theorem session_next {a : Act ι} (h : (machine s₀).next a s = some t) :
    (t.waitForAck = s.waitForAck ∧ t.countedFrom = s.countedFrom) ∨
      ∃ b, a = .api b ∧ s.api = .closed ∧ t.waitForAck = b := by
  cases a with
  | transmit o =>
      have ht := txNext_step h
      cases ht <;> exact .inl ⟨rfl, rfl⟩
  | writer w a =>
      obtain ⟨ms, getSem, putSem, writer, rfl⟩ := writerNext_effect h
      exact .inl ⟨rfl, rfl⟩
  | answer a =>
      cases h
      unfold answerNext
      split <;> exact .inl ⟨rfl, rfl⟩
  | api b =>
      have ht := apiNext_step h
      cases ht with
      | opens hapi => exact .inr ⟨b, rfl, hapi, rfl⟩
      | _ => exact .inl ⟨rfl, rfl⟩

/-- Every run keeps the ledger. -/
theorem ledger_of_reachable {c : Act ι → State ι → Prop} (h₀ : Start s₀)
    (hs : (machine s₀).ReachableWhen c s) : Ledger s := by
  refine hs.invariant ?_ ?_
  · rintro s rfl
    exact {
      conserved := by simp [h₀.removed, h₀.accepted]
      countedFrom := by simp [h₀.countedFrom]
      frames := by simp [h₀.frames, State.counted, h₀.removed]
      data := by simp [h₀.data, State.counted, h₀.removed]
      closed := h₀.closed }
  · intro s t a hI _ hnext
    cases a with
    | transmit o => exact hI.tx (txNext_step hnext)
    | writer w a =>
        obtain ⟨ms, getSem, putSem, writer, rfl⟩ := writerNext_effect hnext
        exact hI.writers ms getSem putSem writer
    | answer a =>
        cases hnext
        exact hI.answer a
    | api b => exact hI.api (apiNext_step hnext)

end Can4vscp.Transmit
