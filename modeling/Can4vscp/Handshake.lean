import Can4vscp.Commands

/-!
# Can4vscp.Handshake

Opening the driver (`open`, `softOpen`, `close`) against an adapter.

The adapter is a state machine on frames.  An exchange is one frame with its
reply: the request or the reply may be lost, or the adapter may refuse the
request; only an accepted request is answered positively.  The driver waits for
each reply before it sends the next frame, so a reply that comes after the
deadline is a lost one.

`sendConfigWait` is written on top of `sendCommand` and `wait4CommandResponse`,
not of `sendConfig` and `wait4ConfigResponse`.  The adapter gets a command, and
the configuration codes for time stamps and bitrate are the command codes for
listen and loopback mode (`timestamp_enters_listen`).
-/

namespace Can4vscp.Handshake

open Commands

/-! ## codes -/

def VSCP_CAN4VSCP_DRIVER_COMMAND_NOOP : UInt8 := 0
def VSCP_CAN4VSCP_DRIVER_COMMAND_OPEN : UInt8 := 1
def VSCP_CAN4VSCP_DRIVER_COMMAND_LISTEN : UInt8 := 2
def VSCP_CAN4VSCP_DRIVER_COMMAND_LOOPBACK : UInt8 := 3
def VSCP_CAN4VSCP_DRIVER_COMMAND_CLOSE : UInt8 := 4

def VSCP_DRIVER_CONFIG_TIMESTAMP : UInt8 := 2
def VSCP_DRIVER_CONFIG_BAUDRATE : UInt8 := 3

def SET_BAUDRATE_115200 : UInt8 := 0
def SET_BAUDRATE_MAX : UInt8 := 13

/-! ## the adapter -/

inductive Mode where
  | normal
  | listen
  | loopback
  | closed
  deriving DecidableEq, Repr

/-- The mode a command selects. -/
def modeOf (cmdcode : UInt8) : Option Mode :=
  if cmdcode = VSCP_CAN4VSCP_DRIVER_COMMAND_OPEN then some .normal
  else if cmdcode = VSCP_CAN4VSCP_DRIVER_COMMAND_LISTEN then some .listen
  else if cmdcode = VSCP_CAN4VSCP_DRIVER_COMMAND_LOOPBACK then some .loopback
  else if cmdcode = VSCP_CAN4VSCP_DRIVER_COMMAND_CLOSE then some .closed
  else none

/-- The adapter, with the modes it has entered and the options it has set as
history. -/
structure Adapter where
  mode : Mode
  timestamp : UInt8
  baudrate : UInt8
  entered : List Mode
  configured : List (UInt8 × UInt8)
  deriving DecidableEq, Repr

variable (x : External)

namespace Adapter

/-- Accept a command. -/
def command (a : Adapter) (cmdcode : UInt8) : Adapter :=
  match modeOf cmdcode with
  | some mode => { a with mode, entered := a.entered ++ [mode] }
  | none => a

/-- Accept a configuration. -/
def configure (a : Adapter) (code value : UInt8) : Adapter :=
  if code = VSCP_DRIVER_CONFIG_TIMESTAMP then
    { a with timestamp := value, configured := a.configured ++ [(code, value)] }
  else if code = VSCP_DRIVER_CONFIG_BAUDRATE then
    { a with baudrate := value, configured := a.configured ++ [(code, value)] }
  else a

/-- Accept a frame. -/
def accept (a : Adapter) (f : Frame) : Adapter :=
  if f.frameType = x.code .command then a.command (f.payload.headD 0)
  else if f.frameType = x.code .configure then a.configure (f.payload.headD 0) (f.payload.getD 1 0)
  else a

end Adapter

/-- The positive answer to a frame: COMMAND_REPLY to a command, ACK to a
configuration. -/
def reply (f : Frame) : CmdResponseMsg :=
  if f.frameType = x.code .configure then ⟨x.code .ack, f.seq, f.channel, 2, [0, f.payload.headD 0]⟩
  else commandReply x f f.channel

/-! ## exchanges -/

/-- What becomes of a request and its reply. -/
inductive Outcome where
  | requestLost
  | refused
  | replyLost
  | answered
  deriving DecidableEq, Repr

/-- The driver and the adapter it talks to; `exchanges` counts the frames
sent. -/
structure Session where
  initFlag : UInt32
  nBaud : UInt8
  bStrict : Bool
  bRun : Bool
  bOpen : Bool
  sequencyno : UInt8
  adapter : Adapter
  exchanges : Nat
  deriving DecidableEq, Repr

variable (outcome : Nat → Outcome)

/-- Send a frame and get the reply, if there is one. -/
def exchange (f : Frame) (s : Session) : Option CmdResponseMsg × Session :=
  let s' := { s with sequencyno := s.sequencyno + 1, exchanges := s.exchanges + 1 }
  match outcome s.exchanges with
  | .requestLost => (none, s')
  | .refused => (none, s')
  | .replyLost => (none, { s' with adapter := s.adapter.accept x f })
  | .answered => (some (reply x f), { s' with adapter := s.adapter.accept x f })

/-- `sendCommand` and `wait4CommandResponse`, with the sequence number of the
frame. -/
def sendCommandWait (cmdcode : UInt8) (param : List UInt8) (s : Session) : Bool × Session :=
  let saveseq := s.sequencyno
  let (msg, s') := exchange x outcome (commandFrame x cmdcode param s.sequencyno) s
  (msg.any fun msg => isCommandResponse x msg cmdcode saveseq, s')

/-- The source calls `sendCommand` and `wait4CommandResponse` here as well. -/
def sendConfigWait (codeConfig : UInt8) (param : List UInt8) (s : Session) : Bool × Session :=
  sendCommandWait x outcome codeConfig param s

/-- The defaults are used if there is no response, and the result is ignored. -/
def getDeviceCapabilities (s : Session) : Session :=
  (exchange x outcome (capsRequestFrame x s.sequencyno) s).2

/-! ## closing -/

def close (s : Session) : Session :=
  if s.bRun then
    let s' := (sendCommandWait x outcome VSCP_CAN4VSCP_DRIVER_COMMAND_CLOSE [] s).2
    { s' with bRun := false, bOpen := false }
  else s

/-! ## opening -/

/-- Look for an adapter, a number of times. -/
def findDevice : Nat → Session → Bool × Session
  | 0, s => (false, s)
  | n + 1, s =>
    let (found, s') := sendCommandWait x outcome VSCP_CAN4VSCP_DRIVER_COMMAND_NOOP [] s
    if found then (true, s') else findDevice n s'

/-- If timestamp needs to be enabled we enabled it here. -/
def configTimestamp (s : Session) : Bool × Session :=
  if s.initFlag &&& CAN4VSCP_FLAG_ENABLE_TIMESTAMP ≠ 0 then
    sendConfigWait x outcome VSCP_DRIVER_CONFIG_TIMESTAMP [1] s
  else (true, s)

/-- If non standard baudrate we change it here. -/
def configBaudrate (s : Session) : Bool × Session :=
  if SET_BAUDRATE_115200 ≠ s.nBaud then
    sendConfigWait x outcome VSCP_DRIVER_CONFIG_BAUDRATE [s.nBaud] s
  else (true, s)

/-- The command for the requested mode. -/
def modeCommand (flags : UInt32) : UInt8 :=
  if flags &&& 0x03 = 1 then VSCP_CAN4VSCP_DRIVER_COMMAND_LISTEN
  else if flags &&& 0x03 = 2 then VSCP_CAN4VSCP_DRIVER_COMMAND_LOOPBACK
  else VSCP_CAN4VSCP_DRIVER_COMMAND_OPEN

/-- Set interface in requested mode. -/
def setMode (s : Session) : Bool × Session :=
  sendCommandWait x outcome (modeCommand s.initFlag) [] s

/-- Give up on a failure in strict mode. -/
def orClose (r : Bool × Session) (next : Session → CanalError × Session) : CanalError × Session :=
  if r.1 = false ∧ r.2.bStrict = true then (.initFail, close x outcome r.2) else next r.2

/-- Give up on a failure. -/
def orFail (r : Bool × Session) (next : Session → CanalError × Session) : CanalError × Session :=
  if r.1 = false then (.initFail, r.2) else next r.2

/-- The baudrate code of a configuration string; `token` is the number in it. -/
def baudCode (token : Option Int) : UInt8 :=
  match token with
  | none => SET_BAUDRATE_115200
  | some n => if UInt8.ofInt n > SET_BAUDRATE_MAX - 1 then SET_BAUDRATE_115200 else UInt8.ofInt n

/-- What `open` does when an adapter has been found. -/
def setUp (s : Session) : CanalError × Session :=
  orClose x outcome (configTimestamp x outcome s) fun s =>
  orClose x outcome (configBaudrate x outcome s) fun s =>
  orClose x outcome (setMode x outcome s) fun s => (.success, s)

/-- What `open` does when the threads have been started. -/
def handshake (s : Session) : CanalError × Session :=
  orClose x outcome (findDevice x outcome 3 s) fun s =>
  setUp x outcome (getDeviceCapabilities x outcome { s with bOpen := true })

/-- `open`; `serial` is the result of `OpenSerialInterface`. -/
def openDriver (serial : CanalError) (flags : UInt32) (token : Option Int) (s : Session) :
    CanalError × Session :=
  let s := { s with
    nBaud := SET_BAUDRATE_115200
    initFlag := flags
    bStrict := if flags &&& CAN4VSCP_FLAG_ENABLE_STRICT ≠ 0 then true else s.bStrict }
  if s.bRun then (.success, s)
  else
    let s := { s with nBaud := baudCode token }
    if serial ≠ .success then (serial, s)
    else handshake x outcome { s with bRun := true, bOpen := true }

def softOpen (s : Session) : CanalError × Session :=
  orFail (configTimestamp x outcome s) fun s =>
  orFail (configBaudrate x outcome s) fun s =>
  orFail (setMode x outcome s) fun s => (.success, s)

/-! ## what an exchange does -/

/-- The adapter aside, the members of the driver stay as they are. -/
structure Keeps (s s' : Session) : Prop where
  initFlag : s'.initFlag = s.initFlag
  nBaud : s'.nBaud = s.nBaud
  bStrict : s'.bStrict = s.bStrict
  bRun : s'.bRun = s.bRun
  bOpen : s'.bOpen = s.bOpen

variable {x} {s s' t : Session}

theorem Keeps.refl (s : Session) : Keeps s s := ⟨rfl, rfl, rfl, rfl, rfl⟩

theorem Keeps.trans (h : Keeps s s') (h' : Keeps s' t) : Keeps s t :=
  ⟨h'.initFlag.trans h.initFlag, h'.nBaud.trans h.nBaud, h'.bStrict.trans h.bStrict,
    h'.bRun.trans h.bRun, h'.bOpen.trans h.bOpen⟩

theorem Adapter.accept_command (a : Adapter) (cmdcode : UInt8) (param : List UInt8) (seq : UInt8) :
    a.accept x (commandFrame x cmdcode param seq) = a.command cmdcode := by
  simp [Adapter.accept, commandFrame]

theorem Adapter.accept_caps (a : Adapter) (seq : UInt8) :
    a.accept x (capsRequestFrame x seq) = a := by
  simp [Adapter.accept, capsRequestFrame, x.code_injective.eq_iff]

theorem exchange_keeps (f : Frame) (s : Session) : Keeps s (exchange x outcome f s).2 := by
  unfold exchange
  dsimp only
  split <;> exact ⟨rfl, rfl, rfl, rfl, rfl⟩

/-- The adapter accepts the frame, or does not see it. -/
theorem exchange_adapter (f : Frame) (s : Session) :
    (exchange x outcome f s).2.adapter = s.adapter ∨
      (exchange x outcome f s).2.adapter = s.adapter.accept x f := by
  unfold exchange
  dsimp only
  split
  · exact .inl rfl
  · exact .inl rfl
  · exact .inr rfl
  · exact .inr rfl

/-- Only an accepted request is answered. -/
theorem exchange_answered (f : Frame) (s : Session) (h : (exchange x outcome f s).1.isSome = true) :
    (exchange x outcome f s).2.adapter = s.adapter.accept x f := by
  cases hout : outcome s.exchanges with
  | requestLost => simp [exchange, hout] at h
  | refused => simp [exchange, hout] at h
  | replyLost => simp [exchange, hout]
  | answered => simp [exchange, hout]

theorem sendCommandWait_keeps (cmdcode : UInt8) (param : List UInt8) (s : Session) :
    Keeps s (sendCommandWait x outcome cmdcode param s).2 :=
  exchange_keeps outcome _ s

theorem sendCommandWait_adapter (cmdcode : UInt8) (param : List UInt8) (s : Session) :
    (sendCommandWait x outcome cmdcode param s).2.adapter = s.adapter ∨
      (sendCommandWait x outcome cmdcode param s).2.adapter = s.adapter.command cmdcode := by
  have h := exchange_adapter (x := x) outcome
    (commandFrame x cmdcode param s.sequencyno) s
  rwa [Adapter.accept_command] at h

/-- A command that succeeds has been accepted. -/
theorem sendCommandWait_true {cmdcode : UInt8} {param : List UInt8}
    (h : (sendCommandWait x outcome cmdcode param s).1 = true) :
    (sendCommandWait x outcome cmdcode param s).2.adapter = s.adapter.command cmdcode := by
  have hsome : (exchange x outcome (commandFrame x cmdcode param s.sequencyno) s).1.isSome = true := by
    cases hmsg : (exchange x outcome (commandFrame x cmdcode param s.sequencyno) s).1 with
    | some msg => rfl
    | none => simp [sendCommandWait, hmsg] at h
  have hadapter := exchange_answered outcome _ s hsome
  rwa [Adapter.accept_command] at hadapter

/-! ## what the steps of opening do -/

theorem Adapter.command_noop (a : Adapter) : a.command VSCP_CAN4VSCP_DRIVER_COMMAND_NOOP = a := rfl

/-- Looking for an adapter does not change it. -/
theorem findDevice_effect (n : Nat) (s : Session) :
    Keeps s (findDevice x outcome n s).2 ∧ (findDevice x outcome n s).2.adapter = s.adapter := by
  induction n generalizing s with
  | zero => exact ⟨Keeps.refl s, rfl⟩
  | succ n ih =>
      have hkeeps := sendCommandWait_keeps (x := x) outcome VSCP_CAN4VSCP_DRIVER_COMMAND_NOOP [] s
      have hadapter : (sendCommandWait x outcome VSCP_CAN4VSCP_DRIVER_COMMAND_NOOP [] s).2.adapter =
          s.adapter := by
        cases sendCommandWait_adapter outcome VSCP_CAN4VSCP_DRIVER_COMMAND_NOOP [] s with
        | inl h => exact h
        | inr h => exact h.trans (Adapter.command_noop s.adapter)
      simp only [findDevice]
      split
      · exact ⟨hkeeps, hadapter⟩
      · obtain ⟨hk, ha⟩ := ih (sendCommandWait x outcome VSCP_CAN4VSCP_DRIVER_COMMAND_NOOP [] s).2
        exact ⟨hkeeps.trans hk, ha.trans hadapter⟩

theorem getDeviceCapabilities_effect (s : Session) :
    Keeps s (getDeviceCapabilities x outcome s) ∧
      (getDeviceCapabilities x outcome s).adapter = s.adapter := by
  refine ⟨exchange_keeps outcome _ s, ?_⟩
  cases exchange_adapter outcome (capsRequestFrame x s.sequencyno) s with
  | inl h => exact h
  | inr h => exact h.trans (Adapter.accept_caps s.adapter s.sequencyno)

theorem configTimestamp_keeps (s : Session) : Keeps s (configTimestamp x outcome s).2 := by
  unfold configTimestamp
  split
  · exact sendCommandWait_keeps outcome _ _ s
  · exact Keeps.refl s

theorem configBaudrate_keeps (s : Session) : Keeps s (configBaudrate x outcome s).2 := by
  unfold configBaudrate
  split
  · exact sendCommandWait_keeps outcome _ _ s
  · exact Keeps.refl s

theorem setMode_keeps (s : Session) : Keeps s (setMode x outcome s).2 :=
  sendCommandWait_keeps outcome _ _ s

/-! ## giving up -/

variable {outcome}

theorem orClose_success {r : Bool × Session} {next : Session → CanalError × Session}
    (hstrict : r.2.bStrict = true) (h : (orClose x outcome r next).1 = .success) :
    r.1 = true ∧ orClose x outcome r next = next r.2 := by
  unfold orClose at h ⊢
  split at h
  · cases h
  · next hgo =>
      have hr : r.1 = true := by simpa [hstrict] using hgo
      exact ⟨hr, by simp [hr]⟩

/-- The driver is closed. -/
def Session.Closed (s : Session) : Prop := s.bRun = false ∧ s.bOpen = false

theorem close_closed (hrun : s.bRun = true) : (close x outcome s).Closed := by
  simp [close, hrun, Session.Closed]

theorem orClose_failed {r : Bool × Session} {next : Session → CanalError × Session}
    (hrun : r.2.bRun = true) (hnext : (next r.2).1 ≠ .success → (next r.2).2.Closed)
    (h : (orClose x outcome r next).1 ≠ .success) : (orClose x outcome r next).2.Closed := by
  unfold orClose at h ⊢
  split
  · exact close_closed hrun
  · next hgo => exact hnext (by simpa [hgo] using h)

/-! ## the result -/

/-- The mode the flags ask for. -/
def selected (flags : UInt32) : Mode :=
  if flags &&& 0x03 = 1 then .listen else if flags &&& 0x03 = 2 then .loopback else .normal

theorem Adapter.command_modeCommand (a : Adapter) (flags : UInt32) :
    a.command (modeCommand flags) =
      { a with mode := selected flags, entered := a.entered ++ [selected flags] } := by
  unfold modeCommand selected
  split
  · rfl
  · split <;> rfl

/-- What the adapter did during a call, if the driver and the adapter agree on
it: the options have been set, and no mode was entered but the one it was in
before and the one it is in now, which is the one that was asked for. -/
structure Agreed (flags : UInt32) (baud : UInt8) (before after : Adapter) : Prop where
  timestamp : flags &&& CAN4VSCP_FLAG_ENABLE_TIMESTAMP ≠ 0 →
    ∃ value, (VSCP_DRIVER_CONFIG_TIMESTAMP, value) ∈ after.configured
  baudrate : baud ≠ SET_BAUDRATE_115200 → (VSCP_DRIVER_CONFIG_BAUDRATE, baud) ∈ after.configured
  entered : ∀ mode ∈ after.entered, mode = before.mode ∨ mode = selected flags
  mode : after.mode = selected flags

/-- Nothing has happened yet. -/
def Adapter.Fresh (a : Adapter) : Prop := a.entered = [] ∧ a.configured = []

variable (x) in
/-- The handshake with these flags and this baudrate, whatever is lost or refused:
of `open` on a closed driver, and of `softOpen`. -/
structure HandshakeOk (flags : UInt32) (token : Option Int) : Prop where
  opens : ∀ outcome serial s, s.Closed → s.adapter.Fresh →
    (flags &&& CAN4VSCP_FLAG_ENABLE_STRICT ≠ 0 ∨ s.bStrict = true) →
    (openDriver x outcome serial flags token s).1 = .success →
    Agreed flags (baudCode token) s.adapter (openDriver x outcome serial flags token s).2.adapter
  failed : ∀ outcome serial s, s.Closed → (openDriver x outcome serial flags token s).1 ≠ .success →
    (openDriver x outcome serial flags token s).2.Closed
  soft : ∀ outcome s, s.initFlag = flags → s.nBaud = baudCode token → s.adapter.Fresh →
    (softOpen x outcome s).1 = .success →
    Agreed flags (baudCode token) s.adapter (softOpen x outcome s).2.adapter

/-- A mode command that was accepted is all the agreement needs when nothing has
to be configured. -/
theorem agreed_setMode {flags : UInt32} (hflag : flags &&& CAN4VSCP_FLAG_ENABLE_TIMESTAMP = 0)
    (hs : s.initFlag = flags) {a : Adapter} (ha : s.adapter = a) (hfresh : a.Fresh)
    (h : (setMode x outcome s).1 = true) :
    Agreed flags SET_BAUDRATE_115200 a (setMode x outcome s).2.adapter := by
  have hadapter : (setMode x outcome s).2.adapter = s.adapter.command (modeCommand s.initFlag) :=
    sendCommandWait_true outcome h
  rw [hs, ha, Adapter.command_modeCommand] at hadapter
  rw [hadapter]
  exact {
    timestamp := fun hne => absurd hflag hne
    baudrate := fun hne => absurd rfl hne
    entered := fun mode hmode => by
      rw [hfresh.1] at hmode
      exact .inr (List.mem_singleton.mp hmode)
    mode := rfl }

theorem configTimestamp_off (h : s.initFlag &&& CAN4VSCP_FLAG_ENABLE_TIMESTAMP = 0) :
    configTimestamp x outcome s = (true, s) := by
  simp [configTimestamp, h]

theorem configBaudrate_off (h : s.nBaud = SET_BAUDRATE_115200) :
    configBaudrate x outcome s = (true, s) := by
  simp [configBaudrate, h]

/-- With nothing to configure a soft open agrees. -/
theorem softOpen_agreed {flags : UInt32} (hflag : flags &&& CAN4VSCP_FLAG_ENABLE_TIMESTAMP = 0)
    (hs : s.initFlag = flags) (hbaud : s.nBaud = SET_BAUDRATE_115200) (hfresh : s.adapter.Fresh)
    (h : (softOpen x outcome s).1 = .success) :
    Agreed flags SET_BAUDRATE_115200 s.adapter (softOpen x outcome s).2.adapter := by
  have htime : configTimestamp x outcome s = (true, s) := configTimestamp_off (by rw [hs, hflag])
  simp only [softOpen, htime, configBaudrate_off hbaud, orFail, Bool.true_eq_false, if_false] at h ⊢
  split at h
  · cases h
  · next hok =>
      rw [if_neg hok]
      exact agreed_setMode hflag hs rfl hfresh (by simpa using hok)

/-- The state before the configuration: an adapter was found and asked for its
capabilities. -/
theorem found_effect (s : Session) (hopen : s.bOpen = true) :
    Keeps s (getDeviceCapabilities x outcome { (findDevice x outcome 3 s).2 with bOpen := true }) ∧
      (getDeviceCapabilities x outcome
        { (findDevice x outcome 3 s).2 with bOpen := true }).adapter = s.adapter := by
  obtain ⟨hfound, hadapter⟩ := findDevice_effect outcome 3 s
  obtain ⟨hcaps, hsame⟩ := getDeviceCapabilities_effect outcome
    { (findDevice x outcome 3 s).2 with bOpen := true }
  have hopened : Keeps s { (findDevice x outcome 3 s).2 with bOpen := true } :=
    { hfound with bOpen := hopen.symm }
  exact ⟨hopened.trans hcaps, hsame.trans hadapter⟩

/-- With nothing to configure a strict set-up agrees. -/
theorem setUp_agreed {flags : UInt32} (hflag : flags &&& CAN4VSCP_FLAG_ENABLE_TIMESTAMP = 0)
    (hs : s.initFlag = flags) (hbaud : s.nBaud = SET_BAUDRATE_115200) (hstrict : s.bStrict = true)
    {a : Adapter} (ha : s.adapter = a) (hfresh : a.Fresh)
    (h : (setUp x outcome s).1 = .success) :
    Agreed flags SET_BAUDRATE_115200 a (setUp x outcome s).2.adapter := by
  have htime : configTimestamp x outcome s = (true, s) := configTimestamp_off (by rw [hs, hflag])
  have hset : setUp x outcome s = orClose x outcome (setMode x outcome s) fun s => (.success, s) := by
    simp [setUp, htime, configBaudrate_off hbaud, orClose]
  rw [hset] at h ⊢
  obtain ⟨hmode, heq⟩ := orClose_success ((setMode_keeps outcome s).bStrict.trans hstrict) h
  rw [heq]
  exact agreed_setMode hflag hs ha hfresh hmode

/-- With nothing to configure a strict handshake agrees. -/
theorem handshake_agreed {flags : UInt32} (hflag : flags &&& CAN4VSCP_FLAG_ENABLE_TIMESTAMP = 0)
    (hs : s.initFlag = flags) (hbaud : s.nBaud = SET_BAUDRATE_115200) (hstrict : s.bStrict = true)
    (hopen : s.bOpen = true) {a : Adapter} (ha : s.adapter = a) (hfresh : a.Fresh)
    (h : (handshake x outcome s).1 = .success) :
    Agreed flags SET_BAUDRATE_115200 a (handshake x outcome s).2.adapter := by
  obtain ⟨hfound, hadapter⟩ := found_effect s hopen
  unfold handshake at h ⊢
  obtain ⟨-, heq⟩ := orClose_success ((findDevice_effect outcome 3 s).1.bStrict.trans hstrict) h
  rw [heq] at h ⊢
  exact setUp_agreed hflag (hfound.initFlag.trans hs) (hfound.nBaud.trans hbaud)
    (hfound.bStrict.trans hstrict) (hadapter.trans ha) hfresh h

/-- A set-up that fails closes the driver. -/
theorem setUp_failed (hrun : s.bRun = true) (h : (setUp x outcome s).1 ≠ .success) :
    (setUp x outcome s).2.Closed := by
  have hrun₁ := (configTimestamp_keeps (x := x) outcome s).bRun.trans hrun
  refine orClose_failed hrun₁ (fun h => ?_) h
  have hrun₂ := (configBaudrate_keeps (x := x) outcome _).bRun.trans hrun₁
  refine orClose_failed hrun₂ (fun h => ?_) h
  exact orClose_failed ((setMode_keeps outcome _).bRun.trans hrun₂) (fun h => absurd rfl h) h

/-- A handshake that fails closes the driver. -/
theorem handshake_failed (hrun : s.bRun = true) (hopen : s.bOpen = true)
    (h : (handshake x outcome s).1 ≠ .success) : (handshake x outcome s).2.Closed := by
  obtain ⟨hfound, -⟩ := found_effect s hopen
  refine orClose_failed ((findDevice_effect outcome 3 s).1.bRun.trans hrun) (fun h => ?_) h
  exact setUp_failed (hfound.bRun.trans hrun) h

/-! ### nothing is ever configured -/

theorem Adapter.command_configured (a : Adapter) (cmdcode : UInt8) :
    (a.command cmdcode).configured = a.configured := by
  unfold Adapter.command
  split <;> rfl

/-- What the driver sends to configure the adapter is a command. -/
theorem sendCommandWait_configured (cmdcode : UInt8) (param : List UInt8) (s : Session) :
    (sendCommandWait x outcome cmdcode param s).2.adapter.configured = s.adapter.configured := by
  cases sendCommandWait_adapter outcome cmdcode param s with
  | inl h => rw [h]
  | inr h => rw [h, Adapter.command_configured]

/-- If everything is answered, every command succeeds. -/
theorem sendCommandWait_answered (cmdcode : UInt8) (param : List UInt8) (s : Session) :
    (sendCommandWait x (fun _ => .answered) cmdcode param s).1 = true := by
  have hreply : reply x (commandFrame x cmdcode param s.sequencyno) =
      commandReply x (commandFrame x cmdcode param s.sequencyno) 0 := by
    simp [reply, commandFrame, x.code_injective.eq_iff]
  simp [sendCommandWait, exchange, hreply, isCommandResponse_commandReply]

theorem configTimestamp_answered (s : Session) :
    (configTimestamp x (fun _ => .answered) s).1 = true ∧
      (configTimestamp x (fun _ => .answered) s).2.adapter.configured = s.adapter.configured := by
  unfold configTimestamp
  split
  · exact ⟨sendCommandWait_answered _ _ s, sendCommandWait_configured _ _ s⟩
  · exact ⟨rfl, rfl⟩

theorem configBaudrate_answered (s : Session) :
    (configBaudrate x (fun _ => .answered) s).1 = true ∧
      (configBaudrate x (fun _ => .answered) s).2.adapter.configured = s.adapter.configured := by
  unfold configBaudrate
  split
  · exact ⟨sendCommandWait_answered _ _ s, sendCommandWait_configured _ _ s⟩
  · exact ⟨rfl, rfl⟩

/-- If everything is answered, a soft open succeeds and configures nothing. -/
theorem softOpen_answered (s : Session) :
    (softOpen x (fun _ => .answered) s).1 = .success ∧
      (softOpen x (fun _ => .answered) s).2.adapter.configured = s.adapter.configured := by
  obtain ⟨ht, hct⟩ := configTimestamp_answered (x := x) s
  obtain ⟨hb, hcb⟩ := configBaudrate_answered (x := x) (configTimestamp x (fun _ => .answered) s).2
  have hm : ∀ s, (setMode x (fun _ => .answered) s).1 = true :=
    fun s => sendCommandWait_answered _ _ s
  have hcm : ∀ s, (setMode x (fun _ => .answered) s).2.adapter.configured = s.adapter.configured :=
    fun s => sendCommandWait_configured _ _ s
  simp [softOpen, orFail, ht, hb, hm, hcm, hcb, hct]

/-! ### the handshake -/

/-- **When the handshake agrees**: exactly if there is nothing to configure. -/
theorem handshakeOk_iff (x : External) (flags : UInt32) (token : Option Int) :
    HandshakeOk x flags token ↔
      flags &&& CAN4VSCP_FLAG_ENABLE_TIMESTAMP = 0 ∧ baudCode token = SET_BAUDRATE_115200 := by
  constructor
  · intro h
    let s : Session := ⟨flags, baudCode token, false, true, true, 0, ⟨.closed, 0, 0, [], []⟩, 0⟩
    obtain ⟨hok, hconfigured⟩ := softOpen_answered (x := x) s
    have hagreed := h.soft (fun _ => .answered) s rfl rfl ⟨rfl, rfl⟩ hok
    constructor
    · by_contra hflag
      obtain ⟨value, hmem⟩ := hagreed.timestamp hflag
      rw [hconfigured] at hmem
      cases hmem
    · by_contra hbaud
      have hmem := hagreed.baudrate hbaud
      rw [hconfigured] at hmem
      cases hmem
  · rintro ⟨hflag, hbaud⟩
    exact {
      opens := fun outcome serial s hclosed hfresh hstrict hok => by
        unfold openDriver at hok ⊢
        simp only [hclosed.1, Bool.false_eq_true, if_false] at hok ⊢
        split at hok
        · next hserial => exact absurd hok hserial
        · next hserial =>
            have hstrict' : (if flags &&& CAN4VSCP_FLAG_ENABLE_STRICT ≠ 0 then true else s.bStrict) =
                true := by
              cases hstrict with
              | inl hset => rw [if_pos hset]
              | inr hsticky => rw [hsticky, ite_self]
            rw [if_neg hserial]
            rw [hbaud] at hok ⊢
            exact handshake_agreed hflag rfl rfl hstrict' rfl rfl hfresh hok
      failed := fun outcome serial s hclosed hfail => by
        unfold openDriver at hfail ⊢
        simp only [hclosed.1, Bool.false_eq_true, if_false] at hfail ⊢
        split
        · exact ⟨rfl, hclosed.2⟩
        · next hserial =>
            rw [if_neg hserial] at hfail
            exact handshake_failed rfl rfl hfail
      soft := fun outcome s hflags hnBaud hfresh hok => by
        rw [hbaud] at hnBaud ⊢
        exact softOpen_agreed hflag hflags hnBaud hfresh hok }

/-- A strict open with time stamps, an adapter that is closed and loses nothing:
the adapter enters listen mode and no time stamp option is set. -/
theorem timestamp_enters_listen : ¬ HandshakeOk .vscp 0x90 none := by
  intro h
  let s : Session := ⟨0, 0, false, false, false, 0, ⟨.closed, 0, 0, [], []⟩, 0⟩
  have hrun : openDriver .vscp (fun _ => .answered) .success 0x90 none s =
      (.success, ⟨0x90, 0, true, true, true, 4, ⟨.normal, 0, 0, [.listen, .normal], []⟩, 4⟩) := by
    decide
  have hagreed := h.opens (fun _ => .answered) .success s ⟨rfl, rfl⟩ ⟨rfl, rfl⟩
    (.inl (by decide)) (by rw [hrun])
  rw [hrun] at hagreed
  have hlisten := hagreed.entered .listen (by simp)
  exact absurd hlisten (by decide)

end Can4vscp.Handshake
