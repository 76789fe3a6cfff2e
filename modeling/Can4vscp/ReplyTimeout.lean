import Can4vscp.Commands
import Can4vscp.Clock

/-!
# Can4vscp.ReplyTimeout

The loops that wait for a reply (`wait4CommandResponse`, `wait4ConfigResponse`, the loop of
`getDeviceCapabilities`), poll by poll.

They compare the clock with `start + timeout`, which wraps like the clock does.
`polls_on_time_iff` says at which polls that is right: those at which the deadline and the
clock have both passed 2^32, or neither has.
-/

namespace Can4vscp.ReplyTimeout

open WrapClock Commands

variable (x : External)

/-! ## the loops -/

/-- A poll: when it is, and what has come into the response queue since the poll before. -/
structure Poll where
  time : Timeval
  arrived : List CmdResponseMsg

/-- What the loops work on.  `capsFrom` is the response `m_caps` is read from. -/
structure PollState where
  responseList : List CmdResponseMsg
  msg : CmdResponseMsg
  capsFrom : Option CmdResponseMsg
  deriving DecidableEq, Repr

/-- How far a loop has come: the passes through its body, what it works on and, when it has
returned, the result. -/
structure PollRun where
  passes : Nat
  state : PollState
  rv : Option Bool
  deriving DecidableEq, Repr

/-- The receive thread fills the queue. -/
def PollState.arrive (s : PollState) (arrived : List CmdResponseMsg) : PollState :=
  { s with responseList := arrived.foldl pushResponse s.responseList }

/-- Take the first response, if there is one (`bResponse`). -/
def PollState.take (s : PollState) : Bool × PollState :=
  match s.responseList with
  | [] => (false, s)
  | msg :: rest => (true, { s with responseList := rest, msg })

/-- `while (again) body`, at the polls of a list; `expired` is what is returned behind the
loop. -/
def pollLoop (again : Timeval → Bool) (body : PollState → PollState × Option Bool)
    (expired : Bool) : List Poll → PollState → PollRun
  | [], s => ⟨0, s, none⟩
  | p :: polls, s =>
    let s := s.arrive p.arrived
    if again p.time then
      match body s with
      | (s, some rv) => ⟨1, s, some rv⟩
      | (s, none) =>
        let run := pollLoop again body expired polls s
        { run with passes := run.passes + 1 }
    else ⟨0, s, some expired⟩

/-- `getClockMilliSeconds() < (start + timeout)` -/
def beforeDeadline (start timeout : UInt32) (now : Timeval) : Bool :=
  getClockMilliSeconds now < start + timeout

/-- The body of `wait4CommandResponse`. -/
def commandBody (cmdcode saveseq : UInt8) (s : PollState) : PollState × Option Bool :=
  let (bResponse, s) := s.take
  (s, if bResponse && isCommandResponse x s.msg cmdcode saveseq then some true else none)

/-- The test of `wait4ConfigResponse`, for an ACK and for a NACK. -/
def isConfigResponse (t : FrameType) (msg : CmdResponseMsg) (codeConfig saveseq : UInt8) : Bool :=
  msg.sizePayload = 2 && saveseq = msg.seq && x.code t = msg.op &&
    msg.payload.getD 0 0 = 0 && codeConfig = msg.payload.getD 1 0

/-- The body of `wait4ConfigResponse`. -/
def configBody (codeConfig saveseq : UInt8) (s : PollState) : PollState × Option Bool :=
  let (bResponse, s) := s.take
  (s, if bResponse then
      if isConfigResponse x .ack s.msg codeConfig saveseq then some true
      else if isConfigResponse x .nack s.msg codeConfig saveseq then some false
      else none
    else none)

/-- The body of the loop of `getDeviceCapabilities`; `capsSize` is the size of a full
response. -/
def capsBody (capsSize : UInt16) (saveseq : UInt8) (s : PollState) : PollState × Option Bool :=
  let (bResponse, s) := s.take
  if bResponse && (capsSize = s.msg.sizePayload && saveseq = s.msg.seq &&
      x.code .capsResponse = s.msg.op) then
    ({ s with capsFrom := some s.msg }, none)
  else (s, none)

def wait4CommandResponse (cmdcode saveseq : UInt8) (timeout : UInt32) (start : Timeval) :
    List Poll → PollState → PollRun :=
  pollLoop (beforeDeadline (getClockMilliSeconds start) timeout) (commandBody x cmdcode saveseq)
    false

def wait4ConfigResponse (codeConfig saveseq : UInt8) (timeout : UInt32) (start : Timeval) :
    List Poll → PollState → PollRun :=
  pollLoop (beforeDeadline (getClockMilliSeconds start) timeout) (configBody x codeConfig saveseq)
    false

/-- The loop of `getDeviceCapabilities`, and its return. -/
def waitCapabilities (capsSize : UInt16) (saveseq : UInt8) (start : Timeval) :
    List Poll → PollState → PollRun :=
  pollLoop (beforeDeadline (getClockMilliSeconds start) 500) (capsBody x capsSize saveseq) true

/-! ## the three waits -/

/-- A call that waits for a reply. -/
inductive Wait where
  | command (cmdcode saveseq : UInt8) (timeout : UInt32)
  | config (codeConfig saveseq : UInt8) (timeout : UInt32)
  | capabilities (capsSize : UInt16) (saveseq : UInt8)
  deriving DecidableEq, Repr

namespace Wait

def run (start : Timeval) : Wait → List Poll → PollState → PollRun
  | command cmdcode saveseq timeout => wait4CommandResponse x cmdcode saveseq timeout start
  | config codeConfig saveseq timeout => wait4ConfigResponse x codeConfig saveseq timeout start
  | capabilities capsSize saveseq => waitCapabilities x capsSize saveseq start

def timeout : Wait → UInt32
  | command _ _ timeout => timeout
  | config _ _ timeout => timeout
  | capabilities _ _ => 500

/-- What is done with a response. -/
def body : Wait → PollState → PollState × Option Bool
  | command cmdcode saveseq _ => commandBody x cmdcode saveseq
  | config codeConfig saveseq _ => configBody x codeConfig saveseq
  | capabilities capsSize saveseq => capsBody x capsSize saveseq

/-- What is returned when no reply has come. -/
def expired : Wait → Bool
  | capabilities _ _ => true
  | _ => false

/-- The same wait by the time that has really passed since its start. -/
def runByTime (start : Timeval) (w : Wait) : List Poll → PollState → PollRun :=
  pollLoop (fun now => now.millis - start.millis < w.timeout.toNat) (w.body x) w.expired

theorem run_eq (start : Timeval) (w : Wait) :
    w.run x start =
      pollLoop (beforeDeadline (getClockMilliSeconds start) w.timeout) (w.body x) w.expired := by
  cases w <;> rfl

end Wait

/-! ## on time -/

/-- The deadline and the clock have both passed 2^32, or neither has. -/
def SameTurn (start now : Timeval) (timeout : UInt32) : Prop :=
  (getClockMilliSeconds start).toNat + timeout.toNat < 2 ^ 32 ↔
    (getClockMilliSeconds start).toNat + (now.millis - start.millis) < 2 ^ 32

/-- A poll behind the start, before the clock comes round to the same value. -/
def InPeriod (start now : Timeval) : Prop :=
  start.millis ≤ now.millis ∧ now.millis < start.millis + 2 ^ 32

instance (start now : Timeval) (timeout : UInt32) : Decidable (SameTurn start now timeout) :=
  inferInstanceAs (Decidable (_ ↔ _))

instance (start now : Timeval) : Decidable (InPeriod start now) :=
  inferInstanceAs (Decidable (_ ∧ _))

variable {x} {start now : Timeval} {timeout : UInt32}

/-- **The test of the loops** is the test for the time that has passed exactly if the
deadline and the clock are on the same turn. -/
theorem beforeDeadline_iff (h : InPeriod start now) :
    (beforeDeadline (getClockMilliSeconds start) timeout now = true ↔
      now.millis - start.millis < timeout.toNat) ↔ SameTurn start now timeout := by
  obtain ⟨hle, hlt⟩ := h
  have hnow : (getClockMilliSeconds now).toNat =
      ((getClockMilliSeconds start).toNat + (now.millis - start.millis)) % 2 ^ 32 := by
    rw [getClockMilliSeconds_toNat, getClockMilliSeconds_toNat, Nat.mod_add_mod,
      Nat.add_sub_cancel' hle]
  rw [beforeDeadline, decide_eq_true_iff, UInt32.lt_iff_toNat_lt, UInt32.toNat_add, hnow]
  exact before_deadline_iff (UInt32.toNat_lt _) (by omega) (UInt32.toNat_lt _)

theorem pollLoop_passes_pos {again : Timeval → Bool} {body : PollState → PollState × Option Bool}
    {expired : Bool} {p : Poll} {polls : List Poll} {s : PollState} :
    0 < (pollLoop again body expired (p :: polls) s).passes ↔ again p.time = true := by
  rw [pollLoop]
  split
  next hagain => split <;> simp [hagain]
  next hagain => simp [hagain]

/-- Loops that make the same tests run alike. -/
theorem pollLoop_congr {again again' : Timeval → Bool}
    {body : PollState → PollState × Option Bool} {expired : Bool} {polls : List Poll}
    (h : ∀ p ∈ polls, again p.time = again' p.time) (s : PollState) :
    pollLoop again body expired polls s = pollLoop again' body expired polls s := by
  induction polls generalizing s with
  | nil => rfl
  | cons p polls ih =>
      have ih := ih fun q hq => h q (List.mem_cons_of_mem p hq)
      simp only [pollLoop, h p List.mem_cons_self, ih]

/-- **When the loops are on time**: at a poll, a loop goes through its body exactly if less
than the timeout has passed, if and only if the deadline and the clock are on the same
turn; and a wait all of whose polls are like this runs as it does by the time that has
passed. -/
theorem polls_on_time_iff (w : Wait) (start : Timeval) :
    (∀ (p : Poll) (polls : List Poll) (s : PollState), InPeriod start p.time →
      ((0 < (w.run x start (p :: polls) s).passes ↔ p.time.millis - start.millis < w.timeout.toNat) ↔
        SameTurn start p.time w.timeout)) ∧
    ∀ (polls : List Poll) (s : PollState),
      (∀ p ∈ polls, InPeriod start p.time ∧ SameTurn start p.time w.timeout) →
      w.run x start polls s = w.runByTime x start polls s := by
  rw [w.run_eq]
  constructor
  · intro p polls s hperiod
    rw [pollLoop_passes_pos]
    exact beforeDeadline_iff hperiod
  · intro polls s hpolls
    refine pollLoop_congr (fun p hp => ?_) s
    obtain ⟨hperiod, hturn⟩ := hpolls p hp
    rw [Bool.eq_iff_iff, (beforeDeadline_iff hperiod).mpr hturn, decide_eq_true_iff]

/-- A poll at a time in milliseconds, with nothing new in the queue. -/
def pollAt (millis : Nat) : Poll := ⟨.ofMicros (1000 * millis), []⟩

/-- Nothing has come yet. -/
def PollState.empty : PollState := ⟨[], ⟨0, 0, 0, 0, []⟩, none⟩

/-- A wait that starts 5 ms after the epoch. -/
theorem polls_on_time_iff_early :
    ((0 < ((Wait.command 0 0 500).run External.vscp (pollAt 5).time [pollAt 5] .empty).passes ↔
        (pollAt 5).time.millis - (pollAt 5).time.millis < (Wait.command 0 0 500).timeout.toNat) ↔
      SameTurn (pollAt 5).time (pollAt 5).time (Wait.command 0 0 500).timeout) ∧
    (Wait.command 0 0 500).run External.vscp (pollAt 5).time [pollAt 5, pollAt 504, pollAt 505]
        .empty =
      (Wait.command 0 0 500).runByTime External.vscp (pollAt 5).time
        [pollAt 5, pollAt 504, pollAt 505] .empty :=
  have h := polls_on_time_iff (x := External.vscp) (Wait.command 0 0 500) (pollAt 5).time
  ⟨h.1 (pollAt 5) [] .empty (by decide +kernel),
    h.2 [pollAt 5, pollAt 504, pollAt 505] .empty (by decide +kernel)⟩

/-- 200 ms before the clock wraps, and 600 ms before it does. -/
def lateStart : Timeval := .ofMicros (1000 * (2 ^ 32 - 200))

def earlierStart : Timeval := .ofMicros (1000 * (2 ^ 32 - 600))

/-- A wait of 500 ms gives up at its first poll, and another one still polls after
700 ms. -/
theorem not_on_time :
    (InPeriod lateStart lateStart ∧ lateStart.millis - lateStart.millis < 500 ∧
      ((Wait.command 0 0 500).run External.vscp lateStart [⟨lateStart, []⟩] .empty).rv =
        some false) ∧
    InPeriod earlierStart (pollAt (2 ^ 32 + 100)).time ∧
      ¬ (pollAt (2 ^ 32 + 100)).time.millis - earlierStart.millis < 500 ∧
      ((Wait.command 0 0 500).run External.vscp earlierStart [pollAt (2 ^ 32 + 100)]
        .empty).passes = 1 := by
  decide +kernel

end Can4vscp.ReplyTimeout
