import Can4vscp.Closing
import Can4vscp.Clock

/-!
# Can4vscp.Inactivity

When the transmit thread opens the adapter again (`workThreadTransmit`, the inactivity
check).

`m_activity` is the clock in milliseconds, and the check subtracts it from the clock in
microseconds.  What comes out is no time that has passed: the check lets the thread open
the adapter again at all times but for a window of 0.12 s, which comes back with every turn
of the microsecond clock.  `reopens_iff` says when that is what it should do.
-/

namespace Can4vscp.Inactivity

open Closing WrapClock

/-- "Two minutes" -/
def SOFT_OPEN_TIMOUT : UInt32 := 120000

/-! ## the machine -/

/-- What the check works on, with the time of day.  `reopening` is set while the thread is
in `softOpen`. -/
structure State where
  now : Timeval
  initFlag : UInt32
  activity : UInt32
  reopening : Bool
  -- history: when activity was last written, and the calls of softOpen
  written : Timeval
  softOpens : Nat
  deriving DecidableEq, Repr

/-- The constructor. -/
def State.new (now : Timeval) : State := ⟨now, 0, getClockMilliSeconds now, false, now, 0⟩

/-- `m_activity = getClockMilliSeconds()` -/
def State.active (s : State) : State :=
  { s with activity := getClockMilliSeconds s.now, written := s.now }

/-- The inactivity check. -/
def inactive (s : State) : Bool :=
  s.initFlag &&& CAN4VSCP_FLAG_ENABLE_REOPEN ≠ 0 &&
    getClockMicroSeconds s.now - s.activity > SOFT_OPEN_TIMOUT

/-- What happens: time passes, `open` sets the flags, the receive thread handles a frame,
the transmit thread finds nothing to transmit, or comes back from `softOpen`. -/
inductive Act where
  | pass (now : Timeval)
  | setFlags (flags : UInt32)
  | receive
  | idle
  | reopened
  deriving DecidableEq, Repr

def next : Act → State → Option State
  | .pass now, s => if s.now.micros ≤ now.micros then some { s with now } else none
  | .setFlags flags, s => some { s with initFlag := flags }
  | .receive, s => some s.active
  | .idle, s =>
    if s.reopening then none
    else if inactive s then some { s with reopening := true, softOpens := s.softOpens + 1 }
    else some s
  | .reopened, s => if s.reopening then some { s.active with reopening := false } else none

def machine : Machine State Act where
  init s := ∃ now, s = .new now
  next := next

/-! ## what every step keeps -/

/-- What `m_activity` is. -/
structure Clocked (s : State) : Prop where
  activity : s.activity = getClockMilliSeconds s.written
  written_le : s.written.micros ≤ s.now.micros

theorem clocked_active (s : State) : Clocked s.active := ⟨rfl, Nat.le_refl _⟩

theorem Clocked.step {s t : State} {a : Act} (hs : Clocked s) (h : next a s = some t) :
    Clocked t := by
  cases a with
  | pass now =>
      simp only [next, Option.ite_none_right_eq_some] at h
      obtain ⟨hle, h⟩ := h
      cases h
      exact ⟨hs.activity, Nat.le_trans hs.written_le hle⟩
  | setFlags flags =>
      cases h
      exact ⟨hs.activity, hs.written_le⟩
  | receive =>
      cases h
      exact clocked_active s
  | idle =>
      simp only [next, Option.ite_none_left_eq_some] at h
      obtain ⟨-, h⟩ := h
      split at h <;> cases h <;> exact ⟨hs.activity, hs.written_le⟩
  | reopened =>
      simp only [next, Option.ite_none_right_eq_some] at h
      obtain ⟨-, h⟩ := h
      cases h
      exact ⟨(clocked_active s).activity, (clocked_active s).written_le⟩

theorem Clocked.of_reachable {s : State} (h : machine.Reachable s) : Clocked s := by
  refine h.invariant ?_ fun s t a hs _ hnext => hs.step hnext
  rintro s ⟨now, rfl⟩
  exact ⟨rfl, Nat.le_refl _⟩

/-! ## the check -/

/-- More than two minutes lie between two times. -/
def TwoMinutes (t₀ t : Timeval) : Prop := t₀.micros + 120000 * 1000 < t.micros

/-- The microsecond clock shows a value of the 0.12 s that start at the millisecond count
of `t₀`, on some turn. -/
def Window (t₀ t : Timeval) : Prop :=
  ∃ turn, t₀.millis + turn * 2 ^ 32 ≤ t.micros ∧ t.micros ≤ t₀.millis + turn * 2 ^ 32 + 120000

/-- What the check compares. -/
theorem activity_le_iff {s : State} (h : Clocked s) :
    getClockMicroSeconds s.now - s.activity ≤ SOFT_OPEN_TIMOUT ↔ Window s.written s.now := by
  have hle : s.written.millis ≤ s.now.micros := by
    have := h.written_le
    rw [Timeval.millis_eq]
    omega
  rw [h.activity, UInt32.le_iff_toNat_le, UInt32.toNat_sub, getClockMicroSeconds_toNat,
    getClockMilliSeconds_toNat, sub_readings hle (by decide)]
  refine (mod_le_iff (by decide)).trans (exists_congr fun turn => ?_)
  simp only [SOFT_OPEN_TIMOUT, UInt32.reduceToNat]
  omega

theorem inactive_iff {s : State} (h : Clocked s)
    (hflag : s.initFlag &&& CAN4VSCP_FLAG_ENABLE_REOPEN ≠ 0) :
    inactive s = true ↔ ¬ Window s.written s.now := by
  rw [← activity_le_iff h, UInt32.not_le]
  simp [inactive, hflag]

/-- The idle branch calls `softOpen`. -/
def Reopens (s : State) : Prop := ∃ t, next .idle s = some t ∧ t.softOpens = s.softOpens + 1

theorem reopens_iff_inactive {s : State} (hpc : s.reopening = false) :
    Reopens s ↔ inactive s = true := by
  unfold Reopens
  cases hinactive : inactive s <;> simp [next, hpc, hinactive]

/-- **When the check is right**: in every run, the idle branch calls `softOpen` exactly if
more than two minutes have passed since `m_activity` was written, if and only if the
window is left when the two minutes are over, and not before. -/
theorem reopens_iff (s : State) (hs : machine.Reachable s) (hpc : s.reopening = false)
    (hflag : s.initFlag &&& CAN4VSCP_FLAG_ENABLE_REOPEN ≠ 0) :
    (Reopens s ↔ TwoMinutes s.written s.now) ↔
      (¬ TwoMinutes s.written s.now ↔ Window s.written s.now) := by
  rw [reopens_iff_inactive hpc, inactive_iff (Clocked.of_reachable hs) hflag]
  exact not_iff_comm

/-- A driver that is constructed at the epoch, with the flag set, some microseconds
later. -/
def idleFor (micros : Nat) : State :=
  { State.new (.ofMicros 0) with
    initFlag := CAN4VSCP_FLAG_ENABLE_REOPEN, now := .ofMicros micros }

theorem reachable_idleFor (micros : Nat) : machine.Reachable (idleFor micros) := by
  have hflags : machine.Reachable
      { State.new (.ofMicros 0) with initFlag := CAN4VSCP_FLAG_ENABLE_REOPEN } :=
    .step (.setFlags CAN4VSCP_FLAG_ENABLE_REOPEN) (.init ⟨.ofMicros 0, rfl⟩) trivial rfl
  refine .step (.pass (.ofMicros micros)) hflags trivial ?_
  simp [machine, next, State.new, Timeval.micros_ofMicros, idleFor]

theorem reopens_iff_idleFor :
    (Reopens (idleFor 100000) ↔ TwoMinutes (idleFor 100000).written (idleFor 100000).now) ↔
      (¬ TwoMinutes (idleFor 100000).written (idleFor 100000).now ↔
        Window (idleFor 100000).written (idleFor 100000).now) :=
  reopens_iff (idleFor 100000) (reachable_idleFor 100000) rfl (by decide)

/-- After 0.2 s the thread opens the adapter again. -/
theorem reopens_early :
    machine.Reachable (idleFor 200000) ∧ (idleFor 200000).reopening = false ∧
      (idleFor 200000).initFlag &&& CAN4VSCP_FLAG_ENABLE_REOPEN ≠ 0 ∧
      (idleFor 200000).now.millis - (idleFor 200000).written.millis < 2 ^ 32 ∧
      Reopens (idleFor 200000) ∧
      ¬ TwoMinutes (idleFor 200000).written (idleFor 200000).now :=
  ⟨reachable_idleFor 200000, rfl, by decide, by decide, ⟨_, rfl, rfl⟩, by
    simp [TwoMinutes, idleFor, State.new, Timeval.micros_ofMicros]⟩

end Can4vscp.Inactivity
