import Can4vscp.Lib.WrapClock

/-!
# Can4vscp.Clock

The clocks of the driver on POSIX (`getClockMilliSeconds`, `getClockMicroSeconds`): the
time of day, cut to 32 bits.
-/

namespace Can4vscp

/-- `timeval` -/
structure Timeval where
  tv_sec : Nat
  tv_usec : Nat
  usec_lt : tv_usec < 1000000
  deriving DecidableEq, Repr

namespace Timeval

/-- A time of day in microseconds. -/
def micros (t : Timeval) : Nat := 1000000 * t.tv_sec + t.tv_usec

/-- A time of day in milliseconds. -/
def millis (t : Timeval) : Nat := 1000 * t.tv_sec + t.tv_usec / 1000

/-- The time of day at a given microsecond. -/
def ofMicros (n : Nat) : Timeval :=
  ⟨n / 1000000, n % 1000000, Nat.mod_lt n (by decide)⟩

theorem millis_eq (t : Timeval) : t.millis = t.micros / 1000 := by
  simp only [millis, micros]
  omega

theorem micros_ofMicros (n : Nat) : (ofMicros n).micros = n := Nat.div_add_mod n 1000000

end Timeval

/-- `1000 * curTime.tv_sec + curTime.tv_usec / 1000` -/
def getClockMilliSeconds (curTime : Timeval) : UInt32 :=
  UInt32.ofNat (1000 * curTime.tv_sec + curTime.tv_usec / 1000)

/-- `1000000 * curTime.tv_sec + curTime.tv_usec` -/
def getClockMicroSeconds (curTime : Timeval) : UInt32 :=
  UInt32.ofNat (1000000 * curTime.tv_sec + curTime.tv_usec)

theorem getClockMilliSeconds_toNat (t : Timeval) :
    (getClockMilliSeconds t).toNat = t.millis % 2 ^ 32 :=
  UInt32.toNat_ofNat'

theorem getClockMicroSeconds_toNat (t : Timeval) :
    (getClockMicroSeconds t).toNat = t.micros % 2 ^ 32 :=
  UInt32.toNat_ofNat'

end Can4vscp
