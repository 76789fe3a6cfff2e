import Mathlib.Data.Nat.ModEq

/-!
# SeqNumber

Sequence numbers that wrap.  Inside a window no longer than the period, equal
numbers are the same number.
-/

namespace SeqNumber

/-- Two indices less than a period apart, with the same number, are equal. -/
theorem eq_of_mod_eq {n i k : Nat} (hle : i ≤ k) (hwindow : k < i + n) (h : i % n = k % n) :
    i = k := by
  have hdvd : n ∣ k - i := (Nat.modEq_iff_dvd' hle).mp h
  have hzero : k - i = 0 := Nat.eq_zero_of_dvd_of_lt hdvd (by omega)
  omega

/-- The 8-bit number of an index. -/
def seq8 (i : Nat) : UInt8 := UInt8.ofNat i

theorem seq8_succ (i : Nat) : seq8 (i + 1) = seq8 i + 1 := by
  simp [seq8]

/-- Inside a window of 256 an 8-bit number stands for one index. -/
theorem eq_of_seq8_eq {i k : Nat} (hle : i ≤ k) (hwindow : k < i + 256) (h : seq8 i = seq8 k) :
    i = k := by
  have hmod : i % 256 = k % 256 := by
    have := congrArg UInt8.toNat h
    simpa [seq8] using this
  exact eq_of_mod_eq hle hwindow hmod

end SeqNumber
