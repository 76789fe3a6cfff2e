import Mathlib.Data.Nat.ModEq

/-!
# WrapClock

Clocks that wrap: what is read is the time modulo a period `M`.

A deadline that is compared as a clock value is told right exactly if it and the reading
are on the same turn of the clock (`before_deadline_iff`).  A difference of two readings
is the time between them, modulo the period (`sub_readings`); it is below a bound inside a
window that comes back once in every period (`mod_le_iff`).
-/

namespace WrapClock

variable {M : Nat}

/-- A sum of two clock values wraps once at most. -/
theorem add_mod_eq {a b : Nat} (ha : a < M) (hb : b < M) :
    (a + b) % M = if a + b < M then a + b else a + b - M := by
  split
  next hlt => exact Nat.mod_eq_of_lt hlt
  next hge =>
    rw [Nat.mod_eq_sub_mod (by omega), Nat.mod_eq_of_lt (by omega)]

/-- **Comparing with a deadline**: `e` after `start`, the clock stands before the deadline
exactly if less than the timeout has passed, if and only if the deadline and the clock are
on the same turn. -/
theorem before_deadline_iff {start e timeout : Nat} (hstart : start < M) (he : e < M)
    (htimeout : timeout < M) :
    ((start + e) % M < (start + timeout) % M ↔ e < timeout) ↔
      (start + timeout < M ↔ start + e < M) := by
  rw [add_mod_eq hstart he, add_mod_eq hstart htimeout]
  split <;> split <;> omega

/-- The difference of two readings. -/
theorem sub_readings {t₀ t : Nat} (hle : t₀ ≤ t) (hM : 0 < M) :
    (M - t₀ % M + t % M) % M = (t - t₀) % M := by
  have hlt : t₀ % M < M := Nat.mod_lt _ hM
  have hsum : M - t₀ % M + t % M + t₀ ≡ t - t₀ + t₀ [MOD M] := by
    rw [Nat.sub_add_cancel hle]
    calc M - t₀ % M + t % M + t₀
        ≡ M - t₀ % M + t % M + t₀ % M [MOD M] := (Nat.mod_modEq t₀ M).symm.add_left _
      _ = t % M + M := by omega
      _ ≡ t % M [MOD M] := Nat.add_mod_right _ _
      _ ≡ t [MOD M] := Nat.mod_modEq t M
  exact Nat.ModEq.add_right_cancel' t₀ hsum

/-- The window that comes back once in every period. -/
theorem mod_le_iff {n w : Nat} (hw : w < M) :
    n % M ≤ w ↔ ∃ turn, turn * M ≤ n ∧ n ≤ turn * M + w := by
  constructor
  · intro h
    have hdiv := Nat.div_add_mod n M
    rw [Nat.mul_comm] at hdiv
    exact ⟨n / M, by omega, by omega⟩
  · rintro ⟨turn, hle, hn⟩
    have hmod : n % M = n - turn * M := by
      rw [← Nat.sub_mul_mod (k := turn) (by rwa [Nat.mul_comm]), Nat.mul_comm,
        Nat.mod_eq_of_lt (by omega)]
    omega

end WrapClock
