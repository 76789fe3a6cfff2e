import Mathlib.Logic.Function.Basic

/-!
# Checksum

Running checksums: a state that is updated with one value after the other.

If an update loses neither a difference of the states nor a difference of the
values (`Lossless`), a difference is never lost again, so two runs over lists that
differ at one place end in different states (`foldl_set_ne`).
-/

namespace Checksum

variable {σ α : Type} {f : σ → α → σ}

/-- An update of which neither argument is lost. -/
structure Lossless (f : σ → α → σ) : Prop where
  state : ∀ c, Function.Injective fun s => f s c
  value : ∀ s, Function.Injective (f s)

/-- Different states stay different. -/
theorem Lossless.foldl_injective (h : Lossless f) (xs : List α) :
    Function.Injective fun s => xs.foldl f s := by
  induction xs with
  | nil => exact Function.injective_id
  | cons c xs ih => exact ih.comp (h.state c)

/-- **One difference is never lost**: a list with another value at one place has
another checksum. -/
theorem Lossless.foldl_set_ne (h : Lossless f) (s : σ) {xs : List α} {i : Nat}
    (hi : i < xs.length) {c : α} (hc : c ≠ xs[i]) : (xs.set i c).foldl f s ≠ xs.foldl f s := by
  induction xs generalizing s i with
  | nil => exact absurd hi (Nat.not_lt_zero i)
  | cons d xs ih =>
      cases i with
      | zero =>
          intro heq
          exact hc (h.value s (h.foldl_injective xs heq))
      | succ i => exact ih (f s d) (Nat.lt_of_succ_lt_succ hi) hc

end Checksum
