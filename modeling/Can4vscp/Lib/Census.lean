import Mathlib.Algebra.BigOperators.Group.Finset.Piecewise
import Mathlib.Data.Fintype.Basic
import Mathlib.Logic.Function.Basic

/-!
# Census

How many of finitely many parties are at a place of some kind.  A party that
moves changes the number by what it leaves and what it enters.
-/

variable {ι β : Type} [Fintype ι]

/-- The number of parties at a place that meets `p`. -/
def census (p : β → Bool) (place : ι → β) : Nat :=
  (Finset.univ.filter fun i => p (place i) = true).card

variable {p : β → Bool} {place : ι → β}

variable [DecidableEq ι]

/-- One party moves. -/
theorem census_update (p : β → Bool) (place : ι → β) (r : ι) (b : β) :
    census p (Function.update place r b) + (p (place r)).toNat = census p place + (p b).toNat := by
  have hsplit : ∀ f : ι → β, census p f =
      (p (f r)).toNat + ∑ i ∈ Finset.univ.erase r, (p (f i)).toNat := by
    intro f
    rw [Finset.add_sum_erase _ (fun i => (p (f i)).toNat) (Finset.mem_univ r)]
    rw [census, Finset.card_filter]
    simp only [Bool.toNat, Bool.cond_eq_ite]
  have hrest : ∑ i ∈ Finset.univ.erase r, (p (Function.update place r b i)).toNat =
      ∑ i ∈ Finset.univ.erase r, (p (place i)).toNat := by
    refine Finset.sum_congr rfl fun i hi => ?_
    rw [Function.update_of_ne (Finset.ne_of_mem_erase hi)]
  rw [hsplit, hsplit place, hrest, Function.update_self]
  omega

/-- A party moves between two places that do not count. -/
theorem census_quiet {r : ι} {b : β} (hfrom : p (place r) = false) (hto : p b = false) :
    census p (Function.update place r b) = census p place := by
  simpa [hfrom, hto] using census_update p place r b

/-- A party goes to a place that counts. -/
theorem census_enter {r : ι} {b : β} (hfrom : p (place r) = false) (hto : p b = true) :
    census p (Function.update place r b) = census p place + 1 := by
  simpa [hfrom, hto] using census_update p place r b

/-- A party leaves a place that may count. -/
theorem census_leave {r : ι} {b : β} (hto : p b = false) :
    census p (Function.update place r b) + (p (place r)).toNat = census p place := by
  simpa [hto] using census_update p place r b
