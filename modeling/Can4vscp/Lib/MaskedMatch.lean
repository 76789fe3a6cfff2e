import Mathlib.Logic.Basic

/-!
# MaskedMatch

Matching a value against a filter in the bits that a mask selects.  A value is a
function from bit positions to bits.

If by mistake `w` is matched in place of `v`, the answer may still be right:
`matches_iff_matches` says exactly when.
-/

namespace MaskedMatch

variable {ι : Type} (filter mask v w : ι → Bool)

/-- The value has the bits of the filter wherever the mask is set. -/
def Matches : Prop := ∀ n, mask n = true → filter n = v n

/-- A selected bit shows that the value does not match. -/
theorem not_matches_iff : ¬ Matches filter mask v ↔ ∃ n, mask n = true ∧ filter n ≠ v n := by
  simp [Matches]

/-- Whether it makes no difference that `w` is matched in place of `v`: the mask
selects no bit in which they differ, or the filter is wrong in a selected bit
which they share, or it is right in one and wrong in another of the selected bits
in which they differ. -/
def Indifferent : Prop :=
  (∀ n, mask n = true → v n = w n) ∨
    (∃ n, mask n = true ∧ v n = w n ∧ filter n ≠ v n) ∨
    ((∃ n, mask n = true ∧ v n ≠ w n ∧ filter n = v n) ∧
      ∃ n, mask n = true ∧ v n ≠ w n ∧ filter n ≠ v n)

variable {filter mask v w}

/-- Of two different bits, the filter has one. -/
theorem eq_of_ne_of_ne {a b c : Bool} (h : a ≠ b) (hb : c ≠ b) : c = a := by
  revert h hb
  cases a <;> cases b <;> cases c <;> decide

/-- If both values fail, a shared bit shows it, or two others do. -/
theorem indifferent_of_fail (hv : ¬ Matches filter mask v) (hw : ¬ Matches filter mask w) :
    Indifferent filter mask v w := by
  obtain ⟨n, hn, hnv⟩ := (not_matches_iff filter mask v).mp hv
  obtain ⟨k, hk, hkw⟩ := (not_matches_iff filter mask w).mp hw
  by_cases hsame : v n = w n
  · exact .inr (.inl ⟨n, hn, hsame, hnv⟩)
  · by_cases hsame' : v k = w k
    · exact .inr (.inl ⟨k, hk, hsame', hsame' ▸ hkw⟩)
    · exact .inr (.inr ⟨⟨k, hk, hsame', eq_of_ne_of_ne hsame' hkw⟩, n, hn, hsame, hnv⟩)

theorem fail_of_ne {n : ι} (hn : mask n = true) (hne : filter n ≠ v n) : ¬ Matches filter mask v :=
  fun h => hne (h n hn)

/-- **The exact condition**: matching `w` gives the answer of matching `v`. -/
theorem matches_iff_matches :
    (Matches filter mask w ↔ Matches filter mask v) ↔ Indifferent filter mask v w := by
  constructor
  · intro h
    by_cases hv : Matches filter mask v
    · exact .inl fun n hn => (hv n hn).symm.trans (h.mpr hv n hn)
    · exact indifferent_of_fail hv fun hw => hv (h.mp hw)
  · rintro (hsame | ⟨n, hn, hvw, hne⟩ | ⟨⟨k, hk, hkvw, heq⟩, n, hn, -, hne⟩)
    · exact forall₂_congr fun n hn => by rw [hsame n hn]
    · exact iff_of_false (fail_of_ne hn (hvw ▸ hne)) (fail_of_ne hn hne)
    · exact iff_of_false (fail_of_ne hk (heq ▸ hkvw)) (fail_of_ne hn hne)

end MaskedMatch
