import Mathlib.Data.List.Infix

/-!
# Records

Byte strings that begin with a run of records.

A string splits into the complete records at its front and a tail that starts with
none (`exists_splits`).  If no record's form begins with another's there is one way
only (`Splits.unique`).
-/

namespace Records

variable {ρ α : Type} (bytes : ρ → List α)

/-- `p` is the records `L` and a tail that does not start with a record. -/
structure Splits (p : List α) (L : List ρ) (tail : List α) : Prop where
  eq : p = L.flatMap bytes ++ tail
  stops : ∀ f, ¬ bytes f <+: tail

variable {bytes}

/-- Every string splits, if no record is empty. -/
theorem exists_splits (hpos : ∀ f, bytes f ≠ []) (p : List α) :
    ∃ L tail, Splits bytes p L tail := by
  induction hn : p.length using Nat.strong_induction_on generalizing p with
  | _ n ih =>
      by_cases h : ∃ f, bytes f <+: p
      · obtain ⟨f, rest, rfl⟩ := h
        have hlt : rest.length < n := by
          have := List.length_pos_iff.mpr (hpos f)
          rw [← hn, List.length_append]
          omega
        obtain ⟨L, tail, hsplit⟩ := ih rest.length hlt rest rfl
        exact ⟨f :: L, tail, by rw [List.flatMap_cons, List.append_assoc, ← hsplit.eq],
          hsplit.stops⟩
      · exact ⟨[], p, rfl, fun f hf => h ⟨f, hf⟩⟩

/-- **The split is unique** for records none of which begins with another. -/
theorem Splits.unique
    (hfree : ∀ f g (xs ys : List α), bytes f ++ xs = bytes g ++ ys → f = g)
    {p tail tail' : List α} {L L' : List ρ} (h : Splits bytes p L tail)
    (h' : Splits bytes p L' tail') : L = L' ∧ tail = tail' := by
  induction L generalizing p L' with
  | nil =>
      cases L' with
      | nil => exact ⟨rfl, h.eq.symm.trans h'.eq⟩
      | cons g L' =>
          have heq := h.eq.symm.trans h'.eq
          rw [List.flatMap_cons, List.append_assoc] at heq
          exact absurd ⟨_, heq.symm⟩ (h.stops g)
  | cons f L ih =>
      have hp := h.eq
      rw [List.flatMap_cons, List.append_assoc] at hp
      cases L' with
      | nil => exact absurd ⟨_, hp.symm.trans h'.eq⟩ (h'.stops f)
      | cons g L' =>
          have hp' := h'.eq
          rw [List.flatMap_cons, List.append_assoc] at hp'
          have heq := hp.symm.trans hp'
          obtain rfl := hfree f g _ _ heq
          obtain ⟨rfl, rfl⟩ := ih ⟨rfl, h.stops⟩ ⟨List.append_cancel_left heq, h'.stops⟩
          exact ⟨rfl, rfl⟩

end Records
