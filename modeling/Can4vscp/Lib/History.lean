import Mathlib.Data.List.Basic

/-!
# History

Logs that grow at the end.  That some events happened in an order is that they
are a sublist of the log.
-/

namespace History

variable {α : Type} {log es : List α} {a b : α}

/-- What happened in order still did after one more event. -/
theorem grow (h : es.Sublist log) (b : α) : es.Sublist (log ++ [b]) :=
  h.trans (List.sublist_append_left log [b])

/-- The new event comes after all others. -/
theorem last (h : es.Sublist log) (b : α) : (es ++ [b]).Sublist (log ++ [b]) :=
  h.append (List.Sublist.refl [b])

theorem pair_last (h : a ∈ log) (b : α) : [a, b].Sublist (log ++ [b]) :=
  last (List.singleton_sublist.mpr h) b

/-- Two events in order: both are old, or the second one is the new one. -/
theorem pair_cases {c : α} (h : [a, b].Sublist (log ++ [c])) :
    [a, b].Sublist log ∨ (b = c ∧ a ∈ log) := by
  by_cases hbc : b = c
  · subst hbc
    have ha : [a].Sublist log := List.append_sublist_append_right [b] |>.mp h
    exact .inr ⟨rfl, List.singleton_sublist.mp ha⟩
  · refine .inl ?_
    obtain ⟨l₁, l₂, heq, h₁, h₂⟩ := List.sublist_append_iff.mp h
    cases List.sublist_singleton.mp h₂ with
    | inl hnil => simpa [heq, hnil] using h₁
    | inr hone =>
        rw [hone, show [a, b] = [a] ++ [b] from rfl] at heq
        exact absurd (List.append_inj' heq rfl).2 (by simpa using hbc)

end History
