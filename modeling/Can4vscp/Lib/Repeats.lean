import Mathlib.Data.List.Chain

/-!
# Repeats

The positions a sender goes through when it may send a position again and again
but goes on to the next one only after it has sent the last: from 0 up, with
repetitions, nothing skipped and nothing taken up again.
-/

/-- `ps` are positions sent in order, with repetitions, by a sender that stands
at position `n`: everything before `n` has been sent. -/
structure Repeats (ps : List Nat) (n : Nat) : Prop where
  first : ∀ p ∈ ps.head?, p = 0
  chain : ps.IsChain fun p q => q = p ∨ q = p + 1
  last : ∀ p ∈ ps.getLast?, p = n ∨ p + 1 = n
  none : ps = [] → n = 0

namespace Repeats

variable {ps : List Nat} {n : Nat}

theorem nil : Repeats [] 0 := ⟨by simp, .nil, by simp, fun _ => rfl⟩

/-- Sending the position the sender stands at. -/
theorem send (h : Repeats ps n) : Repeats (ps ++ [n]) n := by
  refine ⟨fun p hp => ?_, ?_, fun p hp => ?_, by simp⟩
  · cases ps with
    | nil => simpa [h.none rfl] using hp.symm
    | cons q qs => exact h.first p (by simpa using hp)
  · refine List.IsChain.append h.chain (List.isChain_singleton _) fun p hp q hq => ?_
    obtain rfl : n = q := by simpa using hq
    cases h.last p hp with
    | inl heq => exact .inl heq.symm
    | inr heq => exact .inr heq.symm
  · exact .inl (by simpa using hp.symm)

/-- The positions never go down. -/
theorem pairwise (h : Repeats ps n) : ps.Pairwise (· ≤ ·) := by
  have hle : ps.IsChain (· ≤ ·) := h.chain.imp fun p q hpq => by omega
  exact List.isChain_iff_pairwise.mp hle

/-- Nothing behind the sender's position has been sent. -/
theorem le (h : Repeats ps n) : ∀ p ∈ ps, p ≤ n := by
  intro p hp
  obtain ⟨q, hq⟩ := Option.isSome_iff_exists.mp
    (List.getLast?_isSome.mpr (List.ne_nil_of_mem hp))
  obtain ⟨qs, rfl⟩ := List.getLast?_eq_some_iff.mp hq
  have hpq : p ≤ q := by
    cases List.mem_append.mp hp with
    | inl hmem => exact (List.pairwise_append.mp h.pairwise).2.2 p hmem q (by simp)
    | inr hmem => exact Nat.le_of_eq (by simpa using hmem)
  have := h.last q hq
  omega

/-- The sender goes on once its position has been sent. -/
theorem advance (h : Repeats ps n) (hn : n ∈ ps) : Repeats ps (n + 1) := by
  refine ⟨h.first, h.chain, fun q hq => ?_, fun hnil => by simp [hnil] at hn⟩
  obtain ⟨qs, rfl⟩ := List.getLast?_eq_some_iff.mp hq
  have hnq : n ≤ q := by
    cases List.mem_append.mp hn with
    | inl hmem => exact (List.pairwise_append.mp h.pairwise).2.2 n hmem q (by simp)
    | inr hmem => exact Nat.le_of_eq (by simpa using hmem)
  have := h.le q (by simp)
  omega

/-- A list that goes up by at most one goes through everything in between. -/
theorem mem_of_isChain {p : Nat} {qs : List Nat} (h : (p :: qs).IsChain fun p q => q = p ∨ q = p + 1)
    {i q : Nat} (hq : (p :: qs).getLast? = some q) (hp : p ≤ i) (hi : i ≤ q) : i ∈ p :: qs := by
  induction qs generalizing p with
  | nil =>
      obtain rfl : p = q := by simpa using hq
      exact List.mem_singleton.mpr (Nat.le_antisymm hi hp)
  | cons q' qs ih =>
      obtain ⟨hstep, hrest⟩ := List.isChain_cons_cons.mp h
      by_cases heq : i = p
      · exact heq ▸ List.mem_cons_self
      · exact List.mem_cons_of_mem p (ih hrest (by simpa using hq) (by omega))

/-- Everything before the sender's position has been sent. -/
theorem covers (h : Repeats ps n) {i : Nat} (hi : i < n) : i ∈ ps := by
  cases ps with
  | nil => exact absurd (h.none rfl) (by omega)
  | cons p qs =>
      obtain ⟨q, hq⟩ := Option.isSome_iff_exists.mp (List.getLast?_isSome.mpr (List.cons_ne_nil p qs))
      have hp := h.first p (by simp)
      have hlast := h.last q hq
      exact mem_of_isChain h.chain hq (by omega) (by omega)

end Repeats
