import Mathlib.Data.List.FinRange
import Mathlib.Data.List.Nodup
import Mathlib.Logic.Function.Basic

/-!
# SlotTable

A register hands out keys for values and takes them back.  Its log says what was
added and removed; `live` are the entries that were added and not removed since.
`Shows` is that a lookup function agrees with the log, and it is kept when a free
key is given out and when a key is taken back.

A table of slots is one way to look things up: a new value goes to the first free
slot.
-/

namespace SlotTable

/-! ## the log of a register -/

section
variable {κ α : Type}

inductive Event (κ α : Type) where
  | added (k : κ) (a : α)
  | removed (k : κ)
  deriving DecidableEq, Repr

variable [DecidableEq κ]

/-- The key is taken back in a log. -/
def takenBack (k : κ) : List (Event κ α) → Bool
  | [] => false
  | .added _ _ :: log => takenBack k log
  | .removed k' :: log => k' == k || takenBack k log

/-- What was added and not taken back since. -/
def live : List (Event κ α) → List (κ × α)
  | [] => []
  | .added k a :: log => if takenBack k log then live log else (k, a) :: live log
  | .removed _ :: log => live log

variable {log log' : List (Event κ α)} {k : κ} {a : α}

theorem takenBack_append (k : κ) (log log' : List (Event κ α)) :
    takenBack k (log ++ log') = (takenBack k log || takenBack k log') := by
  induction log with
  | nil => rfl
  | cons e log ih =>
      cases e with
      | added => exact ih
      | removed k' => rw [List.cons_append, takenBack, ih, takenBack, Bool.or_assoc]

theorem live_added (log : List (Event κ α)) (k : κ) (a : α) :
    live (log ++ [.added k a]) = live log ++ [(k, a)] := by
  induction log with
  | nil => rfl
  | cons e log ih =>
      cases e with
      | added k' a' =>
          have htaken : takenBack k' (log ++ [.added k a]) = takenBack k' log := by
            rw [takenBack_append, takenBack, takenBack, Bool.or_false]
          rw [List.cons_append, live, htaken, ih, live]
          split
          · rfl
          · rfl
      | removed => exact ih

theorem live_removed (log : List (Event κ α)) (k : κ) :
    live (log ++ [.removed k]) = (live log).filter (·.1 ≠ k) := by
  induction log with
  | nil => rfl
  | cons e log ih =>
      cases e with
      | added k' a' =>
          have htaken : takenBack k' (log ++ [.removed k]) = (takenBack k' log || k == k') := by
            rw [takenBack_append, takenBack, takenBack, Bool.or_false]
          rw [List.cons_append, live, htaken, ih, live]
          by_cases hback : takenBack k' log = true
          · rw [hback, Bool.true_or, if_pos rfl, if_pos rfl]
          · rw [Bool.not_eq_true] at hback
            by_cases hk : k = k'
            · subst hk
              simp [hback]
            · have hk' : k' ≠ k := Ne.symm hk
              simp [hback, hk, hk']
      | removed => exact ih

/-- Something is live if and only if it was added, and its key was not taken back
since. -/
theorem mem_live_iff : (k, a) ∈ live log ↔
    ∃ before after, log = before ++ .added k a :: after ∧ takenBack k after = false := by
  induction log with
  | nil => simp [live]
  | cons e log ih =>
      have hlater : (k, a) ∈ live log → ∃ before after,
          e :: log = before ++ .added k a :: after ∧ takenBack k after = false := by
        intro h
        obtain ⟨before, after, rfl, hafter⟩ := ih.mp h
        exact ⟨e :: before, after, rfl, hafter⟩
      constructor
      · intro h
        cases e with
        | removed k' => exact hlater h
        | added k' a' =>
            rw [live] at h
            split at h
            · exact hlater h
            · next hback =>
                cases List.mem_cons.mp h with
                | inl heq =>
                    cases heq
                    exact ⟨[], log, rfl, by simpa using hback⟩
                | inr h => exact hlater h
      · rintro ⟨before, after, heq, hafter⟩
        cases before with
        | nil =>
            cases heq
            rw [live, hafter]
            exact List.mem_cons_self
        | cons e' before =>
            cases heq
            have hmem : (k, a) ∈ live (before ++ .added k a :: after) :=
              ih.mpr ⟨before, after, rfl, hafter⟩
            cases e with
            | removed k' => exact hmem
            | added k' a' =>
                rw [live]
                split
                · exact hmem
                · exact List.mem_cons_of_mem _ hmem

/-! ## lookups -/

/-- A lookup finds what is live, and every key is given out once. -/
structure Shows (get : κ → Option α) (log : List (Event κ α)) : Prop where
  get_iff : ∀ k a, get k = some a ↔ (k, a) ∈ live log
  nodup : ((live log).map Prod.fst).Nodup

variable {get : κ → Option α}

theorem shows_nil : Shows (fun _ : κ => (none : Option α)) [] :=
  ⟨by simp [live], List.nodup_nil⟩

theorem Shows.mem_keys (h : Shows get log) (k : κ) :
    k ∈ (live log).map Prod.fst ↔ (get k).isSome = true := by
  simp only [List.mem_map, Prod.exists, exists_and_right, exists_eq_right, Option.isSome_iff_exists,
    h.get_iff]

/-- A free key is given out. -/
theorem Shows.add (h : Shows get log) (hfree : get k = none) (a : α) :
    Shows (Function.update get k (some a)) (log ++ [.added k a]) := by
  have hnew : k ∉ (live log).map Prod.fst := by
    rw [h.mem_keys, hfree]
    simp
  constructor
  · intro k' a'
    rw [live_added, List.mem_append, List.mem_singleton, Prod.mk.injEq]
    by_cases hk : k' = k
    · subst hk
      have hout : (k', a') ∉ live log := fun hmem => hnew (List.mem_map_of_mem hmem)
      simp [hout, eq_comm]
    · rw [Function.update_of_ne hk, h.get_iff]
      simp [hk]
  · rw [live_added, List.map_append, List.nodup_append]
    refine ⟨h.nodup, List.nodup_singleton k, fun b hb c hc hbc => ?_⟩
    rw [hbc, List.mem_singleton.mp hc] at hb
    exact hnew hb

/-- A key is taken back, whether or not it was given out. -/
theorem Shows.remove (h : Shows get log) (k : κ) :
    Shows (Function.update get k none) (log ++ [.removed k]) := by
  constructor
  · intro k' a'
    rw [live_removed, List.mem_filter]
    by_cases hk : k' = k
    · simp [hk]
    · rw [Function.update_of_ne hk, h.get_iff]
      simp [hk]
  · rw [live_removed]
    exact h.nodup.sublist ((List.filter_sublist).map Prod.fst)

end

/-! ## slots -/

section
variable {n : Nat} {α : Type}

/-- A table of slots; an empty slot holds nothing. -/
abbrev Slots (n : Nat) (α : Type) := Fin n → Option α

/-- The first free slot. -/
def firstFree (t : Slots n α) : Option (Fin n) := (List.finRange n).find? fun i => (t i).isNone

/-- The slots in use. -/
def occupied (t : Slots n α) : List (Fin n) := (List.finRange n).filter fun i => (t i).isSome

variable {t : Slots n α} {i : Fin n}

theorem firstFree_spec (h : firstFree t = some i) : t i = none := by
  simpa using List.find?_some h

theorem mem_occupied : i ∈ occupied t ↔ (t i).isSome = true := by
  simp [occupied]

theorem nodup_occupied (t : Slots n α) : (occupied t).Nodup :=
  (List.nodup_finRange n).filter _

theorem length_occupied_le (t : Slots n α) : (occupied t).length ≤ n :=
  (List.length_filter_le _ _).trans_eq List.length_finRange

/-- There is no free slot if and only if all are in use. -/
theorem firstFree_eq_none_iff : firstFree t = none ↔ (occupied t).length = n := by
  have hall : (occupied t).length = n ↔ ∀ i, (t i).isSome = true := by
    have hfilter := List.length_filter_eq_length_iff (p := fun i => (t i).isSome)
      (l := List.finRange n)
    rw [List.length_finRange] at hfilter
    simpa [occupied] using hfilter
  rw [hall, firstFree, List.find?_eq_none]
  simp [Option.isSome_iff_ne_none, Option.isNone_iff_eq_none]

end

end SlotTable
