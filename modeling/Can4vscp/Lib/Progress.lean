import Can4vscp.Lib.Machine
import Mathlib.Data.List.Basic

/-!
# Progress

How far one party of a machine gets, whatever the others do.

A `potential` that every step of the party raises, and that no step of the others
lowers, bounds the number of steps the party can take before a goal is reached
(`Path.gain`).  Together with a step that is always enabled this is termination; with a
potential that counts work done it is throughput.  Steps that lead back are charged
(`Path.gain_charged`).
-/

namespace Machine

variable {σ α : Type} (M : Machine σ α)

/-- A stretch of a run, with its labels, whose steps all meet `c`. -/
inductive Path (c : α → σ → Prop) : σ → List α → σ → Prop where
  | nil (s : σ) : Path c s [] s
  | cons {s t u : σ} {as : List α} (a : α) (hc : c a s) (h : M.next a s = some t)
      (hrest : Path c t as u) : Path c s (a :: as) u

variable {M} {c : α → σ → Prop} {s t : σ} {as : List α}

/-- A property the steps keep holds at the end. -/
theorem Path.keeps {P : σ → Prop} (hp : M.Path c s as t)
    (hstep : ∀ s t a, P s → c a s → M.next a s = some t → P t) (hs : P s) : P t := by
  induction hp with
  | nil s => exact hs
  | cons a hca h _ ih => exact ih (hstep _ _ a hs hca h)

/-- A list of labels that can be followed gives a stretch of a run. -/
theorem path_of_runWhen [∀ a s, Decidable (c a s)] (h : M.runWhen c as s = some t) :
    M.Path c s as t := by
  induction as generalizing s with
  | nil =>
      cases h
      exact .nil _
  | cons a as ih =>
      simp only [runWhen, Option.ite_none_right_eq_some, Option.bind_eq_some_iff] at h
      obtain ⟨hc, u, hu, h⟩ := h
      exact .cons a hc hu (ih h)

/-- A run to a state and a stretch from there on, each by a list of labels. -/
theorem exists_path (c' c : α → σ → Prop) [∀ a s, Decidable (c' a s)] [∀ a s, Decidable (c a s)]
    {s₀ : σ} (as bs : List α) (p : σ → σ → Bool) (hs : M.init s₀)
    (h : (M.runWhen c' as s₀).any fun s => (M.runWhen c bs s).any (p s)) :
    ∃ s t, M.ReachableWhen c' s ∧ M.Path c s bs t ∧ p s t = true := by
  obtain ⟨s, hrun, h⟩ := (Option.any_eq_true _ _).mp h
  obtain ⟨t, hpath, hp⟩ := (Option.any_eq_true _ _).mp h
  exact ⟨s, t, reachableWhen_run (.init hs) hrun, path_of_runWhen hpath, hp⟩

/-- What the steps of a run are charged. -/
def cost (M : Machine σ α) (charge : α → σ → Nat) : List α → σ → Nat
  | [], _ => 0
  | a :: as, s => charge a s + ((M.next a s).map (M.cost charge as)).getD 0

/-- **The progress rule**, with setbacks: a step may lower the potential by what it is charged. -/
theorem Path.gain_charged {I : σ → Prop} {potential : σ → Nat} (goal : σ → Prop) (own : α → Bool)
    (charge : α → σ → Nat)
    (hstep : ∀ s t a, I s → c a s → M.next a s = some t →
      I t ∧ (goal t ∨ potential s + (own a).toNat ≤ potential t + charge a s))
    (hgoal : ∀ s t a, goal s → c a s → M.next a s = some t → goal t)
    (hp : M.Path c s as t) (hs : I s) :
    goal t ∨ potential s + as.countP own ≤ potential t + M.cost charge as s := by
  induction hp with
  | nil s => exact .inr (Nat.le_refl _)
  | @cons s t u as a hca h hrest ih =>
      obtain ⟨ht, hup⟩ := hstep s t a hs hca h
      cases hup with
      | inl hreached => exact .inl (hrest.keeps hgoal hreached)
      | inr hup =>
          cases ih ht with
          | inl hreached => exact .inl hreached
          | inr hgain =>
              have hcount : (a :: as).countP own = as.countP own + (own a).toNat := by
                rw [List.countP_cons]
                cases own a <;> rfl
              have hcost : M.cost charge (a :: as) s = charge a s + M.cost charge as t := by
                rw [cost, h, Option.map_some, Option.getD_some]
              refine .inr ?_
              omega

theorem cost_zero (as : List α) (s : σ) : M.cost (fun _ _ => 0) as s = 0 := by
  induction as generalizing s with
  | nil => rfl
  | cons a as ih =>
      cases h : M.next a s with
      | none => rw [cost, h, Option.map_none, Option.getD_none]
      | some t => rw [cost, h, Option.map_some, Option.getD_some, ih]

/-- The progress rule: a party whose steps raise the potential reaches the goal, or the
potential is up by as many steps as it has taken. -/
theorem Path.gain {I : σ → Prop} {potential : σ → Nat} (goal : σ → Prop) (own : α → Bool)
    (hstep : ∀ s t a, I s → c a s → M.next a s = some t →
      I t ∧ (goal t ∨ potential s + (own a).toNat ≤ potential t))
    (hgoal : ∀ s t a, goal s → c a s → M.next a s = some t → goal t)
    (hp : M.Path c s as t) (hs : I s) :
    goal t ∨ potential s + as.countP own ≤ potential t := by
  have hgain := hp.gain_charged goal own (fun _ _ => 0) hstep hgoal hs
  rwa [cost_zero] at hgain

end Machine
