/-!
# Machine

Labelled state machines with several parties: a label says who moves and what
the environment does, `next` is the partial step function.

`ReachableWhen c` are the states of the runs in which every step meets the
condition `c` on its label and the state before it.  Assumptions about the
environment, and conditions under which a system is correct, are such step
conditions; an invariant only has to be kept by the steps that meet them.
-/

/-- A machine with states in `σ` and labels in `α`. -/
structure Machine (σ α : Type) where
  init : σ → Prop
  next : α → σ → Option σ

namespace Machine

variable {σ α : Type} (M : Machine σ α)

/-- The states of the runs whose steps all meet `c`. -/
inductive ReachableWhen (c : α → σ → Prop) : σ → Prop where
  | init {s : σ} (h : M.init s) : ReachableWhen c s
  | step {s t : σ} (a : α) (hs : ReachableWhen c s) (hc : c a s) (h : M.next a s = some t) :
      ReachableWhen c t

/-- The states of all runs. -/
abbrev Reachable (s : σ) : Prop := M.ReachableWhen (fun _ _ => True) s

variable {M} {c : α → σ → Prop}

/-- **The invariant rule**: what holds initially and is kept by every step that
meets the condition holds in every state of these runs. -/
theorem ReachableWhen.invariant {P : σ → Prop} (hinit : ∀ s, M.init s → P s)
    (hstep : ∀ s t a, P s → c a s → M.next a s = some t → P t) {s : σ}
    (h : M.ReachableWhen c s) : P s := by
  induction h with
  | init h => exact hinit _ h
  | step a _ hc h ih => exact hstep _ _ a ih hc h

/-- The invariant rule on top of an invariant that is already known. -/
theorem ReachableWhen.invariant_of {P Q : σ → Prop} (hP : ∀ s, M.ReachableWhen c s → P s)
    (hinit : ∀ s, M.init s → Q s)
    (hstep : ∀ s t a, P s → Q s → c a s → M.next a s = some t → Q t) {s : σ}
    (h : M.ReachableWhen c s) : Q s := by
  induction h with
  | init h => exact hinit _ h
  | step a hs hc h ih => exact hstep _ _ a (hP _ hs) ih hc h

/-- The machine with a history on the side: every step records something in it, and none
depends on it. -/
def withHistory {γ : Type} (M : Machine σ α) (start : γ) (record : α → σ → γ → γ) :
    Machine (σ × γ) α where
  init p := M.init p.1 ∧ p.2 = start
  next a p := (M.next a p.1).map fun t => (t, record a p.1 p.2)

/-- Every run of the machine has a history. -/
theorem exists_history {γ : Type} (start : γ) (record : α → σ → γ → γ)
    {c' : α → σ × γ → Prop} (hc : ∀ a s g, c a s → c' a (s, g)) {s : σ}
    (hs : M.ReachableWhen c s) :
    ∃ g, (M.withHistory start record).ReachableWhen c' (s, g) := by
  induction hs with
  | init h => exact ⟨start, .init ⟨h, rfl⟩⟩
  | @step s t a _ hca h ih =>
      obtain ⟨g, hg⟩ := ih
      refine ⟨record a s g, hg.step a (hc a s g hca) ?_⟩
      simp only [withHistory, h, Option.map_some]

/-- Take the steps of a list of labels, as long as they meet the condition. -/
def runWhen (M : Machine σ α) (c : α → σ → Prop) [∀ a s, Decidable (c a s)] :
    List α → σ → Option σ
  | [], s => some s
  | a :: as, s => if c a s then (M.next a s).bind (M.runWhen c as) else none

/-- What a list of labels leads to is reachable. -/
theorem reachableWhen_run [∀ a s, Decidable (c a s)] {s t : σ} {as : List α}
    (hs : M.ReachableWhen c s) (h : M.runWhen c as s = some t) : M.ReachableWhen c t := by
  induction as generalizing s with
  | nil =>
      cases h
      exact hs
  | cons a as ih =>
      simp only [runWhen, Option.ite_none_right_eq_some, Option.bind_eq_some_iff] at h
      obtain ⟨hc, u, hu, h⟩ := h
      exact ih (.step a hs hc hu) h

/-- A run that ends in a state with a given property shows that such a state is
reachable. -/
theorem exists_reachableWhen [∀ a s, Decidable (c a s)] {s : σ} (as : List α) (p : σ → Bool)
    (hs : M.init s) (h : (M.runWhen c as s).any p = true) :
    ∃ t, M.ReachableWhen c t ∧ p t = true := by
  obtain ⟨t, ht, hp⟩ := (Option.any_eq_true _ _).mp h
  exact ⟨t, reachableWhen_run (.init hs) ht, hp⟩

end Machine
