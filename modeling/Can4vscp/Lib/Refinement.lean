import Can4vscp.Lib.Machine

/-!
# Refinement

A machine with small steps against one with large steps.

Every step of the small one is a step of the large one, seen through `abs`, or cannot be
seen there.  What the small machine reaches is then, seen through `abs`, reached by the
large one (`Refines.reachable`), so whatever holds in every run of the large machine holds
of the small one too.

Where every step is a call that is answered, the calls can be compared one by one: a machine
meets a specification of its calls (`Meets`) if each of them, seen through `abs`, is answered
as the specification allows, and then the same calls, in the same order and with the same
answers, are a run of the specification (`Meets.run`).
-/

namespace Machine

variable {σ τ α β ρ : Type}

/-- Seen through `abs`, the steps of `M` from states with `I` are steps of `A`, or none. -/
structure Refines (M : Machine σ α) (A : Machine τ β) (I : σ → Prop) (abs : σ → τ) : Prop where
  init : ∀ s, M.init s → A.init (abs s)
  step : ∀ s t a, I s → M.next a s = some t →
    abs t = abs s ∨ ∃ b, A.next b (abs s) = some (abs t)

/-- **The refinement rule**. -/
theorem Refines.reachable {M : Machine σ α} {A : Machine τ β} {I : σ → Prop} {abs : σ → τ}
    (h : M.Refines A I abs) (hI : ∀ s, M.Reachable s → I s) {s : σ} (hs : M.Reachable s) :
    A.Reachable (abs s) := by
  induction hs with
  | init hs => exact .init (h.init _ hs)
  | step a hs _ hnext ih =>
      cases h.step _ _ a (hI _ hs) hnext with
      | inl hsame =>
          rw [hsame]
          exact ih
      | inr hstep =>
          obtain ⟨b, hb⟩ := hstep
          exact .step b ih trivial hb

/-! ## call by call -/

/-- The runs of a specification: `spec x a r y` says that in `x` the call `a` may be answered
with `r`, which leads to `y`. -/
inductive SpecRun (spec : τ → α → ρ → τ → Prop) : τ → List α → List ρ → τ → Prop where
  | nil (x : τ) : SpecRun spec x [] [] x
  | cons {x y z : τ} {a : α} {r : ρ} {as : List α} {rs : List ρ} (hstep : spec x a r y)
      (hrest : SpecRun spec y as rs z) : SpecRun spec x (a :: as) (r :: rs) z

/-- Every call from a state with `I` adds one answer, which is one that is specified, and
keeps `I`. -/
structure Meets (M : Machine σ α) (spec : τ → α → ρ → τ → Prop) (I : σ → Prop) (abs : σ → τ)
    (answers : σ → List ρ) : Prop where
  keeps : ∀ s t a, I s → M.next a s = some t → I t
  step : ∀ s t a, I s → M.next a s = some t →
    ∃ r, answers t = answers s ++ [r] ∧ spec (abs s) a r (abs t)

/-- **The rule for calls**: one answer for each. -/
theorem Meets.run {M : Machine σ α} {spec : τ → α → ρ → τ → Prop} {I : σ → Prop} {abs : σ → τ}
    {answers : σ → List ρ} (h : M.Meets spec I abs answers) {s t : σ} {as : List α} (hs : I s)
    (hrun : M.runWhen (fun _ _ => True) as s = some t) :
    ∃ rs, answers t = answers s ++ rs ∧ SpecRun spec (abs s) as rs (abs t) := by
  induction as generalizing s with
  | nil =>
      cases hrun
      exact ⟨[], (List.append_nil _).symm, .nil _⟩
  | cons a as ih =>
      simp only [runWhen, if_true, Option.bind_eq_some_iff] at hrun
      obtain ⟨u, hu, hrun⟩ := hrun
      obtain ⟨r, hr, hstep⟩ := h.step s u a hs hu
      obtain ⟨rs, hrs, hrest⟩ := ih (h.keeps s u a hs hu) hrun
      exact ⟨r :: rs, by rw [hrs, hr, List.append_assoc, List.singleton_append], .cons hstep hrest⟩

end Machine
