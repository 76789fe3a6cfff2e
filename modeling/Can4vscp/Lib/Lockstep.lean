import Can4vscp.Lib.Pipeline

/-!
# Lockstep

Two readers of one line.

The readers are related by `R` for as long as no value meets `D`; `D` says exactly which
value, read where, takes them apart (`Lockstep.stays`).  Then they are related all along a
line if and only if none of its values meets `D` (`together_iff`), and in that case they
have written the same (`transduce_eq`).
-/

namespace Pipeline

variable {σ τ α β : Type}

section
variable (f : σ → α → σ × List β) (g : τ → α → τ × List β) (R : σ → τ → Prop) (D : σ → α → Prop)

/-- The readers are related before every value of the line, and at its end. -/
def Together : σ → τ → List α → Prop
  | s, t, [] => R s t
  | s, t, a :: as => R s t ∧ Together (f s a).1 (g t a).1 as

/-- No value of the line meets `D` where the first reader is by then. -/
def Never : σ → List α → Prop
  | _, [] => True
  | s, a :: as => ¬ D s a ∧ Never (f s a).1 as

/-- Readers that write the same as long as they are related, and stay related unless `D`. -/
structure Lockstep : Prop where
  writes : ∀ s t a, R s t → (f s a).2 = (g t a).2
  stays : ∀ s t a, R s t → (R (f s a).1 (g t a).1 ↔ ¬ D s a)

end

variable {f : σ → α → σ × List β} {g : τ → α → τ × List β} {R : σ → τ → Prop} {D : σ → α → Prop}
  {s : σ} {t : τ}

theorem never_append (xs ys : List α) :
    Never f D s (xs ++ ys) ↔ Never f D s xs ∧ Never f D (transduce f s xs).1 ys := by
  induction xs generalizing s with
  | nil => simp [Never, transduce]
  | cons a xs ih => simp only [List.cons_append, Never, ih, transduce, and_assoc]

theorem Together.related {as : List α} (h : Together f g R s t as) : R s t := by
  cases as with
  | nil => exact h
  | cons a as => exact h.1

/-- **Together all along**, exactly on the lines without `D`. -/
theorem together_iff (law : Lockstep f g R D) (h : R s t) (as : List α) :
    Together f g R s t as ↔ Never f D s as := by
  induction as generalizing s t with
  | nil => exact iff_of_true h trivial
  | cons a as ih =>
      constructor
      · intro htogether
        have hstays := htogether.2.related
        exact ⟨(law.stays s t a h).mp hstays, (ih hstays).mp htogether.2⟩
      · intro hnever
        have hstays := (law.stays s t a h).mpr hnever.1
        exact ⟨h, (ih hstays).mpr hnever.2⟩

/-- **The same is written**. -/
theorem transduce_eq (law : Lockstep f g R D) (h : R s t) {as : List α} (hnever : Never f D s as) :
    (transduce f s as).2 = (transduce g t as).2 ∧ R (transduce f s as).1 (transduce g t as).1 := by
  induction as generalizing s t with
  | nil => exact ⟨rfl, h⟩
  | cons a as ih =>
      obtain ⟨hsame, hend⟩ := ih ((law.stays s t a h).mpr hnever.1) hnever.2
      simp only [transduce]
      exact ⟨by rw [law.writes s t a h, hsame], hend⟩

end Pipeline
