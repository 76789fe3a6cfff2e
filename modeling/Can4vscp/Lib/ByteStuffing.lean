import Mathlib.Data.List.Count

/-!
# ByteStuffing

Stuffing by doubling: an escape value is sent twice, every other value once.
The stuffed form of a body never holds a lone escape value, so an escape value
followed by something else can be used as a delimiter.

`unstuff` is the grammar of stuffed bodies: it collapses the pairs, and fails where
an escape value stands alone.
-/

namespace ByteStuffing

variable {α : Type} [DecidableEq α]

/-- The stuffed form of one value. -/
def stuff1 (esc c : α) : List α := if c = esc then [esc, esc] else [c]

/-- The stuffed form of a body. -/
def stuff (esc : α) (xs : List α) : List α := xs.flatMap (stuff1 esc)

@[simp] theorem stuff_nil (esc : α) : stuff esc [] = [] := rfl

@[simp] theorem stuff_cons (esc c : α) (xs : List α) :
    stuff esc (c :: xs) = stuff1 esc c ++ stuff esc xs := by
  simp [stuff]

@[simp] theorem stuff_append (esc : α) (xs ys : List α) :
    stuff esc (xs ++ ys) = stuff esc xs ++ stuff esc ys := by
  simp [stuff]

@[simp] theorem stuff1_esc (esc : α) : stuff1 esc esc = [esc, esc] := by simp [stuff1]

theorem stuff1_of_ne {esc c : α} (h : c ≠ esc) : stuff1 esc c = [c] := by simp [stuff1, h]

/-- Stuffing adds one value for every escape value of the body. -/
theorem length_stuff (esc : α) (xs : List α) :
    (stuff esc xs).length = xs.length + xs.count esc := by
  induction xs with
  | nil => rfl
  | cons c xs ih =>
      rw [stuff_cons, List.length_append, ih, List.length_cons, List.count_cons]
      by_cases h : c = esc
      · simp [stuff1, h]
        omega
      · simp [stuff1, h]
        omega

/-- Stuffing at most doubles the length. -/
theorem length_stuff_le (esc : α) (xs : List α) : (stuff esc xs).length ≤ 2 * xs.length := by
  have h : xs.count esc ≤ xs.length := List.count_le_length
  rw [length_stuff]
  omega

/-! ## collapsing the pairs -/

/-- The body without the second half of each pair. -/
def unstuff (esc : α) : List α → Option (List α)
  | [] => some []
  | [c] => if c = esc then none else some [c]
  | c :: d :: xs =>
    if c = esc then if d = esc then (unstuff esc xs).map (esc :: ·) else none
    else (unstuff esc (d :: xs)).map (c :: ·)

theorem unstuff_stuff1 (esc c : α) (xs : List α) :
    unstuff esc (stuff1 esc c ++ xs) = (unstuff esc xs).map (c :: ·) := by
  by_cases h : c = esc
  · subst h
    simp [unstuff]
  · rw [stuff1_of_ne h, List.singleton_append]
    cases xs with
    | nil => simp [unstuff, h]
    | cons d xs => rw [unstuff, if_neg h]

theorem unstuff_stuff (esc : α) (xs : List α) : unstuff esc (stuff esc xs) = some xs := by
  induction xs with
  | nil => rfl
  | cons c xs ih => rw [stuff_cons, unstuff_stuff1, ih, Option.map_some]

/-- **Stuffed bodies are exactly those whose pairs can be collapsed.** -/
theorem unstuff_eq_some_iff {esc : α} {ys xs : List α} :
    unstuff esc ys = some xs ↔ ys = stuff esc xs := by
  refine ⟨fun h => ?_, fun h => by rw [h, unstuff_stuff]⟩
  induction ys using unstuff.induct esc generalizing xs with
  | case1 =>
      cases h
      rfl
  | case2 => simp [unstuff] at h
  | case3 c hc =>
      simp only [unstuff, if_neg hc, Option.some.injEq] at h
      rw [← h, stuff_cons, stuff1_of_ne hc]
      rfl
  | case4 ys ih =>
      simp only [unstuff, if_true, Option.map_eq_some_iff] at h
      obtain ⟨zs, hzs, rfl⟩ := h
      rw [ih hzs, stuff_cons, stuff1_esc]
      rfl
  | case5 d ys hd => simp [unstuff, hd] at h
  | case6 c d ys hc ih =>
      simp only [unstuff, if_neg hc, Option.map_eq_some_iff] at h
      obtain ⟨zs, hzs, rfl⟩ := h
      rw [ih hzs, stuff_cons, stuff1_of_ne hc]
      rfl

/-! ## a lenient reading -/

/-- The body as a reader takes it that does not insist on pairs: behind an escape value
anything but a delimiter stands for itself. -/
def destuff (esc : α) (delimiter : α → Bool) : List α → Option (List α)
  | [] => some []
  | [c] => if c = esc then none else some [c]
  | c :: d :: xs =>
    if c = esc then if delimiter d then none else (destuff esc delimiter xs).map (d :: ·)
    else (destuff esc delimiter (d :: xs)).map (c :: ·)

variable {esc : α} {delimiter : α → Bool}

/-- What stands alone. -/
theorem destuff_cons {c : α} (hc : c ≠ esc) (xs : List α) :
    destuff esc delimiter (c :: xs) = (destuff esc delimiter xs).map (c :: ·) := by
  cases xs with
  | nil => simp [destuff, hc]
  | cons d xs => rw [destuff, if_neg hc]

/-- Bodies are read one after the other. -/
theorem destuff_append {xs ys as bs : List α} (hx : destuff esc delimiter xs = some as)
    (hy : destuff esc delimiter ys = some bs) :
    destuff esc delimiter (xs ++ ys) = some (as ++ bs) := by
  induction xs using destuff.induct esc delimiter generalizing as with
  | case1 =>
      cases hx
      exact hy
  | case2 => simp [destuff] at hx
  | case3 c hc =>
      simp only [destuff, if_neg hc, Option.some.injEq] at hx
      rw [List.singleton_append, destuff_cons hc, hy, ← hx]
      rfl
  | case4 d xs hd => simp [destuff, hd] at hx
  | case5 d xs hd ih =>
      simp only [destuff, if_true, if_neg hd, Option.map_eq_some_iff] at hx
      obtain ⟨cs, hcs, rfl⟩ := hx
      simp only [List.cons_append, destuff, if_true, if_neg hd, ih hcs, Option.map_some]
  | case6 c d xs hc ih =>
      rw [destuff, if_neg hc, Option.map_eq_some_iff] at hx
      obtain ⟨cs, hcs, rfl⟩ := hx
      rw [List.cons_append, destuff_cons hc, ih hcs]
      rfl

end ByteStuffing
