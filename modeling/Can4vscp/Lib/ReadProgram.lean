import Can4vscp.Lib.Memory

/-!
# ReadProgram

Programs that read a memory and compute: a program either returns, or reads
one index and goes on with the value.  `run` gives the result, `trace` the
indices that were read, in order.

The point of the representation is `run_congr`: whatever the program computes,
two memories that agree on the indices it reads give the same result.
-/

open Memory

/-- A program over a memory with values in `α`, with result in `β`. -/
inductive ReadProgram (α : Type) (β : Type) : Type where
  | ret (b : β)
  | read (i : Nat) (k : α → ReadProgram α β)

namespace ReadProgram

variable {α β γ : Type}

/-- The result of a program on a memory. -/
def run (m : Mem α) : ReadProgram α β → β
  | .ret b => b
  | .read i k => (k (m i)).run m

/-- The indices a program reads, in order. -/
def trace (m : Mem α) : ReadProgram α β → List Nat
  | .ret _ => []
  | .read i k => i :: (k (m i)).trace m

/-- Sequencing. -/
protected def bind : ReadProgram α β → (β → ReadProgram α γ) → ReadProgram α γ
  | .ret b, f => f b
  | .read i k, f => .read i fun x => (k x).bind f

instance : Monad (ReadProgram α) where
  pure := .ret
  bind := ReadProgram.bind

/-- Read one index. -/
def get (i : Nat) : ReadProgram α α := .read i .ret

/-- Read `n` indices from `i` on. -/
def getSlice (i : Nat) : Nat → ReadProgram α (List α)
  | 0 => .ret []
  | n + 1 => do
      let x ← get i
      let xs ← getSlice (i + 1) n
      pure (x :: xs)

/-! ## results -/

@[simp] theorem run_pure (m : Mem α) (b : β) : (pure b : ReadProgram α β).run m = b := rfl

@[simp] theorem run_bind (m : Mem α) (p : ReadProgram α β) (f : β → ReadProgram α γ) :
    (p >>= f).run m = (f (p.run m)).run m := by
  change (p.bind f).run m = _
  induction p with
  | ret b => rfl
  | read i k ih => exact ih (m i)

@[simp] theorem run_get (m : Mem α) (i : Nat) : (get i).run m = m i := by
  simp only [get, run]

@[simp] theorem run_getSlice (m : Mem α) (i n : Nat) : (getSlice i n).run m = slice m i n := by
  induction n generalizing i with
  | zero => rfl
  | succ n ih => simp [getSlice, slice, ih]

/-! ## traces -/

@[simp] theorem trace_pure (m : Mem α) (b : β) : (pure b : ReadProgram α β).trace m = [] := rfl

@[simp] theorem trace_bind (m : Mem α) (p : ReadProgram α β) (f : β → ReadProgram α γ) :
    (p >>= f).trace m = p.trace m ++ (f (p.run m)).trace m := by
  change (p.bind f).trace m = _
  induction p with
  | ret b => rfl
  | read i k ih =>
      change i :: ((k (m i)).bind f).trace m = _
      rw [ih (m i)]
      rfl

@[simp] theorem trace_get (m : Mem α) (i : Nat) : (get i).trace m = [i] := rfl

@[simp] theorem mem_trace_getSlice (m : Mem α) (i n j : Nat) :
    j ∈ (getSlice i n : ReadProgram α (List α)).trace m ↔ i ≤ j ∧ j < i + n := by
  induction n generalizing i with
  | zero => simp [getSlice, trace]
  | succ n ih =>
      simp only [getSlice, trace_bind, trace_get, trace_pure, List.append_nil, List.mem_append,
        List.mem_singleton, ih]
      omega

/-- A program only depends on the indices it reads: a second memory that
agrees on them gives the same trace and the same result. -/
theorem run_congr {m m' : Mem α} (p : ReadProgram α β) (h : ∀ i ∈ p.trace m, m' i = m i) :
    p.trace m' = p.trace m ∧ p.run m' = p.run m := by
  induction p with
  | ret b => exact ⟨rfl, rfl⟩
  | read i k ih =>
      have hi : m' i = m i := h i List.mem_cons_self
      obtain ⟨ht, hr⟩ := ih (m i) fun j hj => h j (List.mem_cons_of_mem i hj)
      constructor
      · change i :: (k (m' i)).trace m' = i :: (k (m i)).trace m
        rw [hi, ht]
      · change (k (m' i)).run m' = (k (m i)).run m
        rw [hi, hr]

/-- Every index read lies below a bound. -/
def ReadsBelow (m : Mem α) (n : Nat) (p : ReadProgram α β) : Prop := ∀ i ∈ p.trace m, i < n

@[simp] theorem readsBelow_pure (m : Mem α) (n : Nat) (b : β) :
    ReadsBelow m n (pure b : ReadProgram α β) := by
  simp [ReadsBelow]

@[simp] theorem readsBelow_bind (m : Mem α) (n : Nat) (p : ReadProgram α β)
    (f : β → ReadProgram α γ) :
    ReadsBelow m n (p >>= f) ↔ ReadsBelow m n p ∧ ReadsBelow m n (f (p.run m)) := by
  simp only [ReadsBelow, trace_bind, List.mem_append]
  constructor
  · exact fun h => ⟨fun i hi => h i (.inl hi), fun i hi => h i (.inr hi)⟩
  · rintro ⟨h1, h2⟩ i (hi | hi)
    · exact h1 i hi
    · exact h2 i hi

/-- A branch reads what the branch taken reads. -/
@[simp] theorem readsBelow_ite (m : Mem α) (n : Nat) (c : Prop) {_ : Decidable c}
    (p q : ReadProgram α β) :
    ReadsBelow m n (if c then p else q) ↔ (c → ReadsBelow m n p) ∧ (¬ c → ReadsBelow m n q) := by
  split <;> simp [*]

@[simp] theorem readsBelow_get (m : Mem α) (n i : Nat) :
    ReadsBelow m n (get i : ReadProgram α α) ↔ i < n := by
  simp [ReadsBelow]

@[simp] theorem readsBelow_getSlice (m : Mem α) (n i k : Nat) :
    ReadsBelow m n (getSlice i k : ReadProgram α (List α)) ↔ k = 0 ∨ i + k ≤ n := by
  simp only [ReadsBelow, mem_trace_getSlice]
  constructor
  · intro h
    by_cases hk : k = 0
    · exact .inl hk
    · have := h (i + k - 1) (by omega)
      omega
  · intro h j hj
    omega

end ReadProgram
