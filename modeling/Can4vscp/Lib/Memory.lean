/-!
# Memory

Memory seen through a base pointer: a total function from indices to values.
An array of known size is the part of it below that size; what lies behind the
array is there too, so an access outside the array is not invisible.

`store` and `storeAll` write, `slice` reads a run of indices.  The lemmas are
the store/load algebra: what was stored is read back, and everything else is
unchanged.
-/

namespace Memory

variable {α : Type}

/-- Memory from a base pointer on. -/
abbrev Mem (α : Type) := Nat → α

/-- Write one value. -/
def store (m : Mem α) (i : Nat) (x : α) : Mem α := fun j => if j = i then x else m j

/-- Write the values of a list, from index `i` on. -/
def storeAll (m : Mem α) (i : Nat) : List α → Mem α
  | [] => m
  | x :: xs => storeAll (store m i x) (i + 1) xs

/-- Read `n` values, from index `i` on. -/
def slice (m : Mem α) (i : Nat) : Nat → List α
  | 0 => []
  | n + 1 => m i :: slice m (i + 1) n

/-! ## one value -/

@[simp] theorem store_same (m : Mem α) (i : Nat) (x : α) : store m i x i = x := by
  simp [store]

theorem store_of_ne (m : Mem α) (x : α) {i j : Nat} (h : j ≠ i) : store m i x j = m j := by
  simp [store, h]

/-! ## runs of values -/

@[simp] theorem length_slice (m : Mem α) (i n : Nat) : (slice m i n).length = n := by
  induction n generalizing i with
  | zero => rfl
  | succ n ih => simp [slice, ih]

theorem slice_add (m : Mem α) (i a b : Nat) :
    slice m i (a + b) = slice m i a ++ slice m (i + a) b := by
  induction a generalizing i with
  | zero => simp [slice]
  | succ a ih =>
      rw [Nat.succ_add, slice, slice, ih, List.cons_append]
      congr 3
      omega

/-- A slice only depends on the indices it covers. -/
theorem slice_congr {m m' : Mem α} {i n : Nat} (h : ∀ j, i ≤ j → j < i + n → m j = m' j) :
    slice m i n = slice m' i n := by
  induction n generalizing i with
  | zero => rfl
  | succ n ih =>
      rw [slice, slice, h i (Nat.le_refl i) (by omega)]
      rw [ih fun j h1 h2 => h j (by omega) (by omega)]

theorem getElem_slice (m : Mem α) (i n : Nat) {k : Nat} (hk : k < (slice m i n).length) :
    (slice m i n)[k] = m (i + k) := by
  induction n generalizing i k with
  | zero => exact absurd hk (Nat.not_lt_zero k)
  | succ n ih =>
      cases k with
      | zero => rfl
      | succ k =>
          have h := ih (i + 1) (Nat.lt_of_succ_lt_succ hk)
          rw [Nat.add_right_comm] at h
          exact h

/-- Storing a value sets one element of a slice, or none. -/
theorem slice_store (m : Mem α) (i n k : Nat) (x : α) :
    slice (store m (i + k) x) i n = (slice m i n).set k x := by
  induction n generalizing i k with
  | zero => rfl
  | succ n ih =>
      cases k with
      | zero =>
          rw [slice, slice, List.set_cons_zero, Nat.add_zero, store_same]
          rw [slice_congr fun j h1 h2 => store_of_ne m x (by omega)]
      | succ k =>
          have h := ih (i + 1) k
          rw [Nat.add_right_comm] at h
          rw [slice, slice, List.set_cons_succ, ← h, store_of_ne _ _ (by omega)]
          rfl

/-- Indices below the stored run are untouched. -/
theorem storeAll_of_lt (m : Mem α) (xs : List α) {i j : Nat} (h : j < i) :
    storeAll m i xs j = m j := by
  induction xs generalizing m i with
  | nil => rfl
  | cons x xs ih => rw [storeAll, ih _ (by omega), store_of_ne _ _ (by omega)]

/-- Indices behind the stored run are untouched. -/
theorem storeAll_of_ge (m : Mem α) (xs : List α) {i j : Nat} (h : i + xs.length ≤ j) :
    storeAll m i xs j = m j := by
  induction xs generalizing m i with
  | nil => rfl
  | cons x xs ih =>
      rw [List.length_cons] at h
      rw [storeAll, ih _ (by omega), store_of_ne _ _ (by omega)]

theorem storeAll_append (m : Mem α) (i : Nat) (xs ys : List α) :
    storeAll m i (xs ++ ys) = storeAll (storeAll m i xs) (i + xs.length) ys := by
  induction xs generalizing m i with
  | nil => simp [storeAll]
  | cons x xs ih =>
      rw [List.cons_append, storeAll, ih, storeAll, List.length_cons]
      congr 1
      omega

/-- Storing one more value at the end of a run. -/
theorem storeAll_concat (m : Mem α) (i : Nat) (xs : List α) (x : α) :
    storeAll m i (xs ++ [x]) = store (storeAll m i xs) (i + xs.length) x := by
  rw [storeAll_append]
  rfl

/-- What was stored is read back. -/
theorem slice_storeAll (m : Mem α) (i : Nat) (xs : List α) :
    slice (storeAll m i xs) i xs.length = xs := by
  induction xs generalizing m i with
  | nil => rfl
  | cons x xs ih =>
      rw [List.length_cons, slice, storeAll, ih, storeAll_of_lt _ _ (by omega), store_same]

/-- A part of what was stored is read back. -/
theorem slice_storeAll_part (m : Mem α) (i : Nat) (xs ys zs : List α) :
    slice (storeAll m i (xs ++ ys ++ zs)) (i + xs.length) ys.length = ys := by
  rw [storeAll_append, storeAll_append]
  refine Eq.trans (slice_congr fun j _ h2 => ?_) (slice_storeAll (storeAll m i xs) _ ys)
  exact storeAll_of_lt _ _ (by rw [List.length_append]; omega)

/-- The beginning of what was stored is read back. -/
theorem slice_storeAll_take (m : Mem α) (i : Nat) (xs : List α) {n : Nat} (h : n ≤ xs.length) :
    slice (storeAll m i xs) i n = xs.take n := by
  have hpart := slice_storeAll_part m i [] (xs.take n) (xs.drop n)
  rw [List.nil_append, List.take_append_drop, List.length_take_of_le h] at hpart
  exact hpart

/-- An index that keeps its value, whatever that is, lies behind the stored run. -/
theorem length_le_of_untouched {xs : List α} {i : Nat} {a b : α} (hab : a ≠ b)
    (h : ∀ m : Mem α, storeAll m 0 xs i = m i) : xs.length ≤ i := by
  refine Nat.le_of_not_lt fun hi => ?_
  have hstored : ∀ m : Mem α, storeAll m 0 xs i = xs[i] := by
    intro m
    have hget := getElem_slice (storeAll m 0 xs) 0 xs.length (k := i) (by rwa [length_slice])
    simpa only [slice_storeAll, Nat.zero_add] using hget.symm
  have ha : a = xs[i] := (h fun _ => a).symm.trans (hstored fun _ => a)
  have hb : b = xs[i] := (h fun _ => b).symm.trans (hstored fun _ => b)
  exact hab (ha.trans hb.symm)

/-- Two adjacent parts of a slice. -/
theorem slice_eq_append (m : Mem α) (i : Nat) {xs ys : List α}
    (h : slice m i (xs.length + ys.length) = xs ++ ys) :
    slice m i xs.length = xs ∧ slice m (i + xs.length) ys.length = ys := by
  rw [slice_add] at h
  exact List.append_inj h (length_slice m i xs.length)

end Memory
