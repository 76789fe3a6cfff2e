import Can4vscp.Lib.ReadProgram

/-!
# CString

Strings of C: bytes in a memory, up to a NUL.

`Holds m p s` says that the string `s` stands at `p`.  The functions of `string.h` work on
the memory where they look for an end or write, and on the bytes of the string where they
only compute.  A search runs on until it finds something, so it takes a fuel; how much
does not matter where a NUL comes in time (`Holds.strchr_absent`, `strchr_found`).  What it
reads is `trace_strchr`, and where no NUL comes, `mem_trace_strchr`.
-/

namespace CString

open Memory ReadProgram

/-- The bytes of a string literal. -/
def ascii (s : String) : List UInt8 := s.toList.map fun c => UInt8.ofNat c.toNat

/-! ## strings in memory -/

/-- The string `s` stands at `p`, with its NUL. -/
structure Holds (m : Mem UInt8) (p : Nat) (s : List UInt8) : Prop where
  bytes : slice m p (s.length + 1) = s ++ [0]
  noNul : 0 ∉ s

/-- The string at `p`, read below `limit`. -/
def stringAt (limit : Nat) (m : Mem UInt8) (p : Nat) : List UInt8 :=
  (slice m p (limit - p)).takeWhile (· ≠ 0)

/-- Copy at most `n` bytes of a string, and fill up with NUL. -/
def strncpy (m : Mem UInt8) (src : List UInt8) (n : Nat) : Mem UInt8 :=
  storeAll m 0 (src.take n ++ List.replicate (n - src.length) 0)

/-- Where a byte is first found. -/
def strchr (c : UInt8) : Nat → Nat → ReadProgram UInt8 (Option Nat)
  | 0, _ => pure none
  | fuel + 1, p => do
    let b ← get p
    if b = c then pure (some p)
    else if b = 0 then pure none
    else strchr c fuel (p + 1)

/-- Read a string up to its NUL. -/
def readString : Nat → Nat → ReadProgram UInt8 (List UInt8)
  | 0, _ => pure []
  | fuel + 1, p => do
    let b ← get p
    if b = 0 then pure []
    else do
      let s ← readString fuel (p + 1)
      pure (b :: s)

/-! ## functions of strings -/

def toupper (c : UInt8) : UInt8 := if 97 ≤ c ∧ c ≤ 122 then c - 32 else c

def isspace (c : UInt8) : Bool := c = 32 || (9 ≤ c && c ≤ 13)

def isdigit (c : UInt8) : Bool := 48 ≤ c && c ≤ 57

/-- The rest of a string from the first place on where `pat` stands. -/
def strstr (pat : List UInt8) : List UInt8 → Option (List UInt8)
  | [] => if pat = [] then some [] else none
  | c :: s => if pat.isPrefixOf (c :: s) then some (c :: s) else strstr pat s

/-- The value of decimal digits. -/
def decimal (digits : List UInt8) : Int :=
  digits.foldl (fun n c => 10 * n + ((c - 48).toNat : Int)) 0

/-- The number at the start of a string, if there is one: white space, a sign and digits. -/
def number? (s : List UInt8) : Option Int :=
  let (negative, digits) := match s.dropWhile isspace with
    | 45 :: rest => (true, rest.takeWhile isdigit)
    | 43 :: rest => (false, rest.takeWhile isdigit)
    | rest => (false, rest.takeWhile isdigit)
  if digits = [] then none
  else some (if negative then - decimal digits else decimal digits)

def atoi (s : List UInt8) : Int := (number? s).getD 0

/-- Turn a string to upper case where it stands. -/
def strupr (limit : Nat) (m : Mem UInt8) (p : Nat) : Mem UInt8 :=
  storeAll m p ((stringAt limit m p).map toupper)

/-! ## reading a string back -/

variable {m : Mem UInt8} {p limit n : Nat} {c : UInt8} {s f r : List UInt8}

theorem Holds.slice_eq (h : Holds m p s) : slice m p s.length = s ∧ m (p + s.length) = 0 := by
  have hbytes := h.bytes
  rw [slice_add] at hbytes
  obtain ⟨hs, hnul⟩ := List.append_inj hbytes (length_slice m p s.length)
  exact ⟨hs, by simpa [slice] using hnul⟩

theorem holds_of_slice (hs : slice m p s.length = s) (hnul : m (p + s.length) = 0)
    (hno : 0 ∉ s) : Holds m p s := by
  refine ⟨?_, hno⟩
  rw [slice_add, hs, slice, slice, hnul]

/-- A string is kept where its bytes are. -/
theorem Holds.congr {m' : Mem UInt8} (h : Holds m p s)
    (hsame : ∀ i, p ≤ i → i ≤ p + s.length → m' i = m i) : Holds m' p s := by
  refine ⟨?_, h.noNul⟩
  rw [slice_congr fun i h1 h2 => hsame i h1 (by omega), h.bytes]

theorem Holds.stringAt (h : Holds m p s) (hlimit : p + s.length < limit) :
    stringAt limit m p = s := by
  obtain ⟨k, hk⟩ : ∃ k, limit - p = s.length + 1 + k := ⟨limit - p - (s.length + 1), by omega⟩
  have hall : ∀ b ∈ s, decide (b ≠ 0) = true := by
    intro b hb
    exact decide_eq_true fun h0 => h.noNul (h0 ▸ hb)
  rw [CString.stringAt, hk, slice_add, h.bytes, List.append_assoc,
    List.takeWhile_append_of_pos hall]
  simp

/-- What `strncpy` leaves is a string if there is room for the NUL. -/
theorem holds_strncpy (m : Mem UInt8) (hlt : s.length < n) (hno : 0 ∉ s) :
    Holds (strncpy m s n) 0 s := by
  obtain ⟨k, rfl⟩ : ∃ k, n = s.length + 1 + k := ⟨n - (s.length + 1), by omega⟩
  refine ⟨?_, hno⟩
  have hcopy : s.take (s.length + 1 + k) ++ List.replicate (s.length + 1 + k - s.length) 0 =
      [] ++ (s ++ [0]) ++ List.replicate k 0 := by
    rw [List.take_of_length_le (by omega), Nat.add_assoc, Nat.add_sub_cancel_left, Nat.add_comm 1,
      List.replicate_succ]
    simp
  have hpart := slice_storeAll_part m 0 [] (s ++ [0]) (List.replicate k 0)
  rw [strncpy, hcopy]
  simpa using hpart

/-! ## searching -/

/-- The search passes over what is neither the byte nor a NUL, and reads it. -/
theorem strchr_skip (fuel : Nat) (hf : slice m p f.length = f) (hc : c ∉ f) (hno : 0 ∉ f) :
    (strchr c (f.length + fuel) p).run m = (strchr c fuel (p + f.length)).run m ∧
      (strchr c (f.length + fuel) p).trace m =
        List.range' p f.length ++ (strchr c fuel (p + f.length)).trace m := by
  induction f generalizing p with
  | nil => simp
  | cons b f ih =>
      rw [List.length_cons, slice, List.cons.injEq] at hf
      obtain ⟨hb, hf⟩ := hf
      rw [List.mem_cons, not_or] at hc hno
      obtain ⟨hrun, htrace⟩ := ih hf hc.2 hno.2
      have hpos : p + (f.length + 1) = p + 1 + f.length := by omega
      rw [List.length_cons, Nat.add_right_comm, strchr, List.range'_succ, hpos]
      simp only [run_bind, trace_bind, trace_get, run_get, hb]
      rw [if_neg (Ne.symm hc.1), if_neg (Ne.symm hno.1), hrun, htrace]
      exact ⟨rfl, rfl⟩

/-- A byte that is not in the string is not found. -/
theorem Holds.strchr_absent (h : Holds m p s) (hc : c ∉ s) (hc0 : c ≠ 0)
    (hlimit : p + s.length < limit) : (strchr c (limit - p) p).run m = none := by
  obtain ⟨hs, hnul⟩ := h.slice_eq
  obtain ⟨k, hk⟩ : ∃ k, limit - p = s.length + (k + 1) := ⟨limit - p - (s.length + 1), by omega⟩
  rw [hk, (strchr_skip (k + 1) hs hc h.noNul).1, strchr]
  simp [hnul, Ne.symm hc0]

/-- The first place is found. -/
theorem strchr_found (hf : slice m p f.length = f) (hat : m (p + f.length) = c) (hc : c ∉ f)
    (hno : 0 ∉ f) (hlimit : p + f.length < limit) :
    (strchr c (limit - p) p).run m = some (p + f.length) := by
  obtain ⟨k, hk⟩ : ∃ k, limit - p = f.length + (k + 1) := ⟨limit - p - (f.length + 1), by omega⟩
  rw [hk, (strchr_skip (k + 1) hf hc hno).1, strchr]
  simp [hat]

/-! ## what a search reads -/

/-- A search ends where it finds the byte or a NUL. -/
theorem trace_strchr (hf : slice m p f.length = f) (hc : c ∉ f) (hno : 0 ∉ f)
    (hend : m (p + f.length) = c ∨ m (p + f.length) = 0) (hlimit : p + f.length < limit) :
    (strchr c (limit - p) p).trace m = List.range' p (f.length + 1) := by
  obtain ⟨k, hk⟩ : ∃ k, limit - p = f.length + (k + 1) := ⟨limit - p - (f.length + 1), by omega⟩
  have hlast : (strchr c (k + 1) (p + f.length)).trace m = [p + f.length] := by
    rw [strchr]
    simp only [trace_bind, trace_get, run_get]
    split
    · rfl
    · next hne => rw [if_pos (hend.resolve_left hne), trace_pure, List.append_nil]
  rw [hk, (strchr_skip (k + 1) hf hc hno).2, hlast, List.range'_1_concat]

/-- A search that neither ends before reads the byte behind. -/
theorem mem_trace_strchr (hf : slice m p f.length = f) (hc : c ∉ f) (hno : 0 ∉ f)
    (hlimit : p + f.length < limit) :
    p + f.length ∈ (strchr c (limit - p) p).trace m := by
  obtain ⟨k, hk⟩ : ∃ k, limit - p = f.length + (k + 1) := ⟨limit - p - (f.length + 1), by omega⟩
  rw [hk, (strchr_skip (k + 1) hf hc hno).2, strchr]
  simp

/-- A string is read like it is searched for its NUL. -/
theorem trace_readString (fuel p : Nat) (m : Mem UInt8) :
    (readString fuel p).trace m = (strchr 0 fuel p).trace m := by
  induction fuel generalizing p with
  | zero => rfl
  | succ fuel ih =>
      simp only [readString, strchr, trace_bind, trace_get, run_get]
      split
      · rfl
      · simp [ih]

theorem Holds.trace_readString (h : Holds m p s) (hlimit : p + s.length < limit) :
    (readString (limit - p) p).trace m = List.range' p (s.length + 1) := by
  obtain ⟨hs, hnul⟩ := h.slice_eq
  rw [CString.trace_readString, trace_strchr hs h.noNul h.noNul (.inl hnul) hlimit]

theorem run_readString (limit p : Nat) (m : Mem UInt8) :
    (readString (limit - p) p).run m = stringAt limit m p := by
  rw [stringAt]
  generalize limit - p = fuel
  induction fuel generalizing p with
  | zero => rfl
  | succ fuel ih =>
      simp only [readString, run_bind, run_get, slice, List.takeWhile_cons]
      split
      next h => simp [h]
      next h => simp [h, ih]

/-! ## cutting -/

/-- Where the parts of a string stand. -/
theorem Holds.parts (h : Holds m p (f ++ c :: r)) :
    slice m p f.length = f ∧ m (p + f.length) = c ∧ Holds m (p + f.length + 1) r := by
  obtain ⟨hs, hnul⟩ := h.slice_eq
  rw [List.length_append] at hs
  obtain ⟨hf, hcr⟩ := slice_eq_append m p hs
  rw [List.length_cons, slice, List.cons.injEq] at hcr
  refine ⟨hf, hcr.1, holds_of_slice hcr.2 ?_ fun h0 => h.noNul (by simp [h0])⟩
  rw [← hnul, List.length_append, List.length_cons]
  congr 1
  omega

/-- **A NUL written over a byte cuts the string in two.** -/
theorem Holds.cut (h : Holds m p (f ++ c :: r)) :
    Holds (store m (p + f.length) 0) p f ∧
      Holds (store m (p + f.length) 0) (p + f.length + 1) r := by
  obtain ⟨hf, -, hr⟩ := h.parts
  obtain ⟨hrs, hnul⟩ := hr.slice_eq
  constructor
  · refine holds_of_slice ?_ (store_same _ _ _) fun h0 => h.noNul (by simp [h0])
    rw [← slice_congr fun j h1 h2 => (store_of_ne m 0 (by omega)).symm, hf]
  · refine holds_of_slice ?_ ?_ hr.noNul
    · rw [← slice_congr fun j h1 h2 => (store_of_ne m 0 (by omega)).symm, hrs]
    · rw [store_of_ne _ _ (by omega), hnul]

/-! ## fields -/

/-- A list is taken apart at a separator, field by field. -/
theorem split_induction {α : Type} {motive : List α → Prop} (c : α)
    (last : ∀ f, c ∉ f → motive f)
    (sep : ∀ f r, c ∉ f → motive r → motive (f ++ c :: r)) (s : List α) : motive s := by
  by_cases hc : c ∈ s
  · obtain ⟨f, r, rfl, hf⟩ := List.eq_append_cons_of_mem hc
    exact sep f r hf (split_induction c last sep r)
  · exact last s hc
termination_by s.length
decreasing_by
  subst_vars
  simp
  omega

/-- `k` separators make `k + 1` fields. -/
theorem length_splitOn {α : Type} [DecidableEq α] (c : α) (s : List α) :
    (s.splitOn c).length = s.count c + 1 := by
  induction s using split_induction c with
  | last f hf => rw [List.splitOn_eq_singleton hf, List.count_eq_zero.mpr hf, List.length_singleton]
  | sep f r hf ih =>
      rw [List.splitOn_append_cons_self_of_not_mem hf, List.length_cons, ih, List.count_append,
        List.count_cons_self, List.count_eq_zero.mpr hf, Nat.zero_add]

/-! ## digits -/

theorem isdigit_iff : isdigit c = true ↔ 48 ≤ c.toNat ∧ c.toNat ≤ 57 := by
  simp [isdigit, UInt8.le_iff_toNat_le]

theorem isspace_of_isdigit (h : isdigit c = true) : isspace c = false := by
  rw [isdigit_iff] at h
  simp [isspace, UInt8.le_iff_toNat_le, ← UInt8.toNat_inj]
  omega

theorem toupper_of_isdigit (h : isdigit c = true) : toupper c = c := by
  rw [isdigit_iff] at h
  rw [toupper, if_neg]
  simp [UInt8.le_iff_toNat_le]
  omega

theorem takeWhile_isdigit (h : ∀ b ∈ s, isdigit b = true) : s.takeWhile isdigit = s := by
  rw [← List.append_nil s, List.takeWhile_append_of_pos h, List.takeWhile_nil]

theorem dropWhile_isspace (h : isspace c = false) (s : List UInt8) :
    (c :: s).dropWhile isspace = c :: s := by
  rw [List.dropWhile_cons, h]
  rfl

/-! ## upper case -/

theorem toupper_ne_zero (hc : c ≠ 0) : toupper c ≠ 0 := by
  rw [toupper]
  split
  next h =>
    have h1 := UInt8.le_iff_toNat_le.mp h.1
    have h2 := UInt8.le_iff_toNat_le.mp h.2
    intro h0
    have := congrArg UInt8.toNat h0
    rw [UInt8.toNat_sub_of_le _ _ (UInt8.le_iff_toNat_le.mpr (by simp at h1 ⊢; omega))] at this
    simp at h1 this
    omega
  next => exact hc

theorem Holds.strupr (h : Holds m p s) (hlimit : p + s.length < limit) :
    Holds (strupr limit m p) p (s.map toupper) := by
  obtain ⟨-, hnul⟩ := h.slice_eq
  rw [CString.strupr, h.stringAt hlimit]
  refine holds_of_slice (slice_storeAll m p _) ?_ ?_
  · rw [storeAll_of_ge _ _ (Nat.le_refl _), List.length_map, hnul]
  · simp only [List.mem_map, not_exists, not_and]
    exact fun b hb => toupper_ne_zero fun h0 => h.noNul (h0 ▸ hb)

end CString
