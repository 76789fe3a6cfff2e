import Can4vscp.OpenPort
import Can4vscp.Lib.MemProgram
import Mathlib.Logic.Function.Iterate

/-!
# Can4vscp.ConfigTokens

Repeated calls of `nextConfigToken`.

The calls share a buffer, into which each writes at most one NUL, and a cursor.
`nextConfigToken_splits` says what they return: the fields between the semicolons, one
after the other, and then NULL.  No call reads behind the end of the string.
-/

namespace Can4vscp.ConfigTokens

open CString Memory MemProgram OpenPort

variable (limit : Nat)

/-! ## the calls -/

/-- `nextConfigToken`, with what it reads. -/
def scanToken : Option Nat → MemProgram UInt8 (Option Nat × Option Nat)
  | none => pure (none, none)
  | some pToken => do
    let pSep ← ofRead (strchr semicolon (limit - pToken) pToken)
    match pSep with
    | some pSep => do
      write pSep 0
      pure (some pToken, some (pSep + 1))
    | none => pure (some pToken, none)

/-- The buffer and the cursor. -/
structure State where
  buffer : Mem UInt8
  cursor : Option Nat

namespace State

/-- What the next call returns. -/
def token (s : State) : Option Nat := (nextConfigToken limit s.buffer s.cursor).1

/-- What the next call reads. -/
def reads (s : State) : List Nat := (scanToken limit s.cursor s.buffer).reads

/-- The buffer and the cursor after the next call. -/
def next (s : State) : State :=
  let (_, buffer, cursor) := nextConfigToken limit s.buffer s.cursor
  ⟨buffer, cursor⟩

/-- After `n` calls. -/
def after (s : State) (n : Nat) : State := (next limit)^[n] s

/-- The strings that `n` calls have returned, as they are when all are done. -/
def returned (s : State) (n : Nat) : List (List UInt8) :=
  (List.range n).filterMap fun i =>
    ((s.after limit i).token limit).map (stringAt limit (s.after limit n).buffer)

end State

/-- The calls return the fields of a string. -/
structure SplitsFields (start : State) (p : Nat) (s : List UInt8) : Prop where
  number : (s.splitOn semicolon).length = s.count semicolon + 1
  -- a token keeps its string, however many calls come behind
  tokens : ∀ n k, n < k →
    ((start.after limit n).token limit).map (stringAt limit (start.after limit k).buffer) =
      (s.splitOn semicolon)[n]?
  ended : ∀ n, s.count semicolon < n → (start.after limit n).token limit = none
  joined : ∀ n, s.count semicolon < n → [semicolon].intercalate (start.returned limit n) = s
  reads : ∀ n, ∀ i ∈ (start.after limit n).reads limit, p ≤ i ∧ i ≤ p + s.length
  changes : ∀ n, n < s.count semicolon → ∃ i, p ≤ i ∧ i < p + s.length ∧
    (start.after limit n).buffer i = semicolon ∧
    (start.after limit (n + 1)).buffer = store (start.after limit n).buffer i 0
  unchanged : ∀ n, s.count semicolon ≤ n →
    (start.after limit (n + 1)).buffer = (start.after limit n).buffer

variable {limit} {m : Mem UInt8} {p n k : Nat} {s f r : List UInt8}

/-! ## one call -/

theorem nextConfigToken_eq (limit : Nat) (m : Mem UInt8) (cursor : Option Nat) :
    nextConfigToken limit m cursor = ((scanToken limit cursor m).value.1,
      (scanToken limit cursor m).mem, (scanToken limit cursor m).value.2) := by
  cases cursor with
  | none => rfl
  | some pToken =>
      simp only [nextConfigToken, scanToken, value_bind, mem_bind, ofRead_apply]
      cases (strchr semicolon (limit - pToken) pToken).run m <;> rfl

/-- A call at a field that ends with a separator. -/
theorem scanToken_sep (hf : slice m p f.length = f) (hat : m (p + f.length) = semicolon)
    (hsep : semicolon ∉ f) (hno : 0 ∉ f) (hlimit : p + f.length < limit) :
    scanToken limit (some p) m = ⟨(some p, some (p + f.length + 1)), store m (p + f.length) 0,
      List.range' p (f.length + 1)⟩ := by
  rw [scanToken, bind_apply, ofRead_apply, strchr_found hf hat hsep hno hlimit,
    trace_strchr hf hsep hno (.inl hat) hlimit]
  simp [bind_apply]

/-- A call at the last field. -/
theorem scanToken_last (h : Holds m p f) (hsep : semicolon ∉ f) (hlimit : p + f.length < limit) :
    scanToken limit (some p) m = ⟨(some p, none), m, List.range' p (f.length + 1)⟩ := by
  obtain ⟨hf, hnul⟩ := h.slice_eq
  rw [scanToken, bind_apply, ofRead_apply, h.strchr_absent hsep (by decide) hlimit,
    trace_strchr hf hsep h.noNul (.inr hnul) hlimit]
  simp

namespace State

theorem token_eq (st : State) : st.token limit = (scanToken limit st.cursor st.buffer).value.1 := by
  rw [token, nextConfigToken_eq]

theorem next_eq (st : State) : st.next limit = ⟨(scanToken limit st.cursor st.buffer).mem,
    (scanToken limit st.cursor st.buffer).value.2⟩ := by
  rw [next, nextConfigToken_eq]

@[simp] theorem after_zero (st : State) : st.after limit 0 = st := rfl

theorem after_succ (limit : Nat) (st : State) (n : Nat) : st.after limit (n + 1) = (st.next limit).after limit n :=
  rfl

/-- When the cursor is NULL nothing happens any more. -/
theorem after_ended (m : Mem UInt8) (n : Nat) : after limit ⟨m, none⟩ n = ⟨m, none⟩ :=
  Function.iterate_fixed rfl n

/-- A field that ends with a separator: the separator becomes its NUL. -/
theorem at_sep (h : Holds m p (f ++ semicolon :: r)) (hsep : semicolon ∉ f)
    (hlimit : p + (f ++ semicolon :: r).length < limit) :
    token limit ⟨m, some p⟩ = some p ∧ reads limit ⟨m, some p⟩ = List.range' p (f.length + 1) ∧
      next limit ⟨m, some p⟩ = ⟨store m (p + f.length) 0, some (p + f.length + 1)⟩ := by
  obtain ⟨hf, hat, -⟩ := h.parts
  have hno : 0 ∉ f := fun h0 => h.noNul (List.mem_append_left _ h0)
  have hlimit' : p + f.length < limit := by
    rw [List.length_append] at hlimit
    omega
  have hscan := scanToken_sep hf hat hsep hno hlimit'
  refine ⟨?_, ?_, ?_⟩
  · rw [token_eq, hscan]
  · rw [reads, hscan]
  · rw [next_eq, hscan]

/-- The last field. -/
theorem at_last (h : Holds m p f) (hsep : semicolon ∉ f) (hlimit : p + f.length < limit) :
    token limit ⟨m, some p⟩ = some p ∧ reads limit ⟨m, some p⟩ = List.range' p (f.length + 1) ∧
      next limit ⟨m, some p⟩ = ⟨m, none⟩ := by
  have hscan := scanToken_last h hsep hlimit
  refine ⟨?_, ?_, ?_⟩
  · rw [token_eq, hscan]
  · rw [reads, hscan]
  · rw [next_eq, hscan]

end State

/-! ## all calls -/

open State

theorem length_sep (p : Nat) (f r : List UInt8) :
    p + (f ++ semicolon :: r).length = p + f.length + 1 + r.length := by
  rw [List.length_append, List.length_cons]
  omega

/-- A call reads nothing behind the string. -/
theorem reads_after (h : Holds m p s) (hlimit : p + s.length < limit) (n : Nat) :
    ∀ i ∈ (after limit ⟨m, some p⟩ n).reads limit, p ≤ i ∧ i ≤ p + s.length := by
  induction s using split_induction semicolon generalizing m p n with
  | last f hsep =>
      obtain ⟨-, hreads, hnext⟩ := at_last h hsep hlimit
      intro i hi
      cases n with
      | zero =>
          rw [after_zero, hreads, List.mem_range'_1] at hi
          omega
      | succ n =>
          rw [after_succ, hnext, after_ended] at hi
          exact absurd hi List.not_mem_nil
  | sep f r hsep ih =>
      obtain ⟨-, hreads, hnext⟩ := at_sep h hsep hlimit
      rw [length_sep] at hlimit ⊢
      intro i hi
      cases n with
      | zero =>
          rw [after_zero, hreads, List.mem_range'_1] at hi
          omega
      | succ n =>
          rw [after_succ, hnext] at hi
          have hrest := ih h.cut.2 hlimit n i hi
          omega

/-- A call that finds a separator makes it a NUL. -/
theorem changes_after (h : Holds m p s) (hlimit : p + s.length < limit)
    (hn : n < s.count semicolon) :
    ∃ i, p ≤ i ∧ i < p + s.length ∧ (after limit ⟨m, some p⟩ n).buffer i = semicolon ∧
      (after limit ⟨m, some p⟩ (n + 1)).buffer =
        store (after limit ⟨m, some p⟩ n).buffer i 0 := by
  induction s using split_induction semicolon generalizing m p n with
  | last f hsep => simp [List.count_eq_zero.mpr hsep] at hn
  | sep f r hsep ih =>
      obtain ⟨-, -, hnext⟩ := at_sep h hsep hlimit
      rw [length_sep] at hlimit ⊢
      rw [after_succ, hnext]
      cases n with
      | zero => exact ⟨p + f.length, by omega, by omega, h.parts.2.1, rfl⟩
      | succ n =>
          rw [List.count_append, List.count_cons_self, List.count_eq_zero.mpr hsep] at hn
          obtain ⟨i, hle, hlt, hat, hstore⟩ := ih h.cut.2 hlimit (n := n) (by omega)
          rw [after_succ, hnext]
          exact ⟨i, by omega, hlt, hat, hstore⟩

/-- The others change nothing. -/
theorem unchanged_after (h : Holds m p s) (hlimit : p + s.length < limit)
    (hn : s.count semicolon ≤ n) :
    (after limit ⟨m, some p⟩ (n + 1)).buffer = (after limit ⟨m, some p⟩ n).buffer := by
  induction s using split_induction semicolon generalizing m p n with
  | last f hsep =>
      obtain ⟨-, -, hnext⟩ := at_last h hsep hlimit
      rw [after_succ, hnext, after_ended]
      cases n with
      | zero => rfl
      | succ n => rw [after_succ, hnext, after_ended]
  | sep f r hsep ih =>
      obtain ⟨-, -, hnext⟩ := at_sep h hsep hlimit
      rw [length_sep] at hlimit
      rw [List.count_append, List.count_cons_self, List.count_eq_zero.mpr hsep] at hn
      obtain ⟨n, rfl⟩ : ∃ n', n = n' + 1 := ⟨n - 1, by omega⟩
      rw [after_succ limit ⟨m, some p⟩ (n + 1), after_succ limit ⟨m, some p⟩ n, hnext]
      exact ih h.cut.2 hlimit (by omega)

/-- What stands before the string or behind it stays as it is. -/
theorem after_frame (h : Holds m p s) (hlimit : p + s.length < limit) (n : Nat) {i : Nat}
    (hi : i < p ∨ p + s.length ≤ i) : (after limit ⟨m, some p⟩ n).buffer i = m i := by
  induction n with
  | zero => rfl
  | succ n ih =>
      by_cases hn : n < s.count semicolon
      · obtain ⟨j, hle, hlt, -, hstore⟩ := changes_after h hlimit hn
        rw [hstore, store_of_ne _ _ (by omega), ih]
      · rw [unchanged_after h hlimit (Nat.le_of_not_lt hn), ih]

/-- **A token is a field**, also after later calls. -/
theorem token_after (h : Holds m p s) (hlimit : p + s.length < limit) (hnk : n < k) :
    ((after limit ⟨m, some p⟩ n).token limit).map
        (stringAt limit (after limit ⟨m, some p⟩ k).buffer) = (s.splitOn semicolon)[n]? := by
  obtain ⟨k, rfl⟩ : ∃ k', k = k' + 1 := ⟨k - 1, by omega⟩
  induction s using split_induction semicolon generalizing m p n k with
  | last f hsep =>
      obtain ⟨htoken, -, hnext⟩ := at_last h hsep hlimit
      rw [after_succ, hnext, after_ended, List.splitOn_eq_singleton hsep]
      cases n with
      | zero =>
          rw [after_zero, htoken, Option.map_some, h.stringAt hlimit]
          rfl
      | succ n =>
          rw [after_succ, hnext, after_ended]
          rfl
  | sep f r hsep ih =>
      obtain ⟨htoken, -, hnext⟩ := at_sep h hsep hlimit
      obtain ⟨hfield, hrest⟩ := h.cut
      rw [length_sep] at hlimit
      rw [after_succ, hnext, List.splitOn_append_cons_self_of_not_mem hsep]
      cases n with
      | zero =>
          have hkept := hfield.congr fun i _ hi =>
            after_frame hrest hlimit k (i := i) (.inl (by omega))
          rw [after_zero, htoken, Option.map_some, hkept.stringAt (by omega)]
          rfl
      | succ n =>
          obtain ⟨k, rfl⟩ : ∃ k', k = k' + 1 := ⟨k - 1, by omega⟩
          rw [after_succ limit ⟨m, some p⟩ n, hnext]
          exact ih hrest hlimit k (by omega)

/-- The tokens of the first calls are the first fields. -/
theorem returned_eq (h : Holds m p s) (hlimit : p + s.length < limit) (n : Nat) :
    returned limit ⟨m, some p⟩ n = (s.splitOn semicolon).take n := by
  have hfields : ∀ k, (List.range k).filterMap (fun i => (s.splitOn semicolon)[i]?) =
      (s.splitOn semicolon).take k := by
    intro k
    induction k with
    | zero => rfl
    | succ k ih =>
        rw [List.range_succ, List.filterMap_append, ih, List.take_add_one]
        cases hfield : (s.splitOn semicolon)[k]? <;> simp [hfield]
  rw [returned, ← hfields]
  refine List.filterMap_congr fun i hi => ?_
  exact token_after h hlimit (List.mem_range.mp hi)

/-- **`nextConfigToken` splits a string at its semicolons.** -/
theorem nextConfigToken_splits (h : Holds m p s) (hlimit : p + s.length < limit) :
    SplitsFields limit ⟨m, some p⟩ p s where
  number := length_splitOn semicolon s
  tokens _ _ hnk := token_after h hlimit hnk
  ended n hn := by
    have htoken := token_after h hlimit (Nat.lt_succ_self n)
    rw [List.getElem?_eq_none (by rw [length_splitOn]; omega)] at htoken
    exact Option.map_eq_none_iff.mp htoken
  joined n hn := by
    rw [returned_eq h hlimit, List.take_of_length_le (by rw [length_splitOn]; omega),
      List.intercalate_splitOn]
  reads := reads_after h hlimit
  changes _ hn := changes_after h hlimit hn
  unchanged _ hn := unchanged_after h hlimit hn

/-- The second field is empty, and the last one. -/
theorem nextConfigToken_splits_empty :
    SplitsFields PATH_MAX ⟨strncpy (fun _ => 7) (ascii "COM1;;debug;") 16, some 0⟩ 0
      (ascii "COM1;;debug;") :=
  nextConfigToken_splits (holds_strncpy _ (by decide) (by decide)) (by decide)

end Can4vscp.ConfigTokens
