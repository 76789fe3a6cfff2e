import Can4vscp.ConfigTokens

/-!
# Can4vscp.ConfigParse

What `open` reads of its configuration string, and the baud rate code it takes from it.

`open` copies the string into a buffer of `PATH_MAX` bytes.  `strncpy` leaves no NUL in it
if the string is that long, and then the searches go on behind the buffer, unless enough
semicolons stop them (`reads_posix_iff`, `reads_windows_iff`).  The code of the second field
is cut to eight bits before its range is checked (`honoursCodes_iff`).
-/

namespace Can4vscp.ConfigParse

open CString Memory MemProgram ReadProgram OpenPort ConfigTokens Handshake

variable (limit : Nat) (debug : Bool)

/-! ## parsing, with what it reads -/

/-- A token and the next cursor.  Whatever is done with a token, it is read up to its NUL
at most. -/
def field (pCursor : Option Nat) : MemProgram UInt8 (List UInt8 × Option Nat) := do
  let (p, pCursor) ← scanToken limit pCursor
  match p with
  | none => pure ([], pCursor)
  | some p => do
    let s ← ofRead (readString (limit - p) p)
    pure (s, pCursor)

/-- The four tokens of `open`. -/
def parse : MemProgram UInt8 Tokens := do
  let (port, pCursor) ← field limit (some 0)
  let (baud, pCursor) ← field limit pCursor
  let (udp, pCursor) ← field limit pCursor
  let (syslog, _) ← field limit pCursor
  pure ⟨port, baud, udp, syslog⟩

/-- `spdlog::debug` of `szDrvParams`, if debug messages are on. -/
def logConfig : MemProgram UInt8 Unit :=
  if debug then do
    let _ ← ofRead (readString limit 0)
    pure ()
  else pure ()

/-- `strupr` of `szDrvParams` -/
def upperConfig : MemProgram UInt8 Unit := do
  let s ← ofRead (readString limit 0)
  writeAll 0 (s.map toupper)

/-- `open` on POSIX, from the copy of the configuration string to the last token. -/
def configPosix : MemProgram UInt8 Tokens := do
  logConfig limit debug
  parse limit

/-- The same on Windows. -/
def configWindows : MemProgram UInt8 Tokens := do
  logConfig limit debug
  upperConfig limit
  parse limit

/-! ## what is asked for -/

/-- The second field of a configuration string; a missing one is empty. -/
def secondField (s : List UInt8) : List UInt8 := (s.splitOn semicolon)[1]?.getD []

/-- Decimal integers: digits, with a sign or without. -/
inductive Decimal : List UInt8 → Int → Prop where
  | plain {digits : List UInt8} (hne : digits ≠ []) (hdigits : ∀ c ∈ digits, isdigit c = true) :
      Decimal digits (decimal digits)
  | plus {digits : List UInt8} (hne : digits ≠ []) (hdigits : ∀ c ∈ digits, isdigit c = true) :
      Decimal (43 :: digits) (decimal digits)
  | minus {digits : List UInt8} (hne : digits ≠ []) (hdigits : ∀ c ∈ digits, isdigit c = true) :
      Decimal (45 :: digits) (- decimal digits)

/-- The integer fits an `int`. -/
def FitsInt (v : Int) : Prop := -2 ^ 31 ≤ v ∧ v < 2 ^ 31

/-- A baud rate code. -/
def InRange (v : Int) : Prop := 0 ≤ v ∧ v < (SET_BAUDRATE_MAX.toNat : Int)

/-- The code of the second field is honoured. -/
structure HonoursCodes (second : List UInt8) (nBaud : UInt8) : Prop where
  inRange : ∀ v, Decimal second v → FitsInt v → InRange v → (nBaud.toNat : Int) = v
  outside : ∀ v, Decimal second v → FitsInt v → ¬ InRange v → nBaud = SET_BAUDRATE_115200
  empty : second = [] → nBaud = SET_BAUDRATE_115200

/-- Parsing is safe and honours the code range. -/
structure ParsesWell (size : Nat) (copy : Mem UInt8) (reads : List Nat) (second : List UInt8)
    (nBaud : UInt8) : Prop where
  nul : ∃ i, i < size ∧ copy i = 0
  reads : ∀ i ∈ reads, i < size
  codes : HonoursCodes second nBaud

/-- A code in the range; or one whose lowest eight bits are none, or the default. -/
def CodeKept (v : Int) : Prop :=
  InRange v ∨ v % 256 = 0 ∨ (SET_BAUDRATE_MAX.toNat : Int) ≤ v % 256

variable {limit} {debug} {m : Mem UInt8} {p n : Nat} {s f b : List UInt8}

/-! ## the tokens -/

theorem field_apply (pCursor : Option Nat) (m : Mem UInt8) :
    field limit pCursor m =
      ⟨((scanToken limit pCursor m).value.1.elim [] (stringAt limit (scanToken limit pCursor m).mem),
          (scanToken limit pCursor m).value.2),
        (scanToken limit pCursor m).mem,
        (scanToken limit pCursor m).reads ++ (scanToken limit pCursor m).value.1.elim []
          fun p => (readString (limit - p) p).trace (scanToken limit pCursor m).mem⟩ := by
  rw [field, bind_apply]
  obtain ⟨⟨p, c⟩, m', reads⟩ := scanToken limit pCursor m
  cases p with
  | none => rfl
  | some p => simp [bind_apply, run_readString]

theorem parse_value (limit : Nat) (m : Mem UInt8) : (parse limit m).value = tokens limit m := by
  simp only [parse, tokens, value_bind, field_apply, nextConfigToken_eq, pure_apply]

theorem logConfig_mem (m : Mem UInt8) : (logConfig limit debug m).mem = m := by
  cases debug <;> rfl

theorem upperConfig_mem (m : Mem UInt8) : (upperConfig limit m).mem = strupr limit m 0 := by
  rw [upperConfig, mem_bind, writeAll_apply, ofRead_apply, strupr, ← run_readString, Nat.sub_zero]

/-- These are the tokens `open` works with. -/
theorem configPosix_value (m : Mem UInt8) :
    (configPosix limit debug m).value = tokens limit m := by
  rw [configPosix, value_bind, logConfig_mem, parse_value]

theorem configWindows_value (m : Mem UInt8) :
    (configWindows limit debug m).value = tokens limit (strupr limit m 0) := by
  rw [configWindows, value_bind, value_bind, logConfig_mem, upperConfig_mem, parse_value]

/-! ## reading to the end of a string, or behind it -/

/-- `n` tokens, one after the other. -/
def fields (limit : Nat) : Nat → Option Nat → MemProgram UInt8 Unit
  | 0, _ => pure ()
  | n + 1, pCursor => do
    let (_, pCursor) ← field limit pCursor
    fields limit n pCursor

theorem parse_reads (m : Mem UInt8) :
    (parse limit m).reads = (fields limit 4 (some 0) m).reads := by
  simp [parse, fields]

theorem fields_none (n : Nat) (m : Mem UInt8) : (fields limit n none m).reads = [] := by
  induction n with
  | zero => rfl
  | succ n ih =>
      rw [fields, reads_bind, field_apply]
      exact ih

/-- Of a string that has its NUL nothing behind is read. -/
theorem fields_within (h : Holds m p s) (hlimit : p + s.length < limit) (n : Nat) :
    ∀ i ∈ (fields limit n (some p) m).reads, i ≤ p + s.length := by
  induction s using split_induction semicolon generalizing m p n with
  | last f hsep =>
      intro i hi
      cases n with
      | zero => exact absurd hi List.not_mem_nil
      | succ n =>
          rw [fields, reads_bind, field_apply, scanToken_last h hsep hlimit] at hi
          simp only [Option.elim_some, h.trace_readString hlimit, fields_none,
            List.append_nil, List.mem_append, List.mem_range'_1] at hi
          omega
  | sep f r hsep ih =>
      obtain ⟨hf, hat, -⟩ := h.parts
      obtain ⟨hfield, hrest⟩ := h.cut
      have hno : 0 ∉ f := hfield.noNul
      rw [length_sep] at hlimit ⊢
      intro i hi
      cases n with
      | zero => exact absurd hi List.not_mem_nil
      | succ n =>
          rw [fields, reads_bind, field_apply, scanToken_sep hf hat hsep hno (by omega)] at hi
          simp only [Option.elim_some, hfield.trace_readString (by omega : _ < limit),
            List.mem_append, List.mem_range'_1] at hi
          obtain hi | hi := hi
          · omega
          · exact ih hrest hlimit n i hi

/-- Of bytes without a NUL nothing behind is read as long as semicolons are left. -/
theorem fields_inside_iff (hb : slice m p b.length = b) (hno : 0 ∉ b)
    (hlimit : p + b.length < limit) (n : Nat) :
    (∀ i ∈ (fields limit n (some p) m).reads, i < p + b.length) ↔ n ≤ b.count semicolon := by
  induction b using split_induction semicolon generalizing m p n with
  | last f hsep =>
      rw [List.count_eq_zero.mpr hsep]
      cases n with
      | zero => simp [fields]
      | succ n =>
          refine iff_of_false (fun h => ?_) (by omega)
          refine Nat.lt_irrefl _ (h (p + f.length) ?_)
          rw [fields, reads_bind, field_apply]
          refine List.mem_append_left _ (List.mem_append_left _ ?_)
          rw [scanToken, reads_bind, ofRead_apply]
          exact List.mem_append_left _ (mem_trace_strchr hb hsep hno hlimit)
  | sep f r hsep ih =>
      rw [List.length_append] at hb
      obtain ⟨hf, hr⟩ := slice_eq_append m p hb
      rw [List.length_cons, slice, List.cons.injEq] at hr
      obtain ⟨hat, hr⟩ := hr
      rw [List.mem_append, List.mem_cons, not_or, not_or] at hno
      rw [length_sep] at hlimit ⊢
      have hfield : Holds (store m (p + f.length) 0) p f := by
        refine holds_of_slice ?_ (store_same _ _ _) hno.1
        rw [slice_congr fun i _ hi => store_of_ne m 0 (by omega), hf]
      have hrest : slice (store m (p + f.length) 0) (p + f.length + 1) r.length = r := by
        rw [slice_congr fun i hi _ => store_of_ne m 0 (by omega), hr]
      rw [List.count_append, List.count_cons_self, List.count_eq_zero.mpr hsep, Nat.zero_add]
      cases n with
      | zero => simp [fields]
      | succ n =>
          rw [fields, reads_bind, field_apply, scanToken_sep hf hat hsep hno.1 (by omega)]
          simp only [Option.elim_some, hfield.trace_readString (by omega : _ < limit),
            List.mem_append, List.mem_range'_1, Nat.add_le_add_iff_right,
            ← ih hrest hno.2.2 hlimit n]
          constructor
          · exact fun h i hi => h i (.inr hi)
          · rintro h i (hi | hi)
            · omega
            · exact h i hi

/-! ## the copy -/

section
variable (stack : Mem UInt8) {size : Nat}

theorem szDrvParams_short (hno : 0 ∉ s) (hlt : s.length < size) :
    Holds (szDrvParams stack size s) 0 s :=
  holds_strncpy _ hlt hno

theorem holds_upperConfig (hno : 0 ∉ s) (hlt : s.length < size) (hlimit : size ≤ limit) :
    Holds (strupr limit (szDrvParams stack size s) 0) 0 (s.map toupper) :=
  (szDrvParams_short stack hno hlt).strupr (by omega)

/-- Of a string that is too long the first bytes are copied. -/
theorem szDrvParams_long (hle : size ≤ s.length) :
    slice (szDrvParams stack size s) 0 (s.take size).length = s.take size := by
  rw [szDrvParams, strncpy, Nat.sub_eq_zero_of_le hle, List.replicate_zero, List.append_nil,
    slice_storeAll]

theorem nul_iff (hno : 0 ∉ s) :
    (∃ i, i < size ∧ szDrvParams stack size s i = 0) ↔ s.length < size := by
  constructor
  · rintro ⟨i, hi, hnul⟩
    refine Nat.lt_of_not_le fun hle => hno ?_
    have hslice := szDrvParams_long stack hle
    rw [List.length_take_of_le hle] at hslice
    have hget := getElem_slice (szDrvParams stack size s) 0 size (k := i) (by simpa using hi)
    rw [Nat.zero_add, hnul] at hget
    rw [← hget]
    refine List.mem_of_mem_take (i := size) ?_
    rw [← hslice]
    exact List.getElem_mem _
  · intro hlt
    have hnul := (szDrvParams_short stack hno hlt).slice_eq.2
    rw [Nat.zero_add] at hnul
    exact ⟨s.length, hlt, hnul⟩

/-! ## what is read of the copy -/

/-- The log and `strupr` read the whole string. -/
theorem readString_inside_iff (hno : 0 ∉ s) (hlimit : size < limit) :
    (∀ i ∈ (readString limit 0).trace (szDrvParams stack size s), i < size) ↔ s.length < size := by
  constructor
  · intro h
    refine Nat.lt_of_not_le fun hle => ?_
    have hlen := List.length_take_of_le hle
    have hno' : 0 ∉ s.take size := fun h0 => hno (List.mem_of_mem_take h0)
    have hmem := mem_trace_strchr (szDrvParams_long stack hle) hno' hno'
      (by rwa [hlen, Nat.zero_add] : 0 + (s.take size).length < limit)
    rw [hlen, Nat.zero_add, Nat.sub_zero, ← CString.trace_readString] at hmem
    exact Nat.lt_irrefl _ (h size hmem)
  · intro hlt i hi
    have htrace := (szDrvParams_short stack hno hlt).trace_readString
      (by omega : 0 + s.length < limit)
    rw [Nat.sub_zero] at htrace
    rw [htrace, List.mem_range'_1] at hi
    omega

theorem parse_inside_iff (hno : 0 ∉ s) (hlimit : size < limit) :
    (∀ i ∈ (parse limit (szDrvParams stack size s)).reads, i < size) ↔
      s.length < size ∨ 4 ≤ (s.take size).count semicolon := by
  rw [parse_reads]
  by_cases hlt : s.length < size
  · refine iff_of_true (fun i hi => ?_) (.inl hlt)
    have hle := fields_within (szDrvParams_short stack hno hlt)
      (by omega : 0 + s.length < limit) 4 i hi
    omega
  · have hle : size ≤ s.length := Nat.le_of_not_lt hlt
    have hlen := List.length_take_of_le hle
    have hno' : 0 ∉ s.take size := fun h0 => hno (List.mem_of_mem_take h0)
    have hinside := fields_inside_iff (szDrvParams_long stack hle) hno'
      (by rwa [hlen, Nat.zero_add] : 0 + (s.take size).length < limit) 4
    rw [hlen, Nat.zero_add] at hinside
    rw [hinside, or_iff_right hlt]

theorem logConfig_reads (m : Mem UInt8) :
    (logConfig limit debug m).reads = if debug then (readString limit 0).trace m else [] := by
  cases debug
  · rfl
  · simp [logConfig]

/-- **When nothing behind the copy is read**: the string is shorter than the copy; or it
has four semicolons in the part that is copied, and is not logged. -/
theorem reads_posix_iff (hno : 0 ∉ s) (hlimit : size < limit) :
    (∀ i ∈ (configPosix limit debug (szDrvParams stack size s)).reads, i < size) ↔
      s.length < size ∨ debug = false ∧ 4 ≤ (s.take size).count semicolon := by
  have hlog := readString_inside_iff stack hno hlimit
  have hparse := parse_inside_iff stack hno hlimit
  rw [configPosix, reads_bind, logConfig_mem, logConfig_reads]
  simp only [List.mem_append, or_imp, forall_and, hparse]
  cases debug with
  | false => simp
  | true =>
      simp only [if_true, hlog]
      constructor
      · exact fun h => .inl h.1
      · rintro (h | h)
        · exact ⟨h, .inl h⟩
        · cases h.1

/-- On Windows `strupr` comes first, which goes on to the next NUL. -/
theorem reads_windows_iff (hno : 0 ∉ s) (hlimit : size < limit) :
    (∀ i ∈ (configWindows limit debug (szDrvParams stack size s)).reads, i < size) ↔
      s.length < size := by
  have hread := readString_inside_iff stack hno hlimit
  rw [configWindows, reads_bind, reads_bind, logConfig_mem, logConfig_reads, upperConfig_mem]
  constructor
  · intro h
    refine hread.mp fun i hi => h i ?_
    rw [upperConfig, reads_bind, ofRead_apply]
    simp [hi]
  · intro hlt i hi
    have hupper := holds_upperConfig stack hno hlt (Nat.le_of_lt hlimit)
    simp only [List.mem_append, upperConfig, reads_bind, ofRead_apply, writeAll_apply,
      List.append_nil, parse_reads] at hi
    obtain hi | hi | hi := hi
    · split at hi
      · exact hread.mpr hlt i hi
      · exact absurd hi List.not_mem_nil
    · exact hread.mpr hlt i hi
    · have hle := fields_within hupper (by rw [List.length_map]; omega) 4 i hi
      rw [List.length_map] at hle
      omega

end

/-! ## the tokens are fields -/

/-- A token that has been read, with one more call behind it. -/
theorem elim_token (h : Holds m 0 s) (hlimit : s.length < limit) (n : Nat) :
    ((State.after limit ⟨m, some 0⟩ n).token limit).elim []
        (stringAt limit (State.after limit ⟨m, some 0⟩ (n + 1)).buffer) =
      (s.splitOn semicolon)[n]?.getD [] := by
  have htoken := token_after h (by omega : 0 + s.length < limit) (Nat.lt_succ_self n)
  rw [← htoken]
  cases (State.after limit ⟨m, some 0⟩ n).token limit <;> rfl

theorem tokens_eq (h : Holds m 0 s) (hlimit : s.length < limit) :
    tokens limit m = ⟨(s.splitOn semicolon)[0]?.getD [], (s.splitOn semicolon)[1]?.getD [],
      (s.splitOn semicolon)[2]?.getD [], (s.splitOn semicolon)[3]?.getD []⟩ := by
  rw [← elim_token h hlimit 0, ← elim_token h hlimit 1, ← elim_token h hlimit 2,
    ← elim_token h hlimit 3]
  rfl

theorem tokens_baud (h : Holds m 0 s) (hlimit : s.length < limit) :
    (tokens limit m).baud = secondField s := by
  rw [tokens_eq h hlimit]
  rfl

theorem toupper_eq_semicolon {c : UInt8} : toupper c = semicolon ↔ c = semicolon := by
  unfold toupper
  split
  next h =>
    have h1 := UInt8.le_iff_toNat_le.mp h.1
    have h2 := UInt8.le_iff_toNat_le.mp h.2
    have hsub := UInt8.toNat_sub_of_le c 32 (UInt8.le_iff_toNat_le.mpr (by simp at h1 ⊢; omega))
    rw [← UInt8.toNat_inj, ← UInt8.toNat_inj, hsub]
    simp [semicolon] at h1 h2 ⊢
    omega
  next => rfl

/-- Upper case does not move a field. -/
theorem secondField_toupper (s : List UInt8) :
    secondField (s.map toupper) = (secondField s).map toupper := by
  have hsplit : (s.map toupper).splitOn semicolon = (s.splitOn semicolon).map (List.map toupper) := by
    have hmem : ∀ f : List UInt8, semicolon ∉ f → semicolon ∉ f.map toupper := by
      intro f hf hmem
      obtain ⟨c, hc, heq⟩ := List.mem_map.mp hmem
      exact hf (toupper_eq_semicolon.mp heq ▸ hc)
    induction s using split_induction semicolon with
    | last f hf =>
        rw [List.splitOn_eq_singleton hf, List.splitOn_eq_singleton (hmem f hf)]
        rfl
    | sep f r hf ih =>
        rw [List.map_append, List.map_cons, toupper_eq_semicolon.mpr rfl,
          List.splitOn_append_cons_self_of_not_mem (hmem f hf), ih,
          List.splitOn_append_cons_self_of_not_mem hf]
        rfl
  rw [secondField, hsplit, List.getElem?_map, secondField]
  cases (s.splitOn semicolon)[1]? <;> rfl

/-- The second token of a string that fits its buffer is the second field. -/
theorem configPosix_baud {stack : Mem UInt8} (hno : 0 ∉ s) (hlt : s.length < PATH_MAX)
    (hlimit : PATH_MAX < limit) :
    (configPosix limit debug (szDrvParams stack PATH_MAX s)).value.baud = secondField s := by
  rw [configPosix_value]
  exact tokens_baud (szDrvParams_short stack hno hlt) (by omega)

theorem configWindows_baud {stack : Mem UInt8} (hno : 0 ∉ s) (hlt : s.length < MAX_PATH)
    (hlimit : MAX_PATH < limit) :
    (configWindows limit debug (szDrvParams stack MAX_PATH s)).value.baud =
      (secondField s).map toupper := by
  have hlt' : (s.map toupper).length < limit := by
    rw [List.length_map]
    omega
  rw [configWindows_value, ← secondField_toupper]
  exact tokens_baud (holds_upperConfig stack hno hlt (Nat.le_of_lt hlimit)) hlt'

variable (debug) in
/-- `open` takes its baud rate code from there. -/
theorem openPosix_nBaud {stack : Mem UInt8} {opens : Bool} {flags : UInt32} {o : Obj}
    (hrun : o.bRun = false) : (openPosix stack limit opens (some s) flags o).1.nBaud =
      baudField (configPosix limit debug (szDrvParams stack PATH_MAX s)).value.baud := by
  simp only [openPosix, Obj.begin, hrun, Bool.false_eq_true, if_false, Option.getD_some,
    configPosix_value]

variable (debug) in
theorem openWindows_nBaud {stack : Mem UInt8} {inits : Bool} {flags : UInt32} {o : Obj}
    (hrun : o.bRun = false) : (openWindows stack limit inits (some s) flags o).2.1.nBaud =
      baudField (configWindows limit debug (szDrvParams stack MAX_PATH s)).value.baud := by
  simp only [openWindows, Obj.begin, hrun, Bool.false_eq_true, if_false, Option.getD_some,
    configWindows_value]

/-! ## the code -/

/-- `atoi` reads decimal integers. -/
theorem atoi_decimal {second : List UInt8} {v : Int} (h : Decimal second v) : atoi second = v := by
  have hspace : isspace 43 = false ∧ isspace 45 = false := by decide
  cases h with
  | @plain digits hne hdigits =>
      have htake := takeWhile_isdigit hdigits
      obtain ⟨c, rest, rfl⟩ := List.exists_cons_of_ne_nil hne
      have hc := hdigits c List.mem_cons_self
      rw [atoi, number?, dropWhile_isspace (isspace_of_isdigit hc)]
      split
      next heq =>
        split at heq
        next hsign => exact absurd hc (by rw [(List.cons.inj hsign).1]; decide)
        next hsign => exact absurd hc (by rw [(List.cons.inj hsign).1]; decide)
        next =>
          cases heq
          rw [htake, if_neg hne]
          rfl
  | @plus digits hne hdigits =>
      rw [atoi, number?, dropWhile_isspace hspace.1]
      simp [takeWhile_isdigit hdigits, hne]
  | @minus digits hne hdigits =>
      rw [atoi, number?, dropWhile_isspace hspace.2]
      simp [takeWhile_isdigit hdigits, hne]

theorem Decimal.ne_nil {second : List UInt8} {v : Int} (h : Decimal second v) : second ≠ [] := by
  cases h with
  | plain hne => exact hne
  | plus | minus => exact List.cons_ne_nil _ _

/-- Upper case leaves a decimal integer as it is. -/
theorem Decimal.toupper {second : List UInt8} {v : Int} (h : Decimal second v) :
    second.map toupper = second := by
  have hmap : ∀ digits : List UInt8, (∀ c ∈ digits, isdigit c = true) →
      digits.map CString.toupper = digits :=
    fun digits h => (List.map_congr_left fun c hc => toupper_of_isdigit (h c hc)).trans
      (List.map_id _)
  cases h with
  | plain _ hdigits => exact hmap _ hdigits
  | plus _ hdigits => rw [List.map_cons, hmap _ hdigits]; rfl
  | minus _ hdigits => rw [List.map_cons, hmap _ hdigits]; rfl

theorem baudField_decimal {second : List UInt8} {v : Int} (h : Decimal second v) :
    ((baudField second).toNat : Int) = if 13 ≤ v % 256 then 0 else v % 256 := by
  rw [baudField, if_neg h.ne_nil, atoi_decimal h, baudCode]
  have hcut : ((UInt8.ofInt v).toNat : Int) = v % 256 := by
    rw [UInt8.ofInt, UInt8.toNat_ofNat']
    omega
  have hmax : UInt8.ofInt v > SET_BAUDRATE_MAX - 1 ↔ 13 ≤ v % 256 := by
    rw [← hcut, gt_iff_lt, UInt8.lt_iff_toNat_lt]
    simp [SET_BAUDRATE_MAX]
    omega
  simp only [hmax]
  split
  · rfl
  · exact hcut

/-- **Which codes are honoured**: cut to eight bits, a code outside the range may come to
lie in it. -/
theorem honoursCodes_iff {second : List UInt8} :
    HonoursCodes second (baudField second) ↔
      ∀ v, Decimal second v → FitsInt v → CodeKept v := by
  have hmax : (SET_BAUDRATE_MAX.toNat : Int) = 13 := rfl
  constructor
  · intro h v hv hfits
    by_cases hrange : InRange v
    · exact .inl hrange
    · have hcode := baudField_decimal hv
      rw [h.outside v hv hfits hrange] at hcode
      refine .inr ?_
      rw [hmax]
      split at hcode
      next hle => exact .inr hle
      next => exact .inl hcode.symm
  · intro h
    refine ⟨fun v hv _ hrange => ?_, fun v hv hfits hrange => ?_, fun hempty => ?_⟩
    · obtain ⟨hnonneg, hlt⟩ := hrange
      rw [hmax] at hlt
      rw [baudField_decimal hv, if_neg (by omega)]
      omega
    · have hkept := (h v hv hfits).resolve_left hrange
      rw [hmax] at hkept
      apply UInt8.toNat_inj.mp
      have hcode := baudField_decimal hv
      split at hcode
      next => exact Int.ofNat.inj hcode
      next hlt => exact Int.ofNat.inj (hcode.trans (hkept.resolve_right hlt))
    · rw [hempty]
      rfl

/-! ## open -/

/-- What `open` does with a string on POSIX. -/
def PosixParsesWell (stack : Mem UInt8) (limit : Nat) (debug opens : Bool) (flags : UInt32) (o : Obj)
    (s : List UInt8) : Prop :=
  ParsesWell PATH_MAX (szDrvParams stack PATH_MAX s)
    (configPosix limit debug (szDrvParams stack PATH_MAX s)).reads (secondField s)
    (openPosix stack limit opens (some s) flags o).1.nBaud

/-- And on Windows. -/
def WindowsParsesWell (stack : Mem UInt8) (limit : Nat) (debug inits : Bool) (flags : UInt32)
    (o : Obj) (s : List UInt8) : Prop :=
  ParsesWell MAX_PATH (szDrvParams stack MAX_PATH s)
    (configWindows limit debug (szDrvParams stack MAX_PATH s)).reads (secondField s)
    (openWindows stack limit inits (some s) flags o).2.1.nBaud

/-- The codes of the upper-cased field are those of the field. -/
theorem honoursCodes_toupper {second : List UInt8} :
    HonoursCodes second (baudField (second.map toupper)) ↔
      HonoursCodes second (baudField second) := by
  have hsame : ∀ v, Decimal second v →
      baudField (second.map toupper) = baudField second := fun v hv => by rw [hv.toupper]
  have hempty : second = [] → baudField (second.map toupper) = baudField second := by
    rintro rfl
    rfl
  constructor
  · intro h
    exact ⟨fun v hv => hsame v hv ▸ h.inRange v hv, fun v hv => hsame v hv ▸ h.outside v hv,
      fun hnil => hempty hnil ▸ h.empty hnil⟩
  · intro h
    exact ⟨fun v hv => (hsame v hv).symm ▸ h.inRange v hv,
      fun v hv => (hsame v hv).symm ▸ h.outside v hv, fun hnil => (hempty hnil).symm ▸ h.empty hnil⟩

/-- The copy of a short string has its NUL, and then only the codes are left to ask for. -/
theorem parsesWell_iff {size : Nat} {copy : Mem UInt8} {reads : List Nat} {second : List UInt8}
    {nBaud : UInt8} {short : Prop} (hnul : (∃ i, i < size ∧ copy i = 0) ↔ short)
    (hreads : short → ∀ i ∈ reads, i < size)
    (hcodes : short →
      (HonoursCodes second nBaud ↔ ∀ v, Decimal second v → FitsInt v → CodeKept v)) :
    ParsesWell size copy reads second nBaud ↔
      short ∧ ∀ v, Decimal second v → FitsInt v → CodeKept v := by
  constructor
  · intro h
    have hshort := hnul.mp h.nul
    exact ⟨hshort, (hcodes hshort).mp h.codes⟩
  · rintro ⟨hshort, hkept⟩
    exact ⟨hnul.mpr hshort, hreads hshort, (hcodes hshort).mpr hkept⟩

/-- **When parsing is safe and honours the code range**: if and only if the string is
shorter than the copy and its second field is no integer that becomes a code only when it
is cut to eight bits. -/
theorem config_parsed_iff (o : Obj) (hrun : o.bRun = false) (stack : Mem UInt8) (limit : Nat)
    (hlimit : PATH_MAX < limit) (debug opens : Bool) (flags : UInt32) (s : List UInt8)
    (hno : 0 ∉ s) :
    (PosixParsesWell stack limit debug opens flags o s ↔
      s.length < PATH_MAX ∧ ∀ v, Decimal (secondField s) v → FitsInt v → CodeKept v) ∧
    (WindowsParsesWell stack limit debug opens flags o s ↔
      s.length < MAX_PATH ∧ ∀ v, Decimal (secondField s) v → FitsInt v → CodeKept v) := by
  have hlimit' : MAX_PATH < limit := Nat.lt_trans (by decide) hlimit
  constructor
  · refine parsesWell_iff (nul_iff stack hno)
      (fun hlt => (reads_posix_iff stack hno hlimit).mpr (.inl hlt)) fun hlt => ?_
    rw [openPosix_nBaud debug hrun, configPosix_baud hno hlt hlimit]
    exact honoursCodes_iff
  · refine parsesWell_iff (nul_iff stack hno) (reads_windows_iff stack hno hlimit').mpr fun hlt => ?_
    rw [openWindows_nBaud debug hrun, configWindows_baud hno hlt hlimit', honoursCodes_toupper]
    exact honoursCodes_iff

/-- A code that is cut to 1. -/
def aliasing : List UInt8 := ascii "/dev/ttyUSB0;257"

theorem config_parsed_iff_aliasing :
    PosixParsesWell (fun _ => 0) 5000 false true 0 Obj.new aliasing ↔
      aliasing.length < PATH_MAX ∧
        ∀ v, Decimal (secondField aliasing) v → FitsInt v → CodeKept v :=
  (config_parsed_iff Obj.new rfl (fun _ => 0) 5000 (by decide) false true 0 aliasing (by decide)).1

/-- With code 257 the baud rate becomes that of code 1; and of a string of 4096 bytes no
NUL is in the copy, and bytes behind it are read. -/
theorem config_misparsed :
    (openPosix (fun _ => 0) 5000 true (some aliasing) 0 Obj.new).1.nBaud = 1 ∧
      ¬ PosixParsesWell (fun _ => 0) 5000 false true 0 Obj.new aliasing ∧
      (¬ ∃ i, i < PATH_MAX ∧
        szDrvParams (fun _ => 0) PATH_MAX (List.replicate PATH_MAX 97) i = 0) ∧
      ¬ ∀ i ∈ (configPosix 5000 false
        (szDrvParams (fun _ => 0) PATH_MAX (List.replicate PATH_MAX 97))).reads, i < PATH_MAX := by
  have hlong : (0 : UInt8) ∉ List.replicate PATH_MAX 97 := by simp
  have hsep : (semicolon : UInt8) ∉ List.replicate PATH_MAX 97 := by simp [semicolon]
  have hbaud : (openPosix (fun _ => 0) 5000 true (some aliasing) 0 Obj.new).1.nBaud = 1 := by
    rw [openPosix_nBaud false rfl, configPosix_baud (by decide) (by decide) (by decide)]
    decide
  refine ⟨hbaud, fun h => ?_, ?_, ?_⟩
  · have hsecond : secondField aliasing = ascii "257" := by decide
    have hdigits : ∀ c ∈ ascii "257", isdigit c = true := by
      rw [← List.all_eq_true]
      rfl
    have hdecimal : Decimal (secondField aliasing) 257 := by
      rw [hsecond]
      exact .plain (List.cons_ne_nil _ _) hdigits
    have hcode := h.codes.outside 257 hdecimal ⟨by decide, by decide⟩ (by unfold InRange; decide)
    rw [hbaud] at hcode
    cases hcode
  · rw [nul_iff _ hlong, List.length_replicate]
    exact Nat.lt_irrefl _
  · rw [reads_posix_iff _ hlong (by decide), List.length_replicate, List.take_of_length_le (by simp),
      List.count_eq_zero.mpr hsep]
    decide

end Can4vscp.ConfigParse
