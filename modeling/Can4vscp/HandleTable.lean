import Can4vscp.Driver
import Can4vscp.Lib.SlotTable

/-!
# Can4vscp.HandleTable

The table of open drivers (`addDriverObject`, `getDriverObject`,
`removeDriverObject`; the code is the same in `Ccan4vscpApp` and in `CDllDrvObj`).

A handle is a slot number plus 1681.  `handleTable_correct` says, for every history
of calls, that a handle finds the object it was handed out for until it is taken
back, and that handles do not disturb each other.  `unload_iff` says for which tables the
destructors do what they should.

An object is named by its pointer; `α` are the pointers other than NULL.
-/

namespace Can4vscp

open SlotTable

def CANAL_CAN4VSCP_DRIVER_MAX_OPEN : Nat := 256

/-- `long h` -/
abbrev Handle := Int64

variable {α : Type}

/-- `m_socketcanArray`, `m_drvObjArray` -/
abbrev DriverTable (α : Type) := Slots CANAL_CAN4VSCP_DRIVER_MAX_OPEN α

/-- The table as it is constructed. -/
def DriverTable.new : DriverTable α := fun _ => none

/-! ## the operations -/

/-- `h = i + 1681` -/
def handleOf (i : Fin CANAL_CAN4VSCP_DRIVER_MAX_OPEN) : Handle := Int64.ofNat i.val + 1681

/-- `idx = h - 1681`, if it is an index into the table. -/
def indexOf (h : Handle) : Option (Fin CANAL_CAN4VSCP_DRIVER_MAX_OPEN) :=
  let idx := h - 1681
  if idx < 0 then none
  else if idx ≥ 256 then none
  else some (Fin.ofNat 256 idx.toNatClampNeg)

/-- `addDriverObject` -/
def addDriverObject (t : DriverTable α) (obj : α) : DriverTable α × Handle :=
  match firstFree t with
  | some i => (Function.update t i (some obj), handleOf i)
  | none => (t, 0)

/-- `getDriverObject` -/
def getDriverObject (t : DriverTable α) (h : Handle) : Option α :=
  match indexOf h with
  | some i => t i
  | none => none

/-- `removeDriverObject`: the table, and the object that is deleted. -/
def removeDriverObject (t : DriverTable α) (h : Handle) : DriverTable α × Option α :=
  match indexOf h with
  | some i => (Function.update t i none, t i)
  | none => (t, none)

/-- `CanalOpen` with a new object that `open` returns `rv` for. -/
def canalOpen (t : DriverTable α) (obj : α) (rv : CanalError) : DriverTable α × Handle :=
  if rv = .success then addDriverObject t obj else (t, 0)

/-- `CanalClose`: the table, and the object that is deleted. -/
def canalClose (t : DriverTable α) (h : Handle) : DriverTable α × Option α :=
  match getDriverObject t h with
  | some _ => removeDriverObject t h
  | none => (t, none)

/-- Every other call on a handle: what a method of its object returns, or nothing if
there is no object; the call returns 0 then. -/
def canalCall {β : Type} (t : DriverTable α) (h : Handle) (method : α → β) : Option β :=
  (getDriverObject t h).map method

/-! ## handles and indices -/

theorem indexOf_handleOf (i : Fin CANAL_CAN4VSCP_DRIVER_MAX_OPEN) : indexOf (handleOf i) = some i := by
  have hsub : handleOf i - 1681 = Int64.ofNat i.val := by simp [handleOf]
  have hi : i.val < 256 := i.isLt
  have hint : (Int64.ofNat i.val).toInt = i.val := Int64.toInt_ofNat_of_lt (by omega)
  have hneg : ¬ Int64.ofNat i.val < 0 := by
    rw [Int64.lt_iff_toInt_lt, hint]
    simp
  have hbig : ¬ Int64.ofNat i.val ≥ 256 := by
    rw [ge_iff_le, Int64.le_iff_toInt_le, hint]
    simp
    omega
  simp only [indexOf, hsub, if_neg hneg, if_neg hbig]
  rw [Int64.toNatClampNeg, hint, Int.toNat_natCast]
  exact congrArg some (Fin.ext (Nat.mod_eq_of_lt hi))

theorem handleOf_indexOf {h : Handle} {i : Fin CANAL_CAN4VSCP_DRIVER_MAX_OPEN}
    (hi : indexOf h = some i) : handleOf i = h := by
  simp only [indexOf] at hi
  split at hi
  · cases hi
  · next hneg =>
      split at hi
      · cases hi
      · next hbig =>
          cases hi
          rw [Int64.lt_iff_toInt_lt, Int64.toInt_zero] at hneg
          rw [ge_iff_le, Int64.le_iff_toInt_le] at hbig
          have h256 : (256 : Int64).toInt = 256 := rfl
          have hlt : (h - 1681).toNatClampNeg < 256 := by
            rw [← Int64.toNat_toInt]
            omega
          have hsub : Int64.ofNat (h - 1681).toNatClampNeg = h - 1681 := by
            rw [← Int64.toInt_inj, Int64.toInt_ofNat_of_lt (by omega), ← Int64.toNat_toInt]
            omega
          change Int64.ofNat ((h - 1681).toNatClampNeg % 256) + 1681 = h
          rw [Nat.mod_eq_of_lt hlt, hsub, Int64.sub_add_cancel]

theorem handleOf_injective : Function.Injective handleOf := by
  intro i j h
  have := congrArg indexOf h
  rw [indexOf_handleOf, indexOf_handleOf] at this
  exact Option.some.inj this

theorem handleOf_ne_zero (i : Fin CANAL_CAN4VSCP_DRIVER_MAX_OPEN) : handleOf i ≠ 0 := by
  intro h
  have hindex := indexOf_handleOf i
  have hzero : indexOf 0 = none := by decide
  rw [h, hzero] at hindex
  cases hindex

/-! ## the table as a lookup function -/

section
variable {t : DriverTable α} {obj : α}

theorem getDriverObject_handleOf (t : DriverTable α) (i : Fin CANAL_CAN4VSCP_DRIVER_MAX_OPEN) :
    getDriverObject t (handleOf i) = t i := by
  rw [getDriverObject, indexOf_handleOf]

theorem exists_handleOf {h : Handle} (hget : getDriverObject t h = some obj) : ∃ i, handleOf i = h := by
  unfold getDriverObject at hget
  split at hget
  · next i hindex => exact ⟨i, handleOf_indexOf hindex⟩
  · cases hget

/-- A slot changes what its handle finds, and nothing else. -/
theorem getDriverObject_update (t : DriverTable α) (i : Fin CANAL_CAN4VSCP_DRIVER_MAX_OPEN)
    (o : Option α) :
    getDriverObject (Function.update t i o) = Function.update (getDriverObject t) (handleOf i) o := by
  funext h
  by_cases hh : h = handleOf i
  · rw [hh, getDriverObject_handleOf, Function.update_self, Function.update_self]
  · rw [Function.update_of_ne hh, getDriverObject, getDriverObject]
    split
    · next j hj =>
        have hne : j ≠ i := fun hij => hh (by rw [← handleOf_indexOf hj, hij])
        rw [Function.update_of_ne hne]
    · rfl

/-- A new object gets a free handle, unless there is none. -/
theorem addDriverObject_cases (t : DriverTable α) (obj : α) :
    (addDriverObject t obj = (t, 0) ∧ (occupied t).length = CANAL_CAN4VSCP_DRIVER_MAX_OPEN) ∨
      ∃ h, (addDriverObject t obj).2 = h ∧ h ≠ 0 ∧ getDriverObject t h = none ∧
        getDriverObject (addDriverObject t obj).1 =
          Function.update (getDriverObject t) h (some obj) ∧
        (occupied t).length ≠ CANAL_CAN4VSCP_DRIVER_MAX_OPEN := by
  unfold addDriverObject
  cases hfree : firstFree t with
  | none => exact .inl ⟨rfl, firstFree_eq_none_iff.mp hfree⟩
  | some i =>
      have hroom : (occupied t).length ≠ CANAL_CAN4VSCP_DRIVER_MAX_OPEN := by
        intro hfull
        rw [firstFree_eq_none_iff.mpr hfull] at hfree
        cases hfree
      refine .inr ⟨handleOf i, rfl, handleOf_ne_zero i, ?_, getDriverObject_update t i (some obj),
        hroom⟩
      rw [getDriverObject_handleOf, firstFree_spec hfree]

/-- A handle that is taken back finds nothing, whether or not it was valid. -/
theorem getDriverObject_remove (t : DriverTable α) (h : Handle) :
    getDriverObject (removeDriverObject t h).1 = Function.update (getDriverObject t) h none := by
  unfold removeDriverObject
  cases hindex : indexOf h with
  | none =>
      have hnone : getDriverObject t h = none := by rw [getDriverObject, hindex]
      rw [← hnone, Function.update_eq_self]
  | some i =>
      rw [← handleOf_indexOf hindex]
      exact getDriverObject_update t i none

/-- Closing a handle takes it back. -/
theorem canalClose_fst (t : DriverTable α) (h : Handle) :
    getDriverObject (canalClose t h).1 = Function.update (getDriverObject t) h none := by
  unfold canalClose
  cases hobj : getDriverObject t h with
  | some obj => exact getDriverObject_remove t h
  | none =>
      have hsame := Function.update_eq_self h (getDriverObject t)
      rw [hobj] at hsame
      exact hsame.symm

/-- As many handles are live as slots are in use. -/
theorem length_live {log : List (Event Handle α)} (h : Shows (getDriverObject t) log) :
    (live log).length = (occupied t).length := by
  have hperm : ((live log).map Prod.fst).Perm ((occupied t).map handleOf) := by
    rw [List.perm_ext_iff_of_nodup h.nodup
      ((List.nodup_map_iff handleOf_injective).mpr (nodup_occupied t))]
    intro k
    rw [h.mem_keys, List.mem_map]
    constructor
    · intro hk
      unfold getDriverObject at hk
      split at hk
      · next i hi => exact ⟨i, mem_occupied.mpr hk, handleOf_indexOf hi⟩
      · cases hk
    · rintro ⟨i, hi, rfl⟩
      rw [getDriverObject_handleOf]
      exact mem_occupied.mp hi
  simpa using hperm.length_eq

end

/-! ## histories -/

/-- A call on the table, or of the API. -/
inductive TableCall (α : Type) where
  | addDriverObject (obj : α)
  | getDriverObject (h : Handle)
  | removeDriverObject (h : Handle)
  | canalOpen (obj : α) (rv : CanalError)
  | canalClose (h : Handle)
  | canalCall (h : Handle)
  deriving DecidableEq

/-- The log of the handles given out, after one that may be 0. -/
def logAdded (log : List (Event Handle α)) (h : Handle) (obj : α) : List (Event Handle α) :=
  if h = 0 then log else log ++ [.added h obj]

/-- The table after a call, and the log of the handles given out and taken back. -/
def tableStep (s : DriverTable α × List (Event Handle α)) :
    TableCall α → DriverTable α × List (Event Handle α)
  | .addDriverObject obj =>
    let (t, h) := addDriverObject s.1 obj
    (t, logAdded s.2 h obj)
  | .getDriverObject _ => s
  | .removeDriverObject h => ((removeDriverObject s.1 h).1, s.2 ++ [.removed h])
  | .canalOpen obj rv =>
    let (t, h) := canalOpen s.1 obj rv
    (t, logAdded s.2 h obj)
  | .canalClose h => ((canalClose s.1 h).1, s.2 ++ [.removed h])
  | .canalCall _ => s

/-- What a call does to the table: it adds an object, takes a handle back, or
nothing. -/
theorem tableStep_cases (s : DriverTable α × List (Event Handle α)) (c : TableCall α) :
    (∃ obj, (c = .addDriverObject obj ∨ c = .canalOpen obj .success) ∧
      tableStep s c = ((addDriverObject s.1 obj).1, logAdded s.2 (addDriverObject s.1 obj).2 obj)) ∨
    (∃ h, getDriverObject (tableStep s c).1 = Function.update (getDriverObject s.1) h none ∧
      (tableStep s c).2 = s.2 ++ [.removed h]) ∨
    tableStep s c = s := by
  cases c with
  | addDriverObject obj => exact .inl ⟨obj, .inl rfl, rfl⟩
  | getDriverObject h => exact .inr (.inr rfl)
  | removeDriverObject h => exact .inr (.inl ⟨h, getDriverObject_remove s.1 h, rfl⟩)
  | canalOpen obj rv =>
      by_cases hrv : rv = .success
      · subst hrv
        exact .inl ⟨obj, .inr rfl, rfl⟩
      · refine .inr (.inr ?_)
        simp [tableStep, canalOpen, hrv, logAdded]
  | canalClose h => exact .inr (.inl ⟨h, canalClose_fst s.1 h, rfl⟩)
  | canalCall h => exact .inr (.inr rfl)

/-- A call keeps the table in agreement with the log. -/
theorem Shows.tableStep {s : DriverTable α × List (Event Handle α)}
    (hs : Shows (getDriverObject s.1) s.2) (c : TableCall α) :
    Shows (getDriverObject (tableStep s c).1) (tableStep s c).2 := by
  rcases tableStep_cases s c with ⟨obj, -, heq⟩ | ⟨h, hget, hlog⟩ | heq
  · rw [heq]
    rcases addDriverObject_cases s.1 obj with ⟨hfull, -⟩ | ⟨h, hh, hne, hfree, hget, -⟩
    · rw [hfull, logAdded, if_pos rfl]
      exact hs
    · rw [hh, logAdded, if_neg hne, hget]
      exact hs.add hfree obj
  · rw [hget, hlog]
    exact hs.remove h
  · rw [heq]
    exact hs

theorem shows_foldl {s : DriverTable α × List (Event Handle α)}
    (hs : Shows (getDriverObject s.1) s.2) (calls : List (TableCall α)) :
    Shows (getDriverObject (calls.foldl Can4vscp.tableStep s).1)
      (calls.foldl Can4vscp.tableStep s).2 := by
  induction calls generalizing s with
  | nil => exact hs
  | cons c calls ih => exact ih (Shows.tableStep hs c)

/-- After every history of calls the table shows what the log says. -/
theorem shows_calls (calls : List (TableCall α)) :
    Shows (getDriverObject (calls.foldl Can4vscp.tableStep (DriverTable.new, [])).1)
      (calls.foldl Can4vscp.tableStep ((DriverTable.new : DriverTable α), [])).2 := by
  have hnew : getDriverObject (DriverTable.new : DriverTable α) = fun _ => none := by
    funext h
    rw [getDriverObject]
    split <;> rfl
  exact shows_foldl (by simpa [hnew] using shows_nil) calls

/-- A call hands out a handle. -/
def HandsOut (t : DriverTable α) (c : TableCall α) (h : Handle) : Prop :=
  ∃ obj, (c = .addDriverObject obj ∨ c = .canalOpen obj .success) ∧ (addDriverObject t obj).2 = h

/-- A handle that finds nothing finds nothing until it is handed out. -/
theorem getDriverObject_foldl_none {h : Handle} (calls : List (TableCall α))
    {s : DriverTable α × List (Event Handle α)} (hnone : getDriverObject s.1 h = none)
    (hout : ∀ before c after, calls = before ++ c :: after →
      ¬ HandsOut (before.foldl tableStep s).1 c h) :
    getDriverObject (calls.foldl tableStep s).1 h = none := by
  induction calls generalizing s with
  | nil => exact hnone
  | cons c calls ih =>
      have hrest : ∀ before c' after, calls = before ++ c' :: after →
          ¬ HandsOut (before.foldl tableStep (tableStep s c)).1 c' h := by
        rintro before c' after rfl
        exact hout (c :: before) c' after rfl
      refine ih ?_ hrest
      have hnot : ¬ HandsOut s.1 c h := hout [] c calls rfl
      rcases tableStep_cases s c with ⟨obj, hc, heq⟩ | ⟨k, hget, -⟩ | heq
      · rw [heq]
        rcases addDriverObject_cases s.1 obj with ⟨hfull, -⟩ | ⟨k, hk, -, -, hget, -⟩
        · rw [hfull]
          exact hnone
        · have hne : h ≠ k := fun hhk => hnot ⟨obj, hc, hk.trans hhk.symm⟩
          rw [hget, Function.update_of_ne hne]
          exact hnone
      · rw [hget]
        by_cases hk : h = k
        · rw [hk, Function.update_self]
        · rw [Function.update_of_ne hk]
          exact hnone
      · rw [heq]
        exact hnone

/-- What is to be seen of the table, given the log of the handles given out and
taken back. -/
structure TableCorrect (t : DriverTable α) (log : List (Event Handle α)) : Prop where
  -- a handle finds the object it was given out for and not taken back since
  get_iff : ∀ h obj, getDriverObject t h = some obj ↔
    ∃ before after, log = before ++ .added h obj :: after ∧ takenBack h after = false
  distinct : ((live log).map Prod.fst).Nodup
  nonzero : ∀ e ∈ live log, e.1 ≠ 0
  -- an object is refused exactly when the table is full
  refused_iff : ∀ obj, (addDriverObject t obj).2 = 0 ↔
    (live log).length = CANAL_CAN4VSCP_DRIVER_MAX_OPEN
  refused : ∀ obj, (addDriverObject t obj).2 = 0 → (addDriverObject t obj).1 = t
  -- handles do not disturb each other
  add_frame : ∀ obj h, h ≠ (addDriverObject t obj).2 →
    getDriverObject (addDriverObject t obj).1 h = getDriverObject t h
  remove_frame : ∀ h k, k ≠ h → getDriverObject (removeDriverObject t h).1 k = getDriverObject t k
  -- a closed handle reaches no object until it is given out again
  closed : ∀ h (calls : List (TableCall α)),
    (∀ before c after, calls = before ++ c :: after →
      ¬ HandsOut (before.foldl tableStep ((canalClose t h).1, log)).1 c h) →
    let u := (calls.foldl tableStep ((canalClose t h).1, log)).1
    (∀ {β : Type} (method : α → β), canalCall u h method = none) ∧ canalClose u h = (u, none)

/-- **The handle table is correct**, after every history of calls. -/
theorem handleTable_correct (calls : List (TableCall α)) :
    TableCorrect (calls.foldl tableStep (DriverTable.new, [])).1
      (calls.foldl tableStep (DriverTable.new, [])).2 := by
  have hshows := shows_calls calls
  generalize calls.foldl tableStep (DriverTable.new, []) = s at hshows ⊢
  exact {
    get_iff := fun h obj => (hshows.get_iff h obj).trans mem_live_iff
    distinct := hshows.nodup
    nonzero := by
      rintro ⟨h, obj⟩ hmem rfl
      have hzero : indexOf 0 = none := by decide
      have hget := (hshows.get_iff 0 obj).mpr hmem
      rw [getDriverObject, hzero] at hget
      cases hget
    refused_iff := fun obj => by
      rw [length_live hshows]
      rcases addDriverObject_cases s.1 obj with ⟨hfull, hlen⟩ | ⟨h, hh, hne, -, -, hlen⟩
      · exact iff_of_true (by rw [hfull]) hlen
      · exact iff_of_false (hh ▸ hne) hlen
    refused := fun obj hzero => by
      rcases addDriverObject_cases s.1 obj with ⟨hfull, -⟩ | ⟨h, hh, hne, -⟩
      · rw [hfull]
      · exact absurd (hh ▸ hzero) hne
    add_frame := fun obj h hne => by
      rcases addDriverObject_cases s.1 obj with ⟨hfull, -⟩ | ⟨k, hk, -, -, hget, -⟩
      · rw [hfull]
      · rw [hget, Function.update_of_ne (hk ▸ hne)]
    remove_frame := fun h k hne => by rw [getDriverObject_remove, Function.update_of_ne hne]
    closed := fun h calls hout => by
      have hnone : getDriverObject (canalClose s.1 h).1 h = none := by
        rw [canalClose_fst, Function.update_self]
      have hafter := getDriverObject_foldl_none calls (s := ((canalClose s.1 h).1, s.2)) hnone hout
      refine ⟨fun method => ?_, ?_⟩
      · rw [canalCall, hafter, Option.map_none]
      · rw [canalClose, hafter] }

/-! ## unloading -/

/-- What a destructor does to an object. -/
inductive UnloadCall (α : Type) where
  | close (obj : α)
  | delete (obj : α)
  deriving DecidableEq, Repr

/-- One pass of the loop, at slot `i`: the table, and the calls so far. -/
def unloadSlot (s : DriverTable α × List (UnloadCall α)) (i : Fin CANAL_CAN4VSCP_DRIVER_MAX_OPEN) :
    DriverTable α × List (UnloadCall α) :=
  match s.1 i with
  | none => s
  | some obj =>
    -- the slot number is handed to getDriverObject as it is
    match getDriverObject s.1 (Int64.ofNat i.val) with
    | none => s
    | some pdrvObj => (Function.update s.1 i none, s.2 ++ [.close pdrvObj, .delete obj])

/-- `~Ccan4vscpApp`, `~CDllDrvObj` -/
def unload (t : DriverTable α) : DriverTable α × List (UnloadCall α) :=
  (List.finRange CANAL_CAN4VSCP_DRIVER_MAX_OPEN).foldl unloadSlot (t, [])

/-- Every object of the table is closed once and deleted once, and no slot is left in
use. -/
structure ClosesAll [DecidableEq α] (t : DriverTable α)
    (r : DriverTable α × List (UnloadCall α)) : Prop where
  closed : ∀ i obj, t i = some obj → r.2.count (.close obj) = 1
  deleted : ∀ i obj, t i = some obj → r.2.count (.delete obj) = 1
  cleared : ∀ i, r.1 i = none

/-- No slot number is a handle. -/
theorem indexOf_slot (i : Fin CANAL_CAN4VSCP_DRIVER_MAX_OPEN) : indexOf (Int64.ofNat i.val) = none := by
  cases hindex : indexOf (Int64.ofNat i.val) with
  | none => rfl
  | some j =>
      have hi : i.val < 256 := i.isLt
      have hj : j.val < 256 := j.isLt
      have hhandle : handleOf j = Int64.ofNat (j.val + 1681) := by
        rw [Int64.ofNat_add]
        rfl
      have heq := congrArg Int64.toInt (handleOf_indexOf hindex)
      rw [hhandle, Int64.toInt_ofNat_of_lt (by omega), Int64.toInt_ofNat_of_lt (by omega)] at heq
      omega

theorem unloadSlot_eq (s : DriverTable α × List (UnloadCall α))
    (i : Fin CANAL_CAN4VSCP_DRIVER_MAX_OPEN) : unloadSlot s i = s := by
  have hnone : getDriverObject s.1 (Int64.ofNat i.val) = none := by
    rw [getDriverObject, indexOf_slot]
  unfold unloadSlot
  rw [hnone]
  split <;> rfl

/-- The destructor finds none of the objects. -/
theorem unload_eq (t : DriverTable α) : unload t = (t, []) := by
  have hloop : ∀ slots : List (Fin CANAL_CAN4VSCP_DRIVER_MAX_OPEN),
      slots.foldl unloadSlot (t, []) = (t, []) := by
    intro slots
    induction slots with
    | nil => rfl
    | cons i slots ih => rw [List.foldl_cons, unloadSlot_eq, ih]
  exact hloop _

/-- **When unloading closes everything**: after a history of calls, the destructor closes
and deletes every object and leaves every slot empty if and only if every handle has been
taken back before. -/
theorem unload_iff [DecidableEq α] (calls : List (TableCall α)) :
    ClosesAll (calls.foldl tableStep (DriverTable.new, [])).1
        (unload (calls.foldl tableStep (DriverTable.new, [])).1) ↔
      live (calls.foldl tableStep ((DriverTable.new : DriverTable α), [])).2 = [] := by
  have hlength := length_live (shows_calls calls)
  generalize calls.foldl tableStep (DriverTable.new, []) = s at hlength ⊢
  have hempty : live s.2 = [] ↔ ∀ i, s.1 i = none := by
    rw [← List.length_eq_zero_iff, hlength, List.length_eq_zero_iff, List.eq_nil_iff_forall_not_mem]
    simp [mem_occupied]
  rw [hempty, unload_eq]
  constructor
  · exact fun h => h.cleared
  · intro hnone
    have hout : ∀ i obj, s.1 i ≠ some obj := by simp [hnone]
    exact ⟨fun i obj h => absurd h (hout i obj), fun i obj h => absurd h (hout i obj), hnone⟩

/-- A driver is opened. -/
def openedOne : List (TableCall Nat) := [.canalOpen 5 .success]

/-- If it is not closed by its user, nobody closes it. -/
theorem object_leaked :
    (openedOne.foldl tableStep (DriverTable.new, [])).1 (0 : Fin 256) = some 5 ∧
      ¬ ClosesAll (openedOne.foldl tableStep (DriverTable.new, [])).1
        (unload (openedOne.foldl tableStep (DriverTable.new, [])).1) := by
  have hopened : (openedOne.foldl tableStep (DriverTable.new, [])).1 (0 : Fin 256) = some 5 := by
    decide
  refine ⟨hopened, fun h => ?_⟩
  have hclosed := h.closed (0 : Fin 256) 5 hopened
  rw [unload_eq] at hclosed
  cases hclosed

end Can4vscp
