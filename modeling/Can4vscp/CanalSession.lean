import Can4vscp.HandleTable
import Can4vscp.Lib.Refinement

/-!
# Can4vscp.CanalSession

The CANAL API as its clients see it.

`CanalOpen` makes an object, opens it and puts its pointer into a slot of the table;
`CanalClose` finds the pointer, closes the object and deletes it; every other call finds the
pointer and calls a method of the object, or returns 0 without one.  What holds the objects
is the heap, and what keeps their calls apart is that no pointer is in two slots.

For a client a handle is an object of its own, and `ClientStep` says what it is told of each
call.  `session_refines` says that this is all there is: every sequence of calls, on any
number of handles, valid or not, is answered call by call as it says.  No object that does not
exist is used, and the objects that exist are those that have a handle.
-/

namespace Can4vscp.CanalSession

open SlotTable Machine

-- the pointers other than NULL, and what an object holds
variable {α σ : Type}

/-! ## the calls -/

/-- What a call returns. -/
inductive Result where
  | handle (h : Handle)
  | rv (n : Int)
  deriving DecidableEq

inductive Call (α σ : Type) where
  -- new returns `pdrvObj`; open leaves `obj` in it and returns `rv`
  | CanalOpen (pdrvObj : α) (obj : σ) (rv : CanalError)
  | CanalClose (handle : Handle)
  -- CanalSend, CanalBlockingSend, CanalReceive, CanalBlockingReceive, CanalDataAvailable,
  -- CanalGetStatus, CanalGetStatistics, CanalSetFilter, CanalSetMask
  | method (handle : Handle) (run : σ → σ × Int)

/-- The table of `theApp` and the objects on the heap. -/
structure State (α σ : Type) where
  theApp : DriverTable α
  heap : α → Option σ
  -- an object was used that does not exist
  fault : Bool
  -- history
  results : List Result

/-- When the library is loaded. -/
def State.new : State α σ := ⟨.new, fun _ => none, false, []⟩

def State.returns (s : State α σ) (r : Result) : State α σ := { s with results := s.results ++ [r] }

section
variable [DecidableEq α]

def next : Call α σ → State α σ → Option (State α σ)
  | .CanalOpen pdrvObj obj rv, s =>
    -- new never returns the address of an object that exists
    if (s.heap pdrvObj).isSome then none
    else if rv = .success then
      let (theApp, h) := addDriverObject s.theApp pdrvObj
      -- without a handle the object is deleted at once
      let heap := if h = 0 then s.heap else Function.update s.heap pdrvObj (some obj)
      some ({ s with theApp, heap }.returns (.handle h))
    else some (s.returns (.handle 0))
  | .CanalClose h, s =>
    let (theApp, deleted) := canalClose s.theApp h
    match deleted with
    | none => some ({ s with theApp }.returns (.rv 0))
    | some pObj =>
      some ({ s with
        theApp
        heap := Function.update s.heap pObj none
        fault := s.fault || (s.heap pObj).isNone }.returns (.rv 0))
  | .method h run, s =>
    match getDriverObject s.theApp h with
    | none => some (s.returns (.rv 0))
    | some pdrvObj =>
      match s.heap pdrvObj with
      | none => some { s with fault := true }
      | some obj =>
        some ({ s with heap := Function.update s.heap pdrvObj (some (run obj).1) }.returns
          (.rv (run obj).2))

def machine (α σ : Type) [DecidableEq α] : Machine (State α σ) (Call α σ) where
  init := (· = .new)
  next := next

end

/-! ## what a client sees -/

/-- The object of each handle that is in use. -/
abbrev Objects (σ : Type) := Handle → Option σ

/-- As many handles are in use as the library has. -/
def Full (objects : Objects σ) : Prop :=
  ∃ inUse : List Handle, inUse.Nodup ∧ inUse.length = CANAL_CAN4VSCP_DRIVER_MAX_OPEN ∧
    ∀ h ∈ inUse, (objects h).isSome

/-- What a call returns, and what becomes of the objects. -/
inductive ClientStep (objects : Objects σ) : Call α σ → Result → Objects σ → Prop where
  -- a handle that is not in use, for the object that was opened
  | opened {pdrvObj : α} {obj : σ} {h : Handle} (hroom : ¬ Full objects) (hne : h ≠ 0)
      (hfree : objects h = none) : ClientStep objects (.CanalOpen pdrvObj obj .success) (.handle h)
        (Function.update objects h (some obj))
  | full {pdrvObj : α} {obj : σ} (hfull : Full objects) :
      ClientStep objects (.CanalOpen pdrvObj obj .success) (.handle 0) objects
  | failed {pdrvObj : α} {obj : σ} {rv : CanalError} (hrv : rv ≠ .success) :
      ClientStep objects (.CanalOpen pdrvObj obj rv) (.handle 0) objects
  | closed {h : Handle} : ClientStep objects (.CanalClose h) (.rv 0) (Function.update objects h none)
  | method {h : Handle} {run : σ → σ × Int} {obj : σ} (hobj : objects h = some obj) :
      ClientStep objects (.method h run) (.rv (run obj).2)
        (Function.update objects h (some (run obj).1))
  | noObject {h : Handle} {run : σ → σ × Int} (hnone : objects h = none) :
      ClientStep objects (.method h run) (.rv 0) objects

/-- The table and the heap, as a client sees them. -/
def State.objects (s : State α σ) : Objects σ := fun h => (getDriverObject s.theApp h).bind s.heap

/-! ## the table and the heap -/

/-- Handles and objects belong together. -/
structure SessionInv (s : State α σ) : Prop where
  live : ∀ h p, getDriverObject s.theApp h = some p → (s.heap p).isSome
  uniq : ∀ h h' p, getDriverObject s.theApp h = some p → getDriverObject s.theApp h' = some p → h = h'
  covered : ∀ p, (s.heap p).isSome → ∃ h, getDriverObject s.theApp h = some p
  fault : s.fault = false

theorem getDriverObject_new (h : Handle) : getDriverObject (DriverTable.new : DriverTable α) h = none := by
  unfold getDriverObject
  split
  · rfl
  · rfl

theorem sessionInv_new : SessionInv (State.new : State α σ) := by
  constructor <;> simp [State.new, getDriverObject_new]

section
variable {s t : State α σ} {h : Handle} {p : α}

theorem canalClose_snd (table : DriverTable α) (h : Handle) :
    (canalClose table h).2 = getDriverObject table h := by
  unfold canalClose
  cases hobj : getDriverObject table h with
  | none => rfl
  | some p =>
      unfold getDriverObject at hobj
      simp only [removeDriverObject]
      split at hobj
      · exact hobj
      · cases hobj

theorem SessionInv.returns (hI : SessionInv s) (r : Result) : SessionInv (s.returns r) :=
  ⟨hI.live, hI.uniq, hI.covered, hI.fault⟩

variable [DecidableEq α]

/-- A new object gets a handle. -/
theorem SessionInv.opened (hI : SessionInv s) (obj : σ) (hfresh : (s.heap p).isSome = false)
    (hfree : getDriverObject s.theApp h = none) {table : DriverTable α}
    (htable : getDriverObject table = Function.update (getDriverObject s.theApp) h (some p)) :
    SessionInv { s with theApp := table, heap := Function.update s.heap p (some obj) } ∧
      ({ s with theApp := table, heap := Function.update s.heap p (some obj) } : State α σ).objects =
        Function.update s.objects h (some obj) := by
  -- nobody else has the new pointer
  have hother : ∀ k q, getDriverObject s.theApp k = some q → q ≠ p := by
    intro k q hq hqp
    rw [hqp] at hq
    rw [hI.live k p hq] at hfresh
    cases hfresh
  refine ⟨⟨fun k q hq => ?_, fun k k' q hq hq' => ?_, fun q hq => ?_, hI.fault⟩, ?_⟩
  · rw [htable] at hq
    by_cases hqp : q = p
    · simp [hqp]
    · by_cases hk : k = h
      · rw [hk, Function.update_self] at hq
        exact absurd (Option.some.inj hq).symm hqp
      · rw [Function.update_of_ne hk] at hq
        simpa [hqp] using hI.live k q hq
  · rw [htable] at hq hq'
    by_cases hk : k = h
    · by_cases hk' : k' = h
      · rw [hk, hk']
      · rw [hk, Function.update_self] at hq
        rw [Function.update_of_ne hk'] at hq'
        exact absurd (Option.some.inj hq).symm (hother k' q hq')
    · rw [Function.update_of_ne hk] at hq
      by_cases hk' : k' = h
      · rw [hk', Function.update_self] at hq'
        exact absurd (Option.some.inj hq').symm (hother k q hq)
      · rw [Function.update_of_ne hk'] at hq'
        exact hI.uniq k k' q hq hq'
  · rw [htable]
    by_cases hqp : q = p
    · exact ⟨h, by rw [hqp, Function.update_self]⟩
    · obtain ⟨k, hk⟩ := hI.covered q (by simpa [hqp] using hq)
      have hkh : k ≠ h := by
        rintro rfl
        rw [hk] at hfree
        cases hfree
      exact ⟨k, by rw [Function.update_of_ne hkh, hk]⟩
  · funext k
    simp only [State.objects, htable]
    by_cases hk : k = h
    · subst hk
      simp
    · rw [Function.update_of_ne hk, Function.update_of_ne hk]
      simp only [State.objects]
      cases hq : getDriverObject s.theApp k with
      | none => rfl
      | some q => simp [hother k q hq]

/-- An object and its handle go together. -/
theorem SessionInv.closed (hI : SessionInv s) (hobj : getDriverObject s.theApp h = some p)
    {table : DriverTable α}
    (htable : getDriverObject table = Function.update (getDriverObject s.theApp) h none) :
    SessionInv { s with theApp := table, heap := Function.update s.heap p none } ∧
      ({ s with theApp := table, heap := Function.update s.heap p none } : State α σ).objects =
        Function.update s.objects h none := by
  have hother : ∀ k q, k ≠ h → getDriverObject s.theApp k = some q → q ≠ p := by
    rintro k q hk hq rfl
    exact hk (hI.uniq k h q hq hobj)
  refine ⟨⟨fun k q hq => ?_, fun k k' q hq hq' => ?_, fun q hq => ?_, hI.fault⟩, ?_⟩
  · rw [htable] at hq
    by_cases hk : k = h
    · rw [hk, Function.update_self] at hq
      cases hq
    · rw [Function.update_of_ne hk] at hq
      simpa [hother k q hk hq] using hI.live k q hq
  · rw [htable] at hq hq'
    by_cases hk : k = h
    · rw [hk, Function.update_self] at hq
      cases hq
    · by_cases hk' : k' = h
      · rw [hk', Function.update_self] at hq'
        cases hq'
      · rw [Function.update_of_ne hk] at hq
        rw [Function.update_of_ne hk'] at hq'
        exact hI.uniq k k' q hq hq'
  · by_cases hqp : q = p
    · simp [hqp] at hq
    · obtain ⟨k, hk⟩ := hI.covered q (by simpa [hqp] using hq)
      have hkh : k ≠ h := by
        rintro rfl
        exact hqp (Option.some.inj (hk.symm.trans hobj))
      exact ⟨k, by rw [htable, Function.update_of_ne hkh, hk]⟩
  · funext k
    simp only [State.objects, htable]
    by_cases hk : k = h
    · subst hk
      simp
    · rw [Function.update_of_ne hk, Function.update_of_ne hk]
      simp only [State.objects]
      cases hq : getDriverObject s.theApp k with
      | none => rfl
      | some q => simp [hother k q hk hq]

/-- A method changes the object of its handle. -/
theorem SessionInv.method (hI : SessionInv s) (obj : σ) (hobj : getDriverObject s.theApp h = some p) :
    SessionInv { s with heap := Function.update s.heap p (some obj) } ∧
      ({ s with heap := Function.update s.heap p (some obj) } : State α σ).objects =
        Function.update s.objects h (some obj) := by
  have hsome : ∀ q, (Function.update s.heap p (some obj) q).isSome = true ↔ (s.heap q).isSome = true := by
    intro q
    by_cases hqp : q = p
    · simp [hqp, hI.live h p hobj]
    · simp [hqp]
  refine ⟨⟨fun k q hq => (hsome q).mpr (hI.live k q hq), hI.uniq,
    fun q hq => hI.covered q ((hsome q).mp hq), hI.fault⟩, ?_⟩
  funext k
  by_cases hk : k = h
  · subst hk
    simp [State.objects, hobj]
  · rw [Function.update_of_ne hk]
    simp only [State.objects]
    cases hq : getDriverObject s.theApp k with
    | none => rfl
    | some q =>
        have hqp : q ≠ p := by
          rintro rfl
          exact hk (hI.uniq k h q hq hobj)
        simp [hqp]

omit [DecidableEq α] in
theorem objects_eq_none (hnone : getDriverObject s.theApp h = none) : s.objects h = none := by
  rw [State.objects, hnone, Option.bind_none]

omit [DecidableEq α] in
/-- A client has all handles when the table is full, and only then. -/
theorem SessionInv.full_iff (hI : SessionInv s) :
    Full s.objects ↔ (occupied s.theApp).length = CANAL_CAN4VSCP_DRIVER_MAX_OPEN := by
  have hsome : ∀ h, (s.objects h).isSome ↔ h ∈ (occupied s.theApp).map handleOf := by
    intro h
    constructor
    · intro hobj
      cases hget : getDriverObject s.theApp h with
      | none => simp [objects_eq_none hget] at hobj
      | some p =>
          obtain ⟨i, rfl⟩ := exists_handleOf hget
          rw [getDriverObject_handleOf] at hget
          exact List.mem_map_of_mem (mem_occupied.mpr (by simp [hget]))
    · intro hmem
      obtain ⟨i, hi, rfl⟩ := List.mem_map.mp hmem
      obtain ⟨p, hp⟩ := Option.isSome_iff_exists.mp (mem_occupied.mp hi)
      have hget := (getDriverObject_handleOf s.theApp i).trans hp
      simpa [State.objects, hget] using hI.live _ p hget
  constructor
  · rintro ⟨inUse, hinUse, hlen, hall⟩
    have hsub : inUse.Subperm ((occupied s.theApp).map handleOf) :=
      List.subperm_of_subset hinUse fun h hmem => (hsome h).mp (hall h hmem)
    have hle := hsub.length_le
    rw [List.length_map, hlen] at hle
    exact Nat.le_antisymm (length_occupied_le s.theApp) hle
  · intro hlen
    have hnodup := (List.nodup_map_iff handleOf_injective).mpr (nodup_occupied s.theApp)
    exact ⟨_, hnodup, by simpa using hlen, fun h hmem => (hsome h).mpr hmem⟩

/-- **One call**: it leaves handles and objects together, and a client sees a call on its own
handle. -/
theorem SessionInv.next (hI : SessionInv s) (c : Call α σ) (hnext : next c s = some t) :
    SessionInv t ∧ ∃ r, t.results = s.results ++ [r] ∧ ClientStep s.objects c r t.objects := by
  cases c with
  | CanalOpen p obj rv =>
      simp only [CanalSession.next] at hnext
      split at hnext
      · cases hnext
      · next hfresh =>
          split at hnext
          · next hrv =>
              subst hrv
              cases hnext
              rcases addDriverObject_cases s.theApp p with ⟨hfull, hlen⟩ | ⟨h, hh, hne, hfree, hget, hroom⟩
              · -- the object is deleted at once
                rw [hfull]
                exact ⟨hI.returns _, .handle 0, rfl, .full (hI.full_iff.mpr hlen)⟩
              · obtain ⟨hinv, hobject⟩ := hI.opened obj (by simpa using hfresh) hfree hget
                have hstep : ClientStep s.objects (.CanalOpen p obj .success) (.handle h) _ :=
                  .opened (mt hI.full_iff.mp hroom) hne (objects_eq_none hfree)
                rw [hh, if_neg hne]
                rw [← hobject] at hstep
                exact ⟨hinv.returns _, .handle h, rfl, hstep⟩
          · next hrv =>
              cases hnext
              exact ⟨hI.returns _, .handle 0, rfl, .failed hrv⟩
  | CanalClose h =>
      have hstep : ClientStep s.objects (.CanalClose h : Call α σ) (.rv 0) _ := .closed
      simp only [CanalSession.next, canalClose_snd] at hnext
      split at hnext
      · next hnone =>
          have hsame : (canalClose s.theApp h).1 = s.theApp := by simp only [canalClose, hnone]
          rw [hsame] at hnext
          cases hnext
          rw [← objects_eq_none hnone, Function.update_eq_self] at hstep
          exact ⟨hI.returns _, .rv 0, rfl, hstep⟩
      · next p hobj =>
          obtain ⟨hinv, hobject⟩ := hI.closed hobj (canalClose_fst s.theApp h)
          have halive : (s.heap p).isNone = false := by simpa using hI.live h p hobj
          rw [halive, Bool.or_false] at hnext
          cases hnext
          rw [← hobject] at hstep
          exact ⟨hinv.returns _, .rv 0, rfl, hstep⟩
  | method h run =>
      simp only [CanalSession.next] at hnext
      split at hnext
      · next hnone =>
          cases hnext
          exact ⟨hI.returns _, .rv 0, rfl, .noObject (objects_eq_none hnone)⟩
      · next p hobj =>
          obtain ⟨obj, halive⟩ := Option.isSome_iff_exists.mp (hI.live h p hobj)
          rw [halive] at hnext
          cases hnext
          obtain ⟨hinv, hobject⟩ := hI.method (run obj).1 hobj
          have hclient : s.objects h = some obj := by simp [State.objects, hobj, halive]
          have hstep : ClientStep s.objects (.method h run : Call α σ) (.rv (run obj).2) _ :=
            .method hclient
          rw [← hobject] at hstep
          exact ⟨hinv.returns _, .rv (run obj).2, rfl, hstep⟩

/-! ## runs -/

theorem sessionInv_of_reachable (hs : (machine α σ).Reachable s) : SessionInv s := by
  refine hs.invariant ?_ ?_
  · rintro s rfl
    exact sessionInv_new
  · intro s t c hI _ hnext
    exact (hI.next c hnext).1

theorem meets_client : (machine α σ).Meets ClientStep SessionInv State.objects State.results where
  keeps _ _ c hI hnext := (hI.next c hnext).1
  step _ _ c hI hnext := (hI.next c hnext).2

/-- What is to be seen of the API after these calls. -/
structure SessionRefines (calls : List (Call α σ)) (s : State α σ) : Prop where
  -- each of them has been answered as a client of its handle expects
  client : SpecRun ClientStep (fun _ => none) calls s.results s.objects
  -- and so will be every other, if new finds an address for it
  answered : ∀ c, (∀ pdrvObj obj rv, c = .CanalOpen pdrvObj obj rv → s.heap pdrvObj = none) →
    (next c s).isSome
  -- no object is used that does not exist
  fault : s.fault = false
  -- the objects that exist are those that have a handle, and each has one
  handle : ∀ p, (s.heap p).isSome ↔ ∃ h, getDriverObject s.theApp h = some p
  distinct : ∀ h h' p, getDriverObject s.theApp h = some p →
    getDriverObject s.theApp h' = some p → h = h'

omit [DecidableEq α] in
theorem objects_new : (State.new : State α σ).objects = fun _ => none := by
  funext h
  exact objects_eq_none (getDriverObject_new h)

/-- Every call comes back. -/
theorem isSome_next (c : Call α σ)
    (hnew : ∀ pdrvObj obj rv, c = .CanalOpen pdrvObj obj rv → s.heap pdrvObj = none) :
    (next c s).isSome := by
  cases c with
  | CanalOpen p obj rv =>
      have hfresh := hnew p obj rv rfl
      simp only [next, hfresh, Option.isSome_none, Bool.false_eq_true, if_false]
      split <;> rfl
  | CanalClose h =>
      simp only [next]
      split <;> rfl
  | method h run =>
      simp only [next]
      split
      · rfl
      · split <;> rfl

/-- **The API refines its clients' view**, after every sequence of calls on any handles. -/
theorem session_refines (calls : List (Call α σ)) (s : State α σ)
    (hs : (machine α σ).runWhen (fun _ _ => True) calls .new = some s) : SessionRefines calls s := by
  have hI := sessionInv_of_reachable (reachableWhen_run (.init rfl) hs)
  obtain ⟨results, hresults, hrun⟩ := meets_client.run sessionInv_new hs
  obtain rfl : s.results = results := hresults
  rw [objects_new] at hrun
  exact {
    client := hrun
    answered := isSome_next
    fault := hI.fault
    handle := fun p => ⟨hI.covered p, fun ⟨h, hp⟩ => hI.live h p hp⟩
    distinct := hI.uniq }

end

/-- Two drivers with a filter each; the first is closed, its handle is used once more, and is
given out again; a driver that does not open gets none. -/
theorem session_refines_two :
    let setFilter (filter : Int) : Int → Int × Int := fun _ => (filter, 1)
    let getFilter : Int → Int × Int := fun filter => (filter, filter)
    let calls : List (Call Nat Int) := [.CanalOpen 0 0 .success, .CanalOpen 1 0 .success,
      .method 1681 (setFilter 3), .method 1682 (setFilter 5), .CanalClose 1681, .method 1681 getFilter,
      .CanalOpen 0 0 .success, .method 1682 getFilter, .CanalOpen 2 0 .generic]
    ∃ s, s.results = [.handle 1681, .handle 1682, .rv 1, .rv 1, .rv 0, .rv 0, .handle 1681, .rv 5,
        .handle 0] ∧ SessionRefines calls s := by
  intro setFilter getFilter calls
  have hrun : ((machine Nat Int).runWhen (fun _ _ => True) calls .new).any
      (fun s => s.results == [.handle 1681, .handle 1682, .rv 1, .rv 1, .rv 0, .rv 0, .handle 1681,
        .rv 5, .handle 0]) = true := by decide +kernel
  obtain ⟨s, hs, hp⟩ := (Option.any_eq_true _ _).mp hrun
  exact ⟨s, by simpa using hp, session_refines calls s hs⟩

end Can4vscp.CanalSession
