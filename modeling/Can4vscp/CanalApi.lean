import Can4vscp.HandleTable
import Can4vscp.Lib.Machine
import Mathlib.Data.Fintype.Basic

/-!
# Can4vscp.CanalApi

The CANAL API as a machine: any number of threads that open drivers, call them and
close them.

A call looks its object up, runs a method of it, and, if it is `CanalClose`, removes
the object.  Adding and removing take the table mutex, looking up does not, and
nothing keeps an object alive that another call has looked up.  So an object is
deleted once (`CanalInv.nodup`), but it may be in use then.
`noUseAfterClose_of_exclusive` says what callers have to do instead: no other call on
the handle is under way while `CanalClose` is in `removeDriverObject` with it.
-/

namespace Can4vscp.CanalApi

open SlotTable

/-! ## states -/

/-- An object: the number of its construction. -/
abbrev Obj := Nat

/-- The calls on a handle, by the method they run. -/
inductive Call where
  | send
  | blockingSend
  | receive
  | blockingReceive
  | dataAvailable
  | getStatus
  | getStatistics
  | setFilter
  | setMask
  | close
  deriving DecidableEq, Repr

/-- Where a thread is. -/
inductive Pc where
  | outside
  -- CanalOpen: in open, and before addDriverObject
  | opening (obj : Obj)
  | adding (obj : Obj)
  -- a call that has looked its object up, and one that runs the method
  | found (h : Handle) (call : Call) (obj : Obj)
  | inside (h : Handle) (call : Call) (obj : Obj)
  -- CanalClose: before removeDriverObject, and in it, with the object deleted
  | removing (h : Handle)
  | clearing (i : Fin CANAL_CAN4VSCP_DRIVER_MAX_OPEN)
  deriving DecidableEq, Repr

namespace Pc

/-- The handle of a call that has looked its object up and not yet finished with it, and
the object. -/
def uses : Pc → Option (Handle × Obj)
  | .found h _ obj => some (h, obj)
  | .inside h _ obj => some (h, obj)
  | _ => none

/-- The object `CanalOpen` has constructed and not yet put into the table. -/
def owns : Pc → Option Obj
  | .opening obj => some obj
  | .adding obj => some obj
  | _ => none

/-- The slot `removeDriverObject` is about to clear. -/
def clears : Pc → Option (Fin CANAL_CAN4VSCP_DRIVER_MAX_OPEN)
  | .clearing i => some i
  | _ => none

/-- The handle of a call between its lookup and the end of its method. -/
def calls (pc : Pc) : Option Handle := pc.uses.map Prod.fst

/-- The handle `removeDriverObject` was entered with. -/
def removes (pc : Pc) : Option Handle := pc.clears.map handleOf

end Pc

/-- `locked` is the table mutex, as `removeDriverObject` holds it while it deletes.
The deleted objects are history. -/
structure State (ι : Type) where
  table : DriverTable Obj
  locked : Bool
  created : Nat
  thread : ι → Pc
  deleted : List Obj

variable {ι : Type}

/-- A library as it is loaded. -/
def State.new : State ι where
  table := DriverTable.new
  locked := false
  created := 0
  thread := fun _ => .outside
  deleted := []

/-! ## steps -/

/-- What a thread does next. -/
inductive Move where
  | canalOpen
  | opened (rv : CanalError)
  | add
  | call (h : Handle) (call : Call)
  | start
  | finish
  | delete
  | clear
  deriving DecidableEq, Repr

structure Act (ι : Type) where
  thread : ι
  move : Move
  deriving DecidableEq

variable [DecidableEq ι]

/-- A thread goes to a place. -/
def State.goto (s : State ι) (w : ι) (pc : Pc) : State ι :=
  { s with thread := Function.update s.thread w pc }

/-- One step of a thread. -/
def next (a : Act ι) (s : State ι) : Option (State ι) :=
  match s.thread a.thread, a.move with
  | .outside, .canalOpen =>
    some { s.goto a.thread (.opening s.created) with created := s.created + 1 }
  | .opening obj, .opened rv =>
    if rv = .success then some (s.goto a.thread (.adding obj))
    else some { s.goto a.thread .outside with deleted := s.deleted ++ [obj] }
  | .adding obj, .add =>
    if s.locked then none
    else
      match addDriverObject s.table obj with
      | (table, h) =>
        if h = 0 then some { s.goto a.thread .outside with deleted := s.deleted ++ [obj] }
        else some { s.goto a.thread .outside with table }
  | .outside, .call h call =>
    match getDriverObject s.table h with
    | some obj => some (s.goto a.thread (.found h call obj))
    | none => some s
  | .found h call obj, .start => some (s.goto a.thread (.inside h call obj))
  | .inside h call _, .finish =>
    if call = .close then some (s.goto a.thread (.removing h)) else some (s.goto a.thread .outside)
  | .removing h, .delete =>
    if s.locked then none
    else
      match indexOf h with
      | none => some (s.goto a.thread .outside)
      | some i =>
        match s.table i with
        | some obj =>
          some { s.goto a.thread (.clearing i) with locked := true, deleted := s.deleted ++ [obj] }
        | none => some (s.goto a.thread .outside)
  | .clearing i, .clear =>
    some { s.goto a.thread .outside with table := Function.update s.table i none, locked := false }
  | _, _ => none

/-- The CANAL API of a freshly loaded library. -/
def machine : Machine (State ι) (Act ι) where
  init := (· = State.new)
  next := next

/-! ## safety -/

/-- No method is started on, or runs in, a deleted object, and no object is deleted
twice. -/
structure NoUseAfterClose (s : State ι) : Prop where
  inside : ∀ w h call obj, s.thread w = .inside h call obj → obj ∉ s.deleted
  once : s.deleted.Nodup

/-- The handle that a step enters `removeDriverObject` with. -/
def entersRemove (a : Act ι) (s : State ι) : Option Handle :=
  match s.thread a.thread, a.move with
  | .removing h, .delete => some h
  | _, _ => none

/-- The handle that a step begins a call with. -/
def beginsCall (a : Act ι) : Option Handle :=
  match a.move with
  | .call h _ => some h
  | _ => none

/-- What callers have to keep to: `removeDriverObject` is entered when no call on the handle
is under way, and none begins before it has returned. -/
def Exclusive (a : Act ι) (s : State ι) : Prop :=
  (∀ h ∈ entersRemove a s, ∀ v, (s.thread v).calls ≠ some h) ∧
    ∀ h ∈ beginsCall a, ∀ v, (s.thread v).removes ≠ some h

instance [Fintype ι] (a : Act ι) (s : State ι) : Decidable (Exclusive a s) :=
  @instDecidableAnd _ _ (Option.decidableForallMem _) (Option.decidableForallMem _)

/-! ## what a step can do -/

inductive Step (a : Act ι) (s : State ι) : State ι → Prop where
  | canalOpen (hpc : s.thread a.thread = .outside) :
      Step a s { s.goto a.thread (.opening s.created) with created := s.created + 1 }
  | opened (obj : Obj) (hpc : s.thread a.thread = .opening obj) :
      Step a s (s.goto a.thread (.adding obj))
  | discard (obj : Obj) (hpc : (s.thread a.thread).owns = some obj) :
      Step a s { s.goto a.thread .outside with deleted := s.deleted ++ [obj] }
  | add (obj : Obj) (i : Fin CANAL_CAN4VSCP_DRIVER_MAX_OPEN) (hpc : s.thread a.thread = .adding obj)
      (hfree : s.table i = none) :
      Step a s { s.goto a.thread .outside with table := Function.update s.table i (some obj) }
  | found (h : Handle) (call : Call) (obj : Obj) (hpc : s.thread a.thread = .outside)
      (hmove : a.move = .call h call) (hget : getDriverObject s.table h = some obj) :
      Step a s (s.goto a.thread (.found h call obj))
  | notFound : Step a s s
  | start (h : Handle) (call : Call) (obj : Obj) (hpc : s.thread a.thread = .found h call obj) :
      Step a s (s.goto a.thread (.inside h call obj))
  | finish (h : Handle) (call : Call) (obj : Obj) (hpc : s.thread a.thread = .inside h call obj)
      (pc : Pc) (hto : pc = .removing h ∨ pc = .outside) : Step a s (s.goto a.thread pc)
  | gone (h : Handle) (hpc : s.thread a.thread = .removing h) : Step a s (s.goto a.thread .outside)
  | delete (h : Handle) (i : Fin CANAL_CAN4VSCP_DRIVER_MAX_OPEN) (obj : Obj)
      (hpc : s.thread a.thread = .removing h) (hmove : a.move = .delete) (hlocked : s.locked = false)
      (hindex : indexOf h = some i) (hslot : s.table i = some obj) :
      Step a s { s.goto a.thread (.clearing i) with locked := true, deleted := s.deleted ++ [obj] }
  | clear (i : Fin CANAL_CAN4VSCP_DRIVER_MAX_OPEN) (hpc : s.thread a.thread = .clearing i) :
      Step a s { s.goto a.thread .outside with table := Function.update s.table i none, locked := false }

theorem next_step {a : Act ι} {s t : State ι} (h : next a s = some t) : Step a s t := by
  unfold next at h
  split at h
  · next hpc _ =>
      cases h
      exact .canalOpen hpc
  · next obj rv hpc _ =>
      split at h
      · cases h
        exact .opened obj hpc
      · cases h
        exact .discard obj (by rw [hpc]; rfl)
  · next obj hpc _ =>
      split at h
      · cases h
      · cases hfree : firstFree s.table with
        | some i =>
            simp only [addDriverObject, hfree, if_neg (handleOf_ne_zero i)] at h
            cases h
            exact .add obj i hpc (firstFree_spec hfree)
        | none =>
            simp only [addDriverObject, hfree, if_pos] at h
            cases h
            exact .discard obj (by rw [hpc]; rfl)
  · next handle call hpc hmove =>
      split at h
      · next obj hget =>
          cases h
          exact .found handle call obj hpc hmove hget
      · cases h
        exact .notFound
  · next handle call obj hpc _ =>
      cases h
      exact .start handle call obj hpc
  · next handle call obj hpc _ =>
      split at h
      · cases h
        exact .finish handle call obj hpc _ (.inl rfl)
      · cases h
        exact .finish handle call obj hpc _ (.inr rfl)
  · next handle hpc hmove =>
      split at h
      · cases h
      · next hlocked =>
          split at h
          · cases h
            exact .gone handle hpc
          · next i hindex =>
              split at h
              · next obj hslot =>
                  cases h
                  exact .delete handle i obj hpc hmove (by simpa using hlocked) hindex hslot
              · cases h
                exact .gone handle hpc
  · next i hpc _ =>
      cases h
      exact .clear i hpc
  · cases h

/-! ## what holds in every run -/

/-- An object is in one place: with the thread that constructed it, in a slot, or
deleted; only the slot that `removeDriverObject` is about to clear still has an
object that is deleted. -/
structure CanalInv (s : State ι) : Prop where
  inTable : ∀ i obj, s.table i = some obj → obj < s.created
  distinct : ∀ i j obj, s.table i = some obj → s.table j = some obj → i = j
  deleted : ∀ obj ∈ s.deleted, obj < s.created
  nodup : s.deleted.Nodup
  stale : ∀ i obj, s.table i = some obj → obj ∈ s.deleted → ∃ w, (s.thread w).clears = some i
  locked : ∀ w i, (s.thread w).clears = some i → s.locked = true
  holder : ∀ v w i j, (s.thread v).clears = some i → (s.thread w).clears = some j → v = w
  owned : ∀ w obj, (s.thread w).owns = some obj →
    obj < s.created ∧ obj ∉ s.deleted ∧ ∀ i, s.table i ≠ some obj
  owner : ∀ v w obj, (s.thread v).owns = some obj → (s.thread w).owns = some obj → v = w

variable {a : Act ι} {s t : State ι} {w : ι} {pc : Pc}

@[simp] theorem goto_self (s : State ι) (w : ι) (pc : Pc) : (s.goto w pc).thread w = pc := by
  simp [State.goto]

theorem goto_of_ne (s : State ι) (pc : Pc) {v w : ι} (h : v ≠ w) :
    (s.goto w pc).thread v = s.thread v := by
  simp [State.goto, h]

/-- A thread that goes somewhere leaves what the others do. -/
theorem goto_some {β : Type} (f : Pc → Option β) {b : β} {v : ι}
    (h : f ((s.goto w pc).thread v) = some b) :
    (v = w ∧ f pc = some b) ∨ (v ≠ w ∧ f (s.thread v) = some b) := by
  by_cases hv : v = w
  · subst hv
    exact .inl ⟨rfl, by simpa using h⟩
  · exact .inr ⟨hv, by rwa [goto_of_ne s pc hv] at h⟩

/-- A thread goes on that has nothing to do with the table. -/
theorem CanalInv.goto (h : CanalInv s) (hclears : (s.thread w).clears = none)
    (hclears' : pc.clears = none) (howns : pc.owns = none ∨ pc.owns = (s.thread w).owns) :
    CanalInv (s.goto w pc) := by
  have hclear : ∀ v i, ((s.goto w pc).thread v).clears = some i → (s.thread v).clears = some i := by
    intro v i hv
    rcases goto_some Pc.clears hv with ⟨rfl, hpc⟩ | ⟨-, hv⟩
    · rw [hclears'] at hpc
      cases hpc
    · exact hv
  have hown : ∀ v obj, ((s.goto w pc).thread v).owns = some obj → (s.thread v).owns = some obj := by
    intro v obj hv
    rcases goto_some Pc.owns hv with ⟨rfl, hpc⟩ | ⟨-, hv⟩
    · rcases howns with hnone | hsame
      · rw [hnone] at hpc
        cases hpc
      · exact hsame ▸ hpc
    · exact hv
  exact { h with
    stale := fun i obj hi hdel => by
      obtain ⟨v, hv⟩ := h.stale i obj hi hdel
      have hvw : v ≠ w := by
        rintro rfl
        rw [hclears] at hv
        cases hv
      exact ⟨v, by rwa [goto_of_ne s pc hvw]⟩
    locked := fun v i hv => h.locked v i (hclear v i hv)
    holder := fun u v i j hu hv => h.holder u v i j (hclear u i hu) (hclear v j hv)
    owned := fun v obj hv => h.owned v obj (hown v obj hv)
    owner := fun u v obj hu hv => h.owner u v obj (hown u obj hu) (hown v obj hv) }

theorem Pc.clears_of_owns {pc : Pc} {obj : Obj} (h : pc.owns = some obj) : pc.clears = none := by
  cases pc with
  | clearing i => cases h
  | _ => rfl

omit [DecidableEq ι] in
/-- Nobody clears a slot while the mutex is free. -/
theorem CanalInv.not_clearing (h : CanalInv s) (hlocked : s.locked = false) (w : ι)
    (i : Fin CANAL_CAN4VSCP_DRIVER_MAX_OPEN) : (s.thread w).clears ≠ some i := by
  intro hw
  rw [h.locked w i hw] at hlocked
  cases hlocked

/-- A new object is constructed. -/
theorem CanalInv.canalOpen (h : CanalInv s) (hpc : s.thread w = .outside) :
    CanalInv { s.goto w (.opening s.created) with created := s.created + 1 } := by
  have hclear : ∀ v i, ((s.goto w (.opening s.created)).thread v).clears = some i →
      v ≠ w ∧ (s.thread v).clears = some i := by
    intro v i hv
    rcases goto_some Pc.clears hv with ⟨-, hnew⟩ | hold
    · cases hnew
    · exact hold
  exact {
    inTable := fun i obj hi => Nat.lt_succ_of_lt (h.inTable i obj hi)
    distinct := h.distinct
    deleted := fun obj hobj => Nat.lt_succ_of_lt (h.deleted obj hobj)
    nodup := h.nodup
    stale := fun i obj hi hdel => by
      obtain ⟨v, hv⟩ := h.stale i obj hi hdel
      have hvw : v ≠ w := by
        rintro rfl
        rw [hpc] at hv
        cases hv
      exact ⟨v, by simpa only [goto_of_ne s _ hvw] using hv⟩
    locked := fun v i hv => h.locked v i (hclear v i hv).2
    holder := fun u v i j hu hv => h.holder u v i j (hclear u i hu).2 (hclear v j hv).2
    owned := fun v obj hv => by
      rcases goto_some Pc.owns hv with ⟨-, hnew⟩ | ⟨-, hold⟩
      · cases hnew
        refine ⟨Nat.lt_succ_self _, fun hdel => ?_, fun i hi => ?_⟩
        · exact Nat.lt_irrefl _ (h.deleted _ hdel)
        · exact Nat.lt_irrefl _ (h.inTable i _ hi)
      · obtain ⟨hlt, hrest⟩ := h.owned v obj hold
        exact ⟨Nat.lt_succ_of_lt hlt, hrest⟩
    owner := fun u v obj hu hv => by
      rcases goto_some Pc.owns hu with ⟨huw, hnew⟩ | ⟨-, hold⟩
      · rcases goto_some Pc.owns hv with ⟨hvw, -⟩ | ⟨-, hold⟩
        · exact huw.trans hvw.symm
        · cases hnew
          exact absurd (h.owned v _ hold).1 (Nat.lt_irrefl _)
      · rcases goto_some Pc.owns hv with ⟨-, hnew⟩ | ⟨-, hold'⟩
        · cases hnew
          exact absurd (h.owned u _ hold).1 (Nat.lt_irrefl _)
        · exact h.owner u v obj hold hold' }

/-- The object of an unsuccessful `CanalOpen` is deleted by it. -/
theorem CanalInv.discard (h : CanalInv s) {obj : Obj} (hpc : (s.thread w).owns = some obj) :
    CanalInv { s.goto w .outside with deleted := s.deleted ++ [obj] } := by
  have hg : CanalInv (s.goto w .outside) := h.goto (Pc.clears_of_owns hpc) rfl (.inl rfl)
  obtain ⟨hlt, hdel, hout⟩ := h.owned w obj hpc
  exact { hg with
    deleted := fun o ho => by
      rcases List.mem_append.mp ho with ho | ho
      · exact h.deleted o ho
      · exact List.mem_singleton.mp ho ▸ hlt
    nodup := by
      rw [List.nodup_append]
      refine ⟨h.nodup, List.nodup_singleton obj, fun o ho o' ho' heq => hdel ?_⟩
      rwa [← List.mem_singleton.mp ho', ← heq]
    stale := fun i o hi ho => by
      rcases List.mem_append.mp ho with ho | ho
      · exact hg.stale i o hi ho
      · rw [List.mem_singleton.mp ho] at hi
        exact absurd hi (hout i)
    owned := fun v o hv => by
      obtain ⟨holt, hodel, hoout⟩ := hg.owned v o hv
      refine ⟨holt, fun ho => ?_, hoout⟩
      rcases List.mem_append.mp ho with ho | ho
      · exact hodel ho
      · rcases goto_some Pc.owns hv with ⟨-, hnone⟩ | ⟨hvw, hold⟩
        · cases hnone
        · rw [List.mem_singleton.mp ho] at hold
          exact hvw (h.owner v w obj hold hpc) }

/-- A new object is put into a free slot. -/
theorem CanalInv.add (h : CanalInv s) {obj : Obj} {i : Fin CANAL_CAN4VSCP_DRIVER_MAX_OPEN}
    (hpc : (s.thread w).owns = some obj) (hfree : s.table i = none) :
    CanalInv { s.goto w .outside with table := Function.update s.table i (some obj) } := by
  have hg : CanalInv (s.goto w .outside) := h.goto (Pc.clears_of_owns hpc) rfl (.inl rfl)
  obtain ⟨hlt, hdel, hout⟩ := h.owned w obj hpc
  have htable : ∀ j o, Function.update s.table i (some obj) j = some o →
      (j = i ∧ o = obj) ∨ s.table j = some o := by
    intro j o hj
    by_cases hji : j = i
    · subst hji
      rw [Function.update_self] at hj
      exact .inl ⟨rfl, (Option.some.inj hj).symm⟩
    · rw [Function.update_of_ne hji] at hj
      exact .inr hj
  exact { hg with
    inTable := fun j o hj => by
      rcases htable j o hj with ⟨-, rfl⟩ | hj
      · exact hlt
      · exact h.inTable j o hj
    distinct := fun j k o hj hk => by
      rcases htable j o hj with ⟨hji, rfl⟩ | hjold
      · rcases htable k o hk with ⟨hki, -⟩ | hkold
        · exact hji.trans hki.symm
        · exact absurd hkold (hout k)
      · rcases htable k o hk with ⟨-, rfl⟩ | hkold
        · exact absurd hjold (hout j)
        · exact h.distinct j k o hjold hkold
    stale := fun j o hj ho => by
      rcases htable j o hj with ⟨-, rfl⟩ | hj
      · exact absurd ho hdel
      · exact hg.stale j o hj ho
    owned := fun v o hv => by
      obtain ⟨holt, hodel, hoout⟩ := hg.owned v o hv
      refine ⟨holt, hodel, fun j hj => ?_⟩
      rcases htable j o hj with ⟨-, rfl⟩ | hj
      · rcases goto_some Pc.owns hv with ⟨-, hnone⟩ | ⟨hvw, hold⟩
        · cases hnone
        · exact hvw (h.owner v w o hold hpc)
      · exact hoout j hj }

/-- The object of a slot is deleted. -/
theorem CanalInv.delete (h : CanalInv s) {obj : Obj} {i : Fin CANAL_CAN4VSCP_DRIVER_MAX_OPEN}
    (hlocked : s.locked = false) (hslot : s.table i = some obj) :
    obj ∉ s.deleted ∧
    CanalInv { s.goto w (.clearing i) with locked := true, deleted := s.deleted ++ [obj] } := by
  have hnew : obj ∉ s.deleted := by
    intro hdel
    obtain ⟨v, hv⟩ := h.stale i obj hslot hdel
    exact h.not_clearing hlocked v i hv
  have hclear : ∀ v j, ((s.goto w (.clearing i)).thread v).clears = some j → v = w := by
    intro v j hv
    rcases goto_some Pc.clears hv with ⟨hvw, -⟩ | ⟨-, hold⟩
    · exact hvw
    · exact absurd hold (h.not_clearing hlocked v j)
  have hown : ∀ v o, ((s.goto w (.clearing i)).thread v).owns = some o → (s.thread v).owns = some o := by
    intro v o hv
    rcases goto_some Pc.owns hv with ⟨-, hnone⟩ | ⟨-, hold⟩
    · cases hnone
    · exact hold
  refine ⟨hnew, ?_⟩
  exact {
    inTable := h.inTable
    distinct := h.distinct
    deleted := fun o ho => by
      rcases List.mem_append.mp ho with ho | ho
      · exact h.deleted o ho
      · exact h.inTable i o (List.mem_singleton.mp ho ▸ hslot)
    nodup := by
      rw [List.nodup_append]
      refine ⟨h.nodup, List.nodup_singleton obj, fun o ho o' ho' heq => hnew ?_⟩
      rwa [← List.mem_singleton.mp ho', ← heq]
    stale := fun j o hj ho => by
      rcases List.mem_append.mp ho with ho | ho
      · obtain ⟨v, hv⟩ := h.stale j o hj ho
        exact absurd hv (h.not_clearing hlocked v j)
      · rw [List.mem_singleton.mp ho] at hj
        exact ⟨w, by simp only [goto_self]; rw [h.distinct j i obj hj hslot]; rfl⟩
    locked := fun _ _ _ => rfl
    holder := fun u v j k hu hv => (hclear u j hu).trans (hclear v k hv).symm
    owned := fun v o hv => by
      obtain ⟨holt, hodel, hoout⟩ := h.owned v o (hown v o hv)
      refine ⟨holt, fun ho => ?_, hoout⟩
      rcases List.mem_append.mp ho with ho | ho
      · exact hodel ho
      · exact hoout i (List.mem_singleton.mp ho ▸ hslot)
    owner := fun u v o hu hv => h.owner u v o (hown u o hu) (hown v o hv) }

/-- The slot of a deleted object is cleared. -/
theorem CanalInv.clear (h : CanalInv s) {i : Fin CANAL_CAN4VSCP_DRIVER_MAX_OPEN}
    (hpc : s.thread w = .clearing i) :
    CanalInv { s.goto w .outside with table := Function.update s.table i none, locked := false } := by
  have hw : (s.thread w).clears = some i := by rw [hpc]; rfl
  have htable : ∀ j o, Function.update s.table i none j = some o → j ≠ i ∧ s.table j = some o := by
    intro j o hj
    by_cases hji : j = i
    · subst hji
      rw [Function.update_self] at hj
      cases hj
    · rw [Function.update_of_ne hji] at hj
      exact ⟨hji, hj⟩
  have hclear : ∀ v j, ((s.goto w .outside).thread v).clears ≠ some j := by
    intro v j hv
    rcases goto_some Pc.clears hv with ⟨-, hnone⟩ | ⟨hvw, hold⟩
    · cases hnone
    · exact hvw (h.holder v w j i hold hw)
  have hown : ∀ v o, ((s.goto w .outside).thread v).owns = some o → (s.thread v).owns = some o := by
    intro v o hv
    rcases goto_some Pc.owns hv with ⟨-, hnone⟩ | ⟨-, hold⟩
    · cases hnone
    · exact hold
  exact {
    inTable := fun j o hj => h.inTable j o (htable j o hj).2
    distinct := fun j k o hj hk => h.distinct j k o (htable j o hj).2 (htable k o hk).2
    deleted := h.deleted
    nodup := h.nodup
    stale := fun j o hj ho => by
      obtain ⟨hji, hj⟩ := htable j o hj
      obtain ⟨v, hv⟩ := h.stale j o hj ho
      obtain rfl := h.holder v w j i hv hw
      exact absurd (Option.some.inj (hv.symm.trans hw)) hji
    locked := fun v j hv => absurd hv (hclear v j)
    holder := fun u v j k hu _ => absurd hu (hclear u j)
    owned := fun v o hv => by
      obtain ⟨holt, hodel, hoout⟩ := h.owned v o (hown v o hv)
      exact ⟨holt, hodel, fun j hj => hoout j (htable j o hj).2⟩
    owner := fun u v o hu hv => h.owner u v o (hown u o hu) (hown v o hv) }

/-- Every step keeps the objects in their places. -/
theorem CanalInv.step (h : CanalInv s) (hstep : Step a s t) : CanalInv t := by
  cases hstep with
  | canalOpen hpc => exact h.canalOpen hpc
  | opened obj hpc => exact h.goto (by rw [hpc]; rfl) rfl (.inr (by rw [hpc]; rfl))
  | discard obj hpc => exact h.discard hpc
  | add obj i hpc hfree => exact h.add (by rw [hpc]; rfl) hfree
  | found handle call obj hpc => exact h.goto (by rw [hpc]; rfl) rfl (.inl rfl)
  | notFound => exact h
  | start handle call obj hpc => exact h.goto (by rw [hpc]; rfl) rfl (.inl rfl)
  | finish handle call obj hpc pc hto =>
      rcases hto with rfl | rfl
      · exact h.goto (by rw [hpc]; rfl) rfl (.inl rfl)
      · exact h.goto (by rw [hpc]; rfl) rfl (.inl rfl)
  | gone handle hpc => exact h.goto (by rw [hpc]; rfl) rfl (.inl rfl)
  | delete handle i obj hpc hmove hlocked hindex hslot => exact (h.delete hlocked hslot).2
  | clear i hpc => exact h.clear hpc

omit [DecidableEq ι] in
theorem canalInv_new : CanalInv (State.new : State ι) where
  inTable := fun _ _ h => by cases h
  distinct := fun _ _ _ h => by cases h
  deleted := fun _ h => by cases h
  nodup := List.nodup_nil
  stale := fun _ _ h => by cases h
  locked := fun _ _ h => by cases h
  holder := fun _ _ _ _ h => by cases h
  owned := fun _ _ h => by cases h
  owner := fun _ _ _ h => by cases h

theorem canalInv_of_reachable {c : Act ι → State ι → Prop} (hs : machine.ReachableWhen c s) :
    CanalInv s := by
  refine hs.invariant ?_ ?_
  · rintro s rfl
    exact canalInv_new
  · intro s t a hI _ hnext
    exact hI.step (next_step hnext)

/-! ## objects in use -/

/-- What a call uses is in the slot of its handle, and nobody is about to clear it. -/
def Seated (s : State ι) : Prop := ∀ w h obj, (s.thread w).uses = some (h, obj) →
  getDriverObject s.table h = some obj ∧ ∀ v, (s.thread v).removes ≠ some h

omit [DecidableEq ι] in
theorem Pc.calls_of_uses {h : Handle} {obj : Obj} (huses : pc.uses = some (h, obj)) :
    pc.calls = some h := by
  rw [Pc.calls, huses]
  rfl

/-- One thread goes somewhere, and the slots in use are left alone. -/
theorem Seated.move (h : Seated s) (hthread : t.thread = Function.update s.thread w pc)
    (huses : ∀ k obj, pc.uses = some (k, obj) → (s.thread w).uses = some (k, obj) ∨
      getDriverObject s.table k = some obj ∧ ∀ v, (s.thread v).removes ≠ some k)
    (hremoves : ∀ k, pc.removes = some k → pc.uses = none ∧ ∀ v, (s.thread v).calls ≠ some k)
    (htable : ∀ k obj, getDriverObject s.table k = some obj → (∀ v, (s.thread v).removes ≠ some k) →
      getDriverObject t.table k = some obj) : Seated t := by
  intro v k obj hv
  -- it was in its slot before
  have hseat : getDriverObject s.table k = some obj ∧ ∀ u, (s.thread u).removes ≠ some k := by
    rw [hthread, Function.update_apply] at hv
    split at hv
    · rcases huses k obj hv with hsame | hnew
      · exact h w k obj hsame
      · exact hnew
    · exact h v k obj hv
  refine ⟨htable k obj hseat.1 hseat.2, fun u hu => ?_⟩
  rw [hthread, Function.update_apply] at hu
  split at hu
  · obtain ⟨hnone, hnobody⟩ := hremoves k hu
    rw [hthread, Function.update_apply] at hv
    split at hv
    · rw [hnone] at hv
      cases hv
    · exact hnobody v (Pc.calls_of_uses hv)
  · exact hseat.2 u hu

/-- A thread goes on with what it uses, or with nothing. -/
theorem Seated.goto (h : Seated s) (huses : pc.uses = none ∨ pc.uses = (s.thread w).uses)
    (hremoves : pc.removes = none) : Seated (s.goto w pc) := by
  refine h.move rfl (fun k obj hpc => ?_) (fun k hk => ?_) fun k obj hget _ => hget
  · rcases huses with hnone | hsame
    · rw [hnone] at hpc
      cases hpc
    · exact .inl (hsame ▸ hpc)
  · rw [hremoves] at hk
    cases hk

/-- Every step of callers that keep to it leaves the objects in use in their slots. -/
theorem Seated.step (h : Seated s) (hc : Exclusive a s) (hstep : Step a s t) : Seated t := by
  cases hstep with
  | canalOpen hpc =>
      have hgoto : Seated (s.goto a.thread (.opening s.created)) := h.goto (.inl rfl) rfl
      exact hgoto
  | opened obj hpc => exact h.goto (.inl rfl) rfl
  | discard obj hpc =>
      have hgoto : Seated (s.goto a.thread .outside) := h.goto (.inl rfl) rfl
      exact hgoto
  | add obj i hpc hfree =>
      refine h.move rfl (fun k o hk => by cases hk) (fun k hk => by cases hk) fun k o hget _ => ?_
      have hne : k ≠ handleOf i := by
        rintro rfl
        rw [getDriverObject_handleOf, hfree] at hget
        cases hget
      rwa [getDriverObject_update, Function.update_of_ne hne]
  | found handle call obj hpc hmove hget =>
      have hnobody : ∀ v, (s.thread v).removes ≠ some handle :=
        hc.2 handle (by rw [beginsCall, hmove]; rfl)
      refine h.move rfl (fun k o hk => ?_) (fun k hk => by cases hk) fun k o hget _ => hget
      cases hk
      exact .inr ⟨hget, hnobody⟩
  | notFound => exact h
  | start handle call obj hpc => exact h.goto (.inr (by rw [hpc]; rfl)) rfl
  | finish handle call obj hpc pc hto => rcases hto with rfl | rfl <;> exact h.goto (.inl rfl) rfl
  | gone handle hpc => exact h.goto (.inl rfl) rfl
  | delete handle i obj hpc hmove hlocked hindex hslot =>
      have hnobody : ∀ v, (s.thread v).calls ≠ some handle :=
        hc.1 handle (by rw [entersRemove, hpc, hmove]; rfl)
      refine h.move rfl (fun k o hk => by cases hk) (fun k hk => ?_) fun k o hget _ => hget
      have hk : handleOf i = k := Option.some.inj hk
      rw [← hk, handleOf_indexOf hindex]
      exact ⟨rfl, hnobody⟩
  | clear i hpc =>
      refine h.move rfl (fun k o hk => by cases hk) (fun k hk => by cases hk) fun k o hget hk => ?_
      have hne : k ≠ handleOf i := by
        rintro rfl
        exact hk a.thread (by rw [hpc]; rfl)
      rwa [getDriverObject_update, Function.update_of_ne hne]

omit [DecidableEq ι] in
/-- An object in its slot is deleted only if somebody is about to clear the slot. -/
theorem CanalInv.alive (hI : CanalInv s) {h : Handle} {obj : Obj}
    (hget : getDriverObject s.table h = some obj) (hnobody : ∀ v, (s.thread v).removes ≠ some h) :
    obj ∉ s.deleted := by
  intro hdel
  unfold getDriverObject at hget
  split at hget
  · next i hindex =>
      obtain ⟨v, hv⟩ := hI.stale i obj hget hdel
      refine hnobody v ?_
      rw [Pc.removes, hv, ← handleOf_indexOf hindex]
      rfl
  · cases hget

/-- **No use after close**: in every run in which no call on a handle is under way while
`removeDriverObject` runs with it, no method is started on or runs in a deleted object.  No
object is deleted twice. -/
theorem noUseAfterClose_of_exclusive (hs : machine.ReachableWhen Exclusive s) :
    NoUseAfterClose s := by
  have hI := canalInv_of_reachable hs
  have hseated : Seated s := by
    refine hs.invariant ?_ ?_
    · rintro s rfl w h obj huses
      cases huses
    · intro s t a hS hc hnext
      exact hS.step hc (next_step hnext)
  refine ⟨fun w handle call obj hpc => ?_, hI.nodup⟩
  obtain ⟨hget, hnobody⟩ := hseated w handle obj (by rw [hpc]; rfl)
  exact hI.alive hget hnobody

/-- A blocking receive of the other thread runs while `CanalClose` does, and ends before the
object is deleted; the handle is given out again and used. -/
theorem noUseAfterClose_of_exclusive_two :
    ∃ s : State Bool, s.deleted = [0] ∧ s.thread true = .inside 1681 .send 1 ∧ NoUseAfterClose s := by
  let run : List (Act Bool) := [⟨false, .canalOpen⟩, ⟨false, .opened .success⟩, ⟨false, .add⟩,
    ⟨true, .call 1681 .blockingReceive⟩, ⟨true, .start⟩, ⟨false, .call 1681 .close⟩, ⟨false, .start⟩,
    ⟨false, .finish⟩, ⟨true, .finish⟩, ⟨false, .delete⟩, ⟨false, .clear⟩, ⟨false, .canalOpen⟩,
    ⟨false, .opened .success⟩, ⟨false, .add⟩, ⟨true, .call 1681 .send⟩, ⟨true, .start⟩]
  obtain ⟨s, hs, hp⟩ := machine.exists_reachableWhen (c := Exclusive) run
    (fun s : State Bool => s.deleted == [0] && s.thread true == .inside 1681 .send 1) rfl
    (by decide +kernel)
  simp only [Bool.and_eq_true, beq_iff_eq] at hp
  exact ⟨s, hp.1, hp.2, noUseAfterClose_of_exclusive hs⟩

/-- A thread closes the driver while the other is inside a blocking receive. -/
theorem use_after_close : ∃ s : State Bool, machine.Reachable s ∧
    s.thread true = .inside 1681 .blockingReceive 0 ∧ ¬ NoUseAfterClose s := by
  let run : List (Act Bool) := [⟨false, .canalOpen⟩, ⟨false, .opened .success⟩, ⟨false, .add⟩,
    ⟨true, .call 1681 .blockingReceive⟩, ⟨true, .start⟩, ⟨false, .call 1681 .close⟩, ⟨false, .start⟩,
    ⟨false, .finish⟩, ⟨false, .delete⟩]
  obtain ⟨s, hs, hp⟩ := machine.exists_reachableWhen (c := fun _ _ => True) run
    (fun s => s.thread true == .inside 1681 .blockingReceive 0 && s.deleted.contains 0) rfl
    (by decide)
  simp only [Bool.and_eq_true, beq_iff_eq, List.contains_iff_mem] at hp
  exact ⟨s, hs, hp.1, fun h => h.inside true _ _ 0 hp.1 hp.2⟩

end Can4vscp.CanalApi
