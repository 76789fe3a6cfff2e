import Can4vscp.TransmitEvent
import Can4vscp.WriterWakeup

/-!
# Can4vscp.EventWakeup

The writers blocked in `writeMsgBlocking` and the room in the transmit queue, in the Windows
build.

Every message that is removed sets `m_transmitDataPutEvent`, but a writer resets the event
only after it has found the queue full.  When a message is removed in between, the writer
takes the event away that was set for it, and waits although there is room.
`event_wakes_writers` shows that wake-ups are lost in this way and in no other: as long as
the event is not reset while there is room, a writer is only kept waiting by a full queue.
-/

namespace Can4vscp.TransmitEvent

open Transmit (TxStep ApiStep TxPc WriterPc Ledger)

variable {ι : Type}

/-! ## what a writer can do -/

section
variable [DecidableEq ι] {w : ι} {s t : State ι}

/-- The steps of a writer. -/
inductive WriterStep (w : ι) (s : State ι) : WriterAct → State ι → Prop where
  | reset (m : CanalMsg) (hpc : s.tx.writer w = .waitPut m) (hreset : s.putReset w = false) :
      WriterStep w s .go { s with
        tx := { s.tx with transmitDataPutSem := 0 }
        putReset := Function.update s.putReset w true }
  | waited (m : CanalMsg) (hpc : s.tx.writer w = .waitPut m) (a : WriterAct) (pc : WriterPc)
      (hto : ∀ m', pc ≠ .waitPut m') : WriterStep w s a (s.waited w pc)
  | same (hpc : ∀ m, s.tx.writer w ≠ .waitPut m) (a : WriterAct) (a' : Transmit.WriterAct)
      (tx : Transmit.State ι) (h : Transmit.WriterStep w s.tx a' tx) : WriterStep w s a { s with tx }

theorem writerNext_step {a : WriterAct} (h : writerNext w a s = some t) : WriterStep w s a t := by
  unfold writerNext at h
  split at h
  · next m hpc =>
      split at h
      · split at h
        · simp only [Option.ite_none_right_eq_some, Option.some.injEq] at h
          exact h.2 ▸ .waited m hpc _ _ (by simp)
        · simp only [Option.ite_none_right_eq_some, Option.some.injEq] at h
          exact h.2 ▸ .waited m hpc _ _ (by simp)
        · cases h
          exact .waited m hpc _ _ (by simp)
        · cases h
          exact .waited m hpc _ _ (by simp)
        · cases h
      · next hreset =>
          split at h
          · cases h
            exact .reset m hpc (by simpa using hreset)
          · cases h
  · next blocking m hpc =>
      obtain ⟨tx, htx, rfl⟩ := Option.map_eq_some_iff.mp h
      exact .same hpc _ _ tx (Transmit.writerNext_step htx)
  · next hpc =>
      obtain ⟨tx, htx, rfl⟩ := Option.map_eq_some_iff.mp h
      exact .same hpc _ _ tx (Transmit.writerNext_step htx)
  · cases h

end

/-! ## the room in the queue -/

/-- There is no room, or the event is set or about to be set. -/
def Announced (s : Transmit.State ι) : Prop :=
  0 < s.transmitDataPutSem ∨ s.pc.posting = true ∨ CAN4VSCP_MAX_SNDMSG < s.transmitList.length

/-- Room that is made is announced. -/
theorem TxStep.announced {s t : Transmit.State ι} (h : TxStep s t) (hs : Announced s) : Announced t := by
  cases h with
  | postPut acked hpc => exact .inl (Nat.succ_pos _)
  | popAck hpc m rest hlist => exact .inr (.inl rfl)
  | popPlain hpc m rest hlist => exact .inr (.inl rfl)
  | check hpc pc hto => cases hto <;> simp_all [Announced, TxPc.posting]
  | check2 hpc pc hto => cases hto <;> simp_all [Announced, TxPc.posting]
  | _ => simp_all [Announced, TxPc.posting]

/-- A writer only adds to the queue. -/
theorem announced_of_writerStep [DecidableEq ι] {w : ι} {a : Transmit.WriterAct}
    {s t : Transmit.State ι} (h : Transmit.WriterStep w s a t) (hpc : ∀ m, s.writer w ≠ .waitPut m)
    (hs : Announced s) : Announced t := by
  cases h with
  | take m hwait => exact absurd hwait (hpc m)
  | add m hadd =>
      refine hs.imp id (.imp id fun hfull => ?_)
      simp only [Transmit.State.writerTo, List.length_append]
      omega
  | _ => exact hs

/-- Where a waiting writer has come from. -/
theorem waits_of_writerStep [DecidableEq ι] {w v : ι} {a : Transmit.WriterAct}
    {s t : Transmit.State ι} (h : Transmit.WriterStep w s a t) {m : CanalMsg}
    (hv : t.writer v = .waitPut m) :
    s.writer v = .waitPut m ∨ CAN4VSCP_MAX_SNDMSG < t.transmitList.length := by
  by_cases heq : v = w
  · subst heq
    cases h with
    | wait m' hpc hlen => exact .inr hlen
    | _ => simp [Transmit.writerTo_writer] at hv
  · cases h <;> exact .inl (by simpa [Transmit.State.writerTo, heq] using hv)

/-- While a writer waits, room is announced. -/
def RoomAnnounced (s : State ι) : Prop := ∀ w m, s.tx.writer w = .waitPut m → Announced s.tx

/-- The event is not reset while there is room: no message is removed between the test of a
writer and its reset, and no writer resets the event that is set for another. -/
def CleanReset : Act ι → State ι → Prop
  | .writer w .go, s => ∀ m, s.tx.writer w = .waitPut m → s.putReset w = false →
    0 < s.tx.transmitDataPutSem → s.tx.pc.posting = true ∨ CAN4VSCP_MAX_SNDMSG < s.tx.transmitList.length
  | _, _ => True

section
variable {s t : State ι}

/-- The same writers, and what is announced stays announced. -/
theorem RoomAnnounced.mono (h : RoomAnnounced s) (hwriter : t.tx.writer = s.tx.writer)
    (ha : Announced s.tx → Announced t.tx) : RoomAnnounced t := by
  intro w m hw
  rw [hwriter] at hw
  exact ha (h w m hw)

theorem EventStep.roomAnnounced {o : Transmit.Outcome} (h : EventStep o s t) (hs : RoomAnnounced s) :
    RoomAnnounced t := by
  cases h with
  | take hpc token rest hsem => exact hs.mono rfl fun ha => by simpa [Announced, hpc, TxPc.posting] using ha
  | takeGet hpc => exact hs.mono rfl fun ha => by simpa [Announced, hpc, TxPc.posting] using ha
  | reset again f hpc => exact hs.mono rfl id
  | same tx htx harm =>
      have hstep := Transmit.txNext_step htx
      exact hs.mono hstep.removes.1 (TxStep.announced hstep)

variable [DecidableEq ι] {w : ι} {a : WriterAct}

theorem WriterStep.roomAnnounced (h : WriterStep w s a t) (hc : CleanReset (.writer w a) s)
    (hs : RoomAnnounced s) : RoomAnnounced t := by
  cases h with
  | reset m hpc hreset =>
      have hother : s.tx.pc.posting = true ∨ CAN4VSCP_MAX_SNDMSG < s.tx.transmitList.length := by
        obtain hset | hother := hs w m hpc
        · exact hc m hpc hreset hset
        · exact hother
      exact fun v m' hv => .inr hother
  | waited m hpc a pc hto =>
      intro v m' hv
      by_cases heq : v = w
      · subst heq
        exact absurd (by simpa [State.waited, Transmit.State.writerTo] using hv) (hto m')
      · exact hs v m' (by simpa [State.waited, Transmit.State.writerTo, heq] using hv)
  | same hpc a a' tx hstep =>
      intro v m' hv
      obtain hwaits | hfull := waits_of_writerStep hstep hv
      · exact announced_of_writerStep hstep hpc (hs v m' hwaits)
      · exact .inr (.inr hfull)

/-! ## the result -/

/-- A step that resets no event while there is room. -/
theorem RoomAnnounced.step {a : Act ι} (hI : RoomAnnounced s) (hledger : Ledger s.tx)
    (hc : CleanReset a s) (hnext : (machine State.new).next a s = some t) : RoomAnnounced t := by
  cases a with
  | transmit o => exact (txNext_step hnext).roomAnnounced hI
  | writer w a => exact (writerNext_step hnext).roomAnnounced hc hI
  | answer a =>
      cases hnext
      obtain ⟨info, sem, acked, nacked, heq⟩ := Transmit.answerNext_effect a s.tx
      exact hI.mono (by rw [heq]) fun ha => by rw [heq]; exact ha
  | api b =>
      obtain ⟨tx, htx, rfl⟩ := Option.map_eq_some_iff.mp hnext
      cases Transmit.apiNext_step htx with
      | opens hapi => exact hI.mono rfl fun ha => by simpa [Announced, hledger.closed hapi, TxPc.posting] using ha
      | postsPut hapi => exact hI.mono rfl fun _ => .inl (Nat.succ_pos _)
      | _ => exact hI.mono rfl id

/-- A reset while there is room takes the announcement away. -/
theorem cleanReset_of_roomAnnounced {a : Act ι} (hnext : (machine State.new).next a s = some t)
    (ht : RoomAnnounced t) : CleanReset a s := by
  cases a with
  | transmit o => trivial
  | answer a => trivial
  | api b => trivial
  | writer w a =>
      cases a with
      | go =>
          intro m hpc hreset hset
          have hstep : writerNext w .go s = some { s with
              tx := { s.tx with transmitDataPutSem := 0 }
              putReset := Function.update s.putReset w true } := by
            simp [writerNext, hpc, hreset]
          cases hstep.symm.trans hnext
          exact (ht w m hpc).resolve_left (Nat.lt_irrefl 0)
      | _ => trivial

theorem ledger_of_new (hs : (machine State.new).ReachableWhen CleanReset s) : Ledger s.tx :=
  ledger_of_reachable Transmit.start_new hs

theorem roomAnnounced_of_reachable (hs : (machine State.new).ReachableWhen CleanReset s) :
    RoomAnnounced s := by
  refine hs.invariant_of (fun s hs => ledger_of_new hs) ?_ fun s t a hledger hI hc hnext =>
    hI.step hledger hc hnext
  rintro s rfl w m hw
  cases hw

/-- What the transmit queue promises to the writers that wait for the event. -/
structure EventWakes (s : State ι) : Prop where
  announced : RoomAnnounced s
  -- a writer that is not let through, or gives up, finds no room, or the event is about to
  -- be set
  blocked : ∀ w m, s.tx.writer w = .waitPut m → s.putReset w = true → writerNext w .go s = none →
    s.tx.pc.posting = true ∨ CAN4VSCP_MAX_SNDMSG < s.tx.transmitList.length
  timeout : ∀ w m t, s.tx.writer w = .waitPut m → s.putReset w = true →
    writerNext w .expired s = some t →
    s.tx.pc.posting = true ∨ CAN4VSCP_MAX_SNDMSG < s.tx.transmitList.length

theorem RoomAnnounced.eventWakes (hI : RoomAnnounced s) : EventWakes s := by
  have hwaits : ∀ w m, s.tx.writer w = .waitPut m → s.tx.transmitDataPutSem = 0 →
      s.tx.pc.posting = true ∨ CAN4VSCP_MAX_SNDMSG < s.tx.transmitList.length :=
    fun w m hpc hsem => (hI w m hpc).resolve_left (by omega)
  refine ⟨hI, fun w m hpc hreset hnone => hwaits w m hpc ?_,
    fun w m t hpc hreset hnext => hwaits w m hpc ?_⟩
  · simpa [writerNext, hpc, hreset] using hnone
  · simp only [writerNext, hpc, hreset, if_true, Option.ite_none_right_eq_some] at hnext
    exact hnext.1

/-- **No lost wake-up of a writer with events**, as long as the event is not reset while there
is room, and not beyond that. -/
theorem event_wakes_writers (s : State ι) (hs : (machine State.new).ReachableWhen CleanReset s) :
    EventWakes s ∧
      ∀ a t, (machine State.new).next a s = some t → (EventWakes t ↔ CleanReset a s) := by
  have hI := roomAnnounced_of_reachable hs
  refine ⟨hI.eventWakes, fun a t hnext => ⟨fun ht => ?_, fun hc => ?_⟩⟩
  · exact cleanReset_of_roomAnnounced hnext ht.announced
  · exact (hI.step (ledger_of_new hs) hc hnext).eventWakes

end

/-! ## a writer at a full queue -/

section
variable [DecidableEq ι]

/-- The driver is opened or closed, or a writer goes on that does not wait. -/
def Calls : Transmit.Act ι → Transmit.State ι → Prop
  | .writer w _, s => ∀ m, s.writer w ≠ .waitPut m
  | .api _, _ => True
  | _, _ => False

theorem writerNext_call {s : State ι} {w : ι} (hpc : ∀ m, s.tx.writer w ≠ .waitPut m) (blocking : Bool)
    (m : CanalMsg) : writerNext w (.call blocking m) s =
      (Transmit.writerNext w (.call blocking m) s.tx).map fun tx => { s with tx } := by
  unfold writerNext
  split <;> simp_all

theorem writerNext_go {s : State ι} {w : ι} (hpc : ∀ m, s.tx.writer w ≠ .waitPut m) :
    writerNext w .go s = (Transmit.writerNext w .go s.tx).map fun tx => { s with tx } := by
  unfold writerNext
  split <;> simp_all

/-- Such steps are the same with events. -/
theorem reachable_of_calls {u₀ u : Transmit.State ι}
    (hs : (Transmit.machine u₀).ReachableWhen Calls u) :
    (machine ⟨u₀, false, fun _ => false⟩).ReachableWhen CleanReset ⟨u, false, fun _ => false⟩ := by
  let e (u : Transmit.State ι) : State ι := ⟨u, false, fun _ => false⟩
  refine hs.invariant (P := fun u => (machine (e u₀)).ReachableWhen CleanReset (e u)) ?_ ?_
  · rintro u rfl
    exact .init rfl
  · intro u v a hu hc hnext
    cases a with
    | transmit o => exact hc.elim
    | answer a => exact hc.elim
    | api b => exact hu.step (.api b) trivial (Option.map_eq_some_iff.mpr ⟨v, hnext, rfl⟩)
    | writer w a =>
        cases Transmit.writerNext_step hnext with
        | take m hpc => exact absurd hpc (hc m)
        | expire m hpc => exact absurd hpc (hc m)
        | interrupt m hpc => exact absurd hpc (hc m)
        | call rv blocking m hpc hopen =>
            refine hu.step (.writer w (.call blocking m)) trivial ?_
            exact (writerNext_call (s := e u) hc blocking m).trans
              (Option.map_eq_some_iff.mpr ⟨_, hnext, rfl⟩)
        | notOpen rv blocking m hpc hopen =>
            refine hu.step (.writer w (.call blocking m)) trivial ?_
            exact (writerNext_call (s := e u) hc blocking m).trans
              (Option.map_eq_some_iff.mpr ⟨_, hnext, rfl⟩)
        | _ =>
            refine hu.step (.writer w .go) (fun m hpc => absurd hpc (hc m)) ?_
            exact (writerNext_go (s := e u) hc).trans (Option.map_eq_some_iff.mpr ⟨_, hnext, rfl⟩)

omit [DecidableEq ι] in
theorem allowsWrite_calls [Fintype ι] (w : ι) (n : Nat) : Transmit.AllowsWrite Calls w n :=
  fun _ _ hpc _ m => (hpc m).2

end

/-- The driver is open, the queue holds `ms`, and the transmit thread has not begun. -/
def opened (ms : List CanalMsg) (getSem : Nat) (writer : Unit → WriterPc) : Transmit.State Unit :=
  { (Transmit.State.new : Transmit.State Unit) with
    bRun := true, bOpen := true, pc := .start, api := .opened
    transmitList := ms, accepted := ms, transmitDataGetSem := getSem, writer }

/-- A writer has found the queue full. -/
theorem exists_full : ∃ (ms : List CanalMsg) (getSem : Nat) (writer : Unit → WriterPc) (m : CanalMsg),
    ms.length = CAN4VSCP_MAX_SNDMSG + 1 ∧ writer () = .waitPut m ∧
      (machine (State.new : State Unit)).ReachableWhen CleanReset
        ⟨opened ms getSem writer, false, fun _ => false⟩ := by
  obtain ⟨ms, getSem, rv, hlen, hfull⟩ := Transmit.reachable_fill (allowsWrite_calls () _)
    (Transmit.reachable_opened fun _ => trivial) rfl ⟨_, rfl⟩ (CAN4VSCP_MAX_SNDMSG + 1)
    (Nat.le_refl _) (Nat.le_of_eq (Nat.zero_add _))
  let m : CanalMsg := ⟨0, 0, 0, 0, [], 0⟩
  let writer : Unit → WriterPc := Function.update (fun _ => .outside none) () (.outside rv)
  have hwriter : writer () = .outside rv := rfl
  have hlist : ms.length = CAN4VSCP_MAX_SNDMSG + 1 := hlen
  have hu : (Transmit.machine .new).ReachableWhen Calls (opened ms getSem writer) := hfull
  have h₃ : (Transmit.machine .new).ReachableWhen Calls
      ((opened ms getSem writer).writerTo () (.test true m)) := by
    refine hu.step (.writer () (.call true m)) (by simp [Calls, opened, hwriter]) ?_
    simp [Transmit.machine, Transmit.writerNext, opened, hwriter, Transmit.State.writerTo]
  have h₄ : (Transmit.machine .new).ReachableWhen Calls
      ((opened ms getSem writer).writerTo () (.waitPut m)) := by
    refine h₃.step (.writer () .go) (by simp [Calls, Transmit.writerTo_writer]) ?_
    simp [Transmit.machine, Transmit.writerNext, Transmit.State.writerTo, opened, hlist]
  exact ⟨ms, getSem, _, m, hlist, Function.update_self .., reachable_of_calls h₄⟩

/-- A writer waits at a full queue. -/
theorem event_wakes_writers_full : ∃ (s : State Unit) (m : CanalMsg),
    s.tx.writer () = .waitPut m ∧ s.putReset () = true ∧ EventWakes s := by
  obtain ⟨ms, getSem, writer, m, hlen, hpc, hu⟩ := exists_full
  have hreset : (machine (State.new : State Unit)).ReachableWhen CleanReset
      ⟨opened ms getSem writer, false, Function.update (fun _ => false) () true⟩ := by
    refine hu.step (.writer () .go) (fun _ _ _ _ => .inr (by simp [opened, hlen])) ?_
    simp [machine, writerNext, opened, hpc, Transmit.State.new]
  exact ⟨_, m, hpc, by simp, (event_wakes_writers _ hreset).1⟩

/-- The condition is needed: a message is removed between the test and the reset of a writer,
which waits although there is room and no event on its way. -/
theorem event_lost_wakeup : ∃ s : State Unit, (machine State.new).Reachable s ∧ ¬ EventWakes s := by
  obtain ⟨ms, getSem, writer, m, hlen, hpc, hu⟩ := exists_full
  obtain ⟨first, rest, rfl⟩ := List.exists_cons_of_length_pos (by omega : 0 < ms.length)
  have hall : (machine (State.new : State Unit)).Reachable
      ⟨opened (first :: rest) getSem writer, false, fun _ => false⟩ :=
    hu.invariant (fun s h => .init h) fun s t a h _ hnext => .step a h trivial hnext
  obtain ⟨tx, hrun, hloop, hlist, hwriter⟩ : ∃ tx : Transmit.State Unit,
      (machine (State.new : State Unit)).runWhen (fun _ _ => True) (List.replicate 11 (.transmit .ok))
          ⟨opened (first :: rest) getSem writer, false, fun _ => false⟩ =
        some ⟨tx, false, fun _ => false⟩ ∧
      tx.pc = .loop ∧ tx.transmitList = rest ∧ tx.writer = writer :=
    ⟨_, rfl, rfl, rfl, rfl⟩
  have htx := Machine.reachableWhen_run hall hrun
  let s : State Unit :=
    ⟨{ tx with transmitDataPutSem := 0 }, false, Function.update (fun _ => false) () true⟩
  have hwait : tx.writer () = .waitPut m := by rw [hwriter, hpc]
  have hreset : (machine (State.new : State Unit)).Reachable s := by
    refine htx.step (.writer () .go) trivial ?_
    simp [machine, writerNext, hwait, s]
  refine ⟨s, hreset, fun h => ?_⟩
  obtain hposting | hfull := h.blocked () m hwait rfl (by simp [writerNext, hwait, s])
  · simp [s, hloop, TxPc.posting] at hposting
  · simp only [s, hlist] at hfull
    simp only [List.length_cons] at hlen
    omega

end Can4vscp.TransmitEvent
