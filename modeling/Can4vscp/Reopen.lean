import Can4vscp.CloseTokens
import Can4vscp.Commands
import Can4vscp.ReceiveQueue

/-!
# Can4vscp.Reopen

Opening a driver that has been open before.

The machines of the transmit side, the receive queue and the response queue are put
together, with the calls of `open` and `close` that start and stop their threads.  Only
the constructor empties the queues and the semaphores, and only the constructor clears
`m_bStrict`.  A driver that is opened again starts with what its last session has left
(`session_reopened`), and that is never nothing: `close` always leaves a token behind
(`reopen_asNew_iff`).
-/

namespace Can4vscp.Reopen

open Transmit (WriterAct Answer Tokens Ledger ApiStep)
open ReceiveQueue (ReaderAct)
open Commands (CallerAct Reply Response)

/-! ## states -/

/-- The flags ask for strict mode. -/
def strict (flags : UInt32) : Bool := decide (flags &&& CAN4VSCP_FLAG_ENABLE_STRICT ≠ 0)

/-- A driver with its threads.  Each part has the members it works on: those that are in
the `Driver` of the receive queue as well are not used there. -/
structure State (ι κ μ : Type) where
  tx : Transmit.State ι
  rx : ReceiveQueue.State κ
  cmd : Commands.State μ
  bStrict : Bool
  -- the receive thread has not ended
  receiving : Bool
  -- close has posted m_receiveDataSem
  posted : Bool
  -- history: the flags of all calls of open, and the sessions that have been started
  calls : List UInt32
  sessions : Nat

variable {ι κ μ : Type}

/-- A driver as it is constructed. -/
def State.new : State ι κ μ where
  tx := Transmit.State.new
  rx := ⟨Driver.new, false, .idle, fun _ => .outside none none, [], []⟩
  cmd := Commands.State.new
  bStrict := false
  receiving := false
  posted := false
  calls := []
  sessions := 0

/-- What a session starts with. -/
structure Session where
  bStrict : Bool
  transmitList : List CanalMsg
  receiveList : List CanalMsg
  responseList : List CmdResponseMsg
  receiveDataSem : Nat
  transmitDataPutSem : Nat
  transmitDataGetSem : Nat
  transmitAckNackSem : Nat
  deriving DecidableEq, Repr

def State.session (s : State ι κ μ) : Session where
  bStrict := s.bStrict
  transmitList := s.tx.transmitList
  receiveList := s.rx.driver.receiveList
  responseList := s.cmd.responseList.map Response.msg
  receiveDataSem := s.rx.driver.receiveDataSem
  transmitDataPutSem := s.tx.transmitDataPutSem
  transmitDataGetSem := s.tx.transmitDataGetSem
  transmitAckNackSem := s.tx.transmitAckNackSem.length

/-! ## opening and closing -/

/-- What `open` does in any case: the flags are taken over, and the statistics are reset. -/
def State.note (s : State ι κ μ) (flags : UInt32) : State ι κ μ :=
  { s with
    bStrict := if strict flags then true else s.bStrict
    tx := { s.tx with
      waitForAck := decide (flags &&& CAN4VSCP_FLAG_ENABLE_WAIT_FOR_ACK ≠ 0)
      cntTransmitFrames := 0
      cntTransmitData := 0
      countedFrom := s.tx.removed.length }
    rx := { s.rx with driver := { s.rx.driver with stat := ⟨0, 0, 0, 0, 0⟩ } }
    calls := s.calls ++ [flags] }

/-- `open` up to the start of the threads; `serial` is the result of
`OpenSerialInterface`. -/
def openNext (serial : CanalError) (flags : UInt32) (s : State ι κ μ) : Option (State ι κ μ) :=
  if s.tx.api = .closed ∨ s.tx.api = .opened then
    if s.tx.bRun then some (s.note flags) -- if open we have nothing to do
    else if serial ≠ .success then some (s.note flags)
    else
      (Transmit.apiNext (s.note flags).tx.waitForAck (s.note flags).tx).map fun tx =>
        { s.note flags with tx, receiving := true, sessions := s.sessions + 1 }
  else none

/-- The first step of `close` after the CLOSE command. -/
def closeNext (s : State ι κ μ) : Option (State ι κ μ) :=
  if s.tx.api = .closed ∨ s.tx.api = .opened then
    if s.tx.bRun then (Transmit.apiNext false s.tx).map fun tx => { s with tx }
    else some s -- already terminated
  else none

/-- The next step of an `open` or a `close` that is under way. -/
def apiNext (s : State ι κ μ) : Option (State ι κ μ) :=
  match s.tx.api with
  | .closed => none
  | .opening =>
    (Transmit.apiNext false s.tx).map fun tx => { s with tx, rx := ReceiveQueue.apiNext .opens s.rx }
  | .opened => none
  | .stopped =>
    (Transmit.apiNext false s.tx).map fun tx => { s with tx, rx := ReceiveQueue.apiNext .closes s.rx }
  | .postingPut =>
    if s.posted then (Transmit.apiNext false s.tx).map fun tx => { s with tx, posted := false }
    else some { s with rx := ReceiveQueue.apiNext .posts s.rx, posted := true }
  | .postingGet => (Transmit.apiNext false s.tx).map fun tx => { s with tx }
  | .postingAck => (Transmit.apiNext false s.tx).map fun tx => { s with tx }
  -- the receive thread is joined first
  | .joining => if s.receiving then none else (Transmit.apiNext false s.tx).map fun tx => { s with tx }

/-! ## the machine -/

/-- Who moves.  The callers of `Commands` are `open`, `softOpen` and `close` with their
commands. -/
inductive Act (ι κ μ : Type) where
  | transmit (o : Transmit.Outcome)
  | writer (w : ι) (a : WriterAct)
  | answer (a : Answer)
  | recv (decoded : CanalMsg)
  | response (reply : Reply)
  | recvExit
  | reader (r : κ) (a : ReaderAct)
  | caller (c : μ) (a : CallerAct)
  | openCall (serial : CanalError) (flags : UInt32)
  | closeCall
  | api
  deriving DecidableEq

variable [DecidableEq ι] [DecidableEq κ] [DecidableEq μ]

/-- One step of the driver. -/
def next (x : External) (a : Act ι κ μ) (s : State ι κ μ) : Option (State ι κ μ) :=
  match a with
  | .transmit o => (Transmit.txNext o s.tx).map fun tx => { s with tx }
  | .writer w a => (Transmit.writerNext w a s.tx).map fun tx => { s with tx }
  | .answer a => if s.receiving then some { s with tx := Transmit.answerNext a s.tx } else none
  | .recv decoded =>
    if s.receiving then some { s with rx := ReceiveQueue.recvNext x decoded s.rx } else none
  | .response reply =>
    if s.receiving then (Commands.receiveNext x reply s.cmd).map fun cmd => { s with cmd } else none
  | .recvExit =>
    if s.receiving ∧ s.rx.recv = .idle ∧ s.tx.bRun = false then some { s with receiving := false }
    else none
  | .reader r a => (ReceiveQueue.readerNext r a s.rx).map fun rx => { s with rx }
  | .caller c a => (Commands.callerNext x c a s.cmd).map fun cmd => { s with cmd }
  | .openCall serial flags => openNext serial flags s
  | .closeCall => closeNext s
  | .api => apiNext s

/-- A driver from its construction on. -/
def machine (x : External) (ι κ μ : Type) [DecidableEq ι] [DecidableEq κ] [DecidableEq μ] :
    Machine (State ι κ μ) (Act ι κ μ) where
  init := (· = State.new)
  next := next x

/-! ## what every step keeps -/

section
omit [DecidableEq ι] [DecidableEq κ] [DecidableEq μ]

/-- A driver that has never run. -/
structure Fresh (s : State ι κ μ) : Prop where
  api : s.tx.api = .closed
  bOpen : s.tx.bOpen = false
  rxOpen : s.rx.bOpen = false
  receiving : s.receiving = false
  empty : s.session = ⟨s.bStrict, [], [], [], 0, 0, 0, 0⟩
  writer : ∀ w, ∃ rv, s.tx.writer w = .outside rv
  reader : ∀ r, ∃ rv msg, s.rx.reader r = .outside rv msg

/-- What holds in every run. -/
structure Inv (s : State ι κ μ) : Prop where
  tokens : Tokens s.sessions s.tx
  ledger : Ledger s.tx
  conserved : s.rx.handedOut ++ s.rx.driver.receiveList = s.rx.enqueued
  strict : s.bStrict = s.calls.any strict
  fresh : s.sessions = 0 → Fresh s

theorem Inv.new : Inv (State.new : State ι κ μ) where
  tokens := Transmit.tokens_new
  ledger := {
    conserved := rfl
    countedFrom := Nat.le_refl _
    frames := rfl
    data := rfl
    closed := fun _ => rfl }
  conserved := rfl
  strict := rfl
  fresh := fun _ => ⟨rfl, rfl, rfl, rfl, rfl, fun _ => ⟨_, rfl⟩, fun _ => ⟨_, _, rfl⟩⟩

/-- Nothing is received before the first session. -/
theorem Inv.running {s : State ι κ μ} (hI : Inv s) (hreceiving : s.receiving = true) :
    s.sessions ≠ 0 := by
  intro hzero
  rw [(hI.fresh hzero).receiving] at hreceiving
  cases hreceiving

/-- The flags change, and the counters start again. -/
theorem Inv.note {s : State ι κ μ} (hI : Inv s) (flags : UInt32) : Inv (s.note flags) where
  tokens := hI.tokens.flags _ _ _ _
  ledger := { hI.ledger with
    countedFrom := Nat.le_refl _
    frames := by simp [State.note, Transmit.State.counted]
    data := by simp [State.note, Transmit.State.counted] }
  conserved := hI.conserved
  strict := by
    simp only [State.note, List.any_append, List.any_cons, List.any_nil, Bool.or_false, hI.strict]
    split
    · next hstrict => rw [hstrict, Bool.or_true]
    · next hstrict => rw [Bool.not_eq_true] at hstrict; rw [hstrict, Bool.or_false]
  fresh := fun hzero => by
    have hfresh := hI.fresh hzero
    have hempty := hfresh.empty
    simp only [State.session, Session.mk.injEq, true_and] at hempty
    exact { hfresh with
      empty := by
        simp only [State.session, State.note, Session.mk.injEq, true_and]
        exact hempty }

variable {x : External} {s : State ι κ μ}

theorem Inv.transmit (hI : Inv s) {o : Transmit.Outcome} {tx : Transmit.State ι}
    (h : Transmit.txNext o s.tx = some tx) : Inv { s with tx } where
  tokens := hI.tokens.tx h
  ledger := hI.ledger.tx (Transmit.txNext_step h)
  conserved := hI.conserved
  strict := hI.strict
  fresh := fun hzero =>
    absurd (hI.tokens.exited (hI.fresh hzero).api) (Transmit.txNext_step h).not_exited

theorem Inv.answer (hI : Inv s) (a : Answer) (hreceiving : s.receiving = true) :
    Inv { s with tx := Transmit.answerNext a s.tx } where
  tokens := hI.tokens.answer a
  ledger := hI.ledger.answer a
  conserved := hI.conserved
  strict := hI.strict
  fresh := fun hzero => absurd hzero (hI.running hreceiving)

/-- The receive thread adds what it counts as enqueued. -/
theorem Inv.recv (hI : Inv s) (decoded : CanalMsg) (hreceiving : s.receiving = true) :
    Inv { s with rx := ReceiveQueue.recvNext x decoded s.rx } where
  tokens := hI.tokens
  ledger := hI.ledger
  conserved := by
    have hconserved := hI.conserved
    simp only [ReceiveQueue.recvNext]
    split
    · exact hconserved
    · split
      · exact hconserved
      · exact hconserved
    · unfold Driver.receive
      split
      · simp [← hconserved]
      · exact hconserved
  strict := hI.strict
  fresh := fun hzero => absurd hzero (hI.running hreceiving)

theorem Inv.response (hI : Inv s) (cmd : Commands.State μ) (hreceiving : s.receiving = true) :
    Inv { s with cmd } :=
  { hI with fresh := fun hzero => absurd hzero (hI.running hreceiving) }

theorem Inv.recvExit (hI : Inv s) (hreceiving : s.receiving = true) :
    Inv { s with receiving := false } :=
  { hI with fresh := fun hzero => absurd hzero (hI.running hreceiving) }

/-- `open` before the threads are started. -/
theorem Inv.openNext (hI : Inv s) {serial : CanalError} {flags : UInt32} {t : State ι κ μ}
    (h : openNext serial flags s = some t) : Inv t := by
  have hnote := hI.note flags
  unfold Reopen.openNext at h
  split at h
  · next hapi =>
      split at h
      · cases h
        exact hnote
      · next hrun =>
          split at h
          · cases h
            exact hnote
          · obtain ⟨tx, htx, rfl⟩ := Option.map_eq_some_iff.mp h
            have hclosed : s.tx.api = .closed := by
              cases hapi with
              | inl hclosed => exact hclosed
              | inr hopened => exact absurd (hI.tokens.running.mpr (.inr hopened)) hrun
            have hstep := Transmit.apiNext_step htx
            exact {
              tokens := Transmit.Tokens.opens hstep hclosed
              ledger := hnote.ledger.api hstep
              conserved := hnote.conserved
              strict := hnote.strict
              fresh := fun hzero => absurd hzero (Nat.succ_ne_zero _) }
  · cases h

/-- The next step of closing. -/
theorem Inv.api (hI : Inv s) {b : Bool} {tx : Transmit.State ι}
    (h : Transmit.apiNext b s.tx = some tx) (hopen : s.tx.api ≠ .closed) : Inv { s with tx } where
  tokens := hI.tokens.api (Transmit.apiNext_step h) hopen
  ledger := hI.ledger.api (Transmit.apiNext_step h)
  conserved := hI.conserved
  strict := hI.strict
  fresh := fun hzero => absurd (hI.fresh hzero).api hopen

/-- What closing does to the receive side. -/
theorem Inv.rx (hI : Inv s) (a : ReceiveQueue.ApiAct) (posted : Bool)
    (hopen : s.tx.api ≠ .closed) :
    Inv { s with rx := ReceiveQueue.apiNext a s.rx, posted } :=
  { hI with
    conserved := by cases a <;> exact hI.conserved
    fresh := fun hzero => absurd (hI.fresh hzero).api hopen }

theorem Inv.closeNext (hI : Inv s) {t : State ι κ μ} (h : closeNext s = some t) : Inv t := by
  unfold Reopen.closeNext at h
  split at h
  · split at h
    · next hrun =>
        obtain ⟨tx, htx, rfl⟩ := Option.map_eq_some_iff.mp h
        refine hI.api htx fun hclosed => ?_
        -- a closed driver does not run
        have hapi := hI.tokens.running.mp hrun
        simp [hclosed] at hapi
    · cases h
      exact hI
  · cases h

theorem Inv.apiNext (hI : Inv s) {t : State ι κ μ} (h : apiNext s = some t) : Inv t := by
  unfold Reopen.apiNext at h
  split at h
  · cases h
  · next hapi =>
      obtain ⟨tx, htx, rfl⟩ := Option.map_eq_some_iff.mp h
      have hopen : s.tx.api ≠ .closed := by simp [hapi]
      exact (hI.rx .opens s.posted hopen).api htx hopen
  · cases h
  · next hapi =>
      obtain ⟨tx, htx, rfl⟩ := Option.map_eq_some_iff.mp h
      have hopen : s.tx.api ≠ .closed := by simp [hapi]
      exact (hI.rx .closes s.posted hopen).api htx hopen
  · next hapi =>
      have hopen : s.tx.api ≠ .closed := by simp [hapi]
      split at h
      · obtain ⟨tx, htx, rfl⟩ := Option.map_eq_some_iff.mp h
        have hnext := hI.api htx hopen
        exact { hnext with fresh := fun hzero => absurd (hI.fresh hzero).api hopen }
      · cases h
        exact hI.rx .posts true hopen
  · next hapi =>
      obtain ⟨tx, htx, rfl⟩ := Option.map_eq_some_iff.mp h
      exact hI.api htx (by simp [hapi])
  · next hapi =>
      obtain ⟨tx, htx, rfl⟩ := Option.map_eq_some_iff.mp h
      exact hI.api htx (by simp [hapi])
  · next hapi =>
      split at h
      · cases h
      · obtain ⟨tx, htx, rfl⟩ := Option.map_eq_some_iff.mp h
        exact hI.api htx (by simp [hapi])

end

section
variable {x : External} {s : State ι κ μ}

omit [DecidableEq κ] [DecidableEq μ] in
/-- A writer of a driver that has never run is told that it is not open. -/
theorem Inv.writer (hI : Inv s) {w : ι} {a : WriterAct} {tx : Transmit.State ι}
    (h : Transmit.writerNext w a s.tx = some tx) : Inv { s with tx } where
  tokens := hI.tokens.writer h
  ledger := by
    obtain ⟨ms, getSem, putSem, writer, rfl⟩ := Transmit.writerNext_effect h
    exact hI.ledger.writers ms getSem putSem writer
  conserved := hI.conserved
  strict := hI.strict
  fresh := fun hzero => by
    have hfresh := hI.fresh hzero
    obtain ⟨rv, hout⟩ := hfresh.writer w
    have hstep := Transmit.writerNext_step h
    cases hstep with
    | call rv blocking m hpc hopen =>
        rw [hfresh.bOpen] at hopen
        cases hopen
    | notOpen rv blocking m hpc hopen =>
        exact { hfresh with
          empty := hfresh.empty
          writer := fun v => by
            by_cases hv : v = w
            · exact ⟨some .notOpen, by rw [hv]; exact Function.update_self w _ _⟩
            · obtain ⟨rv', hrv⟩ := hfresh.writer v
              exact ⟨rv', (Function.update_of_ne hv _ _).trans hrv⟩ }
    | _ => simp_all

omit [DecidableEq ι] [DecidableEq μ] in
/-- A call on a driver that is not open returns at once. -/
theorem reader_notOpen {r : κ} {a : ReaderAct} {u v : ReceiveQueue.State κ}
    (h : ReceiveQueue.readerNext r a u = some v) (hout : ∃ rv msg, u.reader r = .outside rv msg)
    (hopen : u.bOpen = false) : v = u.goto r (.outside (some .notOpen) none) := by
  obtain ⟨rv, msg, hout⟩ := hout
  cases a with
  | call blocking =>
      simp only [ReceiveQueue.readerNext, hout, hopen, Bool.false_eq_true, if_false,
        Option.some.injEq] at h
      exact h.symm
  | _ => simp [ReceiveQueue.readerNext, hout] at h

omit [DecidableEq ι] [DecidableEq μ] in
/-- So is a reader. -/
theorem Inv.reader (hI : Inv s) {r : κ} {a : ReaderAct} {rx : ReceiveQueue.State κ}
    (h : ReceiveQueue.readerNext r a s.rx = some rx) : Inv { s with rx } where
  tokens := hI.tokens
  ledger := hI.ledger
  conserved := by
    have hconserved := hI.conserved
    have hstep := ReceiveQueue.readerNext_step h
    cases hstep with
    | pop m rest rv hlist =>
        rw [hlist] at hconserved
        simp [ReceiveQueue.State.goto, ReceiveQueue.State.pop, ← hconserved]
    | _ => exact hconserved
  strict := hI.strict
  fresh := fun hzero => by
    have hfresh := hI.fresh hzero
    obtain rfl := reader_notOpen h (hfresh.reader r) hfresh.rxOpen
    exact { hfresh with
      empty := hfresh.empty
      rxOpen := hfresh.rxOpen
      reader := fun q => by
        by_cases hq : q = r
        · exact ⟨some .notOpen, none, by rw [hq]; exact Function.update_self r _ _⟩
        · obtain ⟨rv, msg, hrv⟩ := hfresh.reader q
          exact ⟨rv, msg, (Function.update_of_ne hq _ _).trans hrv⟩ }

omit [DecidableEq ι] [DecidableEq κ] in
/-- A caller adds no responses. -/
theorem caller_responses {c : μ} {a : CallerAct} {u v : Commands.State μ}
    (h : Commands.callerNext x c a u = some v) (hu : u.responseList = []) : v.responseList = [] := by
  have hstep := Commands.callerNext_step h
  cases hstep with
  | take cmdcode param saveseq r hpc e rest hlist htakes =>
      rw [hu] at hlist
      cases hlist
  | discard call saveseq r hpc e rest hlist hno =>
      rw [hu] at hlist
      cases hlist
  | flush call saveseq r hpc => rfl
  | _ => exact hu

omit [DecidableEq ι] [DecidableEq κ] in
theorem Inv.caller (hI : Inv s) {c : μ} {a : CallerAct} {cmd : Commands.State μ}
    (h : Commands.callerNext x c a s.cmd = some cmd) : Inv { s with cmd } :=
  { hI with
    fresh := fun hzero => by
      have hfresh := hI.fresh hzero
      have hempty := hfresh.empty
      simp only [State.session, Session.mk.injEq, true_and, List.map_eq_nil_iff] at hempty
      obtain ⟨htx, hrx, hcmd, hsems⟩ := hempty
      exact { hfresh with
        empty := by
          simp only [State.session, Session.mk.injEq, true_and, List.map_eq_nil_iff]
          exact ⟨htx, hrx, caller_responses h hcmd, hsems⟩ } }

/-- Every run keeps the invariant. -/
theorem inv_of_reachable (hs : (machine x ι κ μ).Reachable s) : Inv s := by
  refine hs.invariant ?_ ?_
  · rintro s rfl
    exact .new
  · intro s t a hI _ hnext
    cases a with
    | transmit o =>
        obtain ⟨tx, htx, rfl⟩ := Option.map_eq_some_iff.mp hnext
        exact hI.transmit htx
    | writer w a =>
        obtain ⟨tx, htx, rfl⟩ := Option.map_eq_some_iff.mp hnext
        exact hI.writer htx
    | answer a =>
        obtain ⟨hreceiving, hnext⟩ := Option.ite_none_right_eq_some.mp hnext
        cases hnext
        exact hI.answer a hreceiving
    | recv decoded =>
        obtain ⟨hreceiving, hnext⟩ := Option.ite_none_right_eq_some.mp hnext
        cases hnext
        exact hI.recv decoded hreceiving
    | response reply =>
        obtain ⟨hreceiving, hnext⟩ := Option.ite_none_right_eq_some.mp hnext
        obtain ⟨cmd, hcmd, rfl⟩ := Option.map_eq_some_iff.mp hnext
        exact hI.response cmd hreceiving
    | recvExit =>
        obtain ⟨hreceiving, hnext⟩ := Option.ite_none_right_eq_some.mp hnext
        cases hnext
        exact hI.recvExit hreceiving.1
    | reader r a =>
        obtain ⟨rx, hrx, rfl⟩ := Option.map_eq_some_iff.mp hnext
        exact hI.reader hrx
    | caller c a =>
        obtain ⟨cmd, hcmd, rfl⟩ := Option.map_eq_some_iff.mp hnext
        exact hI.caller hcmd
    | openCall serial flags => exact hI.openNext hnext
    | closeCall => exact hI.closeNext hnext
    | api => exact hI.apiNext hnext

end

/-! ## what a session starts with -/

section
omit [DecidableEq ι] [DecidableEq κ] [DecidableEq μ]

/-- The session `open` starts. -/
def opened (flags : UInt32) (s : State ι κ μ) : Option Session :=
  (openNext .success flags s).map State.session

/-- The driver is opened as if it had just been constructed. -/
def AsNew (flags : UInt32) (s : State ι κ μ) : Prop :=
  opened flags s = opened flags (State.new : State ι κ μ)

instance (flags : UInt32) (s : State ι κ μ) : Decidable (AsNew flags s) :=
  inferInstanceAs (Decidable (_ = _))

/-- `open` leaves the queues and the semaphores alone. -/
theorem opened_of_closed {s : State ι κ μ} (hI : Inv s) (hclosed : s.tx.api = .closed)
    (flags : UInt32) :
    opened flags s = some { s.session with bStrict := strict flags || s.calls.any strict } := by
  have hrun : s.tx.bRun = false := hI.tokens.stopped (by simp [hclosed])
  have hstrict : (if strict flags = true then true else s.bStrict) =
      (strict flags || s.calls.any strict) := by
    rw [hI.strict]
    cases strict flags <;> simp
  simp only [opened, openNext, hclosed, hrun, State.note, Transmit.apiNext, hstrict]
  rfl

theorem opened_new (flags : UInt32) :
    opened flags (State.new : State ι κ μ) = some ⟨strict flags, [], [], [], 0, 0, 0, 0⟩ := by
  rw [opened_of_closed .new rfl]
  simp [State.new, State.session, Transmit.State.new, Commands.State.new, Driver.new]

end

variable {x : External} {s : State ι κ μ}

/-- What the earlier sessions have left: strict mode if it was ever asked for, the messages
that were accepted and not removed, those that were received and not handed out, and a
token that `close` has posted. -/
theorem reopened_session (hs : (machine x ι κ μ).Reachable s) (hclosed : s.tx.api = .closed)
    (flags : UInt32) :
    ∃ u, opened flags s = some u ∧ u.bStrict = (s.calls ++ [flags]).any strict ∧
      s.tx.removed ++ u.transmitList = s.tx.accepted ∧
      s.rx.handedOut ++ u.receiveList = s.rx.enqueued ∧
      (0 < s.sessions → 0 < u.transmitAckNackSem ∨ 0 < u.transmitDataGetSem) := by
  have hI := inv_of_reachable hs
  refine ⟨_, opened_of_closed hI hclosed flags, ?_, hI.ledger.conserved, hI.conserved,
    hI.tokens.left hclosed⟩
  simp [Bool.or_comm]

/-- **Reopening is as good as new** exactly when the driver has never run, and strict mode
is asked for again if it was asked for before. -/
theorem reopen_asNew_iff (hs : (machine x ι κ μ).Reachable s) (hclosed : s.tx.api = .closed)
    (flags : UInt32) :
    AsNew flags s ↔ s.sessions = 0 ∧ (strict flags = true ∨ ∀ f ∈ s.calls, strict f = false) := by
  have hI := inv_of_reachable hs
  rw [AsNew, opened_of_closed hI hclosed, opened_new, Option.some.injEq]
  constructor
  · intro heq
    have hstrict : (strict flags || s.calls.any strict) = strict flags := congrArg Session.bStrict heq
    have hget : s.tx.transmitDataGetSem = 0 := congrArg Session.transmitDataGetSem heq
    have hack : s.tx.transmitAckNackSem.length = 0 := congrArg Session.transmitAckNackSem heq
    constructor
    · by_contra hsessions
      -- close has left a token
      have hleft := hI.tokens.left hclosed (Nat.pos_of_ne_zero hsessions)
      omega
    · cases hflags : strict flags with
      | true => exact .inl rfl
      | false =>
          rw [hflags, Bool.false_or, List.any_eq_false] at hstrict
          exact .inr fun f hf => by simpa using hstrict f hf
  · rintro ⟨hsessions, hstrict⟩
    have hempty := (hI.fresh hsessions).empty
    have hbStrict : (strict flags || s.calls.any strict) = strict flags := by
      cases hstrict with
      | inl hflags => rw [hflags, Bool.true_or]
      | inr hcalls =>
          rw [List.any_eq_false.mpr fun f hf => by simp [hcalls f hf], Bool.or_false]
    rw [hempty, hbStrict]

/-- The serial port cannot be opened; the next try finds a driver that is as good as
new. -/
theorem reopen_asNew_iff_failed : ∃ s : State Unit Unit Unit,
    s.calls = [0] ∧ s.tx.api = .closed ∧ AsNew 0 s := by
  obtain ⟨s, hs, hp⟩ := (machine .vscp Unit Unit Unit).exists_reachableWhen (c := fun _ _ => True)
    [.openCall .initFail 0, .closeCall]
    (fun s => s.calls == [0] && s.tx.api == .closed && s.sessions == 0) rfl (by decide)
  simp only [Bool.and_eq_true, beq_iff_eq] at hp
  obtain ⟨⟨hcalls, hclosed⟩, hsessions⟩ := hp
  exact ⟨s, hcalls, hclosed, (reopen_asNew_iff hs hclosed 0).mpr ⟨hsessions, .inr (by simp [hcalls, strict])⟩⟩

/-- A driver is opened in strict mode, takes a message and is closed before it has sent it.
Opened again, without strict mode, it is strict still, and sends the message. -/
theorem reopen_leftover :
    (∃ s : State Unit Unit Unit, (machine .vscp Unit Unit Unit).Reachable s ∧
      s.tx.api = .closed ∧ ¬ AsNew 0 s) ∧
    ∃ s : State Unit Unit Unit, (machine .vscp Unit Unit Unit).Reachable s ∧ s.sessions = 2 ∧
      s.calls = [CAN4VSCP_FLAG_ENABLE_STRICT, 0] ∧ s.bStrict = true ∧
      s.tx.accepted = [⟨0, 0, 5, 0, [], 0⟩] ∧
      (s.tx.sent.drop s.tx.sessionStart).map (·.msg) = [⟨0, 0, 5, 0, [], 0⟩] := by
  let session : List (Act Unit Unit Unit) :=
    [.openCall .success CAN4VSCP_FLAG_ENABLE_STRICT, .api,
      .writer () (.call false ⟨0, 0, 5, 0, [], 0⟩), .writer () .go, .writer () .go, .writer () .go,
      .closeCall, .transmit .ok, .transmit .ok, .recvExit] ++ List.replicate 6 .api
  constructor
  · obtain ⟨s, hs, hp⟩ := (machine .vscp Unit Unit Unit).exists_reachableWhen
      (c := fun _ _ => True) session
      (fun s => s.tx.api == .closed && decide (¬ AsNew 0 s)) rfl (by decide)
    simp only [Bool.and_eq_true, beq_iff_eq, decide_eq_true_eq] at hp
    exact ⟨s, hs, hp.1, hp.2⟩
  · obtain ⟨s, hs, hp⟩ := (machine .vscp Unit Unit Unit).exists_reachableWhen
      (c := fun _ _ => True)
      (session ++ [.openCall .success 0, .api] ++ List.replicate 8 (.transmit .ok))
      (fun s => s.sessions == 2 && s.calls == [CAN4VSCP_FLAG_ENABLE_STRICT, 0] && s.bStrict &&
        s.tx.accepted == [⟨0, 0, 5, 0, [], 0⟩] &&
        (s.tx.sent.drop s.tx.sessionStart).map (·.msg) == [⟨0, 0, 5, 0, [], 0⟩]) rfl (by decide)
    simp only [Bool.and_eq_true, beq_iff_eq] at hp
    exact ⟨s, hs, hp.1.1.1.1, hp.1.1.1.2, hp.1.1.2, hp.1.2, hp.2⟩

end Can4vscp.Reopen
