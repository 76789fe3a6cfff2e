import Can4vscp.ReceiveQueue

/-!
# Can4vscp.ReceiveEvent

The receive queue of the Windows build.

Instead of a semaphore there is an event that stays set until it is reset: the receive
thread sets it when it adds a message, a reader resets it when it takes the last one, and
both hold `m_receiveMutex`.  `getReceiveHandle` hands the event out, so that an
application knows when to call `readMsg`.  The event is set exactly while there is a
message (`event_safe`), except that `close` sets it as well, and then it stays set until
a reader takes the last message of a later session.

As in `ReceiveQueue` a step is a section of the mutex, a wait, or a read of a shared
variable outside of it.  The tokens of the `Driver` are not used here.
-/

namespace Can4vscp.ReceiveEvent

open ReceiveQueue (RecvPc ApiAct)

/-! ## states -/

/-- Where a reader is: outside with the result of its last call, in `readMsgBlocking`
before its section, or about to take the mutex. -/
inductive ReaderPc where
  | outside (rv : Option CanalError) (msg : Option CanalMsg)
  | test
  | wait
  | lock
  deriving DecidableEq, Repr

structure State (ι : Type) where
  driver : Driver
  receiveDataEvent : Bool
  bOpen : Bool
  recv : RecvPc
  reader : ι → ReaderPc
  -- history
  enqueued : List CanalMsg
  handedOut : List CanalMsg
  -- close has set the event, and nobody has reset it since
  closeSignal : Bool

variable {ι : Type}

/-! ## the receive thread -/

/-- One step of the receive thread; `decoded` is the next message it gets out of a
frame. -/
def recvNext (x : External) (decoded : CanalMsg) (s : State ι) : State ι :=
  match s.recv with
  | .idle => { s with recv := .room decoded }
  | .room m =>
    if s.driver.hasRoom then { s with recv := .add m }
    else { s with driver := s.driver.overrun, recv := .idle }
  | .add m =>
    if doFilter x s.driver.filter s.driver.mask m then
      { s with
        driver := s.driver.receive x m
        receiveDataEvent := true
        recv := .idle
        enqueued := s.enqueued ++ [m] }
    else { s with recv := .idle }

/-! ## the readers -/

/-- What a reader does next, or how its wait ends. -/
inductive ReaderAct where
  | call (blocking : Bool)
  | go
  | expired
  | abandoned
  | failed
  deriving DecidableEq, Repr

section
variable [DecidableEq ι]

/-- A reader goes to another place. -/
def State.goto (s : State ι) (r : ι) (pc : ReaderPc) : State ι :=
  { s with reader := Function.update s.reader r pc }

/-- A message is handed out; the event is reset when it was the last. -/
def State.pop (s : State ι) (m : CanalMsg) (rest : List CanalMsg) : State ι :=
  { s with
    driver := { s.driver with receiveList := rest }
    receiveDataEvent := if rest.length = 0 then false else s.receiveDataEvent
    handedOut := s.handedOut ++ [m]
    closeSignal := if rest.length = 0 then false else s.closeSignal }

/-- One step of a reader: `readMsg`, or `readMsgBlocking`. -/
def readerNext (r : ι) (a : ReaderAct) (s : State ι) : Option (State ι) :=
  match s.reader r, a with
  | .outside _ _, .call blocking =>
    if s.bOpen then some (s.goto r (if blocking then .test else .lock))
    else some (s.goto r (.outside (some .notOpen) none))
  | .test, .go =>
    if s.driver.receiveList.length = 0 then some (s.goto r .wait) else some (s.goto r .lock)
  -- WaitForSingleObject(m_receiveDataEvent, timeout)
  | .wait, .go => if s.receiveDataEvent then some (s.goto r .lock) else none
  | .wait, .expired =>
    if s.receiveDataEvent then none else some (s.goto r (.outside (some .timeout) none))
  | .wait, .abandoned => some (s.goto r (.outside (some .generic) none))
  -- any other failure of the wait is ignored
  | .wait, .failed => some (s.goto r .lock)
  | .lock, .go =>
    match s.driver.receiveList with
    | [] => some (s.goto r (.outside (some .fifoEmpty) none))
    | m :: rest => some ((s.pop m rest).goto r (.outside (some .success) (some m)))
  | _, _ => none

end

/-! ## opening and closing -/

/-- What `open` and `close` do to the receive side. -/
def apiNext (a : ApiAct) (s : State ι) : State ι :=
  match a with
  | .opens => { s with bOpen := true }
  | .closes => { s with bOpen := false }
  | .posts => { s with receiveDataEvent := true, closeSignal := true }

/-! ## the machine -/

/-- Who moves. -/
inductive Act (ι : Type) where
  | recv (decoded : CanalMsg)
  | reader (r : ι) (a : ReaderAct)
  | api (a : ApiAct)
  deriving DecidableEq

/-- The receive side with an empty queue and no call under way, whatever the filter and
the counters are. -/
structure Init (s : State ι) : Prop where
  receiveList : s.driver.receiveList = []
  receiveDataEvent : s.receiveDataEvent = false
  recv : s.recv = .idle
  reader : ∀ r, ∃ rv msg, s.reader r = .outside rv msg
  enqueued : s.enqueued = []
  handedOut : s.handedOut = []
  closeSignal : s.closeSignal = false

/-- The receive thread and the readers around the receive queue. -/
def machine (ι : Type) [DecidableEq ι] (x : External) : Machine (State ι) (Act ι) where
  init := Init
  next
    | .recv decoded, s => some (recvNext x decoded s)
    | .reader r a, s => readerNext r a s
    | .api a, s => some (apiNext a s)

/-! ## the invariant -/

/-- The event is set while there is a message, and after `close`. -/
structure EventInv (s : State ι) : Prop where
  conserved : s.handedOut ++ s.driver.receiveList = s.enqueued
  bounded : s.driver.receiveList.length ≤ CAN4VSCP_MAX_RCVMSG
  event : s.receiveDataEvent = true ↔ s.driver.receiveList ≠ [] ∨ s.closeSignal = true
  -- only the receive thread adds, so the room it has seen is still there
  room : ∀ m, s.recv = .add m → s.driver.receiveList.length < CAN4VSCP_MAX_RCVMSG

variable {x : External} {s t : State ι}

theorem Init.inv (h : Init s) : EventInv s where
  conserved := by simp [h.receiveList, h.enqueued, h.handedOut]
  bounded := by simp [h.receiveList]
  event := by simp [h.receiveList, h.receiveDataEvent, h.closeSignal]
  room := fun m hm => by simp [h.recv] at hm

theorem EventInv.recv (h : EventInv s) (decoded : CanalMsg) : EventInv (recvNext x decoded s) := by
  unfold recvNext
  split
  · exact { h with room := fun m hm => by cases hm }
  · split
    · next hroom => exact { h with room := fun _ _ => by simpa [Driver.hasRoom] using hroom }
    · exact { h with room := fun m hm => by cases hm }
  · next m hm =>
      have hroom := h.room m hm
      split
      · next hfilter =>
          have hlist : (s.driver.receive x m).receiveList = s.driver.receiveList ++ [m] := by
            simp [Driver.receive, hfilter]
          exact {
            conserved := by simp [hlist, ← h.conserved]
            bounded := by simp [hlist]; omega
            event := by simp [hlist]
            room := fun m hm => by cases hm }
      · exact { h with room := fun m hm => by cases hm }

theorem EventInv.api (h : EventInv s) (a : ApiAct) : EventInv (apiNext a s) := by
  cases a with
  | opens => exact { h with }
  | closes => exact { h with }
  | posts => exact { h with event := by simp [apiNext] }

/-- A message is taken, and with the last one the event is reset. -/
theorem EventInv.pop (h : EventInv s) {m : CanalMsg} {rest : List CanalMsg}
    (hlist : s.driver.receiveList = m :: rest) : EventInv (s.pop m rest) where
  conserved := by simp [State.pop, ← h.conserved, hlist]
  bounded := by
    have hbounded := h.bounded
    rw [hlist, List.length_cons] at hbounded
    simp only [State.pop]
    omega
  event := by
    have hevent : s.receiveDataEvent = true := h.event.mpr (.inl (by simp [hlist]))
    cases rest with
    | nil => simp [State.pop]
    | cons m' rest => simp [State.pop, hevent]
  room := fun m' hm' => by
    have hroom := h.room m' hm'
    rw [hlist, List.length_cons] at hroom
    simp only [State.pop]
    omega

section
variable [DecidableEq ι]

theorem EventInv.reader (h : EventInv s) {r : ι} {a : ReaderAct} (hnext : readerNext r a s = some t) :
    EventInv t := by
  have hgoto : ∀ pc, EventInv (s.goto r pc) := fun pc => { h with }
  unfold readerNext at hnext
  split at hnext
  · split at hnext <;> cases hnext <;> exact hgoto _
  · split at hnext <;> cases hnext <;> exact hgoto _
  · split at hnext <;> cases hnext
    exact hgoto _
  · split at hnext <;> cases hnext
    exact hgoto _
  · cases hnext
    exact hgoto _
  · cases hnext
    exact hgoto _
  · split at hnext
    · cases hnext
      exact hgoto _
    · next m rest hlist =>
        cases hnext
        exact { h.pop hlist with }
  · cases hnext

/-- Every run keeps the invariant. -/
theorem eventInv_of_reachable (hs : (machine ι x).Reachable s) : EventInv s := by
  refine hs.invariant (P := EventInv) (fun s hinit => Init.inv hinit) ?_
  intro s t a hI _ hnext
  cases a with
  | recv decoded =>
      cases hnext
      exact hI.recv decoded
  | reader r a => exact hI.reader hnext
  | api a =>
      cases hnext
      exact hI.api a

/-! ## the result -/

/-- What the receive queue promises on Windows. -/
structure EventSafe (x : External) (s : State ι) : Prop where
  -- every message is handed out once, in order
  conserved : s.handedOut ++ s.driver.receiveList = s.enqueued
  bounded : s.driver.receiveList.length ≤ CAN4VSCP_MAX_RCVMSG
  -- the handle tells when to call readMsg
  event : s.closeSignal = false → (s.receiveDataEvent = true ↔ s.driver.receiveList ≠ [])
  -- a reader only waits, and only gives up, while there is nothing to read
  blocked : ∀ r, s.reader r = .wait → (machine ι x).next (.reader r .go) s = none →
    s.driver.receiveList = []
  timeout : ∀ r t, s.reader r = .wait → (machine ι x).next (.reader r .expired) s = some t →
    s.driver.receiveList = []

/-- **No loss, no duplication, no lost wake-up on Windows**: in every interleaving of the
receive thread, the readers and the calls that open and close the driver. -/
theorem event_safe (x : External) (s : State ι) (hs : (machine ι x).Reachable s) : EventSafe x s := by
  have hI := eventInv_of_reachable hs
  have hempty : s.receiveDataEvent = false → s.driver.receiveList = [] := by
    intro hevent
    by_contra hlist
    rw [hI.event.mpr (.inl hlist)] at hevent
    cases hevent
  exact {
    conserved := hI.conserved
    bounded := hI.bounded
    event := fun hsignal => by
      rw [hI.event, hsignal]
      simp
    blocked := fun r hpc hnone => hempty (by simpa [machine, readerNext, hpc] using hnone)
    timeout := fun r t hpc hnext => by
      simp only [machine, readerNext, hpc] at hnext
      split at hnext
      · cases hnext
      · next hevent => exact hempty (by simpa using hevent) }

end

/-- Two readers are woken by one message: one takes it and resets the event, the other
finds the queue empty. -/
theorem event_safe_two : ∃ s : State (Fin 2), s.handedOut.length = 1 ∧
    s.reader 1 = .outside (some .fifoEmpty) none ∧ EventSafe .vscp s := by
  let start : State (Fin 2) :=
    ⟨Driver.new, false, true, .idle, fun _ => .outside none none, [], [], false⟩
  have hinit : (machine (Fin 2) .vscp).init start := ⟨rfl, rfl, rfl, fun _ => ⟨_, _, rfl⟩, rfl, rfl, rfl⟩
  obtain ⟨s, hs, hp⟩ := (machine (Fin 2) .vscp).exists_reachableWhen (c := fun _ _ => True)
    ([.reader 0 (.call true), .reader 1 (.call true), .reader 0 .go, .reader 1 .go] ++
      List.replicate 3 (.recv ⟨0, 0, 5, 1, [7], 0⟩) ++
      [.reader 0 .go, .reader 1 .go, .reader 0 .go, .reader 1 .go])
    (fun s => s.handedOut.length == 1 && s.reader 1 == .outside (some .fifoEmpty) none)
    hinit (by decide)
  simp only [Bool.and_eq_true, beq_iff_eq] at hp
  exact ⟨s, hp.1, hp.2, event_safe .vscp s hs⟩

end Can4vscp.ReceiveEvent
