import Can4vscp.Driver
import Can4vscp.Lib.Machine
import Can4vscp.Lib.Census

/-!
# Can4vscp.ReceiveQueue

The receive queue between the receive thread (`readSerialData`) and any number
of readers (`readMsg`, `readMsgBlocking`), POSIX build.

A step is a section of `m_receiveMutex` with the semaphore operations in it, a
semaphore operation outside of it, or a read of a shared variable outside of it.
A reader tests the number of messages and waits before it takes the mutex, so
what it has seen may be gone when it gets there.

The last fields of `State` are history: no step of the source depends on them.
-/

namespace Can4vscp.ReceiveQueue

/-! ## states -/

/-- Where the receive thread is with a decoded message. -/
inductive RecvPc where
  | idle
  | room (msg : CanalMsg)
  | add (msg : CanalMsg)
  deriving DecidableEq, Repr

/-- Where a reader is: outside with the result of its last call, in
`readMsgBlocking` before its section, or about to take the mutex. -/
inductive ReaderPc where
  | outside (rv : Option CanalError) (msg : Option CanalMsg)
  | test
  | wait
  | lock (token : Bool)
  deriving DecidableEq, Repr

/-- Woken by a token, without the mutex yet. -/
def ReaderPc.woken : ReaderPc → Bool
  | .lock token => token
  | _ => false

structure State (ι : Type) where
  driver : Driver
  bOpen : Bool
  recv : RecvPc
  reader : ι → ReaderPc
  -- history
  enqueued : List CanalMsg
  handedOut : List CanalMsg

variable {ι : Type}

/-- The readers woken by a token that have not taken the mutex. -/
def State.woken [Fintype ι] (s : State ι) : Nat := census ReaderPc.woken s.reader

/-! ## the receive thread -/

/-- One step of the receive thread; `decoded` is the next message it gets out of
a frame. -/
def recvNext (x : External) (decoded : CanalMsg) (s : State ι) : State ι :=
  match s.recv with
  | .idle => { s with recv := .room decoded }
  | .room m =>
    if s.driver.hasRoom then { s with recv := .add m }
    else { s with driver := s.driver.overrun, recv := .idle }
  | .add m =>
    { s with
      driver := s.driver.receive x m
      recv := .idle
      enqueued := if doFilter x s.driver.filter s.driver.mask m then s.enqueued ++ [m] else s.enqueued }

/-! ## the readers -/

/-- What a reader does next, or how its wait ends. -/
inductive ReaderAct where
  | call (blocking : Bool)
  | go
  | expired
  | interrupted
  deriving DecidableEq, Repr

variable [DecidableEq ι]

/-- A reader goes to another place. -/
def State.goto (s : State ι) (r : ι) (pc : ReaderPc) : State ι :=
  { s with reader := Function.update s.reader r pc }

/-- A message is handed out. -/
def State.pop (s : State ι) (m : CanalMsg) (rest : List CanalMsg) : State ι :=
  { s with
    driver := s.driver.takeFirst rest
    handedOut := s.handedOut ++ [m] }

/-- One step of a reader: `readMsg`, or `readMsgBlocking`. -/
def readerNext (r : ι) (a : ReaderAct) (s : State ι) : Option (State ι) :=
  match s.reader r, a with
  | .outside _ _, .call blocking =>
    if s.bOpen then some (s.goto r (if blocking then .test else .lock false))
    else some (s.goto r (.outside (some .notOpen) none))
  | .test, .go =>
    if s.driver.receiveList.length = 0 then some (s.goto r .wait) else some (s.goto r (.lock false))
  -- semaphoreTimedWait(&m_receiveDataSem, timeout)
  | .wait, .go =>
    if 0 < s.driver.receiveDataSem then
      some ({ s with driver := { s.driver with
        receiveDataSem := s.driver.receiveDataSem - 1 } }.goto r (.lock true))
    else none
  | .wait, .expired =>
    if s.driver.receiveDataSem = 0 then some (s.goto r (.outside (some .timeout) none)) else none
  -- any other failure of the wait is ignored
  | .wait, .interrupted => some (s.goto r (.lock false))
  | .lock _, .go =>
    match s.driver.receiveList with
    | [] => some (s.goto r (.outside (some .fifoEmpty) none))
    | m :: rest => some ((s.pop m rest).goto r (.outside (some .success) (some m)))
  | _, _ => none

/-! ## opening and closing -/

/-- What `open` and `close` do to the receive side. -/
inductive ApiAct where
  | opens
  | closes
  | posts
  deriving DecidableEq, Repr

def apiNext (a : ApiAct) (s : State ι) : State ι :=
  match a with
  | .opens => { s with bOpen := true }
  | .closes => { s with bOpen := false }
  | .posts => { s with driver := { s.driver with receiveDataSem := s.driver.receiveDataSem + 1 } }

/-! ## the machine -/

/-- Who moves. -/
inductive Act (ι : Type) where
  | recv (decoded : CanalMsg)
  | reader (r : ι) (a : ReaderAct)
  | api (a : ApiAct)
  deriving DecidableEq

/-- The receive side with an empty queue and no call under way, whatever the
filter and the counters are. -/
structure Init (s : State ι) : Prop where
  receiveList : s.driver.receiveList = []
  recv : s.recv = .idle
  reader : ∀ r, ∃ rv msg, s.reader r = .outside rv msg
  enqueued : s.enqueued = []
  handedOut : s.handedOut = []

/-- The receive thread and the readers around the receive queue. -/
def machine (ι : Type) [DecidableEq ι] (x : External) : Machine (State ι) (Act ι) where
  init := Init
  next
    | .recv decoded, s => some (recvNext x decoded s)
    | .reader r a, s => readerNext r a s
    | .api a, s => some (apiNext a s)

/-! ## what a step of a reader can do -/

inductive ReaderStep (r : ι) (s : State ι) : State ι → Prop where
  -- a place is left for another, no token is taken, the mutex is not taken
  | quiet (pc : ReaderPc) (hfrom : (s.reader r).woken = false) (hto : pc.woken = false) :
      ReaderStep r s (s.goto r pc)
  | take (hpc : s.reader r = .wait) (hsem : 0 < s.driver.receiveDataSem) :
      ReaderStep r s ({ s with driver := { s.driver with
        receiveDataSem := s.driver.receiveDataSem - 1 } }.goto r (.lock true))
  | empty (rv : Option CanalError) (hlist : s.driver.receiveList = []) :
      ReaderStep r s (s.goto r (.outside rv none))
  | pop (m : CanalMsg) (rest : List CanalMsg) (rv : Option CanalError)
      (hlist : s.driver.receiveList = m :: rest) :
      ReaderStep r s ((s.pop m rest).goto r (.outside rv (some m)))

theorem readerNext_step {r : ι} {a : ReaderAct} {s t : State ι} (h : readerNext r a s = some t) :
    ReaderStep r s t := by
  unfold readerNext at h
  split at h
  · next hpc =>
      split at h
      · cases h
        refine .quiet _ (by rw [hpc]; rfl) ?_
        split <;> rfl
      · cases h
        exact .quiet _ (by rw [hpc]; rfl) rfl
  · next hpc =>
      split at h
      · cases h
        exact .quiet _ (by rw [hpc]; rfl) rfl
      · cases h
        exact .quiet _ (by rw [hpc]; rfl) rfl
  · next hpc =>
      split at h
      · next hsem =>
          cases h
          exact .take hpc hsem
      · cases h
  · next hpc =>
      split at h
      · cases h
        exact .quiet _ (by rw [hpc]; rfl) rfl
      · cases h
  · next hpc =>
      cases h
      exact .quiet _ (by rw [hpc]; rfl) rfl
  · split at h
    · next hlist =>
        cases h
        exact .empty _ hlist
    · next m rest hlist =>
        cases h
        exact .pop m rest _ hlist
  · cases h

/-! ## the invariant -/

variable [Fintype ι]

/-- Every message in the queue has a token, or a reader that is on its way with
the token. -/
structure QueueInv (s : State ι) : Prop where
  conserved : s.handedOut ++ s.driver.receiveList = s.enqueued
  bounded : s.driver.receiveList.length ≤ CAN4VSCP_MAX_RCVMSG
  counted : s.driver.receiveList.length ≤ s.driver.receiveDataSem + s.woken
  -- only the receive thread adds, so the room it has seen is still there
  room : ∀ m, s.recv = .add m → s.driver.receiveList.length < CAN4VSCP_MAX_RCVMSG

variable {x : External} {s t : State ι}

omit [DecidableEq ι] in
theorem Init.inv (h : Init s) : QueueInv s where
  conserved := by simp [h.receiveList, h.enqueued, h.handedOut]
  bounded := by simp [h.receiveList]
  counted := by simp [h.receiveList]
  room := fun m hm => by simp [h.recv] at hm

omit [DecidableEq ι] in
theorem QueueInv.recv (h : QueueInv s) (decoded : CanalMsg) : QueueInv (recvNext x decoded s) := by
  unfold recvNext
  split
  · exact { h with room := fun m hm => by cases hm }
  · split
    · next hroom => exact { h with room := fun _ _ => by simpa [Driver.hasRoom] using hroom }
    · exact { h with room := fun m hm => by cases hm }
  · next m hm =>
      have hroom := h.room m hm
      unfold Driver.receive
      split
      · exact {
          conserved := by simp [← h.conserved]
          bounded := by simp; omega
          counted := by
            have hcounted := h.counted
            simp [State.woken] at hcounted ⊢
            omega
          room := fun m hm => by cases hm }
      · exact { h with room := fun m hm => by cases hm }

theorem QueueInv.reader (h : QueueInv s) {r : ι} (hstep : ReaderStep r s t) : QueueInv t := by
  have hcounted := h.counted
  cases hstep with
  | quiet pc hfrom hto =>
      have hwoken : (s.goto r pc).woken = s.woken := census_quiet hfrom hto
      exact { h with counted := by rw [hwoken]; exact hcounted }
  | take hpc hsem =>
      -- the token goes over to the reader
      have hwoken : (s.goto r (.lock true)).woken = s.woken + 1 :=
        census_enter (by rw [hpc]; rfl) rfl
      refine { h with counted := ?_ }
      change s.driver.receiveList.length ≤ s.driver.receiveDataSem - 1 + (s.goto r (.lock true)).woken
      omega
  | empty rv hlist => exact { h with counted := by simp [State.goto, hlist] }
  | pop m rest rv hlist =>
      have hbounded := h.bounded
      have hroom := h.room
      rw [hlist] at hcounted hbounded hroom
      simp only [List.length_cons] at hcounted hbounded hroom
      exact {
        conserved := by simp [State.goto, State.pop, ← h.conserved, hlist]
        bounded := by simp only [State.goto, State.pop, Driver.takeFirst_receiveList]; omega
        counted := by
          -- the reader that leaves was woken by at most one token
          have hleave : (s.goto r (.outside rv (some m))).woken + (s.reader r).woken.toNat = s.woken :=
            census_leave rfl
          have hone := Bool.toNat_le (s.reader r).woken
          change rest.length ≤ (if rest.length = 0 then 0 else s.driver.receiveDataSem) +
            (s.goto r (.outside rv (some m))).woken
          split <;> omega
        room := fun m' hm' => by
          have := hroom m' hm'
          simp only [State.goto, State.pop, Driver.takeFirst_receiveList]
          omega }

omit [DecidableEq ι] in
theorem QueueInv.api (h : QueueInv s) (a : ApiAct) : QueueInv (apiNext a s) := by
  cases a with
  | opens => exact { h with }
  | closes => exact { h with }
  | posts =>
      refine { h with counted := ?_ }
      have hcounted := h.counted
      change s.driver.receiveList.length ≤ s.driver.receiveDataSem + 1 + s.woken
      omega

/-- Every run keeps the invariant. -/
theorem queueInv_of_reachable (hs : (machine ι x).Reachable s) : QueueInv s := by
  refine hs.invariant ?_ ?_
  · exact fun s hinit => Init.inv hinit
  · intro s t a hI _ hnext
    cases a with
    | recv decoded =>
        cases hnext
        exact hI.recv decoded
    | reader r a => exact hI.reader (readerNext_step hnext)
    | api a =>
        cases hnext
        exact hI.api a

/-! ## the result -/

/-- What the receive queue promises. -/
structure QueueSafe (x : External) (s : State ι) : Prop where
  -- every message is handed out once, in order
  conserved : s.handedOut ++ s.driver.receiveList = s.enqueued
  bounded : s.driver.receiveList.length ≤ CAN4VSCP_MAX_RCVMSG
  counted : s.driver.receiveList.length ≤ s.driver.receiveDataSem + s.woken
  -- a blocked reader waits for a message that is not there: each one in the queue
  -- has a reader that is on its way
  blocked : ∀ r, s.reader r = .wait → (machine ι x).next (.reader r .go) s = none →
    s.driver.receiveList.length ≤ s.woken
  timeout : ∀ r t, s.reader r = .wait → (machine ι x).next (.reader r .expired) s = some t →
    s.driver.receiveList.length ≤ s.woken

/-- **No loss, no duplication, no lost wake-up**: in every interleaving of the
receive thread and the readers, also of readers that time out or are
interrupted, the receive queue keeps its promise. -/
theorem queue_safe (x : External) (s : State ι) (hs : (machine ι x).Reachable s) : QueueSafe x s := by
  have hI := queueInv_of_reachable hs
  have hcounted := hI.counted
  exact {
    conserved := hI.conserved
    bounded := hI.bounded
    counted := hcounted
    blocked := fun r hpc hnone => by
      simp [machine, readerNext, hpc] at hnone
      omega
    timeout := fun r t hpc hnext => by
      simp [machine, readerNext, hpc] at hnext
      omega }

/-- A reader woken by the first of two messages is overtaken by another one; it
gets the second message and drains the token that is left. -/
theorem queue_safe_overtaken : ∃ s : State (Fin 2), s.handedOut.length = 2 ∧ QueueSafe .vscp s := by
  let m (k : UInt8) : CanalMsg := ⟨0, 0, 5, 1, [k], 0⟩
  let receive (k : UInt8) : List (Act (Fin 2)) := List.replicate 3 (.recv (m k))
  let start : State (Fin 2) := ⟨Driver.new, true, .idle, fun _ => .outside none none, [], []⟩
  have hinit : (machine (Fin 2) .vscp).init start := ⟨rfl, rfl, fun _ => ⟨_, _, rfl⟩, rfl, rfl⟩
  obtain ⟨s, hs, hp⟩ := (machine (Fin 2) .vscp).exists_reachableWhen (c := fun _ _ => True)
    ([.reader 0 (.call true), .reader 0 .go] ++ receive 1 ++ receive 2 ++
      [.reader 0 .go, .reader 1 (.call false), .reader 1 .go, .reader 0 .go])
    (fun s => s.handedOut.length == 2) hinit (by decide)
  exact ⟨s, by simpa using hp, queue_safe .vscp s hs⟩

end Can4vscp.ReceiveQueue
