import Can4vscp.Senders
import Can4vscp.Lib.Refinement

/-!
# Can4vscp.Wire

The serial port under several threads.

Commands come from the API threads and from `softOpen`, messages from the transmit thread,
ACK and NACK from the receive thread.  They all go through `sendMsg`, which looks whether
the channel is open and holds `m_can4vscpMutex` around the write; the port takes the bytes
one by one, may give up between any two of them, and may be closed at any time.

The other machines let a frame go out in one step.  `sendMsg_atomic` says what this is
worth: every run is a run of the machine with calls that write in one step (`Atomic`), and
the bytes on the line are those of its calls, one call behind the other, and what the call
that is under way has written.
-/

namespace Can4vscp.Wire

open Memory

/-! ## the calls -/

/-- A call of `sendMsg`: the sender, the sequence number it uses, and what its two buffers
hold before it fills them.  The frame fits its buffer. -/
structure Call (x : External) where
  sender : Sender
  seq : UInt8
  payload : Mem UInt8
  sendData : Mem UInt8
  fits : sender.Fits x seq

variable {x : External}

/-- The `size` bytes at `buffer`. -/
def Call.buffer (c : Call x) : List UInt8 :=
  (c.sender.sends x c.seq c.payload c.sendData).getD []

def Call.frame (c : Call x) : Frame := c.sender.frame x c.seq

theorem Call.buffer_eq (c : Call x) : c.buffer = c.frame.bytes x.crc8 := by
  have hsends : c.sender.sends x c.seq c.payload c.sendData = some (c.frame.bytes x.crc8) :=
    (c.sender.sends_eq_some_iff c.seq c.payload c.sendData _).mpr ⟨c.fits, rfl⟩
  rw [buffer, hsends, Option.getD_some]

/-- A call `comm_puts` has come back from: how much it has written, and its result. -/
structure Send (x : External) (ι : Type) where
  thread : ι
  call : Call x
  written : Nat
  rv : Bool

variable {ι : Type}

/-- What a call has put on the line. -/
def Send.bytes (d : Send x ι) : List UInt8 := d.call.buffer.take d.written

/-! ## byte by byte -/

/-- Where a thread is in `sendMsg`. -/
inductive Pc (x : External) where
  | outside
  -- m_com.isOpen() was true
  | locking (c : Call x)
  -- in comm_puts, with some bytes written
  | putting (c : Call x) (written : Nat)
  -- comm_puts is back
  | unlocking (c : Call x) (rv : Bool)

/-- The thread has the mutex. -/
def Pc.inside : Pc x → Bool
  | .outside | .locking _ => false
  | .putting _ _ | .unlocking _ _ => true

structure State (x : External) (ι : Type) where
  isOpen : Bool
  can4vscpMutex : Option ι
  thread : ι → Pc x
  line : List UInt8
  -- history: the calls comm_puts has come back from
  sends : List (Send x ι)

/-- A step of a thread, or somebody opens or closes the channel. -/
inductive Act (x : External) (ι : Type) where
  | call (i : ι) (c : Call x)
  | go (i : ι)
  -- comm_puts gives up
  | fails (i : ι)
  | port (isOpen : Bool)

section
variable [DecidableEq ι]

def State.goto (s : State x ι) (i : ι) (pc : Pc x) : State x ι :=
  { s with thread := Function.update s.thread i pc }

/-- `comm_puts` comes back. -/
def State.puts (s : State x ι) (i : ι) (c : Call x) (written : Nat) (rv : Bool) : State x ι :=
  State.goto { s with sends := s.sends ++ [⟨i, c, written, rv⟩] } i (.unlocking c rv)

/-- `sendMsg`, behind its test. -/
def sendNext (x : External) (i : ι) (s : State x ι) : Option (State x ι) :=
  match s.thread i with
  | .outside => none
  | .locking c =>
    if s.can4vscpMutex.isNone then
      some ({ s with can4vscpMutex := some i }.goto i (.putting c 0))
    else none
  | .putting c n =>
    match c.buffer[n]? with
    | some b =>
      if s.isOpen then some ({ s with line := s.line ++ [b] }.goto i (.putting c (n + 1))) else none
    | none => some (s.puts i c n true)
  | .unlocking _ _ => some ({ s with can4vscpMutex := none }.goto i .outside)

def next (x : External) : Act x ι → State x ι → Option (State x ι)
  | .call i c, s =>
    match s.thread i with
    | .outside => some (if s.isOpen then s.goto i (.locking c) else s)
    | _ => none
  | .go i, s => sendNext x i s
  | .fails i, s =>
    match s.thread i with
    | .putting c n => some (s.puts i c n false)
    | _ => none
  | .port isOpen, s => some { s with isOpen }

end

def State.new : State x ι where
  isOpen := false
  can4vscpMutex := none
  thread _ := .outside
  line := []
  sends := []

def machine (x : External) (ι : Type) [DecidableEq ι] : Machine (State x ι) (Act x ι) where
  init s := s = .new
  next := next x

/-! ## in one step -/

/-- Where a thread is in `sendMsg`, for those who cannot look inside. -/
inductive AtomicPc (x : External) where
  | outside
  | calling (c : Call x)
  | returning (c : Call x) (rv : Bool)

/-- The calls, in the order in which they take effect. -/
structure Atomic (x : External) (ι : Type) where
  thread : ι → AtomicPc x
  sends : List (Send x ι)

inductive AtomicAct (x : External) (ι : Type) where
  | call (i : ι) (c : Call x)
  | send (i : ι) (written : Nat) (rv : Bool)
  | back (i : ι)

/-- A call takes effect once, at some time between its beginning and its end: a first part
of the frame is written, the whole frame if the result is true. -/
def atomicNext [DecidableEq ι] (x : External) : AtomicAct x ι → Atomic x ι → Option (Atomic x ι)
  | .call i c, s =>
    match s.thread i with
    | .outside => some { s with thread := Function.update s.thread i (.calling c) }
    | _ => none
  | .send i written rv, s =>
    match s.thread i with
    | .calling c =>
      if written ≤ c.buffer.length ∧ (rv = true → written = c.buffer.length) then
        some {
          thread := Function.update s.thread i (.returning c rv)
          sends := s.sends ++ [⟨i, c, written, rv⟩] }
      else none
    | _ => none
  | .back i, s =>
    match s.thread i with
    | .returning _ _ => some { s with thread := Function.update s.thread i .outside }
    | _ => none

def atomicMachine (x : External) (ι : Type) [DecidableEq ι] : Machine (Atomic x ι) (AtomicAct x ι) where
  init s := s = ⟨fun _ => .outside, []⟩
  next := atomicNext x

/-- A place, seen from outside. -/
def Pc.abs : Pc x → AtomicPc x
  | .outside => .outside
  | .locking c | .putting c _ => .calling c
  | .unlocking c rv => .returning c rv

def State.abs (s : State x ι) : Atomic x ι := ⟨fun i => (s.thread i).abs, s.sends⟩

/-- The call under way, as if it were given up now. -/
def State.pending (s : State x ι) : List (Send x ι) :=
  match s.can4vscpMutex with
  | none => []
  | some i =>
    match s.thread i with
    | .putting c n => [⟨i, c, n, false⟩]
    | _ => []

/-! ## what a step does -/

/-- The steps, with what they need. -/
inductive Step [DecidableEq ι] (x : External) (s : State x ι) : State x ι → Prop where
  | calls (i : ι) (c : Call x) (hpc : s.thread i = .outside) : Step x s (s.goto i (.locking c))
  | refused : Step x s s
  | locks (i : ι) (c : Call x) (hpc : s.thread i = .locking c) (hfree : s.can4vscpMutex = none) :
      Step x s ({ s with can4vscpMutex := some i }.goto i (.putting c 0))
  | writes (i : ι) (c : Call x) (n : Nat) (b : UInt8) (hpc : s.thread i = .putting c n)
      (hb : c.buffer[n]? = some b) :
      Step x s ({ s with line := s.line ++ [b] }.goto i (.putting c (n + 1)))
  | puts (i : ι) (c : Call x) (n : Nat) (rv : Bool) (hpc : s.thread i = .putting c n)
      (hrv : rv = true → c.buffer.length ≤ n) : Step x s (s.puts i c n rv)
  | unlocks (i : ι) (c : Call x) (rv : Bool) (hpc : s.thread i = .unlocking c rv) :
      Step x s ({ s with can4vscpMutex := none }.goto i .outside)
  | port (isOpen : Bool) : Step x s { s with isOpen }

section
variable [DecidableEq ι] {s t : State x ι} {i : ι}

theorem sendNext_step (h : sendNext x i s = some t) : Step x s t := by
  unfold sendNext at h
  split at h
  · cases h
  · next c hpc =>
      by_cases hfree : s.can4vscpMutex = none
      · simp only [hfree, Option.isNone_none, if_true, Option.some.injEq] at h
        exact h ▸ .locks i c hpc hfree
      · rw [if_neg (by simpa using hfree)] at h
        cases h
  · next c n hpc =>
      split at h
      · next b hb =>
          split at h
          · cases h
            exact .writes i c n b hpc hb
          · cases h
      · next hend =>
          cases h
          exact .puts i c n true hpc fun _ => List.getElem?_eq_none_iff.mp hend
  · next c rv hpc =>
      cases h
      exact .unlocks i c rv hpc

theorem next_step {a : Act x ι} (h : next x a s = some t) : Step x s t := by
  cases a with
  | call i c =>
      simp only [next] at h
      split at h
      · next hpc =>
          cases h
          by_cases hopen : s.isOpen = true
          · rw [if_pos hopen]
            exact .calls i c hpc
          · rw [if_neg hopen]
            exact .refused
      · cases h
  | go i => exact sendNext_step h
  | fails i =>
      simp only [next] at h
      split at h
      · next c n hpc =>
          cases h
          exact .puts i c n false hpc (by simp)
      · cases h
  | port isOpen =>
      cases h
      exact .port isOpen

/-! ## mutual exclusion -/

@[simp] theorem thread_goto_self (s : State x ι) (i : ι) (pc : Pc x) : (s.goto i pc).thread i = pc := by
  simp [State.goto]

@[simp] theorem thread_goto_of_ne (s : State x ι) {i j : ι} (pc : Pc x) (h : j ≠ i) :
    (s.goto i pc).thread j = s.thread j := by
  simp [State.goto, h]

@[simp] theorem can4vscpMutex_goto (s : State x ι) (i : ι) (pc : Pc x) :
    (s.goto i pc).can4vscpMutex = s.can4vscpMutex := rfl

@[simp] theorem line_goto (s : State x ι) (i : ι) (pc : Pc x) : (s.goto i pc).line = s.line := rfl

@[simp] theorem sends_goto (s : State x ι) (i : ι) (pc : Pc x) : (s.goto i pc).sends = s.sends := rfl

/-- The threads inside have the mutex, and the line holds what they say they have written. -/
structure WireInv (x : External) (s : State x ι) : Prop where
  owner : ∀ i, (s.thread i).inside = true ↔ s.can4vscpMutex = some i
  line : s.line = (s.sends ++ s.pending).flatMap Send.bytes
  putting : ∀ i c n, s.thread i = .putting c n → n ≤ c.buffer.length
  written : ∀ d ∈ s.sends, d.written ≤ d.call.buffer.length ∧
    (d.rv = true → d.call.buffer.length ≤ d.written)

omit [DecidableEq ι] in
theorem wireInv_new : WireInv x (State.new : State x ι) where
  owner i := by simp [State.new, Pc.inside]
  line := rfl
  putting i c n h := by cases h
  written d h := by cases h

omit [DecidableEq ι] in
theorem pending_of_putting {c : Call x} {n : Nat} (hmutex : s.can4vscpMutex = some i)
    (hpc : s.thread i = .putting c n) : s.pending = [⟨i, c, n, false⟩] := by
  simp [State.pending, hmutex, hpc]

omit [DecidableEq ι] in
theorem pending_of_unlocking {c : Call x} {rv : Bool} (hmutex : s.can4vscpMutex = some i)
    (hpc : s.thread i = .unlocking c rv) : s.pending = [] := by
  simp [State.pending, hmutex, hpc]

omit [DecidableEq ι] in
theorem pending_of_free (hfree : s.can4vscpMutex = none) : s.pending = [] := by
  simp [State.pending, hfree]

theorem pending_goto_putting {c : Call x} {n : Nat} (hmutex : s.can4vscpMutex = some i) :
    (s.goto i (.putting c n)).pending = [⟨i, c, n, false⟩] :=
  pending_of_putting hmutex (thread_goto_self s i _)

theorem pending_puts {c : Call x} {n : Nat} {rv : Bool} (hmutex : s.can4vscpMutex = some i) :
    (s.puts i c n rv).pending = [] :=
  pending_of_unlocking hmutex (thread_goto_self _ i _)

/-- A thread without the mutex moves. -/
theorem pending_goto {pc : Pc x} (hmutex : s.can4vscpMutex ≠ some i) :
    (s.goto i pc).pending = s.pending := by
  cases hs : s.can4vscpMutex with
  | none => rw [pending_of_free hs, pending_of_free (s := s.goto i pc) hs]
  | some j =>
      have hji : j ≠ i := by
        rintro rfl
        exact hmutex hs
      simp [State.pending, hs, hji]

/-- The mutex goes with the thread that moves. -/
theorem WireInv.owner_goto (hI : WireInv x s) {m : Option ι} {pc : Pc x}
    (hself : pc.inside = true ↔ m = some i)
    (hothers : ∀ j, j ≠ i → (s.can4vscpMutex = some j ↔ m = some j)) (j : ι) :
    ((s.goto i pc).thread j).inside = true ↔ m = some j := by
  by_cases hji : j = i
  · subst hji
    rw [thread_goto_self]
    exact hself
  · rw [thread_goto_of_ne s pc hji, hI.owner j]
    exact hothers j hji

/-- What is being written stays inside the buffer. -/
theorem WireInv.putting_goto (hI : WireInv x s) {pc : Pc x}
    (hself : ∀ c n, pc = .putting c n → n ≤ c.buffer.length) (j : ι) (c : Call x) (n : Nat)
    (h : (s.goto i pc).thread j = .putting c n) : n ≤ c.buffer.length := by
  by_cases hji : j = i
  · subst hji
    rw [thread_goto_self] at h
    exact hself c n h
  · rw [thread_goto_of_ne s pc hji] at h
    exact hI.putting j c n h

theorem WireInv.step (hI : WireInv x s) (h : Step x s t) : WireInv x t := by
  cases h with
  | calls i c hpc =>
      have hmutex : s.can4vscpMutex ≠ some i := by
        rw [Ne, ← hI.owner i, hpc]
        simp [Pc.inside]
      exact {
        owner := hI.owner_goto (by simp [Pc.inside, hmutex]) fun _ _ => Iff.rfl
        line := by
          rw [pending_goto hmutex]
          exact hI.line
        putting := hI.putting_goto (by simp)
        written := hI.written }
  | refused => exact hI
  | locks i c hpc hfree =>
      exact {
        owner := hI.owner_goto (by simp [Pc.inside]) fun j hji => by simp [hfree, Ne.symm hji]
        line := by simpa [pending_of_free hfree, pending_goto_putting, Send.bytes] using hI.line
        putting := hI.putting_goto (by simp)
        written := hI.written }
  | writes i c n b hpc hb =>
      have hmutex := (hI.owner i).mp (by rw [hpc]; rfl)
      have hline := hI.line
      rw [pending_of_putting hmutex hpc] at hline
      obtain ⟨hn, rfl⟩ := List.getElem?_eq_some_iff.mp hb
      exact {
        owner := hI.owner_goto (by simp [Pc.inside, hmutex]) fun _ _ => Iff.rfl
        line := by simp [hline, pending_goto_putting, hmutex, Send.bytes]
        putting := hI.putting_goto fun c' n' h => by
          cases h
          exact hn
        written := hI.written }
  | puts i c n rv hpc hrv =>
      have hmutex := (hI.owner i).mp (by rw [hpc]; rfl)
      have hline := hI.line
      rw [pending_of_putting hmutex hpc] at hline
      exact {
        owner := hI.owner_goto (by simp [Pc.inside, State.puts, hmutex]) fun _ _ => Iff.rfl
        line := by
          rw [pending_puts hmutex, List.append_nil]
          simpa [State.puts, Send.bytes] using hline
        putting := hI.putting_goto (by simp)
        written := fun d hd => by
          simp only [State.puts, sends_goto, List.mem_append, List.mem_singleton] at hd
          cases hd with
          | inl hd => exact hI.written d hd
          | inr hd =>
              subst hd
              exact ⟨hI.putting i c n hpc, hrv⟩ }
  | unlocks i c rv hpc =>
      have hmutex := (hI.owner i).mp (by rw [hpc]; rfl)
      exact {
        owner := hI.owner_goto (by simp [Pc.inside]) fun j hji => by simp [hmutex, Ne.symm hji]
        line := by
          rw [pending_of_free (s := State.goto _ _ _) rfl]
          simpa [pending_of_unlocking hmutex hpc] using hI.line
        putting := hI.putting_goto (by simp)
        written := hI.written }
  | port isOpen => exact ⟨hI.owner, hI.line, hI.putting, hI.written⟩

theorem wireInv_of_reachable (hs : (machine x ι).Reachable s) : WireInv x s := by
  refine hs.invariant (fun s hs => ?_) fun s t a hI _ hnext => hI.step (next_step hnext)
  rw [show s = .new from hs]
  exact wireInv_new

omit [DecidableEq ι] in
/-- Nothing but the bytes of the frames is written. -/
theorem WireInv.written_le (hI : WireInv x s) (d : Send x ι) (hd : d ∈ s.sends ++ s.pending) :
    d.written ≤ d.call.buffer.length := by
  cases List.mem_append.mp hd with
  | inl hd => exact (hI.written d hd).1
  | inr hd =>
      unfold State.pending at hd
      split at hd
      · cases hd
      · next i _ =>
          split at hd
          · next c n hpc =>
              rw [List.mem_singleton] at hd
              subst hd
              exact hI.putting i c n hpc
          · cases hd

/-! ## one step for all bytes -/

/-- A thread moves, seen from outside. -/
theorem abs_goto (s : State x ι) (i : ι) (pc : Pc x) :
    (s.goto i pc).abs = { s.abs with thread := Function.update s.abs.thread i pc.abs } := by
  have hthread : ∀ j, ((s.goto i pc).thread j).abs = Function.update s.abs.thread i pc.abs j := by
    intro j
    by_cases hji : j = i
    · subst hji
      simp
    · simp [hji, State.abs]
  simp only [State.abs, sends_goto, hthread]

/-- A step that stays in the same place, seen from outside. -/
theorem abs_goto_same {pc : Pc x} (h : pc.abs = (s.thread i).abs) : (s.goto i pc).abs = s.abs := by
  rw [abs_goto, h, show (s.thread i).abs = s.abs.thread i from rfl, Function.update_eq_self]

/-- Every step of the port is a step of the calls, or cannot be seen there. -/
theorem machine_refines : (machine x ι).Refines (atomicMachine x ι) (WireInv x) State.abs where
  init s hs := by
    rw [show s = .new from hs]
    rfl
  step s t a hI hnext := by
    have habs : ∀ {i pc}, s.thread i = pc → s.abs.thread i = pc.abs := fun h => congrArg Pc.abs h
    cases next_step hnext with
    | calls i c hpc =>
        refine .inr ⟨.call i c, ?_⟩
        simp [atomicMachine, atomicNext, habs hpc, Pc.abs, abs_goto]
    | refused => exact .inl rfl
    | locks i c hpc hfree => exact .inl (abs_goto_same (by simp [hpc, Pc.abs]))
    | writes i c n b hpc hb => exact .inl (abs_goto_same (by simp [hpc, Pc.abs]))
    | puts i c n rv hpc hrv =>
        have hn := hI.putting i c n hpc
        have hwhole : n ≤ c.buffer.length ∧ (rv = true → n = c.buffer.length) :=
          ⟨hn, fun h => Nat.le_antisymm hn (hrv h)⟩
        refine .inr ⟨.send i n rv, ?_⟩
        simp only [atomicMachine, atomicNext, habs hpc, Pc.abs, if_pos hwhole, State.puts, abs_goto]
        rfl
    | unlocks i c rv hpc =>
        refine .inr ⟨.back i, ?_⟩
        simp only [atomicMachine, atomicNext, habs hpc, Pc.abs, abs_goto]
        rfl
    | port isOpen => exact .inl rfl

/-! ## the result -/

/-- What the threads have made of the line. -/
structure SendsAtomically (x : External) (s : State x ι) : Prop where
  -- the calls take effect one at a time, each between its beginning and its end
  atomic : (atomicMachine x ι).Reachable s.abs
  -- and the bytes of one are not among those of another
  line : s.line = (s.sends ++ s.pending).flatMap Send.bytes
  whole : ∀ d ∈ s.sends, d.rv = true → d.bytes = d.call.frame.bytes x.crc8

/-- **`sendMsg` is atomic**: in every interleaving of the bytes that any number of threads
write, with a port that may fail or be closed at any time. -/
theorem sendMsg_atomic (x : External) (s : State x ι) (hs : (machine x ι).Reachable s) :
    SendsAtomically x s := by
  have hI := wireInv_of_reachable hs
  exact {
    atomic := machine_refines.reachable (fun _ => wireInv_of_reachable) hs
    line := hI.line
    whole := fun d hd hrv => by
      rw [Send.bytes, List.take_of_length_le ((hI.written d hd).2 hrv), Call.buffer_eq] }

/-- The frame of one thread is cut off, the one of the other waits for its end. -/
theorem sendMsg_atomic_two : ∃ s : State .vscp Bool, SendsAtomically .vscp s ∧
    s.line = [DLE, STX, 251, 0] ++ [DLE, STX, 0, 0, 7] ∧ s.sends.length = 1 := by
  let answer : Call .vscp := ⟨.sendACK, 5, fun _ => 0, fun _ => 0, trivial⟩
  let noop : Call .vscp := ⟨.sendNoopFrame, 7, fun _ => 0, fun _ => 0, trivial⟩
  let run : List (Act .vscp Bool) :=
    [.port true, .call true answer, .call false noop] ++ List.replicate 5 (.go true) ++
      [.fails true, .go true] ++ List.replicate 6 (.go false)
  obtain ⟨s, hs, hp⟩ := Machine.exists_reachableWhen (M := machine .vscp Bool)
    (c := fun _ _ => True) run
    (fun s => s.line == [DLE, STX, 251, 0] ++ [DLE, STX, 0, 0, 7] && s.sends.length == 1)
    rfl (by decide +kernel)
  simp only [Bool.and_eq_true, beq_iff_eq] at hp
  exact ⟨s, sendMsg_atomic .vscp s hs, hp⟩

end

end Can4vscp.Wire
