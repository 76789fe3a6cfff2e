import Can4vscp.Handshake
import Can4vscp.TransmitMessage
import Can4vscp.Transmit
import Mathlib.Logic.Relation

/-!
# Can4vscp.Closing

What is written to the serial port while the driver closes.

`close` sends the CLOSE command and waits for the reply while both worker threads are
still at work: `m_bRun` and `m_bOpen` are cleared afterwards.  In between the transmit
thread may send the frame it has in hand, take another message from the queue, or open
the adapter again (`softOpen`).  `closeFinal_of_quiet` says that CLOSE is the last
command as long as it does not.

The machine is the one of `Transmit` with `softOpen`, with the frames that go out after
CLOSE as history.  What `open` sends is out before `close` is called.  In `Handshake`
`softOpen` is one step; here it is taken apart (`softOpen_steps`).
-/

namespace Can4vscp.Closing

open Commands Handshake Memory Transmit

def CAN4VSCP_FLAG_ENABLE_REOPEN : UInt32 := 0x00000040

/-! ## states -/

/-- Where the transmit thread is in `softOpen`. -/
inductive SoftPc where
  | outside
  | timestamp
  | baudrate
  | mode
  deriving DecidableEq, Repr

/-- What becomes of a command: the port does not take it, or it is written and the reply
comes in time or not. -/
inductive Sent where
  | notWritten
  | unanswered
  | answered
  deriving DecidableEq, Repr

structure State (ι : Type) where
  tx : Transmit.State ι
  initFlag : UInt32
  nBaud : UInt8
  sequencyno : UInt8
  soft : SoftPc
  -- close has sent its command
  closing : Bool
  -- history: the frames written since CLOSE was
  sinceClose : Option (List Frame)

variable {ι : Type}

/-- A driver as it is constructed. -/
def State.new : State ι where
  tx := Transmit.State.new
  initFlag := 0
  nBaud := SET_BAUDRATE_115200
  sequencyno := 0
  soft := .outside
  closing := false
  sinceClose := none

/-- A frame is written. -/
def State.write (s : State ι) (f : Frame) : State ι :=
  { s with sinceClose := s.sinceClose.map (· ++ [f]) }

variable (x : External) (garbage : Mem UInt8)

/-! ## the transmit thread -/

/-- The frame the step hands to the port. -/
def writes (o : Transmit.Outcome) (s : Transmit.State ι) : Option Frame :=
  match s.pc, o with
  | .send _ f, .ok => some (transmitFrame x garbage f.msg f.seq)
  | _, _ => none

/-- One step outside of `softOpen`. -/
def transmitNext (o : Transmit.Outcome) (s : State ι) : Option (State ι) :=
  if s.soft = .outside then
    (txNext o s.tx).map fun t =>
      match writes x garbage o s.tx with
      | some f => { s with tx := t }.write f
      | none => { s with tx := t }
  else none

/-- The transmit thread has nothing to transmit, and the clock lets it open the adapter
again. -/
def softOpenNext (s : State ι) : Option (State ι) :=
  if s.tx.pc = .idle ∧ s.soft = .outside ∧ s.initFlag &&& CAN4VSCP_FLAG_ENABLE_REOPEN ≠ 0 then
    some { s with soft := .timestamp }
  else none

/-- `softOpen` returns. -/
def State.leaveSoft (s : State ι) : State ι :=
  { s with soft := .outside, tx := { s.tx with pc := .loop } }

/-- Send a command, and go on if the reply comes. -/
def State.sendSoft (s : State ι) (cmdcode : UInt8) (param : List UInt8) (r : Sent)
    (next : State ι → State ι) : State ι :=
  let s' := { s with sequencyno := s.sequencyno + 1 }
  match r with
  | .notWritten => s'.leaveSoft
  | .unanswered => (s'.write (commandFrame x cmdcode param s.sequencyno)).leaveSoft
  | .answered => next (s'.write (commandFrame x cmdcode param s.sequencyno))

/-- One step of `softOpen`. -/
def softNext (r : Sent) (s : State ι) : Option (State ι) :=
  match s.soft with
  | .outside => none
  | .timestamp =>
    if s.initFlag &&& CAN4VSCP_FLAG_ENABLE_TIMESTAMP ≠ 0 then
      some (s.sendSoft x VSCP_DRIVER_CONFIG_TIMESTAMP [1] r fun s => { s with soft := .baudrate })
    else some { s with soft := .baudrate }
  | .baudrate =>
    if SET_BAUDRATE_115200 ≠ s.nBaud then
      some (s.sendSoft x VSCP_DRIVER_CONFIG_BAUDRATE [s.nBaud] r fun s => { s with soft := .mode })
    else some { s with soft := .mode }
  | .mode => some (s.sendSoft x (modeCommand s.initFlag) [] r State.leaveSoft)

/-! ## the receive thread -/

/-- The frame of `sendACK` and `sendNACK`. -/
def ackFrame (ack : Bool) (seq : UInt8) : Frame :=
  ⟨x.code (if ack then .ack else .nack), 0, seq, 0, []⟩

/-! ## opening and closing -/

/-- The CLOSE command of `close`. -/
def closeNext (r : Sent) (s : State ι) : Option (State ι) :=
  if s.tx.api = .opened ∧ s.closing = false then
    some { s with
      sequencyno := s.sequencyno + 1
      closing := true
      sinceClose := if r = .notWritten then none else some [] }
  else none

/-- The other steps of opening and closing. -/
def apiNext (flags : UInt32) (nBaud : UInt8) (s : State ι) : Option (State ι) :=
  let waitForAck := decide (flags &&& CAN4VSCP_FLAG_ENABLE_WAIT_FOR_ACK ≠ 0)
  match s.tx.api with
  | .closed =>
    (Transmit.apiNext waitForAck s.tx).map fun t =>
      { s with tx := t, initFlag := flags, nBaud, closing := false, sinceClose := none }
  | .opened =>
    if s.closing then (Transmit.apiNext waitForAck s.tx).map fun t => { s with tx := t } else none
  | _ => (Transmit.apiNext waitForAck s.tx).map fun t => { s with tx := t }

/-! ## the machine -/

/-- Who moves. -/
inductive Act (ι : Type) where
  | transmit (o : Transmit.Outcome)
  | softOpen
  | soft (r : Sent)
  | writer (w : ι) (a : WriterAct)
  | answer (a : Answer)
  | acknowledge (ack : Bool) (seq : UInt8)
  | close (r : Sent)
  | api (flags : UInt32) (nBaud : UInt8)
  deriving DecidableEq

/-- The driver and what it writes to the port. -/
def machine (ι : Type) [DecidableEq ι] : Machine (State ι) (Act ι) where
  init := (· = State.new)
  next
    | .transmit o, s => transmitNext x garbage o s
    | .softOpen, s => softOpenNext s
    | .soft r, s => softNext x r s
    | .writer w a, s => (writerNext w a s.tx).map fun t => { s with tx := t }
    | .answer a, s => some { s with tx := answerNext a s.tx }
    | .acknowledge ack seq, s => some (s.write (ackFrame x ack seq))
    | .close r, s => closeNext r s
    | .api flags nBaud, s => apiNext flags nBaud s

/-! ## what may not follow CLOSE -/

/-- A CANAL frame, or a command that opens the adapter. -/
def Reopens (f : Frame) : Prop :=
  f.frameType = x.code .canal ∨
    f.frameType = x.code .command ∧
      f.payload.headD 0 ∈ [VSCP_CAN4VSCP_DRIVER_COMMAND_OPEN, VSCP_CAN4VSCP_DRIVER_COMMAND_LISTEN,
        VSCP_CAN4VSCP_DRIVER_COMMAND_LOOPBACK]

/-- CLOSE is final. -/
structure CloseFinal (s : State ι) : Prop where
  silent : ∀ frames, s.sinceClose = some frames → ∀ f ∈ frames, ¬ Reopens x f
  -- whatever else the adapter receives after CLOSE
  closed : s.tx.api = .closed → ∀ (frames received : List Frame) (a : Adapter),
    s.sinceClose = some frames → received.Sublist frames →
    (received.foldl (Adapter.accept x) (a.command VSCP_CAN4VSCP_DRIVER_COMMAND_CLOSE)).mode = .closed

/-- The transmit thread has a frame in hand. -/
def inHand : TxPc → Bool
  | .arm _ _ => true
  | .send _ _ => true
  | _ => false

/-- When CLOSE is written, the transmit thread has no frame in hand and is not in
`softOpen`; afterwards it finds no message to transmit, and does not call `softOpen`. -/
def Quiet (a : Act ι) (s : State ι) : Prop :=
  match a with
  | .close r => r ≠ .notWritten → inHand s.tx.pc = false ∧ s.soft = .outside
  | .transmit _ =>
    s.sinceClose.isSome = true → ∀ again, s.tx.pc = .fetch again → s.tx.transmitList = []
  | .softOpen => s.sinceClose = none
  | _ => True

/-! ## what the adapter makes of it -/

variable {x garbage}

/-- The receive thread's answers do not open the adapter. -/
theorem not_reopens_ackFrame (ack : Bool) (seq : UInt8) : ¬ Reopens x (ackFrame x ack seq) := by
  cases ack <;> simp [Reopens, ackFrame, x.code_injective.eq_iff]

/-- A closed adapter stays closed. -/
theorem accept_closed {f : Frame} (hf : ¬ Reopens x f) {a : Adapter} (ha : a.mode = .closed) :
    (a.accept x f).mode = .closed := by
  unfold Adapter.accept
  split
  · next htype =>
      have hcode : f.payload.headD 0 ∉ [VSCP_CAN4VSCP_DRIVER_COMMAND_OPEN,
          VSCP_CAN4VSCP_DRIVER_COMMAND_LISTEN, VSCP_CAN4VSCP_DRIVER_COMMAND_LOOPBACK] :=
        fun hmem => hf (.inr ⟨htype, hmem⟩)
      simp only [List.mem_cons, List.not_mem_nil, or_false, not_or] at hcode
      obtain ⟨hopen, hlisten, hloopback⟩ := hcode
      simp only [Adapter.command, modeOf, if_neg hopen, if_neg hlisten, if_neg hloopback]
      split
      · next mode hmode =>
          split at hmode
          · cases hmode
            rfl
          · cases hmode
      · exact ha
  · split
    · unfold Adapter.configure
      split
      · exact ha
      · split <;> exact ha
    · exact ha

theorem foldl_accept_closed {frames : List Frame} (hframes : ∀ f ∈ frames, ¬ Reopens x f)
    {a : Adapter} (ha : a.mode = .closed) : (frames.foldl (Adapter.accept x) a).mode = .closed := by
  induction frames generalizing a with
  | nil => exact ha
  | cons f frames ih =>
      obtain ⟨hf, hrest⟩ := List.forall_mem_cons.mp hframes
      exact ih hrest (accept_closed hf ha)

/-- The adapter is left closed if nothing that opens it follows. -/
theorem closeFinal_of_silent {s : State ι}
    (h : ∀ frames, s.sinceClose = some frames → ∀ f ∈ frames, ¬ Reopens x f) : CloseFinal x s where
  silent := h
  closed := fun _ frames _ _ hframes hsub =>
    foldl_accept_closed (fun f hf => h frames hframes f (hsub.subset hf)) rfl

/-! ## softOpen step by step -/

/-- The driver and the adapter of `Handshake`, where the adapter has received some of the
frames written since CLOSE. -/
structure Simulates (x : External) (a : Adapter) (s : State ι) (h : Session) : Prop where
  initFlag : s.initFlag = h.initFlag
  nBaud : s.nBaud = h.nBaud
  sequencyno : s.sequencyno = h.sequencyno
  adapter : ∃ frames received : List Frame, s.sinceClose = some frames ∧ received.Sublist frames ∧
    h.adapter = received.foldl (Adapter.accept x) a

/-- Some steps of `softOpen`. -/
abbrev SoftRun (x : External) : State ι → State ι → Prop :=
  Relation.ReflTransGen fun s t => ∃ r, softNext x r s = some t

section
variable (outcome : Nat → Handshake.Outcome) {s : State ι} {h : Session} {a : Adapter}

/-- A command of `softOpen` is an exchange: it goes on if the exchange succeeds. -/
theorem Simulates.sendSoft (hs : Simulates x a s h) (cmdcode : UInt8) (param : List UInt8) :
    ∃ r s', Simulates x a s' (sendCommandWait x outcome cmdcode param h).2 ∧
      ∀ next, s.sendSoft x cmdcode param r next =
        if (sendCommandWait x outcome cmdcode param h).1 then next s' else s'.leaveSoft := by
  obtain ⟨frames, received, hframes, hsub, hadapter⟩ := hs.adapter
  let f := commandFrame x cmdcode param s.sequencyno
  let s' := { s with sequencyno := s.sequencyno + 1 }.write f
  have hwrite : s'.sinceClose = some (frames ++ [f]) := by simp [s', State.write, hframes]
  have hseq : (sendCommandWait x outcome cmdcode param h).2.sequencyno = h.sequencyno + 1 := by
    simp only [sendCommandWait, exchange]
    split <;> rfl
  have hkeeps := sendCommandWait_keeps (x := x) outcome cmdcode param h
  refine ⟨if (sendCommandWait x outcome cmdcode param h).1 then .answered else .unanswered, s', ?_, ?_⟩
  · refine ⟨hs.initFlag.trans hkeeps.initFlag.symm, hs.nBaud.trans hkeeps.nBaud.symm, ?_, ?_⟩
    · rw [hseq, ← hs.sequencyno]
      rfl
    · cases exchange_adapter (x := x) outcome (commandFrame x cmdcode param h.sequencyno) h with
      | inl hlost =>
          exact ⟨_, received, hwrite, hsub.trans (List.sublist_append_left _ _), hlost.trans hadapter⟩
      | inr haccepted =>
          refine ⟨_, received ++ [f], hwrite, hsub.append (List.Sublist.refl _), haccepted.trans ?_⟩
          rw [List.foldl_append, ← hadapter, ← hs.sequencyno]
          rfl
  · intro next
    cases (sendCommandWait x outcome cmdcode param h).1 with
    | true => rfl
    | false => rfl

/-- The part of the state the relation speaks of. -/
theorem Simulates.congr {t : State ι} (hs : Simulates x a s h) (hflag : t.initFlag = s.initFlag)
    (hbaud : t.nBaud = s.nBaud) (hseq : t.sequencyno = s.sequencyno)
    (hclose : t.sinceClose = s.sinceClose) : Simulates x a t h :=
  ⟨hflag.trans hs.initFlag, hbaud.trans hs.nBaud, hseq.trans hs.sequencyno, by
    rw [hclose]
    exact hs.adapter⟩

/-- One exchange of `softOpen`, if it is called for. -/
theorem Simulates.stage (hs : Simulates x a s h) (pc : SoftPc)
    {next : State ι → State ι} (hnext : ∀ u, next u = { u with soft := pc })
    (c : Prop) [Decidable c] (cmdcode : UInt8) (param : List UInt8)
    (hsoft : ∀ r, softNext x r s =
      if c then some (s.sendSoft x cmdcode param r next) else some (next s)) :
    let result := if c then sendCommandWait x outcome cmdcode param h else (true, h)
    ∃ t, SoftRun x s t ∧ Simulates x a t result.2 ∧ t.soft = if result.1 then pc else .outside := by
  by_cases hc : c
  · simp only [if_pos hc]
    obtain ⟨r, s', hs', hsend⟩ := hs.sendSoft outcome cmdcode param
    have hstep : softNext x r s = some (s.sendSoft x cmdcode param r next) := by rw [hsoft, if_pos hc]
    rw [hsend] at hstep
    refine ⟨_, .single ⟨r, hstep⟩, ?_, ?_⟩
    · split
      · rw [hnext]
        exact hs'.congr rfl rfl rfl rfl
      · exact hs'.congr rfl rfl rfl rfl
    · split
      · rw [hnext]
      · rfl
  · simp only [if_neg hc]
    have hstep : softNext x .answered s = some (next s) := by rw [hsoft, if_neg hc]
    exact ⟨_, .single ⟨_, hstep⟩, by rw [hnext]; exact hs.congr rfl rfl rfl rfl, by rw [hnext]; rfl⟩

/-- The mode command is the last one. -/
theorem Simulates.mode (hs : Simulates x a s h) (hsoft : s.soft = .mode) :
    ∃ t, SoftRun x s t ∧ Simulates x a t (setMode x outcome h).2 ∧ t.soft = .outside := by
  obtain ⟨r, s', hs', hsend⟩ := hs.sendSoft outcome (modeCommand h.initFlag) []
  have hstep : softNext x r s = some s'.leaveSoft := by
    simp only [softNext, hsoft, hs.initFlag, hsend, ite_self]
  exact ⟨_, .single ⟨r, hstep⟩, hs'.congr rfl rfl rfl rfl, rfl⟩

/-- **softOpen step by step**: whatever becomes of its exchanges, a run of its steps writes
the frames that `Handshake.softOpen` sends. -/
theorem softOpen_steps (hs : Simulates x a s h) (hsoft : s.soft = .timestamp) :
    ∃ t, SoftRun x s t ∧ t.soft = .outside ∧
      Simulates x a t (Handshake.softOpen x outcome h).2 := by
  obtain ⟨t, hrun, ht, htsoft⟩ := hs.stage outcome .baudrate (fun _ => rfl)
    (s.initFlag &&& CAN4VSCP_FLAG_ENABLE_TIMESTAMP ≠ 0) VSCP_DRIVER_CONFIG_TIMESTAMP [1]
    (fun r => by simp only [softNext, hsoft])
  have htimestamp : (if s.initFlag &&& CAN4VSCP_FLAG_ENABLE_TIMESTAMP ≠ 0 then
      sendCommandWait x outcome VSCP_DRIVER_CONFIG_TIMESTAMP [1] h else (true, h)) =
      configTimestamp x outcome h := by rw [hs.initFlag]; rfl
  rw [htimestamp] at ht htsoft
  unfold Handshake.softOpen orFail
  split
  · next hfail => exact ⟨t, hrun, by simpa [hfail] using htsoft, ht⟩
  · next hgo =>
      rw [Bool.not_eq_false] at hgo
      rw [hgo, if_pos rfl] at htsoft
      obtain ⟨u, hrun', hu, husoft⟩ := ht.stage outcome .mode (fun _ => rfl)
        (SET_BAUDRATE_115200 ≠ t.nBaud) VSCP_DRIVER_CONFIG_BAUDRATE [t.nBaud]
        (fun r => by simp only [softNext, htsoft])
      have hbaud : (if SET_BAUDRATE_115200 ≠ t.nBaud then
          sendCommandWait x outcome VSCP_DRIVER_CONFIG_BAUDRATE [t.nBaud]
            (configTimestamp x outcome h).2 else (true, (configTimestamp x outcome h).2)) =
          configBaudrate x outcome (configTimestamp x outcome h).2 := by rw [ht.nBaud]; rfl
      rw [hbaud] at hu husoft
      dsimp only
      split
      · next hfail => exact ⟨u, hrun.trans hrun', by simpa [hfail] using husoft, hu⟩
      · next hgo' =>
          rw [Bool.not_eq_false] at hgo'
          rw [hgo', if_pos rfl] at husoft
          obtain ⟨v, hrun'', hv, hvsoft⟩ := hu.mode outcome husoft
          refine ⟨v, (hrun.trans hrun').trans hrun'', hvsoft, ?_⟩
          split
          · exact hv
          · exact hv

end

/-! ## the invariant -/

/-- After CLOSE the transmit thread has nothing to send. -/
structure Silent (x : External) (s : State ι) (frames : List Frame) : Prop where
  frames : ∀ f ∈ frames, ¬ Reopens x f
  inHand : inHand s.tx.pc = false
  soft : s.soft = .outside

/-- A transmit thread that finds no message gets no frame in hand. -/
theorem inHand_of_txStep {s t : Transmit.State ι} (h : TxStep s t) (hs : inHand s.pc = false)
    (hfetch : ∀ again, s.pc = .fetch again → s.transmitList = []) : inHand t.pc = false := by
  cases h with
  | fetch again hpc m rest hlist =>
      rw [hfetch again hpc] at hlist
      cases hlist
  | arm again f hpc =>
      rw [hpc] at hs
      cases hs
  | postPut acked hpc => cases acked <;> rfl
  | check hpc pc hto => cases hto <;> next hto => rw [hto]; rfl
  | check2 hpc pc hto => cases hto <;> next hto => rw [hto]; rfl
  | _ => rfl

/-- Without a frame in hand nothing is written. -/
theorem writes_none {s : Transmit.State ι} (hs : inHand s.pc = false) (o : Transmit.Outcome) :
    writes x garbage o s = none := by
  unfold writes
  split
  · next hpc =>
      rw [hpc] at hs
      cases hs
  · rfl

variable {s t : State ι}

/-- Opening aside, the thread that opens and closes the driver leaves the transmit thread
where it is. -/
theorem apiStep_pc {b : Bool} {s t : Transmit.State ι} (h : ApiStep b s t) (hs : s.api ≠ .closed) :
    t.pc = s.pc := by
  cases h with
  | opens hapi => exact absurd hapi hs
  | _ => rfl

/-- What may have been written before and what is written now. -/
def SilentSince (x : External) (s : State ι) : Prop :=
  ∀ frames, s.sinceClose = some frames → Silent x s frames

/-- A step that writes nothing and leaves the transmit thread where it is. -/
theorem SilentSince.keep (h : SilentSince x s) (hclose : t.sinceClose = s.sinceClose)
    (hpc : t.tx.pc = s.tx.pc) (hsoft : t.soft = s.soft) : SilentSince x t := by
  intro frames hframes
  rw [hclose] at hframes
  have hs := h frames hframes
  exact ⟨hs.frames, by rw [hpc]; exact hs.inHand, hsoft.trans hs.soft⟩

theorem SilentSince.transmit {o : Transmit.Outcome} (h : SilentSince x s)
    (hc : Quiet (.transmit o) s) (hnext : transmitNext x garbage o s = some t) :
    SilentSince x t := by
  unfold transmitNext at hnext
  split at hnext
  · obtain ⟨u, hu, rfl⟩ := Option.map_eq_some_iff.mp hnext
    intro frames hframes
    cases hclose : s.sinceClose with
    | none =>
        split at hframes
        · simp [State.write, hclose] at hframes
        · simp [hclose] at hframes
    | some old =>
        have hs := h old hclose
        rw [writes_none hs.inHand] at hframes ⊢
        have hold : old = frames := Option.some.inj (hclose.symm.trans hframes)
        have hhand := inHand_of_txStep (txNext_step hu) hs.inHand (hc (by rw [hclose]; rfl))
        exact ⟨hold ▸ hs.frames, hhand, hs.soft⟩
  · cases hnext

theorem SilentSince.softOpen (hc : Quiet (.softOpen : Act ι) s) (hnext : softOpenNext s = some t) :
    SilentSince x t := by
  unfold softOpenNext at hnext
  split at hnext
  · cases hnext
    intro frames hframes
    have hnone : s.sinceClose = none := hc
    rw [hnone] at hframes
    cases hframes
  · cases hnext

/-- A command before CLOSE. -/
theorem sendSoft_none (hclose : s.sinceClose = none) (cmdcode : UInt8) (param : List UInt8) (r : Sent)
    {next : State ι → State ι} (hnext : ∀ u, u.sinceClose = none → (next u).sinceClose = none) :
    (s.sendSoft x cmdcode param r next).sinceClose = none := by
  unfold State.sendSoft
  cases r with
  | notWritten => exact hclose
  | unanswered => simp [State.write, State.leaveSoft, hclose]
  | answered => exact hnext _ (by simp [State.write, hclose])

theorem SilentSince.softNext {r : Sent} (h : SilentSince x s) (hnext : softNext x r s = some t) :
    SilentSince x t := by
  cases hclose : s.sinceClose with
  | some old =>
      -- softOpen has not been called
      simp [Closing.softNext, (h old hclose).soft] at hnext
  | none =>
      have hnone : t.sinceClose = none := by
        unfold Closing.softNext at hnext
        split at hnext
        · cases hnext
        · split at hnext
          · cases hnext
            exact sendSoft_none hclose _ _ r fun u hu => hu
          · cases hnext
            exact hclose
        · split at hnext
          · cases hnext
            exact sendSoft_none hclose _ _ r fun u hu => hu
          · cases hnext
            exact hclose
        · cases hnext
          exact sendSoft_none hclose _ _ r fun u hu => hu
      intro frames hframes
      rw [hnone] at hframes
      cases hframes

/-- The receive thread answers. -/
theorem SilentSince.acknowledge (h : SilentSince x s) (ack : Bool) (seq : UInt8) :
    SilentSince x (s.write (ackFrame x ack seq)) := by
  intro frames hframes
  obtain ⟨old, hclose, rfl⟩ := Option.map_eq_some_iff.mp hframes
  have hs := h old hclose
  refine ⟨?_, hs.inHand, hs.soft⟩
  intro f hf
  cases List.mem_append.mp hf with
  | inl hold => exact hs.frames f hold
  | inr hnew =>
      rw [List.mem_singleton.mp hnew]
      exact not_reopens_ackFrame ack seq

theorem SilentSince.close {r : Sent} (hc : Quiet (.close r : Act ι) s)
    (hnext : closeNext r s = some t) : SilentSince x t := by
  unfold closeNext at hnext
  split at hnext
  · cases hnext
    intro frames hframes
    by_cases hr : r = .notWritten
    · simp [hr] at hframes
    · have hnil : [] = frames := by simpa [hr] using hframes
      obtain ⟨hhand, hsoft⟩ := hc hr
      exact ⟨by simp [← hnil], hhand, hsoft⟩
  · cases hnext

theorem SilentSince.api {flags : UInt32} {nBaud : UInt8} (h : SilentSince x s)
    (hnext : apiNext flags nBaud s = some t) : SilentSince x t := by
  unfold apiNext at hnext
  dsimp only at hnext
  split at hnext
  · obtain ⟨u, -, rfl⟩ := Option.map_eq_some_iff.mp hnext
    intro frames hframes
    cases hframes
  · next hapi =>
      split at hnext
      · obtain ⟨u, hu, rfl⟩ := Option.map_eq_some_iff.mp hnext
        exact h.keep rfl (apiStep_pc (apiNext_step hu) (by simp [hapi])) rfl
      · cases hnext
  · next hapi _ =>
      obtain ⟨u, hu, rfl⟩ := Option.map_eq_some_iff.mp hnext
      exact h.keep rfl (apiStep_pc (apiNext_step hu) hapi) rfl

variable [DecidableEq ι]

/-- Every quiet run keeps the silence. -/
theorem silentSince_of_quiet (hs : (machine x garbage ι).ReachableWhen Quiet s) :
    SilentSince x s := by
  refine hs.invariant ?_ ?_
  · rintro s rfl frames hframes
    cases hframes
  · intro s t a hI hc hnext
    cases a with
    | transmit o => exact hI.transmit hc hnext
    | softOpen => exact .softOpen hc hnext
    | soft r => exact hI.softNext hnext
    | writer w a =>
        obtain ⟨u, hu, rfl⟩ := Option.map_eq_some_iff.mp hnext
        obtain ⟨ms, getSem, putSem, writer, rfl⟩ := writerNext_effect hu
        exact hI.keep rfl rfl rfl
    | answer a =>
        cases hnext
        obtain ⟨info, sem, acked, nacked, heq⟩ := answerNext_effect a s.tx
        exact hI.keep rfl (by rw [heq]) rfl
    | acknowledge ack seq =>
        cases hnext
        exact hI.acknowledge ack seq
    | close r => exact .close hc hnext
    | api flags nBaud => exact hI.api hnext

/-- **CLOSE is final**: in every run in which the transmit thread has nothing to send when
`close` writes the CLOSE command, and finds nothing afterwards. -/
theorem closeFinal_of_quiet (hs : (machine x garbage ι).ReachableWhen Quiet s) :
    CloseFinal x s :=
  closeFinal_of_silent fun frames hframes => (silentSince_of_quiet hs frames hframes).frames

/-! ## runs -/

instance (a : Act ι) (s : State ι) : Decidable (Quiet a s) :=
  match a with
  | .close r => inferInstanceAs (Decidable (r ≠ .notWritten → _ ∧ _))
  | .transmit _ => inferInstanceAs (Decidable (_ → ∀ _ : Bool, _ → _))
  | .softOpen => inferInstanceAs (Decidable (_ = _))
  | .soft _ => .isTrue trivial
  | .writer _ _ => .isTrue trivial
  | .answer _ => .isTrue trivial
  | .acknowledge _ _ => .isTrue trivial
  | .api _ _ => .isTrue trivial

/-- The driver closes with a message in the queue: the transmit thread waits for the
semaphore until it is told to stop, and only the receive thread writes. -/
theorem closeFinal_of_quiet_queued : ∃ s : State Unit,
    s.tx.api = .closed ∧ s.tx.transmitList ≠ [] ∧
      s.sinceClose = some [ackFrame .vscp true 7] ∧ CloseFinal .vscp s := by
  let run : List (Act Unit) :=
    [.api 0 0, .api 0 0, .transmit .ok, .transmit .ok, .transmit .ok,
      .writer () (.call false ⟨0, 0, 5, 0, [], 0⟩), .writer () .go, .writer () .go,
      .close .answered, .acknowledge true 7, .api 0 0, .api 0 0, .transmit .interrupted,
      .transmit .ok, .api 0 0, .api 0 0, .api 0 0, .api 0 0]
  obtain ⟨s, hs, hp⟩ := (machine .vscp (fun _ => 0) Unit).exists_reachableWhen (c := Quiet) run
    (fun s => s.tx.api == .closed && s.tx.transmitList != [] &&
      s.sinceClose == some [ackFrame .vscp true 7]) rfl (by decide)
  simp only [Bool.and_eq_true, beq_iff_eq, bne_iff_ne] at hp
  exact ⟨s, hp.1.1, hp.1.2, hp.2, closeFinal_of_quiet hs⟩

/-- A CANAL frame follows CLOSE; and so does the OPEN command of `softOpen`, which leaves
the adapter open when `close` has returned. -/
theorem follows_close :
    (∃ s : State Unit, (machine .vscp (fun _ => 0) Unit).Reachable s ∧ ¬ CloseFinal .vscp s) ∧
    ∃ (s : State Unit) (frames : List Frame), (machine .vscp (fun _ => 0) Unit).Reachable s ∧
      s.tx.api = .closed ∧ s.sinceClose = some frames ∧
      ∀ a : Adapter, (frames.foldl (Adapter.accept .vscp)
        (a.command VSCP_CAN4VSCP_DRIVER_COMMAND_CLOSE)).mode = .normal := by
  constructor
  · -- the message is fetched before CLOSE is written, and sent afterwards
    let run : List (Act Unit) :=
      [.api 0 0, .api 0 0, .writer () (.call false ⟨0, 0, 5, 0, [], 0⟩), .writer () .go,
        .writer () .go] ++ List.replicate 7 (.transmit .ok) ++ [.close .answered, .transmit .ok]
    obtain ⟨s, hs, hp⟩ := (machine .vscp (fun _ => 0) Unit).exists_reachableWhen
      (c := fun _ _ => True) run
      (fun s => s.sinceClose == some [transmitFrame .vscp (fun _ => 0) ⟨0, 0, 5, 0, [], 0⟩ 0])
      rfl (by decide)
    refine ⟨s, hs, fun hfinal => ?_⟩
    exact hfinal.silent _ (by simpa using hp) _ (List.mem_singleton_self _) (.inl rfl)
  · -- nothing is left to transmit when CLOSE has been written
    let run : List (Act Unit) :=
      [.api CAN4VSCP_FLAG_ENABLE_REOPEN 0, .api 0 0,
        .writer () (.call false ⟨0, 0, 5, 0, [], 0⟩), .writer () .go, .writer () .go,
        .writer () .go] ++ List.replicate 14 (.transmit .ok) ++
      [.close .answered, .softOpen, .soft .answered, .soft .answered, .soft .answered, .api 0 0,
        .api 0 0, .transmit .ok, .api 0 0, .api 0 0, .api 0 0, .api 0 0]
    let frames : List Frame := [commandFrame .vscp VSCP_CAN4VSCP_DRIVER_COMMAND_OPEN [] 1]
    obtain ⟨s, hs, hp⟩ := (machine .vscp (fun _ => 0) Unit).exists_reachableWhen
      (c := fun _ _ => True) run
      (fun s => s.tx.api == .closed && s.sinceClose == some frames) rfl (by decide)
    simp only [Bool.and_eq_true, beq_iff_eq] at hp
    exact ⟨s, frames, hs, hp.1, hp.2, fun a => by
      simp only [frames, List.foldl_cons, List.foldl_nil, Adapter.accept_command]
      rfl⟩

end Can4vscp.Closing
