import Can4vscp.AckTransmit
import Can4vscp.Retransmit

/-!
# Can4vscp.TransmitEvent

The transmit side of the Windows build.

Instead of semaphores there are events that stay set until they are reset, so a wait takes
nothing away: the transmit thread resets `m_transmitAckNackEvent` before it arms an attempt,
a writer resets `m_transmitDataPutEvent` before it waits for room, and
`m_transmitDataGetEvent` is never reset.  The rest is the code of `Transmit`, whose state is
used here with the tokens and counts for what has been set since the last reset.

The event is reset before the mutex is taken, not under it.  An answer to the attempt before
that comes in between sets the event again, and then the wait for the new attempt ends at
once, as with the semaphore (`event_spurious`).  That is the only way left:
`event_no_spurious` is about the runs without such an answer.  What is removed has been
acknowledged in any case (`event_ack_safe`).
-/

namespace Can4vscp.TransmitEvent

open Transmit (TxFrame Token TxPc TxStep WriterPc ApiStep Outcome Answer Ledger Start AckInv RetryInv
  RetryPlace TokensOk FreshToken)

/-! ## states -/

structure State (ι : Type) where
  tx : Transmit.State ι
  -- the transmit thread has reset m_transmitAckNackEvent, and is about to arm
  ackReset : Bool
  -- a writer has reset m_transmitDataPutEvent, and is about to wait
  putReset : ι → Bool

variable {ι : Type}

/-- A driver as it is constructed. -/
def State.new : State ι := ⟨.new, false, fun _ => false⟩

/-! ## the transmit thread -/

/-- One step of the transmit thread. -/
def txNext (o : Outcome) (s : State ι) : Option (State ι) :=
  let same : Option (State ι) := (Transmit.txNext o s.tx).map fun tx => { s with tx, ackReset := false }
  match s.tx.pc, o with
  -- WaitForSingleObject(m_transmitAckNackEvent, 500)
  | .waitAck, .ok =>
    match s.tx.transmitAckNackSem with
    | [] => none
    | token :: _ => some { s with tx := { s.tx with pc := .readAck token } }
  -- WaitForSingleObject(m_transmitDataGetEvent, 100)
  | .waitGet, .ok =>
    if 0 < s.tx.transmitDataGetSem then some { s with tx := { s.tx with pc := .checkCount2 } } else none
  | .arm _ _, .ok =>
    if s.ackReset then same
    else some { s with tx := { s.tx with transmitAckNackSem := [] }, ackReset := true }
  | _, _ => same

/-! ## the writers -/

/-- What a writer does next, or how its wait ends. -/
inductive WriterAct where
  | call (blocking : Bool) (msg : CanalMsg)
  | go
  | expired
  | abandoned
  | failed
  deriving DecidableEq, Repr

section
variable [DecidableEq ι]

/-- A wait for room is over. -/
def State.waited (s : State ι) (w : ι) (pc : WriterPc) : State ι :=
  { s with tx := s.tx.writerTo w pc, putReset := Function.update s.putReset w false }

/-- One step of a writer: `writeMsg`, or `writeMsgBlocking`. -/
def writerNext (w : ι) (a : WriterAct) (s : State ι) : Option (State ι) :=
  match s.tx.writer w, a with
  | .waitPut m, a =>
    if s.putReset w then
      -- WaitForSingleObject(m_transmitDataPutEvent, Timeout)
      match a with
      | .go => if 0 < s.tx.transmitDataPutSem then some (s.waited w (.add m)) else none
      | .expired =>
        if s.tx.transmitDataPutSem = 0 then some (s.waited w (.outside (some .timeout))) else none
      | .abandoned => some (s.waited w (.outside (some .generic)))
      -- any other failure of the wait is ignored
      | .failed => some (s.waited w (.add m))
      | .call _ _ => none
    else
      match a with
      | .go => some { s with
          tx := { s.tx with transmitDataPutSem := 0 }
          putReset := Function.update s.putReset w true }
      | _ => none
  | _, .call blocking m => (Transmit.writerNext w (.call blocking m) s.tx).map fun tx => { s with tx }
  | _, .go => (Transmit.writerNext w .go s.tx).map fun tx => { s with tx }
  | _, _ => none

end

/-! ## the machine -/

/-- Who moves. -/
inductive Act (ι : Type) where
  | transmit (o : Outcome)
  | writer (w : ι) (a : WriterAct)
  | answer (a : Answer)
  | api (waitForAck : Bool)
  deriving DecidableEq

/-- The transmit side, from an initial state. -/
def machine [DecidableEq ι] (s₀ : State ι) : Machine (State ι) (Act ι) where
  init := (· = s₀)
  next
    | .transmit o, s => txNext o s
    | .writer w a, s => writerNext w a s
    | .answer a, s => some { s with tx := Transmit.answerNext a s.tx }
    | .api waitForAck, s => (Transmit.apiNext waitForAck s.tx).map fun tx => { s with tx }

/-! ## what a step can do -/

/-- The steps of the transmit thread. -/
inductive EventStep (o : Outcome) (s : State ι) : State ι → Prop where
  | take (hpc : s.tx.pc = .waitAck) (token : Token) (rest : List Token)
      (hsem : s.tx.transmitAckNackSem = token :: rest) :
      EventStep o s { s with tx := { s.tx with pc := .readAck token } }
  | takeGet (hpc : s.tx.pc = .waitGet) :
      EventStep o s { s with tx := { s.tx with pc := .checkCount2 } }
  | reset (again : Bool) (f : TxFrame) (hpc : s.tx.pc = .arm again f) :
      EventStep o s { s with tx := { s.tx with transmitAckNackSem := [] }, ackReset := true }
  | same (tx : Transmit.State ι) (h : Transmit.txNext o s.tx = some tx)
      (harm : ∀ again f, s.tx.pc = .arm again f → s.ackReset = true) :
      EventStep o s { s with tx, ackReset := false }

variable {o : Outcome} {s₀ s t : State ι}

theorem txNext_step (h : txNext o s = some t) : EventStep o s t := by
  unfold txNext at h
  simp only at h
  split at h
  · next hpc =>
      split at h
      · cases h
      · next token rest hsem =>
          cases h
          exact .take hpc token rest hsem
  · next hpc =>
      simp only [Option.ite_none_right_eq_some, Option.some.injEq] at h
      obtain ⟨-, rfl⟩ := h
      exact .takeGet hpc
  · next again f hpc =>
      split at h
      · next hreset =>
          obtain ⟨tx, htx, rfl⟩ := Option.map_eq_some_iff.mp h
          exact .same tx htx fun _ _ _ => hreset
      · cases h
        exact .reset again f hpc
  · next o _ _ hwait hget harm =>
      obtain ⟨tx, htx, rfl⟩ := Option.map_eq_some_iff.mp h
      refine .same tx htx fun again f hpc => ?_
      cases o with
      | ok => exact absurd rfl (harm again f hpc)
      | _ => simp [Transmit.txNext, hpc] at htx

/-- A writer appends messages to the queue, and sets or resets events. -/
theorem writerNext_effect [DecidableEq ι] {w : ι} {a : WriterAct} (h : writerNext w a s = some t) :
    t.ackReset = s.ackReset ∧
      ∃ ms getSem putSem writer, t.tx = s.tx.withWriters ms getSem putSem writer := by
  have hwaited : ∀ pc, ∃ ms getSem putSem writer,
      s.tx.writerTo w pc = s.tx.withWriters ms getSem putSem writer := fun pc =>
    ⟨[], s.tx.transmitDataGetSem, s.tx.transmitDataPutSem, _, by
      rw [Transmit.withWriters_nil]; rfl⟩
  unfold writerNext at h
  split at h
  · split at h
    · split at h
      · simp only [Option.ite_none_right_eq_some, Option.some.injEq] at h
        exact h.2 ▸ ⟨rfl, hwaited _⟩
      · simp only [Option.ite_none_right_eq_some, Option.some.injEq] at h
        exact h.2 ▸ ⟨rfl, hwaited _⟩
      · cases h
        exact ⟨rfl, hwaited _⟩
      · cases h
        exact ⟨rfl, hwaited _⟩
      · cases h
    · split at h
      · cases h
        exact ⟨rfl, [], s.tx.transmitDataGetSem, 0, s.tx.writer, by rw [Transmit.withWriters_nil]⟩
      · cases h
  · obtain ⟨tx, htx, rfl⟩ := Option.map_eq_some_iff.mp h
    exact ⟨rfl, Transmit.writerNext_effect htx⟩
  · obtain ⟨tx, htx, rfl⟩ := Option.map_eq_some_iff.mp h
    exact ⟨rfl, Transmit.writerNext_effect htx⟩
  · cases h

/-! ## the ledger -/

/-- The ledger holds with events as well. -/
theorem EventStep.ledger (ht : EventStep o s t) (h : Ledger s.tx) : Ledger t.tx := by
  cases ht with
  | take hpc token rest hsem =>
      exact { h with closed := fun hapi => absurd (h.closed hapi) (by simp [hpc]) }
  | takeGet hpc => exact { h with closed := fun hapi => absurd (h.closed hapi) (by simp [hpc]) }
  | reset again f hpc => exact { h with }
  | same tx htx harm => exact h.tx (Transmit.txNext_step htx)

theorem ledger_of_reachable [DecidableEq ι] {c : Act ι → State ι → Prop} (h₀ : Start s₀.tx)
    (hs : (machine s₀).ReachableWhen c s) : Ledger s.tx := by
  refine hs.invariant (P := fun s => Ledger s.tx) ?_ ?_
  · rintro s rfl
    exact Transmit.ledger_of_reachable h₀ (Machine.ReachableWhen.init (c := fun _ _ => True) rfl)
  · intro s t a hI _ hnext
    cases a with
    | transmit o => exact (txNext_step hnext).ledger hI
    | writer w a =>
        obtain ⟨-, ms, getSem, putSem, writer, heq⟩ := writerNext_effect hnext
        rw [heq]
        exact hI.writers ms getSem putSem writer
    | answer a =>
        cases hnext
        exact hI.answer a
    | api b =>
        obtain ⟨tx, htx, rfl⟩ := Option.map_eq_some_iff.mp hnext
        exact hI.api (Transmit.apiNext_step htx)

/-! ## what is removed has been acknowledged -/

theorem EventStep.ackInv (ht : EventStep o s t) (hl : Ledger s.tx) (h : AckInv s.tx) :
    AckInv t.tx := by
  cases ht with
  | take hpc token rest hsem =>
      have hplace := h.place
      simp only [Transmit.AckPlace, hpc] at hplace
      exact h.goto (.readAck token) (by simp [hpc]) hplace _ _ _ _
  | takeGet hpc => exact h.goto .checkCount2 (by simp [hpc]) trivial _ _ _ _
  | reset again f hpc => exact { h with }
  | same tx htx harm => exact h.tx hl (Transmit.txNext_step htx)

/-- A session with an adapter that answers what it received, not too late. -/
def Session : Act ι → State ι → Prop
  | .answer a, s => Transmit.AckSession (.answer a) s.tx
  | .api b, s => Transmit.AckSession (.api b) s.tx
  | _, _ => True

instance : (a : Act ι) → (s : State ι) → Decidable (Session a s)
  | .answer a, s => inferInstanceAs (Decidable (Transmit.AckSession (.answer a) s.tx))
  | .api b, s => inferInstanceAs (Decidable (Transmit.AckSession (.api b) s.tx))
  | .transmit _, _ | .writer _ _, _ => .isTrue trivial

/-- What every run of a session keeps. -/
structure SessionInv (s : State ι) : Prop where
  ack : AckInv s.tx
  countedFrom : s.tx.countedFrom = 0

section
variable [DecidableEq ι]

theorem SessionInv.next (h : SessionInv s) (hl : Ledger s.tx) {a : Act ι} (hc : Session a s)
    (hnext : (machine s₀).next a s = some t) : SessionInv t := by
  cases a with
  | transmit o =>
      have ht := txNext_step hnext
      refine ⟨ht.ackInv hl h.ack, ?_⟩
      cases ht with
      | same tx htx harm =>
          refine Eq.trans ?_ h.countedFrom
          cases Transmit.txNext_step htx <;> rfl
      | _ => exact h.countedFrom
  | writer w a =>
      obtain ⟨-, ms, getSem, putSem, writer, heq⟩ := writerNext_effect hnext
      refine ⟨?_, ?_⟩ <;> rw [heq]
      · exact h.ack.writers ms getSem putSem writer
      · exact h.countedFrom
  | answer a =>
      cases hnext
      refine ⟨h.ack.answer hc, ?_⟩
      obtain ⟨info, sem, acked, nacked, heq⟩ := Transmit.answerNext_effect a s.tx
      simp only [heq]
      exact h.countedFrom
  | api b =>
      obtain ⟨tx, htx, rfl⟩ := Option.map_eq_some_iff.mp hnext
      have hstep := Transmit.apiNext_step htx
      refine ⟨h.ack.api hc hstep, ?_⟩
      cases hstep with
      | opens hapi => exact absurd hapi hc
      | _ => exact h.countedFrom

/-- What is to be seen of the transmit side in a session with ACK. -/
structure EventSafe (s : State ι) : Prop where
  conserved : s.tx.removed ++ s.tx.transmitList = s.tx.accepted
  -- what has been removed was acknowledged, in a frame that carried it
  removed : ∀ i m, s.tx.removed[i]? = some m →
    ∃ f ∈ s.tx.acked, f ∈ s.tx.sent ∧ f.pos = i ∧ f.msg = m
  -- the frames carry the accepted messages in order, with repetitions
  carried : ∀ f ∈ s.tx.sent, s.tx.accepted[f.pos]? = some f.msg
  order : Repeats (s.tx.sent.map (·.pos)) s.tx.removed.length
  frames : s.tx.cntTransmitFrames = s.tx.removed.length
  data : s.tx.cntTransmitData = (s.tx.removed.map fun m => m.sizeData.toNat).sum

/-- **Transmit safety with ACK and events**: as with semaphores, messages are removed only
after they were acknowledged, and sent in order. -/
theorem event_ack_safe (s₀ : State ι) (h₀ : Start s₀.tx) (hflag : s₀.tx.waitForAck = true)
    (hpc : s₀.tx.pc = .start) (hseq : s₀.tx.seq = 0) (hprogress : s₀.tx.bTransmissionInProgress = false)
    (s : State ι) (hs : (machine s₀).ReachableWhen Session s) : EventSafe s := by
  have hl := ledger_of_reachable h₀ hs
  have hI : SessionInv s := by
    refine hs.invariant_of (fun s hs => ledger_of_reachable h₀ hs) ?_
      fun s t a hl hI hc hnext => hI.next hl hc hnext
    rintro s rfl
    exact ⟨Transmit.ackInv_of_reachable h₀ hflag hpc hseq hprogress (.init rfl), h₀.countedFrom⟩
  have hcounted : s.tx.counted = s.tx.removed := by
    rw [Transmit.State.counted, hI.countedFrom, List.drop_zero]
  exact {
    conserved := hl.conserved
    removed := fun i m hm => by
      obtain ⟨f, hf, hpos, hmsg⟩ := hI.ack.removed i m hm
      exact ⟨f, hf, hI.ack.acked f hf, hpos, hmsg⟩
    carried := fun f hf => (hI.ack.sent f hf).msg
    order := hI.ack.order
    frames := by rw [hl.frames, hcounted]
    data := by rw [hl.data, hcounted] }

end

/-- The wait for the first frame expires, and its ACK comes after the event was reset: the
message is sent once more, and removed after the ACK of the second frame. -/
theorem event_ack_safe_late : ∃ s : State Unit, s.tx.removed.length = 1 ∧ s.tx.sent.length = 2 ∧
    EventSafe s := by
  let f (k : Nat) : TxFrame := ⟨k, 0, ⟨0, 0, 5, 1, [7], 0⟩, UInt8.ofNat k⟩
  let steps (n : Nat) : List (Act Unit) := List.replicate n (.transmit .ok)
  let run : List (Act Unit) :=
    steps 10 ++ [.transmit .expired] ++ steps 4 ++ [.answer ⟨true, 0, 0, some (f 0)⟩] ++ steps 2 ++
    [.answer ⟨true, 0, 1, some (f 1)⟩] ++ steps 3
  obtain ⟨s, hs, hp⟩ := (machine ⟨Transmit.ackStart, false, fun _ => false⟩).exists_reachableWhen
    (c := Session) run (fun s => s.tx.removed.length == 1 && s.tx.sent.length == 2) rfl (by decide)
  simp only [Bool.and_eq_true, beq_iff_eq] at hp
  exact ⟨s, hp.1, hp.2, event_ack_safe ⟨Transmit.ackStart, false, fun _ => false⟩
    ⟨rfl, rfl, rfl, rfl, rfl, rfl, rfl, rfl, rfl, rfl, .inl rfl, fun h => by cases h⟩
    rfl rfl rfl rfl s hs⟩

/-! ## when a frame is sent again -/

/-- No answer to the attempt before comes in between the reset of the event and the arming,
no wait for an answer fails, and `close` does not set the event during such a wait. -/
def CleanStep : Act ι → State ι → Prop
  | .transmit .interrupted, s => s.tx.pc ≠ .waitAck
  | .answer a, s => s.ackReset = true → ¬ s.tx.Matches a
  | .api _, s => s.tx.api = .postingAck → s.tx.pc ≠ .waitAck
  | _, _ => True

/-- An attempt is armed, with the event reset or the session at its end. -/
theorem retryInv_arm {s : Transmit.State ι} (h : RetryInv s) {again : Bool} {f : TxFrame}
    (hpc : s.pc = .arm again f) (hreset : s.transmitAckNackSem = [] ∨ s.bRun = false)
    {t : Transmit.State ι} (ht : TxStep s t) : RetryInv t := by
  have hplace := h.place
  simp only [RetryPlace, hpc] at hplace
  obtain ⟨hprogress, -, hpos, hseq, hlist⟩ := hplace
  cases ht with
  | arm again' f' hpc' =>
      obtain ⟨rfl, rfl⟩ : again = again' ∧ f = f' := by simpa [hpc] using hpc'
      exact { h with
        waiting := fun _ => ⟨f, rfl, rfl, by simp [← hseq]⟩
        tokens := hreset.elim (fun hsem => .inl (.inl hsem)) fun hrun => .inr (.inl ⟨hrun, by simp⟩)
        place := ⟨hprogress, hpos, hlist⟩ }
  | _ => simp_all

/-- The event is set for the armed attempt; it stays set when the wait is over. -/
theorem retryInv_take {s : Transmit.State ι} (h : RetryInv s) (hpc : s.pc = .waitAck) {token : Token}
    {rest : List Token} (hsem : s.transmitAckNackSem = token :: rest) :
    RetryInv { s with pc := .readAck token } := by
  have htaken := h.take hpc hsem
  exact { htaken with
    tokens := by
      obtain hfresh | hclosing | hunarmed | hplain := h.tokens
      · exact .inl hfresh
      · exact .inr (.inl ⟨hclosing.1, by simp⟩)
      · exact absurd hunarmed.2 (by simp [hpc, TxPc.beforeArm])
      · exact .inr (.inr (.inr hplain)) }

/-- What every run of clean steps keeps. -/
structure EventInv (s : State ι) : Prop where
  retry : RetryInv s.tx
  reset : s.ackReset = true → (∃ again f, s.tx.pc = .arm again f) ∧
    (s.tx.transmitAckNackSem = [] ∨ s.tx.bRun = false)

theorem EventInv.transmit (h : EventInv s) (hc : CleanStep (.transmit o : Act ι) s)
    (ht : EventStep o s t) : EventInv t := by
  have hnotArm : (∀ again f, s.tx.pc ≠ .arm again f) → s.ackReset ≠ true := by
    intro hpc hreset
    obtain ⟨⟨again, f, harm⟩, -⟩ := h.reset hreset
    exact hpc again f harm
  cases ht with
  | take hpc token rest hsem =>
      exact ⟨retryInv_take h.retry hpc hsem,
        fun hreset => absurd hreset (hnotArm (by simp [hpc]))⟩
  | takeGet hpc =>
      have hplace := h.retry.place
      simp only [RetryPlace, hpc] at hplace
      exact ⟨h.retry.goto .checkCount2 hplace (by simp) (by simp [TxPc.beforeArm]) _ _,
        fun hreset => absurd hreset (hnotArm (by simp [hpc]))⟩
  | reset again f hpc =>
      exact ⟨{ h.retry with tokens := .inl (.inl rfl) }, fun _ => ⟨⟨again, f, hpc⟩, .inl rfl⟩⟩
  | same tx htx harm =>
      refine ⟨?_, fun hreset => by cases hreset⟩
      have hstep := Transmit.txNext_step htx
      by_cases hpc : ∃ again f, s.tx.pc = .arm again f
      · obtain ⟨again, f, hpc⟩ := hpc
        exact retryInv_arm h.retry hpc (h.reset (harm again f hpc)).2 hstep
      · refine h.retry.tx hstep (fun _ again f hat => absurd ⟨again, f, hat⟩ hpc) fun hat hto => ?_
        -- a wait that ends without the event has expired
        cases o with
        | ok => exact absurd hto (Transmit.waitAck_ok hat htx)
        | expired => exact Transmit.waitAck_expired hat htx
        | interrupted => exact absurd hat hc
        | sendFails => simp [Transmit.txNext, hat] at htx

theorem EventInv.answer (h : EventInv s) {a : Answer} (hc : CleanStep (.answer a : Act ι) s) :
    EventInv { s with tx := Transmit.answerNext a s.tx } := by
  refine ⟨h.retry.answer a, fun hreset => ?_⟩
  rw [Transmit.answerNext, if_neg (hc hreset)]
  exact h.reset hreset

theorem EventInv.api (h : EventInv s) (hl : Ledger s.tx) {b : Bool} (hc : CleanStep (.api b : Act ι) s)
    {tx : Transmit.State ι} (ht : ApiStep b s.tx tx) : EventInv { s with tx } := by
  refine ⟨h.retry.api hc ht, fun hreset => ?_⟩
  obtain ⟨⟨again, f, hpc⟩, hsem⟩ := h.reset hreset
  cases ht with
  | opens hapi => exact absurd (hl.closed hapi) (by simp [hpc])
  | stops hapi => exact ⟨⟨again, f, hpc⟩, .inr rfl⟩
  | postsAck hapi => exact ⟨⟨again, f, hpc⟩, .inr (h.retry.closing (by rw [hapi]; rfl))⟩
  | _ => exact ⟨⟨again, f, hpc⟩, hsem⟩

section
variable [DecidableEq ι]

theorem eventInv_of_reachable (hs : (machine (State.new : State ι)).ReachableWhen CleanStep s) :
    EventInv s := by
  refine hs.invariant_of (fun s hs => ledger_of_reachable Transmit.start_new hs) ?_ ?_
  · rintro s rfl
    exact ⟨Transmit.retryInv_of_reachable (.init rfl), fun hreset => by cases hreset⟩
  · intro s t a hl hI hc hnext
    cases a with
    | transmit o => exact hI.transmit hc (txNext_step hnext)
    | writer w a =>
        obtain ⟨hreset, ms, getSem, putSem, writer, heq⟩ := writerNext_effect hnext
        refine ⟨?_, ?_⟩ <;> rw [heq]
        · exact hI.retry.writers ms getSem putSem writer
        · rw [hreset]
          exact hI.reset
    | answer a =>
        cases hnext
        exact hI.answer hc
    | api b =>
        obtain ⟨tx, htx, rfl⟩ := Option.map_eq_some_iff.mp hnext
        exact hI.api hl hc (Transmit.apiNext_step htx)

/-- **No spurious retransmission with events**: a message is sent again only after a NACK or
a timeout, whatever answers come late, as long as none comes in between the reset of the
event and the arming. -/
theorem event_no_spurious (s : State ι) (hs : (machine State.new).ReachableWhen CleanStep s) :
    Transmit.NoSpurious s.tx :=
  (eventInv_of_reachable hs).retry.noSpurious

end

instance : (a : Act ι) → (s : State ι) → Decidable (CleanStep a s)
  | .transmit .interrupted, s => inferInstanceAs (Decidable (s.tx.pc ≠ .waitAck))
  | .answer a, s => inferInstanceAs (Decidable (s.ackReset = true → ¬ s.tx.Matches a))
  | .api _, s => inferInstanceAs (Decidable (s.tx.api = .postingAck → s.tx.pc ≠ .waitAck))
  | .transmit .ok, _ | .transmit .expired, _ | .transmit .sendFails, _ | .writer _ _, _ => .isTrue trivial

/-- Open with ACK, queue a message and send it. -/
def openAndSend : List (Act Unit) :=
  [.api true, .api true, .writer () (.call false ⟨0, 0, 5, 1, [7], 0⟩), .writer () .go,
    .writer () .go, .writer () .go] ++ List.replicate 10 (.transmit .ok)

/-- The ACK of the first attempt comes after its wait has expired and before the event is
reset: the second attempt is waited for. -/
theorem event_no_spurious_late : ∃ s : State Unit,
    s.tx.sent = [Transmit.attempt 0, Transmit.attempt 1] ∧ s.tx.pc = .waitAck ∧
      s.tx.transmitAckNackSem = [] ∧ Transmit.NoSpurious s.tx := by
  obtain ⟨s, hs, hp⟩ := (machine (State.new : State Unit)).exists_reachableWhen (c := CleanStep)
    (openAndSend ++ [.transmit .expired, .answer ⟨true, 0, 0, some (Transmit.attempt 0)⟩] ++
      List.replicate 6 (.transmit .ok))
    (fun s => s.tx.sent == [Transmit.attempt 0, Transmit.attempt 1] && s.tx.pc == .waitAck &&
      s.tx.transmitAckNackSem == []) rfl (by decide)
  simp only [Bool.and_eq_true, beq_iff_eq] at hp
  exact ⟨s, hp.1.1, hp.1.2, hp.2, event_no_spurious s hs⟩

/-- The ACK of the first attempt comes in between the reset of the event and the arming of
the second attempt: a third frame is built at once. -/
theorem event_spurious : ∃ s : State Unit, (machine State.new).Reachable s ∧
    ¬ Transmit.NoSpurious s.tx := by
  obtain ⟨s, hs, hp⟩ := (machine (State.new : State Unit)).exists_reachableWhen
    (c := fun _ _ => True)
    (openAndSend ++ [.transmit .expired] ++ List.replicate 3 (.transmit .ok) ++ [.answer ⟨true, 0, 0, some (Transmit.attempt 0)⟩] ++
      List.replicate 7 (.transmit .ok))
    (fun s => s.tx.spurious) rfl (by decide)
  exact ⟨s, hs, Transmit.State.spurious.not_noSpurious hp⟩

end Can4vscp.TransmitEvent
