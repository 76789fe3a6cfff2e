import Can4vscp.Transmit

/-!
# Can4vscp.PlainTransmit

Transmission without ACK (`CAN4VSCP_FLAG_ENABLE_WAIT_FOR_ACK` clear).

The transmit thread copies the head of the queue under the lock, sends it
without the lock, and locks again to remove whatever is the head then.  It is
the only thread that removes messages, so this is the message it has sent
(`PlainInv`); every accepted message is sent once, in order.
-/

namespace Can4vscp.Transmit

variable {ι : Type}

/-- In step with the queue: what has been sent has been removed, except for the
message just sent. -/
def PlainInv (s : State ι) : Prop :=
  match s.pc with
  | .waitAck | .readAck _ | .popAck => False
  | .txOpen true | .fetch true | .arm true _ | .send true _ => False
  | .arm false f | .send false f =>
    s.sent.map (·.msg) = s.removed ∧ s.transmitList.head? = some f.msg
  | .popPlain =>
    ∃ m, s.sent.map (·.msg) = s.removed ++ [m] ∧ s.transmitList.head? = some m
  | _ => s.sent.map (·.msg) = s.removed

variable {s₀ s t : State ι}

/-- Except for the moment after a send, what has been sent has been removed. -/
theorem PlainInv.sent_removed (h : PlainInv s) (hpc : s.pc ≠ .popPlain) :
    s.sent.map (·.msg) = s.removed := by
  unfold PlainInv at h
  split at h
  case h_10 hpop => exact absurd hpop hpc
  all_goals first | exact h.elim | exact h.1 | exact h

/-- Nothing is transmitted a second time. -/
theorem PlainInv.first (h : PlainInv s) {again : Bool}
    (hpc : s.pc = .txOpen again ∨ s.pc = .fetch again ∨
      (∃ f, s.pc = .arm again f) ∨ ∃ f, s.pc = .send again f) : again = false := by
  cases again with
  | false => rfl
  | true =>
      unfold PlainInv at h
      rcases hpc with hpc | hpc | ⟨f, hpc⟩ | ⟨f, hpc⟩
      all_goals rw [hpc] at h
      all_goals exact h.elim

/-- Nor does the thread wait for an answer. -/
theorem PlainInv.no_wait (h : PlainInv s) :
    s.pc ≠ .waitAck ∧ (∀ token, s.pc ≠ .readAck token) ∧ s.pc ≠ .popAck := by
  unfold PlainInv at h
  refine ⟨fun hpc => ?_, fun token hpc => ?_, fun hpc => ?_⟩
  all_goals rw [hpc] at h
  all_goals exact h

/-- Every step of the transmit thread keeps it in step with the queue. -/
theorem PlainInv.tx (h : PlainInv s) (hplain : s.waitForAck = false) (ht : TxStep s t) :
    PlainInv t := by
  cases ht with
  | start hpc => exact h.sent_removed (by simp [hpc])
  | exit hpc => exact h.sent_removed (by simp [hpc])
  | toWait hpc hrun hack => simp [hack] at hplain
  | toCheck hpc => exact h.sent_removed (by simp [hpc])
  | take hpc => exact absurd hpc h.no_wait.1
  | expire hpc => exact absurd hpc h.no_wait.1
  | interrupt hpc => exact absurd hpc h.no_wait.1
  | ack token hpc => exact absurd hpc (h.no_wait.2.1 token)
  | nack token hpc => exact absurd hpc (h.no_wait.2.1 token)
  | popAckEmpty hpc => exact absurd hpc h.no_wait.2.2
  | popAck hpc => exact absurd hpc h.no_wait.2.2
  | postPut acked hpc =>
      have hsent := h.sent_removed (by simp [hpc])
      cases acked with
      | true => exact hsent
      | false => exact hsent
  | check hpc pc hto =>
      have hsent := h.sent_removed (by simp [hpc])
      rcases hto with rfl | rfl
      · exact hsent
      · exact hsent
  | takeGet hpc => exact h.sent_removed (by simp [hpc])
  | missGet hpc => exact h.sent_removed (by simp [hpc])
  | check2 hpc pc hto =>
      have hsent := h.sent_removed (by simp [hpc])
      rcases hto with rfl | rfl
      · exact hsent
      · exact hsent
  | idle hpc => exact h.sent_removed (by simp [hpc])
  | notOpen again hpc => exact h.sent_removed (by simp [hpc])
  | isOpen again hpc =>
      obtain rfl := h.first (.inl hpc)
      exact h.sent_removed (by simp [hpc])
  | fetchEmpty again hpc => exact h.sent_removed (by simp [hpc])
  | fetch again hpc m rest hlist =>
      obtain rfl := h.first (.inr (.inl hpc))
      exact ⟨h.sent_removed (by simp [hpc]), by simp [State.build, hlist]⟩
  | arm again f hpc =>
      obtain rfl := h.first (.inr (.inr (.inl ⟨f, hpc⟩)))
      simp only [PlainInv, hpc] at h
      exact h
  | sendAgain f hpc => simpa using h.first (.inr (.inr (.inr ⟨f, hpc⟩)))
  | sendAck f hpc hack => simp [hack] at hplain
  | sendPlain f hpc hno =>
      simp only [PlainInv, hpc] at h
      exact ⟨f.msg, by simp [h.1], h.2⟩
  | sendFails again f hpc => exact h.sent_removed (by simp [hpc])
  | disarm again hpc => exact h.sent_removed (by simp [hpc])
  | popPlainEmpty hpc hlist => simp [PlainInv, hpc, hlist] at h
  | popPlain hpc m rest hlist =>
      simp only [PlainInv, hpc, hlist, List.head?_cons, Option.some.injEq] at h
      obtain ⟨m', hsent, rfl⟩ := h
      simpa [PlainInv, State.pop] using hsent

theorem PlainInv.writers (h : PlainInv s) (ms : List CanalMsg) (getSem putSem : Nat)
    (writer : ι → WriterPc) : PlainInv (s.withWriters ms getSem putSem writer) := by
  have hhead : ∀ m, s.transmitList.head? = some m → (s.transmitList ++ ms).head? = some m := by
    intro m hm
    simp [hm]
  revert h
  unfold PlainInv
  dsimp only [State.withWriters]
  split
  case h_10 =>
      rintro ⟨m, hsent, hm⟩
      exact ⟨m, hsent, hhead m hm⟩
  all_goals intro h
  all_goals first | exact h | exact ⟨h.1, hhead _ h.2⟩

/-- Answers change nothing the invariant speaks of. -/
theorem PlainInv.answer (h : PlainInv s) (a : Answer) : PlainInv (answerNext a s) := by
  unfold answerNext
  split <;> exact h

theorem PlainInv.api {b : Bool} (h : PlainInv s) (hclosed : s.api = .closed → s.pc = .exited)
    (ht : ApiStep b s t) : PlainInv t := by
  cases ht with
  | opens hapi => simpa [PlainInv, hclosed hapi] using h
  | _ => exact h

variable [DecidableEq ι]

/-- The flag stays clear when the driver is opened again. -/
def PlainSession : Act ι → State ι → Prop
  | .api waitForAck, _ => waitForAck = false
  | _, _ => True

instance : (a : Act ι) → (s : State ι) → Decidable (PlainSession a s)
  | .api waitForAck, _ => inferInstanceAs (Decidable (waitForAck = false))
  | .transmit _, _ => .isTrue trivial
  | .writer _ _, _ => .isTrue trivial
  | .answer _, _ => .isTrue trivial

/-- The flag is clear in every state of these runs. -/
theorem plain_of_reachable (hplain : s₀.waitForAck = false)
    (hs : (machine s₀).ReachableWhen PlainSession s) : s.waitForAck = false := by
  refine hs.invariant (fun s h => h ▸ hplain) ?_
  intro s t a hI hc hnext
  cases session_next hnext with
  | inl h => rw [h.1, hI]
  | inr h =>
      obtain ⟨b, rfl, -, hb⟩ := h
      rw [hb]
      exact hc

/-- The transmit thread stays in step with the queue. -/
theorem plainInv_of_reachable (h₀ : Start s₀) (hplain : s₀.waitForAck = false)
    (hs : (machine s₀).ReachableWhen PlainSession s) : PlainInv s := by
  refine hs.invariant_of (P := fun s => s.waitForAck = false ∧ Ledger s)
    (fun s hs => ⟨plain_of_reachable hplain hs, ledger_of_reachable h₀ hs⟩) ?_ ?_
  · rintro s rfl
    cases h₀.pc with
    | inl hpc => simp [PlainInv, hpc, h₀.sent, h₀.removed]
    | inr hpc => simp [PlainInv, hpc, h₀.sent, h₀.removed]
  · rintro s t a ⟨hflag, hledger⟩ hI hc hnext
    cases a with
    | transmit o => exact hI.tx hflag (txNext_step hnext)
    | writer w a =>
        obtain ⟨ms, getSem, putSem, writer, rfl⟩ := writerNext_effect hnext
        exact hI.writers ms getSem putSem writer
    | answer a =>
        cases hnext
        exact hI.answer a
    | api b => exact hI.api hledger.closed (apiNext_step hnext)

/-- What is to be seen of the transmit side: the messages sent and the queue are
the accepted messages, except that a message just sent is still in the queue
until it is removed, and the counters count the messages removed since the
driver was opened. -/
structure ExactlyOnce (s : State ι) : Prop where
  sent : s.pc ≠ .popPlain → s.sent.map (·.msg) ++ s.transmitList = s.accepted
  window : s.pc = .popPlain → ∃ m rest, s.transmitList = m :: rest ∧
    (s.sent.map (·.msg)).getLast? = some m ∧ s.sent.map (·.msg) ++ rest = s.accepted
  removed : s.removed ++ s.transmitList = s.accepted
  frames : s.cntTransmitFrames = s.counted.length
  data : s.cntTransmitData = (s.counted.map fun m => m.sizeData.toNat).sum

/-- **Exactly-once transmission without ACK**: whatever the writers do and
whichever sends fail, no accepted message is dropped, sent twice or overtaken. -/
theorem exactly_once (s₀ : State ι) (h₀ : Start s₀) (hplain : s₀.waitForAck = false)
    (s : State ι) (hs : (machine s₀).ReachableWhen PlainSession s) : ExactlyOnce s := by
  have hledger := ledger_of_reachable h₀ hs
  have hI := plainInv_of_reachable h₀ hplain hs
  refine ⟨fun hpc => ?_, fun hpc => ?_, hledger.conserved, hledger.frames, hledger.data⟩
  · rw [hI.sent_removed hpc, hledger.conserved]
  · simp only [PlainInv, hpc] at hI
    obtain ⟨m, hsent, hhead⟩ := hI
    obtain ⟨rest, hlist⟩ : ∃ rest, s.transmitList = m :: rest := List.head?_eq_some_iff.mp hhead
    refine ⟨m, rest, hlist, by simp [hsent], ?_⟩
    rw [hsent, ← hledger.conserved, hlist, List.append_assoc]
    rfl

/-- One writer, one message, up to the moment after the send. -/
theorem exactly_once_window :
    ∃ s : State Unit, s.pc = .popPlain ∧ s.transmitList.length = 1 ∧ ExactlyOnce s := by
  let run : List (Act Unit) :=
    [.api false, .api false, .writer () (.call true ⟨0, 0, 5, 1, [7], 0⟩), .writer () .go,
      .writer () .go, .writer () .go] ++ List.replicate 8 (.transmit .ok)
  obtain ⟨s, hs, hp⟩ := (machine State.new).exists_reachableWhen (c := PlainSession) run
    (fun s => s.pc == .popPlain && s.transmitList.length == 1) rfl (by decide)
  simp only [Bool.and_eq_true, beq_iff_eq] at hp
  exact ⟨s, hp.1, hp.2, exactly_once State.new start_new rfl s hs⟩

end Can4vscp.Transmit
