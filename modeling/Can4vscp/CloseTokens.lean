import Can4vscp.Transmit

/-!
# Can4vscp.CloseTokens

What `close` leaves in the semaphores of the transmit thread.

`close` posts `m_transmitDataGetSem` and `m_transmitAckNackSem` once each, so that the
transmit thread wakes up wherever it waits.  It waits at one of them at most, and does
not come back to either: of the two tokens one is left.  An ACK that arrives while the
driver closes lets the thread go from one to the other, but it has posted a token of its
own.
-/

namespace Can4vscp.Transmit

variable {ι : Type} {s t : State ι}

/-! ## where the transmit thread is -/

/-- The answer to a frame has not been looked at since the frame was armed. -/
def State.Armed (s : State ι) : Prop :=
  (∃ again f, s.pc = .send again f) ∨
    (s.bTransmissionInProgress = true ∧ (∀ token, s.pc ≠ .readAck token) ∧ s.pc ≠ .popAck)

/-- The transmit thread of a driver that has stopped does not wait any more. -/
def State.Passed (s : State ι) : Prop :=
  match s.pc with
  | .waitAck => False
  | .readAck _ => s.msgResponseInfo.bAck = false
  | .popAck => False
  | .postPut acked => acked = false
  | .checkCount => False
  | .waitGet => False
  | _ => True

/-- What holds of the two semaphores in every run; `sessions` counts the times the driver
has been opened. -/
structure Tokens (sessions : Nat) (s : State ι) : Prop where
  running : s.bRun = true ↔ s.api = .opening ∨ s.api = .opened
  exited : s.api = .closed → s.pc = .exited
  progress : s.pc = .waitAck → s.bTransmissionInProgress = true
  answered : s.Armed → s.msgResponseInfo.bAck = true → 0 < s.transmitAckNackSem.length
  -- the first token is there, or the transmit thread will not wait for an answer
  posting : s.api = .postingAck → s.pc = .waitAck → 0 < s.transmitDataGetSem
  waiting : s.api = .joining → s.pc = .waitAck →
    0 < s.transmitDataGetSem ∧ 0 < s.transmitAckNackSem.length ∧
      (s.msgResponseInfo.bAck = true → 1 < s.transmitAckNackSem.length)
  leaving : s.api = .joining → s.pc ≠ .waitAck →
    0 < s.transmitAckNackSem.length ∨ (0 < s.transmitDataGetSem ∧ s.Passed)
  left : s.api = .closed → 0 < sessions →
    0 < s.transmitAckNackSem.length ∨ 0 < s.transmitDataGetSem

/-! ## the transmit thread -/

/-- A driver that has stopped is left at the top of the loop. -/
theorem exits_of_not_running {o : Outcome} (h : txNext o s = some t) (hpc : s.pc = .loop)
    (hrun : s.bRun = false) : t.pc = .exited := by
  cases o with
  | ok =>
      simp only [txNext, hpc, hrun, Bool.false_eq_true, if_false, Option.some.injEq] at h
      rw [← h]
  | _ => simp [txNext, hpc] at h

/-- The transmit thread does not open or close the driver. -/
theorem TxStep.frame (h : TxStep s t) : t.api = s.api ∧ t.bRun = s.bRun := by
  cases h <;> exact ⟨rfl, rfl⟩

/-- It takes a token of `m_transmitAckNackSem` where it waits for an answer, and one of
`m_transmitDataGetSem` where it waits for a message. -/
theorem TxStep.tokens (h : TxStep s t) :
    (s.pc ≠ .waitAck → t.transmitAckNackSem = s.transmitAckNackSem) ∧
      (s.pc ≠ .waitGet → t.transmitDataGetSem = s.transmitDataGetSem) := by
  cases h with
  | take hpc token rest hsem => exact ⟨fun hne => absurd hpc hne, fun _ => rfl⟩
  | takeGet hpc => exact ⟨fun _ => rfl, fun hne => absurd hpc hne⟩
  | _ => exact ⟨fun _ => rfl, fun _ => rfl⟩

/-- It only comes to wait for an answer from the top of the loop. -/
theorem TxStep.toWaitAck (h : TxStep s t) (ht : t.pc = .waitAck) :
    s.bRun = true ∧ s.bTransmissionInProgress = true ∧ t.bTransmissionInProgress = true := by
  cases h with
  | toWait hpc hrun hack hprogress => exact ⟨hrun, hprogress, hprogress⟩
  | postPut acked hpc => cases acked <;> cases ht
  | check hpc pc hto =>
      rw [show pc = .waitAck from ht] at hto
      simp at hto
  | check2 hpc pc hto =>
      rw [show pc = .waitAck from ht] at hto
      simp at hto
  | _ => cases ht

/-- An answer that has not been looked at was there before: arming a frame clears it, and
the thread that has taken a token looks. -/
theorem TxStep.armed (h : TxStep s t) (ht : t.Armed) (hbAck : t.msgResponseInfo.bAck = true) :
    s.Armed ∧ s.msgResponseInfo.bAck = true ∧ t.transmitAckNackSem = s.transmitAckNackSem := by
  have hprogress : (∀ again f, t.pc ≠ .send again f) → t.bTransmissionInProgress = true := by
    intro hsend
    cases ht with
    | inl hpc =>
        obtain ⟨again, f, hpc⟩ := hpc
        exact absurd hpc (hsend again f)
    | inr hin => exact hin.1
  have hlook : (∀ token, t.pc ≠ .readAck token) ∧ t.pc ≠ .popAck := by
    cases ht with
    | inl hpc =>
        obtain ⟨again, f, hpc⟩ := hpc
        simp [hpc]
    | inr hin => exact hin.2
  cases h with
  | start hpc => cases hbAck
  | take hpc token rest hsem => exact absurd rfl (hlook.1 token)
  | ack token hpc hack => exact absurd rfl hlook.2
  | nack token hpc hack =>
      rw [hack] at hbAck
      cases hbAck
  | popAckEmpty hpc hlist => cases hprogress (by simp)
  | popAck hpc m rest hlist => cases hprogress (by simp)
  | arm again f hpc => cases hbAck
  | sendAgain f hpc => exact ⟨.inl ⟨_, _, hpc⟩, hbAck, rfl⟩
  | sendAck f hpc hack => exact ⟨.inl ⟨_, _, hpc⟩, hbAck, rfl⟩
  | sendPlain f hpc hplain => exact ⟨.inl ⟨_, _, hpc⟩, hbAck, rfl⟩
  | sendFails again f hpc => exact ⟨.inl ⟨_, _, hpc⟩, hbAck, rfl⟩
  | postPut acked hpc =>
      exact ⟨.inr ⟨hprogress (by cases acked <;> simp), by simp [hpc], by simp [hpc]⟩, hbAck, rfl⟩
  | check hpc pc hto =>
      refine ⟨.inr ⟨hprogress ?_, by simp [hpc], by simp [hpc]⟩, hbAck, rfl⟩
      cases hto with
      | inl hto => simp [hto]
      | inr hto => simp [hto]
  | check2 hpc pc hto =>
      refine ⟨.inr ⟨hprogress ?_, by simp [hpc], by simp [hpc]⟩, hbAck, rfl⟩
      cases hto with
      | inl hto => simp [hto]
      | inr hto => simp [hto]
  | _ => exact ⟨.inr ⟨hprogress (by simp), by simp [*], by simp [*]⟩, hbAck, rfl⟩

/-- A thread that does not wait any more keeps going to the end. -/
theorem TxStep.passed (h : TxStep s t) (hs : s.Passed) (hloop : s.pc = .loop → t.pc = .exited) :
    t.Passed ∧ t.transmitDataGetSem = s.transmitDataGetSem := by
  cases h with
  | toWait hpc hrun hack hprogress => cases hloop hpc
  | toCheck hpc hplain => cases hloop hpc
  | ack token hpc hack => simp [State.Passed, hpc, hack] at hs
  | postPut acked hpc =>
      have hacked : acked = false := by simpa [State.Passed, hpc] using hs
      simp [State.Passed, hacked]
  | check2 hpc pc hto =>
      cases hto with
      | inl hto => simp [State.Passed, hto]
      | inr hto => simp [State.Passed, hto]
  | popPlain hpc m rest hlist => simp [State.Passed, State.pop]
  | _ => simp_all [State.Passed]

/-- It takes a token, or is woken without one. -/
theorem TxStep.ofWaitAck (h : TxStep s t) (hpc : s.pc = .waitAck) :
    t.transmitDataGetSem = s.transmitDataGetSem ∧ t.msgResponseInfo = s.msgResponseInfo ∧
      ((∃ token, s.transmitAckNackSem = token :: t.transmitAckNackSem ∧ t.pc = .readAck token) ∨
        t.transmitAckNackSem = s.transmitAckNackSem) := by
  cases h with
  | take _ token rest hsem => exact ⟨rfl, rfl, .inl ⟨token, hsem, rfl⟩⟩
  | expire _ hsem => exact ⟨rfl, rfl, .inr rfl⟩
  | interrupt _ => exact ⟨rfl, rfl, .inr rfl⟩
  | _ => simp_all

theorem TxStep.not_exited (h : TxStep s t) : s.pc ≠ .exited := by
  cases h <;> simp [*]

variable {sessions : Nat}

theorem Tokens.stopped (hI : Tokens sessions s) (hapi : s.api ≠ .opening ∧ s.api ≠ .opened) :
    s.bRun = false := by
  rw [← Bool.not_eq_true, hI.running]
  exact not_or.mpr hapi

theorem Tokens.tx {o : Outcome} (hI : Tokens sessions s) (hnext : txNext o s = some t) :
    Tokens sessions t := by
  have h := txNext_step hnext
  obtain ⟨hapi, hrun⟩ := h.frame
  obtain ⟨hack, hget⟩ := h.tokens
  -- a driver that has stopped does not come back to where answers are waited for
  have hback : s.api ≠ .opening ∧ s.api ≠ .opened → t.pc ≠ .waitAck := by
    intro hs ht
    have hfalse := hI.stopped hs
    rw [(h.toWaitAck ht).1] at hfalse
    cases hfalse
  exact {
    running := by rw [hapi, hrun]; exact hI.running
    exited := fun hclosed => absurd (hI.exited (hapi ▸ hclosed)) h.not_exited
    progress := fun ht => (h.toWaitAck ht).2.2
    answered := fun harmed hbAck => by
      obtain ⟨hs, hsAck, hsem⟩ := h.armed harmed hbAck
      rw [hsem]
      exact hI.answered hs hsAck
    posting := fun hposting ht => by
      rw [hapi] at hposting
      exact absurd ht (hback (by simp [hposting]))
    waiting := fun hjoining ht => by
      rw [hapi] at hjoining
      exact absurd ht (hback (by simp [hjoining]))
    leaving := fun hjoining _ => by
      rw [hapi] at hjoining
      by_cases hpc : s.pc = .waitAck
      · obtain ⟨hg, ha, hmore⟩ := hI.waiting hjoining hpc
        obtain ⟨hget', hinfo, htoken⟩ := h.ofWaitAck hpc
        cases htoken with
        | inl htake =>
            -- with an ACK there was a token of its own
            obtain ⟨token, hsem, htpc⟩ := htake
            rw [hsem, List.length_cons] at hmore
            cases hbAck : s.msgResponseInfo.bAck with
            | true => exact .inl (by have := hmore hbAck; omega)
            | false =>
                refine .inr ⟨by rw [hget']; exact hg, ?_⟩
                simp only [State.Passed, htpc, hinfo, hbAck]
        | inr hsame => exact .inl (by rw [hsame]; exact ha)
      · cases hI.leaving hjoining hpc with
        | inl ha => exact .inl (by rw [hack hpc]; exact ha)
        | inr hleft =>
            obtain ⟨hg, hpassed⟩ := hleft
            have hloop := fun hpc => exits_of_not_running hnext hpc (hI.stopped (by simp [hjoining]))
            obtain ⟨hpassed', hsame⟩ := h.passed hpassed hloop
            exact .inr ⟨by rw [hsame]; exact hg, hpassed'⟩
    left := fun hclosed => absurd (hI.exited (hapi ▸ hclosed)) h.not_exited }

/-! ## the other threads -/

/-- Writers only post `m_transmitDataGetSem`. -/
theorem WriterStep.getSem [DecidableEq ι] {w : ι} {a : WriterAct} (h : WriterStep w s a t) :
    s.transmitDataGetSem ≤ t.transmitDataGetSem := by
  cases h with
  | post hpc => exact Nat.le_succ _
  | _ => exact Nat.le_refl _

theorem Tokens.more (hI : Tokens sessions s) (ms : List CanalMsg) {getSem : Nat} (putSem : Nat)
    (writer : ι → WriterPc) (hget : s.transmitDataGetSem ≤ getSem) :
    Tokens sessions (s.withWriters ms getSem putSem writer) :=
  { hI with
    posting := fun hposting hpc => Nat.lt_of_lt_of_le (hI.posting hposting hpc) hget
    waiting := fun hjoining hpc => by
      obtain ⟨hg, ha⟩ := hI.waiting hjoining hpc
      exact ⟨Nat.lt_of_lt_of_le hg hget, ha⟩
    leaving := fun hjoining hpc =>
      (hI.leaving hjoining hpc).imp_right fun hleft => ⟨Nat.lt_of_lt_of_le hleft.1 hget, hleft.2⟩
    left := fun hclosed hsessions =>
      (hI.left hclosed hsessions).imp_right fun hg => Nat.lt_of_lt_of_le hg hget }

theorem Tokens.writer [DecidableEq ι] {w : ι} {a : WriterAct} (hI : Tokens sessions s)
    (hnext : writerNext w a s = some t) : Tokens sessions t := by
  have hget := (writerNext_step hnext).getSem
  obtain ⟨ms, getSem, putSem, writer, rfl⟩ := writerNext_effect hnext
  exact hI.more ms putSem writer hget

/-- An answer posts a token. -/
theorem Tokens.answer (hI : Tokens sessions s) (a : Answer) : Tokens sessions (answerNext a s) := by
  unfold answerNext
  split
  · have hpos : 0 < (s.transmitAckNackSem ++ [Token.answer s.armed]).length := by simp
    exact { hI with
      answered := fun _ _ => hpos
      waiting := fun hjoining hpc => by
        obtain ⟨hg, ha, -⟩ := hI.waiting hjoining hpc
        exact ⟨hg, hpos, fun _ => by simp; omega⟩
      leaving := fun _ _ => .inl hpos
      left := fun _ _ => .inl hpos }
  · exact { hI with }

/-- Calling `open` on a driver that runs changes the flags and the statistics. -/
theorem Tokens.flags (hI : Tokens sessions s) (waitForAck : Bool) (frames data countedFrom : Nat) :
    Tokens sessions { s with
      waitForAck
      cntTransmitFrames := frames
      cntTransmitData := data
      countedFrom } :=
  { hI with }

/-- A new session begins; the transmit thread starts. -/
theorem Tokens.opens {b : Bool} (h : ApiStep b s t) (hclosed : s.api = .closed) :
    Tokens (sessions + 1) t := by
  cases h with
  | opens _ =>
      exact {
        running := by simp
        exited := fun hapi => by cases hapi
        progress := fun hpc => by cases hpc
        answered := fun harmed _ => by
          cases harmed with
          | inl hsend =>
              obtain ⟨again, f, hpc⟩ := hsend
              cases hpc
          | inr hin => cases hin.1
        posting := fun hapi => by cases hapi
        waiting := fun hapi => by cases hapi
        leaving := fun hapi => by cases hapi
        left := fun hapi => by cases hapi }
  | _ => simp_all

/-- Before the tokens are posted, nothing depends on where the thread that opens and closes
the driver is. -/
theorem Tokens.before (hI : Tokens sessions s) {api : ApiPc} {bRun : Bool} (bOpen : Bool)
    (putSem : Nat) (hrun : bRun = true ↔ api = .opening ∨ api = .opened)
    (hapi : api ≠ .postingAck ∧ api ≠ .joining ∧ api ≠ .closed) :
    Tokens sessions { s with bRun, bOpen, transmitDataPutSem := putSem, api } :=
  { hI with
    running := hrun
    exited := fun h => absurd h hapi.2.2
    posting := fun h => absurd h hapi.1
    waiting := fun h => absurd h hapi.2.1
    leaving := fun h => absurd h hapi.2.1
    left := fun h => absurd h hapi.2.2 }

/-- `close` posts its tokens one after the other. -/
theorem Tokens.api {b : Bool} (hI : Tokens sessions s) (h : ApiStep b s t)
    (hopen : s.api ≠ .closed) : Tokens sessions t := by
  cases h with
  | opens hapi => exact absurd hapi hopen
  | isOpen hapi =>
      have hrun : s.bRun = true := hI.running.mpr (.inl hapi)
      exact hI.before true s.transmitDataPutSem (by simp [hrun]) (by simp)
  | stops hapi => exact hI.before s.bOpen s.transmitDataPutSem (by simp) (by simp)
  | shuts hapi =>
      have hrun : s.bRun = false := hI.stopped (by simp [hapi])
      exact hI.before false s.transmitDataPutSem (by simp [hrun]) (by simp)
  | postsPut hapi =>
      have hrun : s.bRun = false := hI.stopped (by simp [hapi])
      exact hI.before s.bOpen (s.transmitDataPutSem + 1) (by simp [hrun]) (by simp)
  | postsGet hapi =>
      have hrun : s.bRun = false := hI.stopped (by simp [hapi])
      exact { hI with
        running := by simp [hrun]
        exited := fun hapi => by cases hapi
        posting := fun _ _ => Nat.succ_pos _
        waiting := fun hapi => by cases hapi
        leaving := fun hapi => by cases hapi
        left := fun hapi => by cases hapi }
  | postsAck hapi =>
      have hrun : s.bRun = false := hI.stopped (by simp [hapi])
      have hpos : 0 < (s.transmitAckNackSem ++ [Token.close]).length := by simp
      exact { hI with
        running := by simp [hrun]
        exited := fun hapi => by cases hapi
        answered := fun _ _ => hpos
        posting := fun hapi => by cases hapi
        waiting := fun _ hpc => by
          refine ⟨hI.posting hapi hpc, hpos, fun hbAck => ?_⟩
          have hwait : s.pc = .waitAck := hpc
          have harmed : s.Armed := .inr ⟨hI.progress hwait, by simp [hwait], by simp [hwait]⟩
          have hanswered := hI.answered harmed hbAck
          simp only [List.length_append, List.length_singleton]
          omega
        leaving := fun _ _ => .inl hpos
        left := fun hapi => by cases hapi }
  | joins hapi hexit =>
      have hrun : s.bRun = false := hI.stopped (by simp [hapi])
      exact { hI with
        running := by simp [hrun]
        exited := fun _ => hexit
        posting := fun hapi => by cases hapi
        waiting := fun hapi => by cases hapi
        leaving := fun hapi => by cases hapi
        left := fun _ _ =>
          (hI.leaving hapi (by simp [hexit])).imp_right fun hleft => hleft.1 }

/-- A driver that has not been opened. -/
theorem tokens_new : Tokens 0 (State.new : State ι) where
  running := by simp [State.new]
  exited := fun _ => rfl
  progress := fun hpc => by cases hpc
  answered := fun _ hbAck => by cases hbAck
  posting := fun hapi => by cases hapi
  waiting := fun hapi => by cases hapi
  leaving := fun hapi => by cases hapi
  left := fun _ hsessions => absurd hsessions (Nat.lt_irrefl 0)

end Can4vscp.Transmit
