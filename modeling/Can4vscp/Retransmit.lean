import Can4vscp.Transmit

/-!
# Can4vscp.Retransmit

When the transmit thread sends a message again, with ACK.

A token of `m_transmitAckNackSem` and the flag `bAck` are separate: the token
only says that something happened, and the flag is cleared when the next attempt
is armed.  The POSIX build does not empty the semaphore when it arms an attempt
(the Windows build resets its event there), so a token posted for an earlier
attempt, or by `close`, ends the wait of a later attempt with `bAck` still
false, and a frame that nobody rejected is sent again
(`spurious_retransmission`).

`no_spurious` is about the runs in which every attempt of a session with ACK is
armed with an empty semaphore, no wait for an answer is interrupted by a signal,
and `close` does not post while the thread waits for an answer: there every
token that is taken was posted for the armed attempt, and a message is sent
again only after a NACK or a timeout of the attempt before.
-/

namespace Can4vscp.Transmit

variable {ι : Type}

/-! ## the property and the condition -/

/-- The tokens taken are for the armed attempt, and the head of the queue is not
sent again in a session unless the last attempt was rejected or timed out. -/
structure NoSpurious (s : State ι) : Prop where
  token : ∀ token, s.pc = .readAck token → ∃ f, s.armed = some f ∧ token = .answer (some f)
  again : s.waitForAck = true → ∀ again f, s.pc = .arm again f →
    (∃ g ∈ s.sent.drop s.sessionStart, g.pos = f.pos) → s.expired = true ∨ s.nacked = true

/-- With ACK, an attempt is armed with an empty semaphore, no wait for an answer
is interrupted, and `close` does not post into such a wait. -/
def CleanStep : Act ι → State ι → Prop
  | .transmit .interrupted, s => s.pc ≠ .waitAck
  | .transmit .ok, s =>
    s.waitForAck = true → ∀ again f, s.pc = .arm again f → s.transmitAckNackSem = []
  | .api _, s => s.api = .postingAck → s.pc ≠ .waitAck
  | _, _ => True

/-! ## the invariant -/

/-- Places of a session before its first attempt is armed. -/
def TxPc.beforeArm : TxPc → Bool
  | .exited | .start | .loop | .checkCount | .waitGet | .checkCount2 | .idle => true
  | .txOpen false | .fetch false | .arm false _ => true
  | _ => false

/-- In `close`, after `m_bRun = false`. -/
def ApiPc.closing : ApiPc → Bool
  | .closed | .opening | .opened => false
  | .stopped | .postingPut | .postingGet | .postingAck | .joining => true

/-- A rejected or expired attempt. -/
def State.Failed (s : State ι) : Prop := s.expired = true ∨ s.nacked = true

/-- There is no token, or the one for the answer to the armed attempt. -/
def FreshToken (s : State ι) : Prop :=
  s.transmitAckNackSem = [] ∨ ∃ f, s.armed = some f ∧ s.transmitAckNackSem = [.answer (some f)] ∧
    s.msgResponseInfo.bWaitingForAckNack = false ∧ (s.msgResponseInfo.bAck = false → s.nacked = true)

/-- The tokens there are will not be taken for an answer to a later attempt: they
are fresh, or the session ends, or nothing has been armed in it, or it takes no
tokens. -/
def TokensOk (s : State ι) : Prop :=
  FreshToken s ∨ (s.bRun = false ∧ s.pc ≠ .waitAck) ∨
    (s.bTransmissionInProgress = false ∧ s.pc.beforeArm = true) ∨ s.waitForAck = false

/-- What the transmit thread knows where it is. -/
def RetryPlace (s : State ι) : Prop :=
  match s.pc with
  | .waitAck | .popAck => s.bTransmissionInProgress = true
  | .readAck token =>
    s.bTransmissionInProgress = true ∧ (∃ f, s.armed = some f ∧ token = .answer (some f)) ∧
      s.msgResponseInfo.bWaitingForAckNack = false ∧
      (s.msgResponseInfo.bAck = false → s.nacked = true)
  | .txOpen again | .fetch again =>
    s.bTransmissionInProgress = again ∧ (again = true → s.Failed)
  | .arm again f =>
    s.bTransmissionInProgress = again ∧ (again = true → s.Failed) ∧ f.pos = s.removed.length ∧
      f.seq + 1 = s.seq ∧ s.transmitList ≠ []
  | .send again f =>
    s.bTransmissionInProgress = again ∧ f.pos = s.removed.length ∧ s.transmitList ≠ []
  | .start | .postPut _ | .checkCount | .waitGet | .checkCount2 | .idle | .popPlain =>
    s.bTransmissionInProgress = false
  | .exited | .loop | .disarm _ => True

structure RetryInv (s : State ι) : Prop where
  mode : s.bTransmissionInProgress = true → s.waitForAck = true ∧ s.transmitList ≠ []
  bound : ∀ g ∈ s.sent, g.pos ≤ s.removed.length
  again : s.waitForAck = true → ∀ g ∈ s.sent.drop s.sessionStart, g.pos = s.removed.length →
    s.bTransmissionInProgress = true
  waiting : s.msgResponseInfo.bWaitingForAckNack = true → ∃ f, s.armed = some f ∧
    s.msgResponseInfo.channel = 0 ∧ s.msgResponseInfo.seq = f.seq
  closing : s.api.closing = true → s.bRun = false
  tokens : TokensOk s
  place : RetryPlace s

variable {s₀ s t : State ι}

theorem RetryInv.noSpurious (h : RetryInv s) : NoSpurious s where
  token := fun token hpc => by
    have hplace := h.place
    simp only [RetryPlace, hpc] at hplace
    exact hplace.2.1
  again := fun hack again f hpc hsent => by
    have hplace := h.place
    simp only [RetryPlace, hpc] at hplace
    obtain ⟨hprogress, hfailed, hpos, -⟩ := hplace
    obtain ⟨g, hg, hgpos⟩ := hsent
    exact hfailed (hprogress.symm.trans (h.again hack g hg (hgpos.trans hpos)))

/-! ## the steps -/

/-- Going somewhere else keeps the tokens in order. -/
theorem TokensOk.goto (h : TokensOk s) (pc : TxPc) (hwait : pc = .waitAck → s.bRun = true)
    (hbefore : s.bTransmissionInProgress = false → s.pc.beforeArm = true → pc.beforeArm = true) :
    TokensOk { s with pc } := by
  obtain hfresh | hclosing | hunarmed | hplain := h
  · exact .inl hfresh
  · refine .inr (.inl ⟨hclosing.1, fun hpc => ?_⟩)
    simp [hclosing.1] at hwait
    exact hwait hpc
  · exact .inr (.inr (.inl ⟨hunarmed.1, hbefore hunarmed.1 hunarmed.2⟩))
  · exact .inr (.inr (.inr hplain))

/-- So does a step behind the arming that does not go to the wait and leaves a fresh token
fresh. -/
theorem TokensOk.armed (h : TokensOk s) (hpast : s.pc.beforeArm = false)
    (hfresh : FreshToken s → FreshToken t) (hrun : t.bRun = s.bRun)
    (hack : t.waitForAck = s.waitForAck) (hwait : t.pc ≠ .waitAck) : TokensOk t := by
  obtain hold | hclosing | hunarmed | hplain := h
  · exact .inl (hfresh hold)
  · exact .inr (.inl ⟨hrun.trans hclosing.1, hwait⟩)
  · simp [hpast] at hunarmed
  · exact .inr (.inr (.inr (hack.trans hplain)))

/-- Going somewhere else, perhaps with a token taken from or posted to the
semaphores shared with the writers. -/
theorem RetryInv.goto (h : RetryInv s) (pc : TxPc) (hplace : RetryPlace { s with pc })
    (hwait : pc = .waitAck → s.bRun = true)
    (hbefore : s.bTransmissionInProgress = false → s.pc.beforeArm = true → pc.beforeArm = true)
    (getSem putSem : Nat) :
    RetryInv { s with pc, transmitDataGetSem := getSem, transmitDataPutSem := putSem } :=
  { h with
    tokens := h.tokens.goto pc hwait hbefore
    place := hplace }

theorem RetryInv.writers (h : RetryInv s) (ms : List CanalMsg) (getSem putSem : Nat)
    (writer : ι → WriterPc) : RetryInv (s.withWriters ms getSem putSem writer) where
  mode := fun hp => ⟨(h.mode hp).1, by simp [State.withWriters, (h.mode hp).2]⟩
  bound := h.bound
  again := h.again
  waiting := h.waiting
  closing := h.closing
  tokens := h.tokens
  place := by
    have hplace := h.place
    revert hplace
    unfold RetryPlace
    dsimp only [State.withWriters]
    split
    case h_6 =>
        rintro ⟨h1, h2, h3, h4, h5⟩
        exact ⟨h1, h2, h3, h4, by simp [h5]⟩
    case h_7 =>
        rintro ⟨h1, h2, h3⟩
        exact ⟨h1, h2, by simp [h3]⟩
    all_goals exact fun hplace => hplace

theorem State.Failed.record (h : s.Failed) (a : Answer) : (s.record a).Failed := by
  cases h with
  | inl hexpired => exact .inl hexpired
  | inr hnacked => exact .inr (by simp [State.record, hnacked])

/-- An answer is recorded; the thread that has taken a token finds the response
info as it was. -/
theorem RetryPlace.record (h : RetryPlace s) (a : Answer) (info : MsgResponseInfo)
    (sem : List Token) (hinfo : ∀ token, s.pc = .readAck token → info = s.msgResponseInfo) :
    RetryPlace { s.record a with msgResponseInfo := info, transmitAckNackSem := sem } := by
  revert h
  unfold RetryPlace
  dsimp only [State.record]
  split
  case h_3 token hpc =>
      rw [hinfo token hpc]
      exact fun ⟨h1, h2, h3, h4⟩ => ⟨h1, h2, h3, fun hb => by simp [h4 hb]⟩
  case h_4 => exact fun ⟨h1, h2⟩ => ⟨h1, fun hagain => (h2 hagain).record a⟩
  case h_5 => exact fun ⟨h1, h2⟩ => ⟨h1, fun hagain => (h2 hagain).record a⟩
  case h_6 => exact fun ⟨h1, h2, h3⟩ => ⟨h1, fun hagain => (h2 hagain).record a, h3⟩
  all_goals exact fun hplace => hplace

/-- A matching NACK is a NACK of the armed attempt. -/
theorem RetryInv.nacks (h : RetryInv s) {a : Answer} (hmatch : s.Matches a) (hack : a.ack = false) :
    s.nacks a = true := by
  obtain ⟨f, harmed, hchannel, hseq⟩ := h.waiting hmatch.2.1
  have hc : a.channel = 0 := hmatch.2.2.1.symm.trans hchannel
  have hs : f.seq = a.seq := hseq.symm.trans hmatch.2.2.2
  simp [State.nacks, hack, hc, harmed, hs]

theorem RetryInv.answer (h : RetryInv s) (a : Answer) : RetryInv (answerNext a s) := by
  unfold answerNext
  split
  · next hmatch =>
      have hwaiting := hmatch.2.1
      obtain ⟨f, harmed, -⟩ := h.waiting hwaiting
      have hnacked : a.ack = false → (s.record a).nacked = true := by
        intro hack
        simp [State.record, h.nacks hmatch hack]
      refine { h with waiting := fun hw => (by cases hw), tokens := ?_, place := ?_ }
      · cases h.tokens with
        | inl hfresh =>
            cases hfresh with
            | inl hnil =>
                refine .inl (.inr ⟨f, harmed, ?_, rfl, hnacked⟩)
                rw [hnil, harmed]
                rfl
            | inr htoken =>
                obtain ⟨-, -, -, hno, -⟩ := htoken
                simp [hno] at hwaiting
        | inr hlost => exact .inr hlost
      · refine h.place.record a _ _ fun token hpc => ?_
        have hplace := h.place
        simp only [RetryPlace, hpc] at hplace
        simp [hplace.2.2.1] at hwaiting
  · refine { h with tokens := ?_, place := ?_ }
    · cases h.tokens with
      | inl hfresh =>
          refine .inl (hfresh.imp id ?_)
          rintro ⟨f, h1, h2, h3, h4⟩
          exact ⟨f, h1, h2, h3, fun hb => by simp [State.record, h4 hb]⟩
      | inr hlost => exact .inr hlost
    · exact h.place.record a s.msgResponseInfo s.transmitAckNackSem fun _ _ => rfl

theorem RetryInv.api {b : Bool} (h : RetryInv s)
    (hclean : s.api = .postingAck → s.pc ≠ .waitAck) (ht : ApiStep b s t) : RetryInv t := by
  cases ht with
  | opens hapi =>
      exact {
        mode := fun hp => by cases hp
        bound := h.bound
        again := fun _ g hg => by simp at hg
        waiting := h.waiting
        closing := fun hapi => by cases hapi
        tokens := .inr (.inr (.inl ⟨rfl, rfl⟩))
        place := rfl }
  | isOpen hapi => exact { h with closing := fun hapi => by cases hapi }
  | stops hapi =>
      refine { h with closing := fun _ => rfl, tokens := ?_ }
      obtain hfresh | hclosing | hunarmed := h.tokens
      · exact .inl hfresh
      · exact .inr (.inl ⟨rfl, hclosing.2⟩)
      · exact .inr (.inr hunarmed)
  | shuts hapi => exact { h with closing := fun _ => h.closing (by rw [hapi]; rfl) }
  | postsPut hapi => exact { h with closing := fun _ => h.closing (by rw [hapi]; rfl) }
  | postsGet hapi => exact { h with closing := fun _ => h.closing (by rw [hapi]; rfl) }
  | postsAck hapi =>
      have hrun := h.closing (by rw [hapi]; rfl)
      exact { h with
        closing := fun _ => hrun
        tokens := .inr (.inl ⟨hrun, hclean hapi⟩) }
  | joins hapi hexit => exact { h with closing := fun hapi => by cases hapi }

/-- The token taken at the wait is the one for the armed attempt. -/
theorem RetryInv.take (h : RetryInv s) (hpc : s.pc = .waitAck) {token : Token} {rest : List Token}
    (hsem : s.transmitAckNackSem = token :: rest) :
    RetryInv { s with transmitAckNackSem := rest, pc := .readAck token } := by
  have hplace := h.place
  simp only [RetryPlace, hpc] at hplace
  obtain ⟨f, harmed, hone, hwaiting, hnacked⟩ : ∃ f, s.armed = some f ∧
      s.transmitAckNackSem = [.answer (some f)] ∧ s.msgResponseInfo.bWaitingForAckNack = false ∧
      (s.msgResponseInfo.bAck = false → s.nacked = true) := by
    obtain (hnil | htoken) | hclosing | hunarmed | hplain := h.tokens
    · simp [hsem] at hnil
    · exact htoken
    · exact absurd hpc hclosing.2
    · simp [hplace] at hunarmed
    · simp [(h.mode hplace).1] at hplain
  rw [hsem] at hone
  obtain ⟨rfl, rfl⟩ := List.cons.inj hone
  exact { h with
    tokens := .inl (.inl rfl)
    place := ⟨hplace, ⟨f, harmed, rfl⟩, hwaiting, hnacked⟩ }

theorem RetryInv.pop (h : RetryInv s) (m : CanalMsg) (rest : List CanalMsg) (acked : Bool)
    (hbefore : s.pc.beforeArm = false) :
    RetryInv { s.pop m rest with bTransmissionInProgress := false, pc := .postPut acked } where
  mode := fun hp => by cases hp
  bound := fun g hg => by
    have := h.bound g hg
    simp [State.pop]
    omega
  again := fun _ g hg hpos => by
    -- nothing of the next message has been sent
    have hle := h.bound g (List.mem_of_mem_drop hg)
    simp [State.pop] at hpos
    omega
  waiting := h.waiting
  closing := h.closing
  tokens := h.tokens.armed hbefore id rfl rfl (by simp)
  place := rfl

/-- A frame goes out. -/
theorem RetryInv.send (h : RetryInv s) {again : Bool} {f : TxFrame} (hpc : s.pc = .send again f)
    (progress : Bool) (pc : TxPc) (hmode : progress = true → s.waitForAck = true)
    (hprogress : s.waitForAck = true → progress = true) (hwait : pc ≠ .waitAck)
    (hplace : RetryPlace { s with bTransmissionInProgress := progress, pc }) :
    RetryInv { s with sent := s.sent ++ [f], bTransmissionInProgress := progress, pc } := by
  have hold := h.place
  simp only [RetryPlace, hpc] at hold
  obtain ⟨-, hpos, hlist⟩ := hold
  exact {
    mode := fun hp => ⟨hmode hp, hlist⟩
    bound := fun g hg => by
      cases List.mem_append.mp hg with
      | inl hold => exact h.bound g hold
      | inr hnew =>
          rw [List.mem_singleton.mp hnew]
          exact Nat.le_of_eq hpos
    again := fun hack _ _ _ => hprogress hack
    waiting := h.waiting
    closing := h.closing
    tokens := h.tokens.armed (by simp [hpc, TxPc.beforeArm]) id rfl rfl hwait
    place := hplace }

/-- Every clean step of the transmit thread keeps the invariant. -/
theorem RetryInv.tx (h : RetryInv s) (ht : TxStep s t)
    (hclean : s.waitForAck = true → ∀ again f, s.pc = .arm again f → s.transmitAckNackSem = [])
    (hexpired : s.pc = .waitAck → t.pc = .txOpen true → t.expired = true) : RetryInv t := by
  have hplace := h.place
  cases ht with
  | start hpc =>
      simp only [RetryPlace, hpc] at hplace
      exact { h with
        waiting := fun hw => by cases hw
        tokens := .inr (.inr (.inl ⟨hplace, rfl⟩))
        place := trivial }
  | exit hpc => exact h.goto .exited trivial (by simp) (by simp [TxPc.beforeArm]) _ _
  | toWait hpc hrun hack hprogress =>
      exact h.goto .waitAck hprogress (fun _ => hrun) (by simp [hprogress]) _ _
  | toCheck hpc hplain =>
      have hprogress : s.bTransmissionInProgress = false := by
        cases hp : s.bTransmissionInProgress with
        | false => rfl
        | true => exact absurd ⟨(h.mode hp).1, hp⟩ hplain
      exact h.goto .checkCount hprogress (by simp) (by simp [TxPc.beforeArm]) _ _
  | take hpc token rest hsem => exact h.take hpc hsem
  | expire hpc hsem =>
      simp only [RetryPlace, hpc] at hplace
      exact { h with
        tokens := .inl (.inl hsem)
        place := ⟨hplace, fun _ => .inl rfl⟩ }
  | interrupt hpc =>
      simp only [RetryPlace, hpc] at hplace
      exact h.goto (.txOpen true) ⟨hplace, fun _ => .inl (hexpired hpc rfl)⟩ (by simp)
        (by simp [hpc, TxPc.beforeArm]) _ _
  | ack token hpc hack =>
      simp only [RetryPlace, hpc] at hplace
      exact h.goto .popAck hplace.1 (by simp) (by simp [hpc, TxPc.beforeArm]) _ _
  | nack token hpc hack =>
      simp only [RetryPlace, hpc] at hplace
      exact h.goto (.txOpen true) ⟨hplace.1, fun _ => .inr (hplace.2.2.2 hack)⟩ (by simp)
        (by simp [hpc, TxPc.beforeArm]) _ _
  | popAckEmpty hpc hlist =>
      simp only [RetryPlace, hpc] at hplace
      exact absurd hlist (h.mode hplace).2
  | popAck hpc m rest hlist => exact h.pop m rest true (by simp [hpc, TxPc.beforeArm])
  | postPut acked hpc =>
      simp only [RetryPlace, hpc] at hplace
      refine h.goto _ ?_ ?_ (by simp [hpc, TxPc.beforeArm]) _ _
      · cases acked with
        | true => exact hplace
        | false => trivial
      · cases acked <;> simp
  | check hpc pc hto =>
      simp only [RetryPlace, hpc] at hplace
      cases hto with
      | inl hpc' =>
          subst hpc'
          exact h.goto .waitGet hplace (by simp) (by simp [TxPc.beforeArm]) _ _
      | inr hpc' =>
          subst hpc'
          exact h.goto .checkCount2 hplace (by simp) (by simp [TxPc.beforeArm]) _ _
  | takeGet hpc =>
      simp only [RetryPlace, hpc] at hplace
      exact h.goto .checkCount2 hplace (by simp) (by simp [TxPc.beforeArm]) _ _
  | missGet hpc => exact h.goto .loop trivial (by simp) (by simp [TxPc.beforeArm]) _ _
  | check2 hpc pc hto =>
      simp only [RetryPlace, hpc] at hplace
      cases hto with
      | inl hpc' =>
          subst hpc'
          exact h.goto (.txOpen false) ⟨hplace, by simp⟩ (by simp) (by simp [TxPc.beforeArm]) _ _
      | inr hpc' =>
          subst hpc'
          exact h.goto .idle hplace (by simp) (by simp [TxPc.beforeArm]) _ _
  | idle hpc => exact h.goto .loop trivial (by simp) (by simp [TxPc.beforeArm]) _ _
  | notOpen again hpc => exact h.goto .loop trivial (by simp) (by simp [TxPc.beforeArm]) _ _
  | isOpen again hpc hopen =>
      simp only [RetryPlace, hpc] at hplace
      refine h.goto (.fetch again) hplace (by simp) ?_ _ _
      cases again <;> simp [hpc, TxPc.beforeArm]
  | fetchEmpty again hpc => exact h.goto .loop trivial (by simp) (by simp [TxPc.beforeArm]) _ _
  | fetch again hpc m rest hlist =>
      simp only [RetryPlace, hpc] at hplace
      exact { h with
        tokens := by
          refine h.tokens.goto (.arm again (s.build m)) (by simp) ?_
          cases again <;> simp [hpc, TxPc.beforeArm]
        place := ⟨hplace.1, hplace.2, rfl, rfl, by simp [hlist]⟩ }
  | arm again f hpc =>
      simp only [RetryPlace, hpc] at hplace
      obtain ⟨hprogress, -, hpos, hseq, hlist⟩ := hplace
      exact { h with
        waiting := fun _ => ⟨f, rfl, rfl, by simp [← hseq]⟩
        tokens := by
          cases hack : s.waitForAck with
          | false => exact .inr (.inr (.inr rfl))
          | true => exact .inl (.inl (hclean hack again f hpc))
        place := ⟨hprogress, hpos, hlist⟩ }
  | sendAgain f hpc =>
      simp only [RetryPlace, hpc] at hplace
      exact h.send hpc _ .loop (fun hp => (h.mode hp).1) (fun _ => hplace.1) (by simp) trivial
  | sendAck f hpc hack =>
      exact h.send hpc true .loop (fun _ => hack) (fun _ => rfl) (by simp) trivial
  | sendPlain f hpc hplain =>
      simp only [RetryPlace, hpc] at hplace
      exact h.send hpc _ .popPlain (by simp [hplace.1]) (by simp [hplain]) (by simp) hplace.1
  | sendFails again f hpc =>
      exact h.goto (.disarm again) trivial (by simp) (by simp [hpc, TxPc.beforeArm]) _ _
  | disarm again hpc =>
      refine { h with
        waiting := fun hw => (by cases hw)
        tokens := ?_
        place := trivial }
      refine h.tokens.armed (by simp [hpc, TxPc.beforeArm]) (fun hfresh => hfresh.imp id ?_) rfl rfl
        (by simp)
      rintro ⟨f, h1, h2, -, h4⟩
      exact ⟨f, h1, h2, rfl, h4⟩
  | popPlainEmpty hpc => exact h.goto .loop trivial (by simp) (by simp [TxPc.beforeArm]) _ _
  | popPlain hpc m rest hlist =>
      simp only [RetryPlace, hpc] at hplace
      have hpop := h.pop m rest false (by simp [hpc, TxPc.beforeArm])
      have heq : { s.pop m rest with bTransmissionInProgress := false, pc := .postPut false } =
          { s.pop m rest with pc := .postPut false } := by
        simp [State.pop, hplace]
      rwa [heq] at hpop

/-! ## the runs -/

/-- A wait that ends with a token goes on to read the flag. -/
theorem waitAck_ok (hpc : s.pc = .waitAck) (h : txNext .ok s = some t) : t.pc ≠ .txOpen true := by
  simp only [txNext, hpc] at h
  split at h
  · cases h
  · cases h
    simp

/-- A wait that times out is recorded. -/
theorem waitAck_expired (hpc : s.pc = .waitAck) (h : txNext .expired s = some t) :
    t.expired = true := by
  simp only [txNext, hpc] at h
  split at h
  · cases h
    rfl
  · cases h

variable [DecidableEq ι]

/-- Every run of clean steps keeps the invariant. -/
theorem retryInv_of_reachable (hs : (machine (State.new : State ι)).ReachableWhen CleanStep s) :
    RetryInv s := by
  refine hs.invariant ?_ ?_
  · rintro s rfl
    exact {
      mode := fun hp => by cases hp
      bound := fun g hg => by cases hg
      again := fun hack => by cases hack
      waiting := fun hw => by cases hw
      closing := fun _ => rfl
      tokens := .inl (.inl rfl)
      place := trivial }
  · intro s t a hI hc hnext
    cases a with
    | transmit o =>
        refine hI.tx (txNext_step hnext) ?_ ?_
        · intro hack again f hpc
          cases o with
          | ok => exact hc hack again f hpc
          | _ => simp [machine, txNext, hpc] at hnext
        · intro hpc hto
          cases o with
          | ok => exact absurd hto (waitAck_ok hpc hnext)
          | expired => exact waitAck_expired hpc hnext
          | interrupted => exact absurd hpc hc
          | sendFails => simp [machine, txNext, hpc] at hnext
    | writer w a =>
        obtain ⟨ms, getSem, putSem, writer, rfl⟩ := writerNext_effect hnext
        exact hI.writers ms getSem putSem writer
    | answer a =>
        cases hnext
        exact hI.answer a
    | api b => exact hI.api hc (apiNext_step hnext)

instance (s : State ι) : Decidable (∀ again f, s.pc = .arm again f → s.transmitAckNackSem = []) :=
  match hpc : s.pc with
  | .arm _ _ => decidable_of_iff (s.transmitAckNackSem = [])
      ⟨fun hsem _ _ _ => hsem, fun h => h _ _ rfl⟩
  | .exited | .start | .loop | .waitAck | .readAck _ | .popAck | .postPut _ | .checkCount | .waitGet
  | .checkCount2 | .idle | .txOpen _ | .fetch _ | .send _ _ | .disarm _ | .popPlain =>
    .isTrue fun _ _ h => by cases h

instance : (a : Act ι) → (s : State ι) → Decidable (CleanStep a s)
  | .transmit .interrupted, s => inferInstanceAs (Decidable (s.pc ≠ .waitAck))
  | .transmit .ok, s => inferInstanceAs (Decidable (s.waitForAck = true → ∀ again f,
      s.pc = .arm again f → s.transmitAckNackSem = []))
  | .api _, s => inferInstanceAs (Decidable (s.api = .postingAck → s.pc ≠ .waitAck))
  | .transmit .expired, _ | .transmit .sendFails, _ | .writer _ _, _ | .answer _, _ =>
    .isTrue trivial

/-- **No spurious retransmission** in the runs of clean steps: every token the
transmit thread takes was posted for the armed attempt, and a message is sent
again only after a NACK or a timeout. -/
theorem no_spurious (s : State ι) (hs : (machine State.new).ReachableWhen CleanStep s) :
    NoSpurious s :=
  (retryInv_of_reachable hs).noSpurious

/-- Open with ACK, queue a message and send it. -/
def openAndSend : List (Act Unit) :=
  [.api true, .api true, .writer () (.call false ⟨0, 0, 5, 1, [7], 0⟩), .writer () .go,
    .writer () .go, .writer () .go] ++ List.replicate 9 (.transmit .ok)

/-- The frame of an attempt to send that message. -/
def attempt (k : Nat) : TxFrame := ⟨k, 0, ⟨0, 0, 5, 1, [7], 0⟩, UInt8.ofNat k⟩

/-- A NACK is answered with a second attempt. -/
theorem no_spurious_nack : ∃ s : State Unit, s.sent = [attempt 0, attempt 1] ∧ NoSpurious s := by
  obtain ⟨s, hs, hp⟩ := (machine (State.new : State Unit)).exists_reachableWhen (c := CleanStep)
    (openAndSend ++ [.answer ⟨false, 0, 0, some (attempt 0)⟩] ++ List.replicate 6 (.transmit .ok))
    (fun s => s.sent == [attempt 0, attempt 1]) rfl (by decide)
  exact ⟨s, by simpa using hp, no_spurious s hs⟩

/-- About to send a frame again that was neither rejected nor timed out. -/
def State.spurious (s : State ι) : Bool :=
  match s.pc with
  | .arm _ f =>
    s.waitForAck && (s.sent.drop s.sessionStart).any (·.pos == f.pos) && !s.expired && !s.nacked
  | _ => false

omit [DecidableEq ι] in
theorem State.spurious.not_noSpurious (h : s.spurious = true) : ¬ NoSpurious s := by
  intro hs
  unfold State.spurious at h
  split at h
  · next again f hpc =>
      simp only [Bool.and_eq_true, List.any_eq_true, beq_iff_eq, Bool.not_eq_true'] at h
      obtain ⟨⟨⟨hack, hsent⟩, hexpired⟩, hnacked⟩ := h
      have hfailed := hs.again hack again f hpc hsent
      simp [hexpired, hnacked] at hfailed
  · cases h

/-- The ACK of the first attempt comes after the wait has expired and before the
second attempt is armed.  Its token ends the wait for the second attempt, whose
flag is clear: a third frame is built at once. -/
theorem spurious_retransmission :
    ∃ s : State Unit, (machine State.new).Reachable s ∧ ¬ NoSpurious s := by
  obtain ⟨s, hs, hp⟩ := (machine (State.new : State Unit)).exists_reachableWhen
    (c := fun _ _ => True)
    (openAndSend ++ [.transmit .expired, .answer ⟨true, 0, 0, some (attempt 0)⟩] ++
      List.replicate 9 (.transmit .ok))
    State.spurious rfl (by decide)
  exact ⟨s, hs, State.spurious.not_noSpurious hp⟩

end Can4vscp.Transmit
