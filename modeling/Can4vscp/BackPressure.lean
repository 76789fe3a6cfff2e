import Can4vscp.TransmitBound

/-!
# Can4vscp.BackPressure

Back-pressure of `writeMsgBlocking`.

A call that finds the queue full waits for a token of `m_transmitDataPutSem`.  The
transmit thread posts one for every message it removes, but only calls that wait take
them, so the tokens of a long run without a full queue are still there when the queue
fills, and let as many calls pass.  (The Windows build resets the event before it
waits.)  `backPressure_of_noStaleToken` says that a full queue holds writers back as
long as no such token is left, or about to be posted, when a call begins to wait.

How many messages had been removed when a call began is history on the side of the
machine of `Transmit`.
-/

namespace Can4vscp.Transmit

variable {ι : Type} {s t : State ι}

/-! ## calls and their history -/

/-- What a call finds: how many messages had been removed when it began, and whether the
queue was full when it looked. -/
structure CallRecord where
  began : Nat
  full : Bool
  deriving DecidableEq, Repr

/-- The waiting call looks at the queue. -/
def WriterPc.testsBlocking : WriterPc → Bool
  | .test blocking _ => blocking
  | _ => false

def WriterPc.waits : WriterPc → Bool
  | .waitPut _ => true
  | _ => false

/-- The call returns `CANAL_ERROR_SUCCESS`, or has done so. -/
def WriterPc.succeeds : WriterPc → Bool
  | .add _ => true
  | .post => true
  | .outside rv => rv == some .success
  | _ => false

/-- A call begins, or looks at the queue. -/
def recordCall [DecidableEq ι] (a : Act ι) (s : State ι) (calls : ι → CallRecord) :
    ι → CallRecord :=
  match a with
  | .writer w (.call _ _) => Function.update calls w ⟨s.removed.length, false⟩
  | .writer w .go =>
    if (s.writer w).testsBlocking then
      Function.update calls w
        { calls w with full := decide (s.transmitList.length > CAN4VSCP_MAX_SNDMSG) }
    else calls
  | _ => calls

/-- The transmit side with the history of the calls. -/
def recorded [DecidableEq ι] (s₀ : State ι) : Machine (State ι × (ι → CallRecord)) (Act ι) :=
  (machine s₀).withHistory (fun _ => ⟨0, false⟩) recordCall

/-- A message has been removed since the call began. -/
def RemovedSince (s : State ι) (call : CallRecord) : Prop := call.began < s.removed.length

/-- A call that finds the queue full only succeeds when a message has been removed since
it began. -/
def BackPressure (p : State ι × (ι → CallRecord)) : Prop :=
  ∀ w, (p.2 w).full = true → (p.1.writer w).succeeds = true → RemovedSince p.1 (p.2 w)

/-- No token is left, and the transmit thread is not about to post one. -/
def NoToken (s : State ι) : Prop := s.transmitDataPutSem = 0 ∧ ∀ acked, s.pc ≠ .postPut acked

/-- A call that finds the queue full, and that no message has been removed for, finds no
token; and `close` posts none while such a call waits. -/
def NoStaleToken (a : Act ι) (p : State ι × (ι → CallRecord)) : Prop :=
  match a with
  | .writer w .go =>
    (p.1.writer w).testsBlocking = true → CAN4VSCP_MAX_SNDMSG < p.1.transmitList.length →
      RemovedSince p.1 (p.2 w) ∨ NoToken p.1
  | .api _ =>
    p.1.api = .postingPut → ∀ w, (p.1.writer w).waits = true → RemovedSince p.1 (p.2 w)
  | _ => True

/-! ## the invariant -/

/-- What holds of a call where it is. -/
def CallOk (s : State ι) (call : CallRecord) : WriterPc → Prop
  | .test _ _ => call.full = false ∧ call.began ≤ s.removed.length
  | .waitPut _ => RemovedSince s call ∨ (call.began ≤ s.removed.length ∧ NoToken s)
  | .add _ => call.full = true → RemovedSince s call
  | .post => call.full = true → RemovedSince s call
  | .outside rv => rv = some .success → call.full = true → RemovedSince s call

/-- A step that removes a message, or that leaves no token where none was, keeps what
holds of the calls that do not move. -/
theorem CallOk.mono {call : CallRecord} {pc : WriterPc} (h : CallOk s call pc)
    (hle : s.removed.length ≤ t.removed.length)
    (hstep : s.removed.length < t.removed.length ∨ (NoToken s → NoToken t)) : CallOk t call pc := by
  have hsince : RemovedSince s call → RemovedSince t call := fun h => Nat.lt_of_lt_of_le h hle
  cases pc with
  | outside rv => exact fun hrv hfull => hsince (h hrv hfull)
  | test blocking m => exact ⟨h.1, Nat.le_trans h.2 hle⟩
  | waitPut m =>
      cases h with
      | inl h => exact .inl (hsince h)
      | inr h =>
          cases hstep with
          | inl hlt => exact .inl (Nat.lt_of_le_of_lt h.1 hlt)
          | inr hkeep => exact .inr ⟨Nat.le_trans h.1 hle, hkeep h.2⟩
  | add m => exact fun hfull => hsince (h hfull)
  | post => exact fun hfull => hsince (h hfull)

/-- The transmit thread removes a message before it posts a token. -/
theorem TxStep.removes (h : TxStep s t) :
    t.writer = s.writer ∧ s.removed.length ≤ t.removed.length ∧
      (s.removed.length < t.removed.length ∨ (NoToken s → NoToken t)) := by
  cases h with
  | popAck hpc m rest hlist => exact ⟨rfl, by simp [State.pop], .inl (by simp [State.pop])⟩
  | popPlain hpc m rest hlist => exact ⟨rfl, by simp [State.pop], .inl (by simp [State.pop])⟩
  | postPut acked hpc => exact ⟨rfl, Nat.le_refl _, .inr fun hno => absurd hpc (hno.2 acked)⟩
  | check hpc pc hto =>
      refine ⟨rfl, Nat.le_refl _, .inr fun hno => ⟨hno.1, fun acked => ?_⟩⟩
      cases hto with
      | inl hto => simp [hto]
      | inr hto => simp [hto]
  | check2 hpc pc hto =>
      refine ⟨rfl, Nat.le_refl _, .inr fun hno => ⟨hno.1, fun acked => ?_⟩⟩
      cases hto with
      | inl hto => simp [hto]
      | inr hto => simp [hto]
  | _ => exact ⟨rfl, Nat.le_refl _, .inr fun hno => ⟨hno.1, fun acked => by simp⟩⟩

/-- The thread that opens and closes the driver posts no token to a call that nothing has
been removed for. -/
theorem ApiStep.callOk {calls : ι → CallRecord} {b : Bool} (h : ApiStep b s t)
    (hI : ∀ v, CallOk s (calls v) (s.writer v)) (hc : NoStaleToken (.api b) (s, calls)) (v : ι) :
    CallOk t (calls v) (t.writer v) := by
  cases h with
  | opens hapi => exact (hI v).mono (Nat.le_refl _) (.inr fun hno => ⟨hno.1, fun _ => by simp⟩)
  | postsPut hapi =>
      have hv := hI v
      cases hpc : s.writer v with
      | waitPut m => exact .inl (hc hapi v (by rw [hpc]; rfl))
      | _ =>
          rw [hpc] at hv
          exact hv
  | _ => exact (hI v).mono (Nat.le_refl _) (.inr fun hno => hno)

section
variable [DecidableEq ι] {s₀ : State ι} {calls : ι → CallRecord} {w : ι}

/-- Other writers do not remove messages and post no tokens. -/
theorem WriterStep.others {a : WriterAct} (h : WriterStep w s a t) :
    t.removed = s.removed ∧ (NoToken s → NoToken t) ∧ ∀ v, v ≠ w → t.writer v = s.writer v := by
  have hmove : ∀ (pc : WriterPc) (v : ι), v ≠ w → Function.update s.writer w pc v = s.writer v :=
    fun pc v hv => Function.update_of_ne hv pc s.writer
  cases h with
  | take m hpc hsem =>
      exact ⟨rfl, fun hno => absurd hno.1 (Nat.pos_iff_ne_zero.mp hsem), hmove _⟩
  | _ => exact ⟨rfl, fun hno => hno, hmove _⟩

/-- What a writer records is about its own call. -/
theorem recordCall_others (a : WriterAct) {v : ι} (hv : v ≠ w) :
    recordCall (.writer w a) s calls v = calls v := by
  cases a with
  | call blocking m => exact Function.update_of_ne hv _ calls
  | go =>
      simp only [recordCall]
      split
      · exact Function.update_of_ne hv _ calls
      · rfl
  | _ => rfl

/-- A writer that does not look at the queue records nothing. -/
theorem recordCall_go (hpc : (s.writer w).testsBlocking = false) :
    recordCall (.writer w .go) s calls = calls := by
  simp [recordCall, hpc]

/-- The call of the writer that moves. -/
theorem WriterStep.callOk {a : WriterAct} (h : WriterStep w s a t)
    (hI : CallOk s (calls w) (s.writer w)) (hc : NoStaleToken (.writer w a) (s, calls)) :
    CallOk t (recordCall (.writer w a) s calls w) (t.writer w) := by
  cases h with
  | call rv blocking m hpc hopen =>
      rw [writerTo_writer, recordCall, Function.update_self]
      exact ⟨rfl, Nat.le_refl _⟩
  | notOpen rv blocking m hpc hopen =>
      rw [writerTo_writer]
      exact fun hrv => by cases hrv
  | pass blocking m hpc hlen =>
      rw [hpc] at hI
      rw [writerTo_writer]
      intro hfull
      -- the queue was not full when the call looked
      have hnot : (recordCall (.writer w .go) s calls w).full = false := by
        cases blocking with
        | false => rw [recordCall_go (by rw [hpc]; rfl), hI.1]
        | true => simp [recordCall, hpc, WriterPc.testsBlocking, Nat.not_lt.mpr hlen]
      rw [hnot] at hfull
      cases hfull
  | refuse m hpc hlen =>
      rw [writerTo_writer]
      exact fun hrv => by cases hrv
  | wait m hpc hlen =>
      rw [hpc] at hI
      have hbegan : (recordCall (.writer w .go) s calls w).began = (calls w).began := by
        simp [recordCall, hpc, WriterPc.testsBlocking]
      rw [writerTo_writer]
      cases hc (by rw [hpc]; rfl) hlen with
      | inl hsince => exact .inl (by rw [RemovedSince, hbegan]; exact hsince)
      | inr hno => exact .inr ⟨by rw [hbegan]; exact hI.2, hno⟩
  | take m hpc hsem =>
      rw [hpc] at hI
      rw [recordCall_go (by rw [hpc]; rfl), writerTo_writer]
      intro _
      cases hI with
      | inl hsince => exact hsince
      | inr hno => exact absurd hno.2.1 (Nat.pos_iff_ne_zero.mp hsem)
  | expire m hpc hsem =>
      rw [writerTo_writer]
      exact fun hrv => by cases hrv
  | interrupt m hpc =>
      rw [writerTo_writer]
      exact fun hrv => by cases hrv
  | add m hpc =>
      rw [hpc] at hI
      rw [recordCall_go (by rw [hpc]; rfl), writerTo_writer]
      exact hI
  | post hpc =>
      rw [hpc] at hI
      rw [recordCall_go (by rw [hpc]; rfl), writerTo_writer]
      exact fun _ => hI

theorem callOk_of_noStaleToken {p : State ι × (ι → CallRecord)}
    (hp : (recorded State.new).ReachableWhen NoStaleToken p) (v : ι) :
    CallOk p.1 (p.2 v) (p.1.writer v) := by
  refine hp.invariant (P := fun p => ∀ v, CallOk p.1 (p.2 v) (p.1.writer v)) ?_ ?_ v
  · rintro ⟨s, calls⟩ ⟨rfl, rfl⟩ v
    exact fun hrv => by cases hrv
  · rintro ⟨s, calls⟩ ⟨t, calls'⟩ a hI hc hnext v
    simp only [recorded, Machine.withHistory, Option.map_eq_some_iff, Prod.mk.injEq] at hnext
    obtain ⟨t, hnext, rfl, rfl⟩ := hnext
    cases a with
    | transmit o =>
        obtain ⟨hwriter, hle, hstep⟩ := (txNext_step hnext).removes
        rw [hwriter]
        exact (hI v).mono hle hstep
    | writer w a =>
        have hw := writerNext_step hnext
        by_cases hv : v = w
        · rw [hv]
          exact hw.callOk (hI w) hc
        · obtain ⟨hremoved, hkeep, hothers⟩ := hw.others
          change CallOk t (recordCall (.writer w a) s calls v) (t.writer v)
          rw [hothers v hv, recordCall_others a hv]
          exact (hI v).mono (by rw [hremoved]) (.inr hkeep)
    | answer a =>
        cases hnext
        obtain ⟨info, sem, acked, nacked, heq⟩ := answerNext_effect a s
        rw [heq]
        exact hI v
    | api b => exact (apiNext_step hnext).callOk hI hc v

/-! ## the result -/

/-- **Back-pressure**: in every run in which no call that finds the queue full finds a
token as well. -/
theorem backPressure_of_noStaleToken {p : State ι × (ι → CallRecord)}
    (hp : (recorded State.new).ReachableWhen NoStaleToken p) : BackPressure p := by
  intro w hfull hsucceeds
  have hok := callOk_of_noStaleToken hp w
  cases hpc : p.1.writer w with
  | outside rv =>
      rw [hpc] at hok hsucceeds
      exact hok (by simpa [WriterPc.succeeds] using hsucceeds) hfull
  | test blocking m => rw [hpc] at hsucceeds; cases hsucceeds
  | waitPut m => rw [hpc] at hsucceeds; cases hsucceeds
  | add m =>
      rw [hpc] at hok
      exact hok hfull
  | post =>
      rw [hpc] at hok
      exact hok hfull

end

/-! ## a full queue -/

section
variable [DecidableEq ι] {s₀ : State ι} {calls : ι → CallRecord} {w : ι} {m : CanalMsg}
  {c : Act ι → State ι × (ι → CallRecord) → Prop}

/-- A call of `writeMsgBlocking` finds the queue full and waits. -/
theorem reachable_wait (hp : (recorded s₀).ReachableWhen c (s, calls)) (hopen : s.bOpen = true)
    (hout : ∃ rv, s.writer w = .outside rv) (hlen : CAN4VSCP_MAX_SNDMSG < s.transmitList.length)
    (hcall : c (.writer w (.call true m)) (s, calls))
    (htest : c (.writer w .go) (s.writerTo w (.test true m),
      Function.update calls w ⟨s.removed.length, false⟩)) :
    (recorded s₀).ReachableWhen c
      (s.writerTo w (.waitPut m), Function.update calls w ⟨s.removed.length, true⟩) := by
  obtain ⟨rv, hpc⟩ := hout
  have h1 : (recorded s₀).ReachableWhen c (s.writerTo w (.test true m),
      Function.update calls w ⟨s.removed.length, false⟩) := by
    refine hp.step (.writer w (.call true m)) hcall ?_
    simp [recorded, Machine.withHistory, machine, writerNext, recordCall, hpc, hopen, State.writerTo]
  refine h1.step (.writer w .go) htest ?_
  simp [recorded, Machine.withHistory, machine, writerNext, recordCall, WriterPc.testsBlocking,
    State.writerTo, hlen]

/-- A waiting call takes a token, adds its message and succeeds. -/
theorem reachable_pass (hp : (recorded s₀).ReachableWhen c (s, calls))
    (hpc : s.writer w = .waitPut m) (hsem : 0 < s.transmitDataPutSem)
    (hc : ∀ t, (t.writer w).testsBlocking = false → c (.writer w .go) (t, calls)) :
    ∃ t, (recorded s₀).ReachableWhen c (t, calls) ∧ t.writer w = .outside (some .success) ∧
      t.removed = s.removed := by
  have h1 := hp.step (t := ({ s with
      transmitDataPutSem := s.transmitDataPutSem - 1 }.writerTo w (.add m), calls))
    (.writer w .go) (hc s (by rw [hpc]; rfl)) (by
      simp [recorded, Machine.withHistory, machine, writerNext, recordCall, WriterPc.testsBlocking,
        hpc, hsem, State.writerTo])
  have h2 := h1.step (t := ({ s with
      transmitDataPutSem := s.transmitDataPutSem - 1
      transmitList := s.transmitList ++ [m]
      accepted := s.accepted ++ [m] }.writerTo w .post, calls))
    (.writer w .go) (hc _ (by simp [State.writerTo, WriterPc.testsBlocking])) (by
      simp [recorded, Machine.withHistory, machine, writerNext, recordCall, WriterPc.testsBlocking,
        State.writerTo])
  have h3 := h2.step (t := ({ s with
      transmitDataPutSem := s.transmitDataPutSem - 1
      transmitDataGetSem := s.transmitDataGetSem + 1
      transmitList := s.transmitList ++ [m]
      accepted := s.accepted ++ [m] }.writerTo w (.outside (some .success)), calls))
    (.writer w .go) (hc _ (by simp [State.writerTo, WriterPc.testsBlocking])) (by
      simp [recorded, Machine.withHistory, machine, writerNext, recordCall, WriterPc.testsBlocking,
        State.writerTo])
  exact ⟨_, h3, writerTo_writer _ _ _, rfl⟩

/-- The transmit thread, just started, transmits the first message and posts a token. -/
theorem reachable_transmit (hp : (recorded s₀).ReachableWhen c (s, calls))
    (hc : ∀ o p, c (.transmit o) p) (hpc : s.pc = .start) (hrun : s.bRun = true)
    (hopen : s.bOpen = true) (hplain : s.waitForAck = false) {rest : List CanalMsg}
    (hlist : s.transmitList = m :: rest) :
    ∃ t, (recorded s₀).ReachableWhen c (t, calls) ∧ t.writer = s.writer ∧
      t.removed = s.removed ++ [m] ∧ t.transmitDataPutSem = s.transmitDataPutSem + 1 := by
  have hgo : ∀ {u v : State ι}, (recorded s₀).ReachableWhen c (u, calls) → txNext .ok u = some v →
      (recorded s₀).ReachableWhen c (v, calls) := by
    intro u v hu hnext
    refine hu.step (.transmit .ok) (hc _ _) ?_
    simp [recorded, Machine.withHistory, machine, recordCall, hnext]
  let u : State ι := { s with msgResponseInfo := ⟨false, false, 0, 0⟩ }
  have h1 := hgo hp (v := { u with pc := .loop }) (by simp [txNext, hpc, u])
  have h2 := hgo h1 (v := { u with pc := .checkCount }) (by simp [txNext, hrun, hplain, u])
  have h3 := hgo h2 (v := { u with pc := .checkCount2 }) (by simp [txNext, hlist, u])
  have h4 := hgo h3 (v := { u with pc := .txOpen false }) (by simp [txNext, hlist, u])
  have h5 := hgo h4 (v := { u with pc := .fetch false }) (by simp [txNext, hopen, u])
  have h6 := hgo h5 (v := { u with
      seq := s.seq + 1
      attempts := s.attempts + 1
      pc := .arm false (s.build m) }) (by simp [txNext, hlist, State.build, u])
  let v : State ι := { s with
    msgResponseInfo := ⟨true, false, s.seq, 0⟩
    seq := s.seq + 1
    attempts := s.attempts + 1
    armed := some (s.build m)
    expired := false
    nacked := false }
  have h7 := hgo h6 (v := { v with pc := .send false (s.build m) }) (by simp [txNext, u, v])
  have h8 := hgo h7 (v := { v with pc := .popPlain, sent := s.sent ++ [s.build m] })
    (by simp [txNext, hplain, v])
  have h9 := hgo h8 (v := { v.pop m rest with pc := .postPut false, sent := s.sent ++ [s.build m] })
    (by simp [txNext, hlist, State.pop, v])
  have h10 := hgo h9 (v := { v.pop m rest with
      pc := .loop
      sent := s.sent ++ [s.build m]
      transmitDataPutSem := s.transmitDataPutSem + 1 }) (by simp [txNext, State.pop, v])
  exact ⟨_, h10, rfl, rfl, rfl⟩

/-- The step is no look of a waiting call at the queue, and does not post the token of
`close`. -/
def isPlain (a : Act ι) (s : State ι) : Bool :=
  match a with
  | .writer w .go => !(s.writer w).testsBlocking
  | .api _ => s.api != .postingPut
  | _ => true

omit [DecidableEq ι] in
theorem noStaleToken_of_isPlain {a : Act ι} (h : isPlain a s = true) (calls : ι → CallRecord) :
    NoStaleToken a (s, calls) := by
  unfold NoStaleToken
  split
  · intro htest
    simp only [isPlain, Bool.not_eq_true'] at h
    rw [h] at htest
    cases htest
  · intro hapi
    simp only [isPlain, bne_iff_ne] at h
    exact absurd hapi h
  · trivial

omit [DecidableEq ι] in
theorem allowsWrite_isPlain [Fintype ι] (w : ι) (n : Nat) :
    AllowsWrite (fun a s => isPlain a s = true) w n := by
  intro s a hpc _
  cases a with
  | go =>
      cases hw : s.writer w with
      | test blocking m =>
          cases blocking with
          | false => simp [isPlain, hw, WriterPc.testsBlocking]
          | true => exact absurd hw (hpc m).1
      | _ => simp [isPlain, hw, WriterPc.testsBlocking]
  | _ => rfl

end

/-- One writer fills the queue before the transmit thread gets to work, and calls once
more: this call succeeds when the first message has been transmitted. -/
theorem backPressure_of_noStaleToken_full : ∃ (s : State Unit) (calls : Unit → CallRecord),
    s.writer () = .outside (some .success) ∧ (calls ()).full = true ∧ BackPressure (s, calls) := by
  obtain ⟨s, hs, hq⟩ := (machine (State.new : State Unit)).exists_reachableWhen
    (c := fun a s => isPlain a s = true) [.api false, .api false]
    (fun s => s.bOpen && s.bRun && !s.waitForAck && s.pc == .start && s.transmitDataPutSem == 0 &&
      s.transmitList.length == 0 && s.writer () == .outside none) rfl (by decide)
  simp only [Bool.and_eq_true, beq_iff_eq, Bool.not_eq_true'] at hq
  obtain ⟨⟨⟨⟨⟨⟨hopen, hrun⟩, hplain⟩, hpc⟩, hsem⟩, hempty⟩, hout⟩ := hq
  obtain ⟨ms, getSem, rv, hlen, hfull⟩ := reachable_fill (allowsWrite_isPlain () _) hs hopen
    ⟨_, hout⟩ (CAN4VSCP_MAX_SNDMSG + 1) (Nat.le_refl _) (by omega)
  let u := s.withWriters ms getSem s.transmitDataPutSem (Function.update s.writer () (.outside rv))
  have hwriter : u.writer () = .outside rv := Function.update_self () _ s.writer
  have hnil : s.transmitList = [] := List.eq_nil_of_length_eq_zero hempty
  have hlist : u.transmitList = ms := by simp [u, State.withWriters, hnil]
  obtain ⟨calls, hcalls⟩ : ∃ calls, (recorded State.new).ReachableWhen NoStaleToken (u, calls) :=
    Machine.exists_history _ _ (fun a s calls h => noStaleToken_of_isPlain h calls) hfull
  have hwait := reachable_wait (m := ⟨0, 0, 0, 0, [], 0⟩) hcalls hopen ⟨rv, hwriter⟩
    (by rw [hlist]; omega) trivial
    (fun _ _ => .inr ⟨hsem, fun acked => by simp [u, State.withWriters, State.writerTo, hpc]⟩)
  obtain ⟨m, rest, hcons⟩ := List.exists_cons_of_length_pos (by omega : 0 < ms.length)
  obtain ⟨t, ht, hwt, hrt, hst⟩ := reachable_transmit hwait (fun _ _ => trivial) hpc hrun hopen hplain
    (hlist.trans hcons)
  obtain ⟨v, hv, hwv, -⟩ := reachable_pass (w := ()) (m := ⟨0, 0, 0, 0, [], 0⟩) ht
    (by rw [hwt, writerTo_writer]) (by omega)
    (fun t ht htest => by rw [ht] at htest; cases htest)
  exact ⟨v, _, hwv, by simp, backPressure_of_noStaleToken hv⟩

/-- A token of a message that was removed long ago lets a call pass a full queue. -/
theorem passes_full_queue : ∃ (s : State Unit) (calls : Unit → CallRecord),
    (recorded State.new).Reachable (s, calls) ∧ ¬ BackPressure (s, calls) := by
  obtain ⟨s, hs, hq⟩ := (machine (State.new : State Unit)).exists_reachableWhen
    (c := fun _ _ => True)
    ([.api false, .api false, .writer () (.call false ⟨0, 0, 0, 0, [], 0⟩), .writer () .go,
      .writer () .go, .writer () .go] ++ List.replicate 10 (.transmit .ok))
    (fun s => s.bOpen && s.transmitDataPutSem == 1 && s.transmitList.length == 0 &&
      s.writer () == .outside (some .success)) rfl (by decide)
  simp only [Bool.and_eq_true, beq_iff_eq] at hq
  obtain ⟨⟨⟨hopen, hsem⟩, hempty⟩, hout⟩ := hq
  obtain ⟨ms, getSem, rv, hlen, hfull⟩ := reachable_fill (fun _ _ _ _ => trivial) hs hopen
    ⟨_, hout⟩ (CAN4VSCP_MAX_SNDMSG + 1) (Nat.le_refl _) (by omega)
  let u := s.withWriters ms getSem s.transmitDataPutSem (Function.update s.writer () (.outside rv))
  have hwriter : u.writer () = .outside rv := Function.update_self () _ s.writer
  have hnil : s.transmitList = [] := List.eq_nil_of_length_eq_zero hempty
  have hlist : u.transmitList = ms := by simp [u, State.withWriters, hnil]
  obtain ⟨calls, hcalls⟩ : ∃ calls, (recorded State.new).Reachable (u, calls) :=
    Machine.exists_history _ _ (fun _ _ _ h => h) hfull
  have hwait := reachable_wait (m := ⟨0, 0, 0, 0, [], 0⟩) hcalls hopen ⟨rv, hwriter⟩
    (by rw [hlist]; omega) trivial trivial
  have hpos : 0 < u.transmitDataPutSem := by
    change 0 < s.transmitDataPutSem
    omega
  obtain ⟨v, hv, hwv, hrv⟩ := reachable_pass (w := ()) (m := ⟨0, 0, 0, 0, [], 0⟩) hwait
    (writerTo_writer _ _ _) hpos (fun _ _ => trivial)
  refine ⟨v, _, hv, fun hback => ?_⟩
  have hsince := hback () (by simp) (by rw [hwv]; rfl)
  -- nothing has been removed since
  simp only [RemovedSince, Function.update_self, hrv] at hsince
  exact Nat.lt_irrefl _ hsince

end Can4vscp.Transmit
