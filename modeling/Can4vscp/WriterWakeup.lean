import Can4vscp.BackPressure

/-!
# Can4vscp.WriterWakeup

The writers blocked in `writeMsgBlocking` and the room in the transmit queue.

Tokens of `m_transmitDataPutSem` may be stale, and let a writer pass a full queue (see
`BackPressure`); here it is shown that they are never missing.  While a writer waits, the
messages in the queue, the tokens, the one the transmit thread is about to post and the
writers past their test fill the queue (`RoomClaimed`): every free place has a token, or a
writer that is on its way to it.
-/

namespace Can4vscp.Transmit

variable {ι : Type} {s t : State ι}

/-! ## claims to the room in the queue -/

/-- The transmit thread has removed a message and not posted its token. -/
def TxPc.posting : TxPc → Bool
  | .postPut _ => true
  | _ => false

/-- The writer is past its test, or has its token. -/
def WriterPc.adding : WriterPc → Bool
  | .add _ => true
  | _ => false

/-- Places that are taken, or for which there is a token. -/
def State.claims (s : State ι) : Nat :=
  s.transmitList.length + s.transmitDataPutSem + s.pc.posting.toNat

/-- While a writer waits there is no room without a claim to it. -/
def RoomClaimed [Fintype ι] (s : State ι) : Prop :=
  ∀ w, (s.writer w).waits = true →
    CAN4VSCP_MAX_SNDMSG < s.claims + census WriterPc.adding s.writer

/-- A message that is removed leaves a token. -/
theorem TxStep.claims (h : TxStep s t) : s.claims ≤ t.claims := by
  cases h with
  | postPut acked hpc =>
      have hposting : s.pc.posting = true := by rw [hpc, TxPc.posting]
      simp only [State.claims, hposting, Bool.toNat_true]
      omega
  | popAck hpc m rest hlist =>
      simp [State.claims, State.pop, hpc, hlist, TxPc.posting]
      omega
  | popPlain hpc m rest hlist =>
      simp [State.claims, State.pop, hpc, hlist, TxPc.posting]
      omega
  | takeGet hpc => simp [State.claims, hpc, TxPc.posting]
  | check hpc pc hto => cases hto <;> simp [*, State.claims, TxPc.posting]
  | check2 hpc pc hto => cases hto <;> simp [*, State.claims, TxPc.posting]
  | _ => simp [*, State.claims, TxPc.posting]

/-- `close` posts a token; a new session starts with the tokens of the last one. -/
theorem ApiStep.claims {b : Bool} (h : ApiStep b s t) (hclosed : s.api = .closed → s.pc = .exited) :
    s.claims ≤ t.claims ∧ t.writer = s.writer := by
  cases h with
  | opens hapi => exact ⟨by simp [State.claims, hclosed hapi, TxPc.posting], rfl⟩
  | postsPut hapi => exact ⟨by simp [State.claims], rfl⟩
  | _ => exact ⟨Nat.le_refl _, rfl⟩

section
variable [Fintype ι]

/-- More claims, and the writers where they are. -/
theorem RoomClaimed.mono (h : RoomClaimed s) (hclaims : s.claims ≤ t.claims)
    (hwriter : t.writer = s.writer) : RoomClaimed t := by
  intro w hw
  rw [hwriter] at hw ⊢
  have hs := h w hw
  omega

variable [DecidableEq ι] {w : ι} {a : WriterAct}

/-- A writer that moves to a place where it does not wait. -/
theorem RoomClaimed.moves (h : RoomClaimed s) {pc : WriterPc} {u : State ι}
    (hwriter : u.writer = s.writer) (hto : pc.waits = false)
    (hclaims : s.claims + (s.writer w).adding.toNat ≤ u.claims + pc.adding.toNat) :
    RoomClaimed (u.writerTo w pc) := by
  intro v hv
  have hne : v ≠ w := by
    rintro rfl
    rw [writerTo_writer, hto] at hv
    cases hv
  have hmove := census_update WriterPc.adding s.writer w pc
  simp only [State.writerTo, hwriter, Function.update_of_ne hne] at hv
  have hs := h v hv
  have hu : (u.writerTo w pc).claims = u.claims := rfl
  rw [hu]
  simp only [State.writerTo, hwriter]
  omega

/-- A writer only waits when it has found the queue full, and takes what it claims. -/
theorem WriterStep.roomClaimed (h : WriterStep w s a t) (hI : RoomClaimed s) : RoomClaimed t := by
  cases h with
  | wait m hpc hlen =>
      intro v _
      have hu : (s.writerTo w (.waitPut m)).claims = s.claims := rfl
      rw [hu, State.claims]
      omega
  | call rv blocking m hpc => exact hI.moves rfl rfl (by simp [hpc, WriterPc.adding])
  | notOpen rv blocking m hpc => exact hI.moves rfl rfl (by simp [hpc, WriterPc.adding])
  | pass blocking m hpc => exact hI.moves rfl rfl (by simp [hpc, WriterPc.adding])
  | refuse m hpc => exact hI.moves rfl rfl (by simp [hpc, WriterPc.adding])
  | take m hpc hsem =>
      -- the token becomes a claim of the writer
      refine hI.moves rfl rfl ?_
      simp only [hpc, WriterPc.adding, State.claims, Bool.toNat_true, Bool.toNat_false]
      omega
  | expire m hpc => exact hI.moves rfl rfl (by simp [hpc, WriterPc.adding])
  | interrupt m hpc => exact hI.moves rfl rfl (by simp [hpc, WriterPc.adding])
  | add m hpc =>
      refine hI.moves rfl rfl ?_
      simp only [hpc, WriterPc.adding, State.claims, Bool.toNat_true, Bool.toNat_false,
        List.length_append, List.length_singleton]
      omega
  | post hpc => exact hI.moves rfl rfl (by simp [hpc, WriterPc.adding, State.claims])

/-! ## the result -/

/-- Every run keeps the claims. -/
theorem roomClaimed_of_reachable (hs : (machine State.new).Reachable s) : RoomClaimed s := by
  refine hs.invariant_of (P := Ledger) (fun s hs => ledger_of_reachable start_new hs) ?_ ?_
  · rintro s rfl w hw
    cases hw
  · intro s t a hledger hI _ hnext
    cases a with
    | transmit o =>
        have hstep := txNext_step hnext
        exact hI.mono hstep.claims hstep.removes.1
    | writer w a => exact (writerNext_step hnext).roomClaimed hI
    | answer a =>
        cases hnext
        obtain ⟨info, sem, acked, nacked, heq⟩ := answerNext_effect a s
        rw [heq]
        exact hI
    | api b =>
        obtain ⟨hclaims, hwriter⟩ := (apiNext_step hnext).claims hledger.closed
        exact hI.mono hclaims hwriter

/-- What the transmit queue promises to the writers that wait for room. -/
structure WakesWriters (s : State ι) : Prop where
  claimed : RoomClaimed s
  -- a writer that is not let through, or gives up, has no free place without a writer
  -- on its way to it, or a token about to be posted
  blocked : ∀ w m, s.writer w = .waitPut m → writerNext w .go s = none →
    CAN4VSCP_MAX_SNDMSG <
      s.transmitList.length + s.pc.posting.toNat + census WriterPc.adding s.writer
  timeout : ∀ w m t, s.writer w = .waitPut m → writerNext w .expired s = some t →
    CAN4VSCP_MAX_SNDMSG <
      s.transmitList.length + s.pc.posting.toNat + census WriterPc.adding s.writer

/-- **No lost wake-up of a writer**: in every interleaving of the writers, the transmit
thread and the thread that opens and closes the driver, over any number of sessions. -/
theorem wakes_writers (s : State ι) (hs : (machine State.new).Reachable s) : WakesWriters s := by
  have hI := roomClaimed_of_reachable hs
  have hwaits : ∀ w m, s.writer w = .waitPut m → s.transmitDataPutSem = 0 →
      CAN4VSCP_MAX_SNDMSG <
        s.transmitList.length + s.pc.posting.toNat + census WriterPc.adding s.writer := by
    intro w m hpc hsem
    have hclaims := hI w (by rw [hpc]; rfl)
    rw [State.claims, hsem] at hclaims
    omega
  refine ⟨hI, fun w m hpc hnone => hwaits w m hpc ?_, fun w m t hpc hnext => hwaits w m hpc ?_⟩
  · simpa [writerNext, hpc] using hnone
  · simp only [writerNext, hpc, Option.ite_none_right_eq_some] at hnext
    exact hnext.1

end

/-- A writer waits at a full queue. -/
theorem wakes_writers_full : ∃ (s : State Unit) (m : CanalMsg),
    s.writer () = .waitPut m ∧ s.transmitDataPutSem = 0 ∧ WakesWriters s := by
  obtain ⟨s, hs, hq⟩ := (machine (State.new : State Unit)).exists_reachableWhen
    (c := fun _ _ => True) [.api false, .api false]
    (fun s => s.bOpen && s.transmitDataPutSem == 0 && s.transmitList.length == 0 &&
      s.writer () == .outside none) rfl (by decide)
  simp only [Bool.and_eq_true, beq_iff_eq] at hq
  obtain ⟨⟨⟨hopen, hsem⟩, hempty⟩, hout⟩ := hq
  obtain ⟨ms, getSem, rv, hlen, hfull⟩ := reachable_fill (fun _ _ _ _ => trivial) hs hopen
    ⟨_, hout⟩ (CAN4VSCP_MAX_SNDMSG + 1) (Nat.le_refl _) (by omega)
  let m : CanalMsg := ⟨0, 0, 0, 0, [], 0⟩
  let u := s.withWriters ms getSem s.transmitDataPutSem (Function.update s.writer () (.outside rv))
  have hu : CAN4VSCP_MAX_SNDMSG < u.transmitList.length := by
    simp only [u, State.withWriters, List.length_append]
    omega
  have h1 : (machine State.new).Reachable (u.writerTo () (.test true m)) := by
    refine hfull.step (.writer () (.call true m)) trivial ?_
    simp [machine, writerNext, u, State.withWriters, hopen, State.writerTo]
  have h2 : (machine State.new).Reachable (u.writerTo () (.waitPut m)) := by
    refine h1.step (.writer () .go) trivial ?_
    simp [machine, writerNext, State.writerTo, hu]
  exact ⟨u.writerTo () (.waitPut m), m, writerTo_writer _ _ _, hsem, wakes_writers _ h2⟩

end Can4vscp.Transmit
