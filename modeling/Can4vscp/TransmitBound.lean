import Can4vscp.Transmit
import Can4vscp.Lib.Census

/-!
# Can4vscp.TransmitBound

The bound of the transmit queue.

Both writers look whether the queue holds *more* than `CAN4VSCP_MAX_SNDMSG` messages,
and they look before they take the mutex.  So a full queue takes another message, and
several calls that look at the same time take the same place.  `bounded_of_hasRoom`
says that the queue stays within its bound as long as no call looks at it while it is
full, counting the messages that are on their way into it, and that a call of `writeMsg`
that looks at a queue of any other length does what it should.
-/

namespace Can4vscp.Transmit

variable {ι : Type} {s t : State ι}

/-! ## calls on their way -/

/-- The call is past its test and has not added its message. -/
def WriterPc.pending : WriterPc → Bool
  | .waitPut _ => true
  | .add _ => true
  | _ => false

def WriterPc.testing : WriterPc → Bool
  | .test _ _ => true
  | _ => false

/-- The step is the test of a writer. -/
def tests (a : Act ι) (s : State ι) : Bool :=
  match a with
  | .writer w .go => (s.writer w).testing
  | _ => false

/-- The messages in the queue, and those on their way into it. -/
def State.load [Fintype ι] (s : State ι) : Nat :=
  s.transmitList.length + census WriterPc.pending s.writer

/-- A call only tests the queue while there is room for its message. -/
def HasRoom [Fintype ι] (a : Act ι) (s : State ι) : Prop :=
  tests a s = true → s.load < CAN4VSCP_MAX_SNDMSG

instance [Fintype ι] (a : Act ι) (s : State ι) : Decidable (HasRoom a s) :=
  inferInstanceAs (Decidable (_ → _))

/-- What `writeMsg` should do with a message: refuse it exactly when the queue is full,
and leave the queue alone then. -/
structure RefusesFull (w : ι) (s t : State ι) : Prop where
  refused : t.writer w = .outside (some .fifoFull) ↔
    CAN4VSCP_MAX_SNDMSG ≤ s.transmitList.length
  kept : t.writer w = .outside (some .fifoFull) → t.transmitList = s.transmitList

/-! ## the load -/

section
variable [Fintype ι]

/-- The transmit thread only takes messages off the queue. -/
theorem TxStep.load_le (h : TxStep s t) : t.load ≤ s.load := by
  cases h with
  | popAck hpc m rest hlist =>
      simp only [State.load, State.pop, hlist, List.length_cons]
      omega
  | popPlain hpc m rest hlist =>
      simp only [State.load, State.pop, hlist, List.length_cons]
      omega
  | _ => exact Nat.le_refl _

variable [DecidableEq ι] {w : ι} {a : WriterAct}

/-- A writer that goes to a place that is not pending adds nothing to the load. -/
theorem load_writerTo (s : State ι) (w : ι) {pc : WriterPc} (hto : pc.pending = false) :
    (s.writerTo w pc).load + (s.writer w).pending.toNat = s.load := by
  have h : census WriterPc.pending (Function.update s.writer w pc) + (s.writer w).pending.toNat =
      census WriterPc.pending s.writer := census_leave hto
  simp only [State.load, State.writerTo]
  omega

/-- A writer that tests a queue with room keeps the load within the bound. -/
theorem WriterStep.load_le (h : WriterStep w s a t) (hload : s.load ≤ CAN4VSCP_MAX_SNDMSG)
    (hroom : HasRoom (.writer w a) s) : t.load ≤ CAN4VSCP_MAX_SNDMSG := by
  have hleave : ∀ {pc : WriterPc}, pc.pending = false → (s.writerTo w pc).load ≤ CAN4VSCP_MAX_SNDMSG := by
    intro pc hto
    have := load_writerTo s w hto
    omega
  cases h with
  | call rv blocking m hpc => exact hleave rfl
  | notOpen rv blocking m hpc => exact hleave rfl
  | pass blocking m hpc hlen =>
      have hlt : s.load < CAN4VSCP_MAX_SNDMSG := hroom (by simp only [tests, hpc]; rfl)
      have hfrom : (s.writer w).pending = false := by rw [hpc]; rfl
      have henter : census WriterPc.pending (Function.update s.writer w (.add m)) =
          census WriterPc.pending s.writer + 1 := census_enter hfrom rfl
      simp only [State.load, State.writerTo] at hlt ⊢
      omega
  | refuse m hpc => exact hleave rfl
  | wait m hpc hlen =>
      have hlt : s.load < CAN4VSCP_MAX_SNDMSG := hroom (by simp only [tests, hpc]; rfl)
      unfold State.load at hlt
      omega
  | take m hpc =>
      have hmove := census_update WriterPc.pending s.writer w (.add m)
      have hfrom : (s.writer w).pending = true := by rw [hpc]; rfl
      have hto : (WriterPc.add m).pending = true := rfl
      rw [hfrom, hto] at hmove
      simp only [State.load, State.writerTo] at hload ⊢
      omega
  | expire m hpc => exact hleave rfl
  | interrupt m hpc => exact hleave rfl
  | add m hpc =>
      have hmove : (s.writerTo w .post).load + (s.writer w).pending.toNat = s.load :=
        load_writerTo s w rfl
      have hfrom : (s.writer w).pending.toNat = 1 := by rw [hpc]; rfl
      simp only [State.load, State.writerTo, List.length_append, List.length_singleton] at hmove hload ⊢
      omega
  | post hpc => exact hleave (rfl : (WriterPc.outside (some .success)).pending = false)

/-- As long as every test finds room, the load is within the bound. -/
theorem load_le_of_hasRoom (hs : (machine State.new).ReachableWhen HasRoom s) :
    s.load ≤ CAN4VSCP_MAX_SNDMSG := by
  refine hs.invariant (P := fun s => s.load ≤ CAN4VSCP_MAX_SNDMSG) ?_ ?_
  · rintro s rfl
    have hnone : census WriterPc.pending (State.new : State ι).writer = 0 := by
      simp [census, State.new, WriterPc.pending]
    have hempty : (State.new : State ι).transmitList.length = 0 := rfl
    unfold State.load
    omega
  · intro s t a hload hroom hnext
    cases a with
    | transmit o => exact Nat.le_trans (txNext_step hnext).load_le hload
    | writer w a => exact (writerNext_step hnext).load_le hload hroom
    | answer a =>
        cases hnext
        obtain ⟨info, sem, acked, nacked, heq⟩ := answerNext_effect a s
        rw [heq]
        exact hload
    | api b =>
        have ht := apiNext_step hnext
        cases ht <;> exact hload

omit [Fintype ι] in
/-- The test of `writeMsg`: it refuses a message when there are more than the maximum, and
only then. -/
theorem writeMsg_refuses_iff {m : CanalMsg} (hpc : s.writer w = .test false m)
    (hnext : writerNext w .go s = some t) :
    (t.writer w = .outside (some .fifoFull) ↔ CAN4VSCP_MAX_SNDMSG < s.transmitList.length) ∧
      t.transmitList = s.transmitList := by
  simp only [writerNext, hpc] at hnext
  by_cases hfull : s.transmitList.length > CAN4VSCP_MAX_SNDMSG
  · rw [if_pos hfull] at hnext
    cases hnext
    exact ⟨iff_of_true (Function.update_self w _ _) hfull, rfl⟩
  · rw [if_neg hfull] at hnext
    cases hnext
    refine ⟨iff_of_false ?_ hfull, rfl⟩
    simp

/-- **The bound of the transmit queue**: it holds in every run in which a call only tests
the queue while there is room for its message.  In every run a test of `writeMsg` refuses
the message if and only if there are more than the maximum, so it does what it should if
and only if there are not as many as the maximum. -/
theorem bounded_of_hasRoom :
    (∀ s : State ι, (machine State.new).ReachableWhen HasRoom s →
      s.transmitList.length ≤ CAN4VSCP_MAX_SNDMSG) ∧
    ∀ (s t : State ι) (w : ι) (m : CanalMsg), (machine State.new).Reachable s →
      s.writer w = .test false m → writerNext w .go s = some t →
        (t.writer w = .outside (some .fifoFull) ↔ CAN4VSCP_MAX_SNDMSG < s.transmitList.length) ∧
        t.transmitList = s.transmitList ∧
        (RefusesFull w s t ↔ s.transmitList.length ≠ CAN4VSCP_MAX_SNDMSG) := by
  constructor
  · intro s hs
    have hload := load_le_of_hasRoom hs
    unfold State.load at hload
    omega
  · intro s t w m _ hpc hnext
    obtain ⟨hrefused, hkept⟩ := writeMsg_refuses_iff hpc hnext
    refine ⟨hrefused, hkept, fun h => ?_, fun hne => ⟨?_, fun _ => hkept⟩⟩
    · have hboth := hrefused.symm.trans h.refused
      omega
    · rw [hrefused]
      omega

end

/-! ## a full queue -/

section
variable [Fintype ι] [DecidableEq ι] {s₀ : State ι} {w : ι} {n : Nat}

/-- A condition that does not keep a writer from calling `writeMsg` while fewer than `n`
messages are in the queue or on their way. -/
def AllowsWrite (c : Act ι → State ι → Prop) (w : ι) (n : Nat) : Prop :=
  ∀ s a, (∀ m, s.writer w ≠ .test true m ∧ s.writer w ≠ .waitPut m) →
    ((s.writer w).testing = true → s.load < n) → c (.writer w a) s

omit [DecidableEq ι] in
theorem allowsWrite_hasRoom (w : ι) : AllowsWrite HasRoom w CAN4VSCP_MAX_SNDMSG := by
  intro s a _ hroom htests
  cases a with
  | go => exact hroom htests
  | _ => cases htests

/-- `writeMsg` takes a message as long as the queue does not hold more than the
maximum. -/
theorem reachable_write {c : Act ι → State ι → Prop} (hc : AllowsWrite c w n)
    (hs : (machine s₀).ReachableWhen c s) (hopen : s.bOpen = true)
    (hout : ∃ rv, s.writer w = .outside rv) (hlen : s.transmitList.length ≤ CAN4VSCP_MAX_SNDMSG)
    (hload : s.load < n) (m : CanalMsg) :
    (machine s₀).ReachableWhen c (s.withWriters [m] (s.transmitDataGetSem + 1) s.transmitDataPutSem
      (Function.update s.writer w (.outside (some .success)))) := by
  obtain ⟨rv, hpc⟩ := hout
  have h1 : (machine s₀).ReachableWhen c (s.writerTo w (.test false m)) := by
    refine hs.step (.writer w (.call false m)) (hc _ _ (by simp [hpc]) (by simp [hpc, WriterPc.testing])) ?_
    simp [machine, writerNext, hpc, hopen, State.writerTo]
  have h2 : (machine s₀).ReachableWhen c (s.writerTo w (.add m)) := by
    have hsame : (s.writerTo w (.test false m)).load < n := by
      have hmove : (s.writerTo w (.test false m)).load + (s.writer w).pending.toNat = s.load :=
        load_writerTo s w rfl
      omega
    refine h1.step (.writer w .go) (hc _ _ (by simp [State.writerTo]) fun _ => hsame) ?_
    simp [machine, writerNext, State.writerTo, Nat.not_lt.mpr hlen]
  have h3 : (machine s₀).ReachableWhen c ({ s with
      transmitList := s.transmitList ++ [m]
      accepted := s.accepted ++ [m] }.writerTo w .post) := by
    refine h2.step (.writer w .go) (hc _ _ (by simp [State.writerTo]) (by simp [State.writerTo, WriterPc.testing])) ?_
    simp [machine, writerNext, State.writerTo]
  refine h3.step (.writer w .go) (hc _ _ (by simp [State.writerTo]) (by simp [State.writerTo, WriterPc.testing])) ?_
  simp [machine, writerNext, State.writerTo, State.withWriters]

theorem load_withWriters (hpc : (s.writer w).pending = false) (ms : List CanalMsg)
    (getSem putSem : Nat) (rv : Option CanalError) :
    (s.withWriters ms getSem putSem (Function.update s.writer w (.outside rv))).load =
      s.load + ms.length := by
  have hcensus : census WriterPc.pending (Function.update s.writer w (.outside rv)) =
      census WriterPc.pending s.writer := census_quiet hpc rfl
  simp only [State.load, State.withWriters, List.length_append, hcensus]
  omega

/-- One writer fills the queue, one message above the maximum if it may; the others stay
where they are. -/
theorem reachable_fill {c : Act ι → State ι → Prop} (hc : AllowsWrite c w n)
    (hs : (machine s₀).ReachableWhen c s) (hopen : s.bOpen = true)
    (hout : ∃ rv, s.writer w = .outside rv) (k : Nat) (hload : s.load + k ≤ n)
    (hk : s.transmitList.length + k ≤ CAN4VSCP_MAX_SNDMSG + 1) :
    ∃ ms getSem rv, ms.length = k ∧ (machine s₀).ReachableWhen c
      (s.withWriters ms getSem s.transmitDataPutSem (Function.update s.writer w (.outside rv))) := by
  obtain ⟨rv₀, hpc⟩ := hout
  induction k with
  | zero =>
      refine ⟨[], s.transmitDataGetSem, rv₀, rfl, ?_⟩
      rw [withWriters_nil, ← hpc, Function.update_eq_self]
      exact hs
  | succ k ih =>
      obtain ⟨ms, getSem, rv, hlen, ht⟩ := ih (by omega) (by omega)
      have hsum := load_withWriters (by rw [hpc]; rfl) ms getSem s.transmitDataPutSem rv
      have hnext := reachable_write hc ht hopen ⟨rv, Function.update_self w _ _⟩
        (by simp only [State.withWriters, List.length_append]; omega) (by omega) ⟨0, 0, 0, 0, [], 0⟩
      refine ⟨ms ++ [⟨0, 0, 0, 0, [], 0⟩], getSem + 1, some .success, by simp [hlen], ?_⟩
      simpa [State.withWriters] using hnext

end

/-- The driver is open, and the transmit thread has not begun. -/
def State.opened : State ι := { State.new with bRun := true, bOpen := true, pc := .start, api := .opened }

theorem reachable_opened [DecidableEq ι] {c : Act ι → State ι → Prop}
    (hc : ∀ s, c (.api false) s) : (machine State.new).ReachableWhen c State.opened :=
  have hopening : (machine State.new).ReachableWhen c
      { (State.new : State ι) with bRun := true, pc := .start, api := .opening } :=
    .step (.api false) (.init rfl) (hc _) rfl
  .step (.api false) hopening (hc _) rfl

/-- Two writers fill the queue up to its bound; one of them finds a message too many in it. -/
theorem bounded_of_hasRoom_full :
    (∃ s : State Bool, (machine State.new).ReachableWhen HasRoom s ∧
      (∀ w, s.writer w = .outside (some .success)) ∧
      s.transmitList.length = CAN4VSCP_MAX_SNDMSG) ∧
    ∃ s t : State Bool, (machine State.new).Reachable s ∧
      s.transmitList.length = CAN4VSCP_MAX_SNDMSG + 1 ∧ writerNext true .go s = some t ∧
      t.writer true = .outside (some .fifoFull) ∧ t.transmitList = s.transmitList := by
  let m : CanalMsg := ⟨0, 0, 0, 0, [], 0⟩
  constructor
  · let first : State Bool := State.opened.withWriters [m] 1 0
      (Function.update (fun _ => .outside none) true (.outside (some .success)))
    have hfirst : (machine State.new).ReachableWhen HasRoom first :=
      reachable_write (allowsWrite_hasRoom true) (reachable_opened fun _ h => by cases h) rfl
        ⟨none, rfl⟩ (by decide) (by decide) m
    obtain ⟨ms, getSem, rv, hlen, hfill⟩ := reachable_fill (allowsWrite_hasRoom false) hfirst rfl
      ⟨none, rfl⟩ (CAN4VSCP_MAX_SNDMSG - 2) (by decide) (by decide)
    let most := first.withWriters ms getSem 0 (Function.update first.writer false (.outside rv))
    have hmost : (machine State.new).ReachableWhen HasRoom most := hfill
    have hload : most.load = CAN4VSCP_MAX_SNDMSG - 1 := by
      have hsum : most.load = first.load + ms.length := load_withWriters rfl ms getSem 0 rv
      have hone : first.load = 1 := by decide
      rw [hsum, hone, hlen]
      decide
    have hmore : most.transmitList.length = CAN4VSCP_MAX_SNDMSG - 1 := by
      simp only [most, State.withWriters, List.length_append, hlen]
      decide
    have hwriter : most.writer false = .outside rv := rfl
    have hlast := reachable_write (allowsWrite_hasRoom false) hmost rfl ⟨rv, hwriter⟩
      (by rw [hmore]; decide) (by rw [hload]; decide) m
    refine ⟨_, hlast, fun w => by cases w <;> rfl, ?_⟩
    refine Nat.le_antisymm (bounded_of_hasRoom.1 _ hlast) ?_
    change CAN4VSCP_MAX_SNDMSG ≤ (most.transmitList ++ [m]).length
    rw [List.length_append, hmore]
    decide
  · obtain ⟨ms, getSem, rv, hlen, hfull⟩ := reachable_fill (w := false) (c := fun _ _ => True)
      (fun _ _ _ _ => trivial) (reachable_opened fun _ => trivial) rfl ⟨none, rfl⟩
      (CAN4VSCP_MAX_SNDMSG + 1) (Nat.le_refl _) (by decide)
    let full : State Bool := State.opened.withWriters ms getSem 0
      (Function.update (fun _ => .outside none) false (.outside rv))
    have htesting : (machine State.new).Reachable (full.writerTo true (.test false m)) :=
      .step (.writer true (.call false m)) hfull trivial rfl
    have hlong : (full.writerTo true (.test false m)).transmitList.length = CAN4VSCP_MAX_SNDMSG + 1 :=
      hlen
    have hnext : writerNext true .go (full.writerTo true (.test false m)) =
        some ((full.writerTo true (.test false m)).writerTo true (.outside (some .fifoFull))) := by
      have hmore : full.transmitList.length > CAN4VSCP_MAX_SNDMSG := by
        rw [show full.transmitList.length = _ from hlong]
        omega
      simp [writerNext, State.writerTo, hmore]
    obtain ⟨hrefused, hkept, -⟩ := bounded_of_hasRoom.2 _ _ true m htesting (writerTo_writer _ _ _) hnext
    exact ⟨_, _, htesting, hlong, hnext, hrefused.mpr (by omega), hkept⟩

/-- `writeMsg` does not refuse a message when the queue is full, but puts it into the
queue. -/
theorem exceeds_bound :
    (∃ (s t : State Unit) (m : CanalMsg), (machine State.new).Reachable s ∧
      s.transmitList.length = CAN4VSCP_MAX_SNDMSG ∧ s.writer () = .test false m ∧
      writerNext () .go s = some t ∧ t.writer () ≠ .outside (some .fifoFull)) ∧
    ∃ s : State Unit, (machine State.new).Reachable s ∧
      s.transmitList.length = CAN4VSCP_MAX_SNDMSG + 1 := by
  have hc : ∀ n, AllowsWrite (fun _ _ => True) () n := fun _ _ _ _ _ => trivial
  obtain ⟨s, hs, hp⟩ := (machine (State.new : State Unit)).exists_reachableWhen
    (c := fun _ _ => True) [.api false, .api false]
    (fun s => s.bOpen && s.transmitList.length == 0 && s.writer () == .outside none) rfl (by decide)
  simp only [Bool.and_eq_true, beq_iff_eq] at hp
  obtain ⟨⟨hopen, hempty⟩, hout⟩ := hp
  constructor
  · obtain ⟨ms, getSem, rv, hlen, ht⟩ :=
      reachable_fill (hc _) hs hopen ⟨_, hout⟩ CAN4VSCP_MAX_SNDMSG (Nat.le_refl _) (by omega)
    let full := s.withWriters ms getSem s.transmitDataPutSem
      (Function.update s.writer () (.outside rv))
    have hfull : full.transmitList.length = CAN4VSCP_MAX_SNDMSG := by
      simp only [full, State.withWriters, List.length_append]
      omega
    let m : CanalMsg := ⟨0, 0, 0, 0, [], 0⟩
    let u := full.writerTo () (.test false m)
    refine ⟨u, u.writerTo () (.add m), m, ?_, hfull, writerTo_writer _ _ _, ?_, ?_⟩
    · refine ht.step (.writer () (.call false m)) trivial ?_
      simp [machine, writerNext, u, full, State.writerTo, State.withWriters, hopen]
    · have hpc : u.writer () = .test false m := writerTo_writer _ _ _
      have hlen' : ¬ u.transmitList.length > CAN4VSCP_MAX_SNDMSG := by
        have : u.transmitList.length = CAN4VSCP_MAX_SNDMSG := hfull
        omega
      simp only [writerNext, hpc, if_neg hlen', State.writerTo]
    · simp
  · obtain ⟨ms, getSem, rv, hlen, ht⟩ :=
      reachable_fill (hc _) hs hopen ⟨_, hout⟩ (CAN4VSCP_MAX_SNDMSG + 1) (Nat.le_refl _) (by omega)
    refine ⟨_, ht, ?_⟩
    simp only [State.withWriters, List.length_append]
    omega

end Can4vscp.Transmit
