import Can4vscp.Transmit
import Can4vscp.Lib.SeqNumber
import Can4vscp.Lib.Repeats

/-!
# Can4vscp.AckTransmit

Transmission with ACK (`CAN4VSCP_FLAG_ENABLE_WAIT_FOR_ACK` set), one session.

An attempt is armed before its frame goes out, so while the response info says
that an answer is awaited it holds the sequence number of the last attempt that
was armed.  The adapter answers with the sequence number of a frame it received,
not too late for an 8-bit number, so an answer that matches is an answer to that
very attempt (`answer_unique`).  The attempt carries the head of the queue, and
only this thread removes the head: what is removed has been acknowledged.
-/

namespace Can4vscp.Transmit

open SeqNumber

variable {ι : Type}

/-- The adapter answers frames it received, with their channel and their
sequence number, and no answer arrives once 256 later attempts have begun.  The
driver is not opened again. -/
def AckSession : Act ι → State ι → Prop
  | .answer a, s =>
    ∃ f ∈ s.sent, a.frame = some f ∧ a.channel = 0 ∧ a.seq = f.seq ∧ s.attempts ≤ f.index + 256
  | .api _, s => s.api ≠ .closed
  | _, _ => True

instance (a : Act ι) (s : State ι) : Decidable (AckSession a s) := by
  cases a <;> unfold AckSession <;> infer_instance

/-! ## the invariant -/

/-- A frame that carries the accepted message at its position, with the sequence
number of its attempt. -/
structure Carries (attempts : Nat) (accepted : List CanalMsg) (f : TxFrame) : Prop where
  index : f.index < attempts
  seq : f.seq = seq8 f.index
  msg : accepted[f.pos]? = some f.msg

/-- Later attempts and later messages change nothing for a frame. -/
theorem Carries.mono {attempts n : Nat} {accepted : List CanalMsg} {f : TxFrame}
    (h : Carries attempts accepted f) (hn : attempts ≤ n) (ms : List CanalMsg) :
    Carries n (accepted ++ ms) f where
  index := Nat.lt_of_lt_of_le h.index hn
  seq := h.seq
  msg := by
    obtain ⟨hlt, -⟩ := List.getElem?_eq_some_iff.mp h.msg
    rw [List.getElem?_append_left hlt, h.msg]

/-- What the transmit thread knows where it is. -/
def AckPlace (s : State ι) : Prop :=
  match s.pc with
  | .start => s.sent = []
  | .waitAck | .readAck _ => s.bTransmissionInProgress = true
  | .popAck => ∃ f ∈ s.acked, f.pos = s.removed.length
  | .arm _ f =>
    Carries s.attempts s.accepted f ∧ f.pos = s.removed.length ∧ f.index + 1 = s.attempts ∧
      ∀ g ∈ s.sent, g.index < f.index
  | .send _ f => f.pos = s.removed.length ∧ s.armed = some f
  | .popPlain => False
  | _ => True

structure AckInv (s : State ι) : Prop where
  flag : s.waitForAck = true
  seq : s.seq = seq8 s.attempts
  sent : ∀ f ∈ s.sent, Carries s.attempts s.accepted f
  order : Repeats (s.sent.map (·.pos)) s.removed.length
  acked : ∀ f ∈ s.acked, f ∈ s.sent
  removed : ∀ i m, s.removed[i]? = some m → ∃ f ∈ s.acked, f.pos = i ∧ f.msg = m
  armed : ∀ f, s.armed = some f → Carries s.attempts s.accepted f
  latest : ∀ f, s.armed = some f → ∀ g ∈ s.sent, g = f ∨ g.index < f.index
  waiting : s.pc ≠ .start → s.msgResponseInfo.bWaitingForAckNack = true →
    ∃ f, s.armed = some f ∧ s.msgResponseInfo.seq = f.seq
  bAck : s.pc ≠ .start → s.msgResponseInfo.bAck = true → ∃ f, s.armed = some f ∧ f ∈ s.acked
  progress : s.bTransmissionInProgress = true → ∃ f, s.armed = some f ∧ f.pos = s.removed.length
  place : AckPlace s

variable {s₀ s t : State ι}

/-- A matching answer is for the attempt that is armed. -/
theorem AckInv.answer_unique (h : AckInv s) (hpc : s.pc ≠ .start) {a : Answer} {g : TxFrame}
    (hmatch : s.Matches a) (hg : g ∈ s.sent) (hseq : a.seq = g.seq)
    (hwindow : s.attempts ≤ g.index + 256) : s.armed = some g := by
  obtain ⟨f, harmed, hfseq⟩ := h.waiting hpc hmatch.2.1
  cases h.latest f harmed g hg with
  | inl heq => rw [harmed, heq]
  | inr hlt =>
      have hf := h.armed f harmed
      have hnum : seq8 g.index = seq8 f.index := by
        rw [← hf.seq, ← (h.sent g hg).seq, ← hfseq, ← hseq]
        exact hmatch.2.2.2.symm
      have := eq_of_seq8_eq (Nat.le_of_lt hlt) (by have := hf.index; omega) hnum
      omega

/-! ## the steps -/

theorem AckInv.writers (h : AckInv s) (ms : List CanalMsg) (getSem putSem : Nat)
    (writer : ι → WriterPc) : AckInv (s.withWriters ms getSem putSem writer) where
  flag := h.flag
  seq := h.seq
  sent := fun f hf => (h.sent f hf).mono (Nat.le_refl _) ms
  order := h.order
  acked := h.acked
  removed := h.removed
  armed := fun f hf => (h.armed f hf).mono (Nat.le_refl _) ms
  latest := h.latest
  waiting := h.waiting
  bAck := h.bAck
  progress := h.progress
  place := by
    have hplace := h.place
    revert hplace
    unfold AckPlace
    dsimp only [State.withWriters]
    split
    all_goals intro hplace
    all_goals first
      | exact hplace
      | exact ⟨hplace.1.mono (Nat.le_refl _) ms, hplace.2⟩

/-- Recording an answer, with a response info that is right about the attempt
that is armed. -/
theorem AckInv.record (h : AckInv s) {a : Answer} {g : TxFrame} (hg : g ∈ s.sent)
    (hframe : a.frame = some g) (info : MsgResponseInfo) (sem : List Token)
    (hwaiting : info.bWaitingForAckNack = true → ∃ f, s.armed = some f ∧ info.seq = f.seq)
    (hbAck : info.bAck = true → ∃ f, s.armed = some f ∧ f ∈ (s.record a).acked) :
    AckInv { s.record a with msgResponseInfo := info, transmitAckNackSem := sem } := by
  have hmem : ∀ f, f ∈ (s.record a).acked ↔ f ∈ s.acked ∨ (a.ack = true ∧ f = g) := by
    intro f
    cases hack : a.ack <;> simp [State.record, hack, hframe]
  have hmono : ∀ f ∈ s.acked, f ∈ (s.record a).acked := fun f hf => (hmem f).mpr (.inl hf)
  exact {
    flag := h.flag
    seq := h.seq
    sent := h.sent
    order := h.order
    acked := fun f hf => by
      cases (hmem f).mp hf with
      | inl hold => exact h.acked f hold
      | inr hnew => exact hnew.2 ▸ hg
    removed := fun i m hm => by
      obtain ⟨f, hf, hpos⟩ := h.removed i m hm
      exact ⟨f, hmono f hf, hpos⟩
    armed := h.armed
    latest := h.latest
    waiting := fun _ => hwaiting
    bAck := fun _ => hbAck
    progress := h.progress
    place := by
      have hplace := h.place
      revert hplace
      unfold AckPlace
      dsimp only [State.record]
      split
      case h_4 =>
          rintro ⟨f, hf, hpos⟩
          exact ⟨f, hmono f hf, hpos⟩
      all_goals exact fun hplace => hplace }

/-- An ACK is recorded, and a matching answer ends the wait. -/
theorem AckInv.answer (h : AckInv s) {a : Answer} (hc : AckSession (.answer a) s) :
    AckInv (answerNext a s) := by
  obtain ⟨g, hg, hframe, -, hseq, hwindow⟩ := hc
  have hpc : s.pc ≠ .start := by
    intro hpc
    have hplace := h.place
    simp only [AckPlace, hpc] at hplace
    simp [hplace] at hg
  unfold answerNext
  split
  · next hmatch =>
      have harmed := h.answer_unique hpc hmatch hg hseq hwindow
      refine h.record hg hframe _ _ (fun hw => by cases hw) fun hb => ⟨g, harmed, ?_⟩
      have hack : a.ack = true := hb
      simp [State.record, hack, hframe]
  · refine h.record hg hframe s.msgResponseInfo s.transmitAckNackSem (h.waiting hpc) fun hb => ?_
    obtain ⟨f, hf, hacked⟩ := h.bAck hpc hb
    refine ⟨f, hf, ?_⟩
    cases hack : a.ack <;> simp [State.record, hack, hacked]

/-- Going somewhere else, perhaps with a token taken or posted. -/
theorem AckInv.goto (h : AckInv s) (pc : TxPc) (hpc : s.pc ≠ .start)
    (hplace : AckPlace { s with pc }) (sem : List Token) (getSem putSem : Nat) (expired : Bool) :
    AckInv { s with
      pc
      transmitAckNackSem := sem
      transmitDataGetSem := getSem
      transmitDataPutSem := putSem
      expired } where
  flag := h.flag
  seq := h.seq
  sent := h.sent
  order := h.order
  acked := h.acked
  removed := h.removed
  armed := h.armed
  latest := h.latest
  waiting := fun _ => h.waiting hpc
  bAck := fun _ => h.bAck hpc
  progress := h.progress
  place := hplace

/-- The removal: the head of the queue is the message that was acknowledged. -/
theorem AckInv.pop (h : AckInv s) (hl : Ledger s) (hpc : s.pc = .popAck) {m : CanalMsg}
    {rest : List CanalMsg} (hlist : s.transmitList = m :: rest) :
    (∃ f ∈ s.acked, f.pos = s.removed.length ∧ f.msg = m) ∧
      AckInv { s.pop m rest with bTransmissionInProgress := false, pc := .postPut true } := by
  have hplace := h.place
  simp only [AckPlace, hpc] at hplace
  obtain ⟨f, hf, hpos⟩ := hplace
  have hsent := h.acked f hf
  have hmsg : f.msg = m := by
    have hcarried := (h.sent f hsent).msg
    rw [hpos, hl.getElem?_accepted hlist] at hcarried
    exact (Option.some.inj hcarried).symm
  refine ⟨⟨f, hf, hpos, hmsg⟩, ?_⟩
  have hne : s.pc ≠ .start := by simp [hpc]
  exact {
    flag := h.flag
    seq := h.seq
    sent := h.sent
    order := by
      have hmem : s.removed.length ∈ s.sent.map (·.pos) := hpos ▸ List.mem_map_of_mem hsent
      simpa [State.pop] using h.order.advance hmem
    acked := h.acked
    removed := fun i m' hm' => by
      by_cases hi : i < s.removed.length
      · exact h.removed i m' (by simpa [State.pop, List.getElem?_append_left hi] using hm')
      · have hlast : i = s.removed.length ∧ m = m' := by
          simp only [State.pop, List.getElem?_append_right (Nat.le_of_not_lt hi)] at hm'
          obtain ⟨hlt, heq⟩ := List.getElem?_eq_some_iff.mp hm'
          simp at hlt heq
          exact ⟨by omega, heq⟩
        exact ⟨f, hf, hpos.trans hlast.1.symm, hmsg.trans hlast.2⟩
    armed := h.armed
    latest := h.latest
    waiting := fun _ => h.waiting hne
    bAck := fun _ => h.bAck hne
    progress := fun hp => by cases hp
    place := trivial }

/-- A frame goes out: it is the armed one and carries the head of the queue. -/
theorem AckInv.send (h : AckInv s) {again : Bool} {f : TxFrame} (hpc : s.pc = .send again f)
    (progress : Bool) :
    AckInv { s with sent := s.sent ++ [f], bTransmissionInProgress := progress, pc := .loop } := by
  have hplace := h.place
  simp only [AckPlace, hpc] at hplace
  obtain ⟨hpos, harmed⟩ := hplace
  have hne : s.pc ≠ .start := by simp [hpc]
  exact {
    flag := h.flag
    seq := h.seq
    sent := fun g hg => by
      cases List.mem_append.mp hg with
      | inl hold => exact h.sent g hold
      | inr hnew => exact List.mem_singleton.mp hnew ▸ h.armed f harmed
    order := by simpa [hpos] using h.order.send
    acked := fun g hg => List.mem_append_left _ (h.acked g hg)
    removed := h.removed
    armed := h.armed
    latest := fun f' hf' g hg => by
      obtain rfl : f = f' := Option.some.inj (harmed.symm.trans hf')
      cases List.mem_append.mp hg with
      | inl hold => exact h.latest f harmed g hold
      | inr hnew => exact .inl (List.mem_singleton.mp hnew)
    waiting := fun _ => h.waiting hne
    bAck := fun _ => h.bAck hne
    progress := fun _ => ⟨f, harmed, hpos⟩
    place := trivial }

/-- Every step of the transmit thread keeps the invariant. -/
theorem AckInv.tx (h : AckInv s) (hl : Ledger s) (ht : TxStep s t) : AckInv t := by
  have hplace := h.place
  cases ht with
  | start hpc =>
      exact { h with
        waiting := fun _ hw => by cases hw
        bAck := fun _ hb => by cases hb
        place := trivial }
  | exit hpc => exact h.goto .exited (by simp [hpc]) trivial _ _ _ _
  | toWait hpc hrun hack hprogress => exact h.goto .waitAck (by simp [hpc]) hprogress _ _ _ _
  | toCheck hpc => exact h.goto .checkCount (by simp [hpc]) trivial _ _ _ _
  | take hpc token rest hsem =>
      simp only [AckPlace, hpc] at hplace
      exact h.goto (.readAck token) (by simp [hpc]) hplace _ _ _ _
  | expire hpc => exact h.goto (.txOpen true) (by simp [hpc]) trivial _ _ _ _
  | interrupt hpc => exact h.goto (.txOpen true) (by simp [hpc]) trivial _ _ _ _
  | ack token hpc hack =>
      -- the armed attempt carries the head of the queue, and has been acknowledged
      simp only [AckPlace, hpc] at hplace
      obtain ⟨f, harmed, hacked⟩ := h.bAck (by simp [hpc]) hack
      obtain ⟨f', harmed', hpos⟩ := h.progress hplace
      obtain rfl : f = f' := Option.some.inj (harmed.symm.trans harmed')
      exact h.goto .popAck (by simp [hpc]) ⟨f, hacked, hpos⟩ _ _ _ _
  | nack token hpc => exact h.goto (.txOpen true) (by simp [hpc]) trivial _ _ _ _
  | popAckEmpty hpc =>
      exact { h with
        waiting := fun _ => h.waiting (by simp [hpc])
        bAck := fun _ => h.bAck (by simp [hpc])
        progress := fun hp => by cases hp
        place := trivial }
  | popAck hpc m rest hlist => exact (h.pop hl hpc hlist).2
  | postPut acked hpc =>
      refine h.goto _ (by simp [hpc]) ?_ _ _ _ _
      cases acked <;> trivial
  | check hpc pc hto =>
      refine h.goto _ (by simp [hpc]) ?_ _ _ _ _
      cases hto <;> subst pc <;> trivial
  | takeGet hpc => exact h.goto .checkCount2 (by simp [hpc]) trivial _ _ _ _
  | missGet hpc => exact h.goto .loop (by simp [hpc]) trivial _ _ _ _
  | check2 hpc pc hto =>
      refine h.goto _ (by simp [hpc]) ?_ _ _ _ _
      cases hto <;> subst pc <;> trivial
  | idle hpc => exact h.goto .loop (by simp [hpc]) trivial _ _ _ _
  | notOpen again hpc => exact h.goto .loop (by simp [hpc]) trivial _ _ _ _
  | isOpen again hpc => exact h.goto (.fetch again) (by simp [hpc]) trivial _ _ _ _
  | fetchEmpty again hpc => exact h.goto .loop (by simp [hpc]) trivial _ _ _ _
  | fetch again hpc m rest hlist =>
      have hbuild : Carries (s.attempts + 1) s.accepted (s.build m) :=
        ⟨Nat.lt_succ_self _, h.seq, hl.getElem?_accepted hlist⟩
      have hmono : ∀ f, Carries s.attempts s.accepted f → Carries (s.attempts + 1) s.accepted f :=
        fun f hf => by simpa using hf.mono (Nat.le_succ _) []
      exact { h with
        seq := by rw [seq8_succ, h.seq]
        sent := fun f hf => hmono f (h.sent f hf)
        armed := fun f hf => hmono f (h.armed f hf)
        waiting := fun _ => h.waiting (by simp [hpc])
        bAck := fun _ => h.bAck (by simp [hpc])
        place := ⟨hbuild, rfl, rfl, fun g hg => (h.sent g hg).index⟩ }
  | arm again f hpc =>
      simp only [AckPlace, hpc] at hplace
      obtain ⟨hcarries, hpos, hindex, hbelow⟩ := hplace
      have hseq : s.seq - 1 = f.seq := by
        rw [h.seq, ← hindex, seq8_succ, hcarries.seq]
        simp
      exact { h with
        armed := fun f' hf' => Option.some.inj hf' ▸ hcarries
        latest := fun f' hf' g hg => .inr (Option.some.inj hf' ▸ hbelow g hg)
        waiting := fun _ _ => ⟨f, rfl, hseq⟩
        bAck := fun _ hb => by cases hb
        progress := fun _ => ⟨f, rfl, hpos⟩
        place := ⟨hpos, rfl⟩ }
  | sendAgain f hpc => exact h.send hpc _
  | sendAck f hpc => exact h.send hpc true
  | sendPlain f hpc hplain => simp [h.flag] at hplain
  | sendFails again f hpc => exact h.goto (.disarm again) (by simp [hpc]) trivial _ _ _ _
  | disarm again hpc =>
      exact { h with
        waiting := fun _ hw => by cases hw
        bAck := fun _ => h.bAck (by simp [hpc])
        place := trivial }
  | popPlainEmpty hpc => simp [AckPlace, hpc] at hplace
  | popPlain hpc => simp [AckPlace, hpc] at hplace

/-- Closing the driver touches none of this. -/
theorem AckInv.api {b : Bool} (h : AckInv s) (hopen : s.api ≠ .closed) (ht : ApiStep b s t) :
    AckInv t := by
  cases ht with
  | opens hapi => exact absurd hapi hopen
  | _ => exact { h with }

/-! ## the session -/

variable [DecidableEq ι]

/-- Every run of a session keeps the invariant. -/
theorem ackInv_of_reachable (h₀ : Start s₀) (hflag : s₀.waitForAck = true) (hpc : s₀.pc = .start)
    (hseq : s₀.seq = 0) (hprogress : s₀.bTransmissionInProgress = false)
    (hs : (machine s₀).ReachableWhen AckSession s) : AckInv s := by
  refine hs.invariant_of (P := Ledger) (fun s hs => ledger_of_reachable h₀ hs) ?_ ?_
  · rintro s rfl
    exact {
      flag := hflag
      seq := by rw [hseq, h₀.attempts]; rfl
      sent := by simp [h₀.sent]
      order := by simpa [h₀.sent, h₀.removed] using Repeats.nil
      acked := by simp [h₀.acked]
      removed := by simp [h₀.removed]
      armed := by simp [h₀.armed]
      latest := by simp [h₀.armed]
      waiting := fun hne => absurd hpc hne
      bAck := fun hne => absurd hpc hne
      progress := fun hp => by simp [hprogress] at hp
      place := by simpa [AckPlace, hpc] using h₀.sent }
  · intro s t a hl hI hc hnext
    cases a with
    | transmit o => exact hI.tx hl (txNext_step hnext)
    | writer w a =>
        obtain ⟨ms, getSem, putSem, writer, rfl⟩ := writerNext_effect hnext
        exact hI.writers ms getSem putSem writer
    | answer a =>
        cases hnext
        exact hI.answer hc
    | api b => exact hI.api hc (apiNext_step hnext)

/-- The counters are not reset during a session. -/
theorem countedFrom_of_reachable (h₀ : Start s₀) (hs : (machine s₀).ReachableWhen AckSession s) :
    s.countedFrom = 0 := by
  refine hs.invariant (fun s h => h ▸ h₀.countedFrom) ?_
  intro s t a hI hc hnext
  cases session_next hnext with
  | inl h => rw [h.2, hI]
  | inr h =>
      obtain ⟨b, rfl, hapi, -⟩ := h
      exact absurd hapi hc

/-- A step removes nothing, or the head of the queue after an ACK for a frame
that carried it. -/
theorem AckInv.removes (h : AckInv s) (hl : Ledger s) {a : Act ι}
    (hnext : (machine s₀).next a s = some t) :
    t.removed = s.removed ∨ ∃ m, t.removed = s.removed ++ [m] ∧
      ∃ f ∈ s.acked, f.pos = s.removed.length ∧ f.msg = m := by
  have hplace := h.place
  cases a with
  | transmit o =>
      have ht := txNext_step hnext
      cases ht with
      | popAck hpc m rest hlist => exact .inr ⟨m, rfl, (h.pop hl hpc hlist).1⟩
      | popPlain hpc => simp [AckPlace, hpc] at hplace
      | _ => exact .inl rfl
  | writer w a =>
      obtain ⟨ms, getSem, putSem, writer, rfl⟩ := writerNext_effect hnext
      exact .inl rfl
  | answer a =>
      cases hnext
      unfold answerNext
      split <;> exact .inl rfl
  | api b =>
      have ht := apiNext_step hnext
      cases ht <;> exact .inl rfl

/-- What is to be seen of the transmit side in a session with ACK. -/
structure AckSafe (s₀ s : State ι) : Prop where
  conserved : s.removed ++ s.transmitList = s.accepted
  -- what has been removed was acknowledged, in a frame that carried it
  removed : ∀ i m, s.removed[i]? = some m →
    ∃ f ∈ s.acked, f ∈ s.sent ∧ f.pos = i ∧ f.msg = m
  -- what the next step removes has been acknowledged before
  removes : ∀ a t, (machine s₀).next a s = some t → t.removed = s.removed ∨
    ∃ m, t.removed = s.removed ++ [m] ∧ ∃ f ∈ s.acked, f.pos = s.removed.length ∧ f.msg = m
  -- the frames carry the accepted messages in order, with repetitions
  carried : ∀ f ∈ s.sent, s.accepted[f.pos]? = some f.msg
  order : Repeats (s.sent.map (·.pos)) s.removed.length
  frames : s.cntTransmitFrames = s.removed.length
  data : s.cntTransmitData = (s.removed.map fun m => m.sizeData.toNat).sum

/-- **Transmit safety with ACK**: in every run of a session, whatever the
writers do, whichever sends fail and whatever the adapter loses, repeats, delays
or rejects, messages are removed only after they were acknowledged, and sent in
order. -/
theorem ack_safe (s₀ : State ι) (h₀ : Start s₀) (hflag : s₀.waitForAck = true)
    (hpc : s₀.pc = .start) (hseq : s₀.seq = 0) (hprogress : s₀.bTransmissionInProgress = false)
    (s : State ι) (hs : (machine s₀).ReachableWhen AckSession s) : AckSafe s₀ s := by
  have hl := ledger_of_reachable h₀ hs
  have hI := ackInv_of_reachable h₀ hflag hpc hseq hprogress hs
  have hcounted : s.counted = s.removed := by
    rw [State.counted, countedFrom_of_reachable h₀ hs, List.drop_zero]
  exact {
    conserved := hl.conserved
    removed := fun i m hm => by
      obtain ⟨f, hf, hpos, hmsg⟩ := hI.removed i m hm
      exact ⟨f, hf, hI.acked f hf, hpos, hmsg⟩
    removes := fun a t hnext => hI.removes hl hnext
    carried := fun f hf => (hI.sent f hf).msg
    order := hI.order
    frames := by rw [hl.frames, hcounted]
    data := by rw [hl.data, hcounted] }

/-- A driver at the start of a session with ACK, with two messages queued. -/
def ackStart : State Unit :=
  { State.new with
    transmitList := [⟨0, 0, 5, 1, [7], 0⟩, ⟨0, 0, 6, 0, [], 0⟩]
    accepted := [⟨0, 0, 5, 1, [7], 0⟩, ⟨0, 0, 6, 0, [], 0⟩]
    bRun := true
    bOpen := true
    waitForAck := true
    pc := .start
    api := .opened }

/-- The first frame is rejected and sent again, the second time it is
acknowledged and removed. -/
theorem ack_safe_nack : ∃ s, s.removed.length = 1 ∧ s.sent.length = 2 ∧ AckSafe ackStart s := by
  let f (k : Nat) : TxFrame := ⟨k, 0, ⟨0, 0, 5, 1, [7], 0⟩, UInt8.ofNat k⟩
  let run : List (Act Unit) :=
    List.replicate 8 (.transmit .ok) ++ [.answer ⟨false, 0, 0, some (f 0)⟩] ++
    List.replicate 7 (.transmit .ok) ++ [.answer ⟨true, 0, 1, some (f 1)⟩] ++
    List.replicate 4 (.transmit .ok)
  obtain ⟨s, hs, hp⟩ := (machine ackStart).exists_reachableWhen (c := AckSession) run
    (fun s => s.removed.length == 1 && s.sent.length == 2) rfl (by decide)
  simp only [Bool.and_eq_true, beq_iff_eq] at hp
  exact ⟨s, hp.1, hp.2, ack_safe ackStart
    ⟨rfl, rfl, rfl, rfl, rfl, rfl, rfl, rfl, rfl, rfl, .inl rfl, fun h => by cases h⟩
    rfl rfl rfl rfl s hs⟩

end Can4vscp.Transmit
