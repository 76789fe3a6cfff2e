import Can4vscp.AckTransmit
import Can4vscp.TransmitProgress

/-!
# Can4vscp.AckProgress

The transmit thread gets on with its work, with ACK.

`ack_safe` says that nothing is removed before it was acknowledged; here it is shown that
everything is removed in the end, however many attempts it takes.  An attempt fails when
the port does not take the frame, or when the wait for its answer ends without an ACK:
after a NACK, the timeout, a signal, or a token that was left over.  A pass of the loop has
twelve steps, and a failed attempt leads back by less than that.  So twelve steps of the
thread for each message in the queue, and twelve for each attempt that fails, empty the
queue (`ack_drains`).
-/

namespace Can4vscp.Transmit

variable {ι : Type} {o : Outcome} {s₀ s t : State ι}

/-! ## attempts that fail -/

/-- The attempt under way comes to nothing. -/
def Act.fails (a : Act ι) (s : State ι) : Bool :=
  match a, s.pc with
  | .transmit .sendFails, _ => true
  | .transmit .expired, .waitAck => true
  | .transmit .interrupted, .waitAck => true
  | .transmit .ok, .readAck _ => !s.msgResponseInfo.bAck
  | _, _ => false

/-- The steps a failed attempt costs. -/
def Act.setback (a : Act ι) (s : State ι) : Nat := if a.fails s then 12 else 0

/-- An attempt is under way, and the message has been sent before. -/
def TxPc.retries : TxPc → Bool
  | .waitAck | .readAck _ => true
  | .txOpen again | .fetch again | .arm again _ | .send again _ | .disarm again => again
  | _ => false

/-- A message is sent again while its transmission is in progress. -/
def RetriesInProgress (s : State ι) : Prop := s.pc.retries = true → s.bTransmissionInProgress = true

theorem RetriesInProgress.tx (h : RetriesInProgress s) (ht : TxStep s t) : RetriesInProgress t := by
  cases ht with
  | toWait hpc hrun hack hprogress => exact fun _ => hprogress
  | sendAck f hpc hack => exact fun _ => rfl
  | check hpc pc hto => cases hto <;> simp_all [RetriesInProgress, TxPc.retries]
  | check2 hpc pc hto => cases hto <;> simp_all [RetriesInProgress, TxPc.retries]
  | postPut acked hpc => cases acked <;> simp [RetriesInProgress, TxPc.retries]
  | _ => simp_all [RetriesInProgress, TxPc.retries]

/-! ## the way to the next removal -/

/-- How far the transmit thread is, with ACK. -/
def TxPc.ackStage (bTransmissionInProgress : Bool) : TxPc → Nat
  | .start | .postPut _ | .waitGet | .idle | .disarm _ => 1
  | .loop => if bTransmissionInProgress then 9 else 2
  | .checkCount => 3
  | .checkCount2 => 4
  | .txOpen _ => 5
  | .fetch _ => 6
  | .arm _ _ => 7
  | .send _ _ => 8
  | .waitAck => 10
  | .readAck _ => 11
  | .popAck => 12
  | .exited | .popPlain => 0

theorem TxPc.ackStage_le (b : Bool) (pc : TxPc) : pc.ackStage b ≤ 12 := by
  cases pc <;> cases b <;> simp [TxPc.ackStage]

/-- What has been removed, and how far the thread is with the next message. -/
def State.ackWork (s : State ι) : Nat :=
  12 * s.removed.length + s.pc.ackStage s.bTransmissionInProgress

/-- Every step of the transmit thread is progress while there is a message, unless it is
where an attempt fails. -/
theorem txNext_ackWork (hI : RetriesInProgress s) (hack : s.waitForAck = true) (hrun : s.bRun = true)
    (hopen : s.bOpen = true) (hlist : s.transmitList ≠ []) (h : txNext o s = some t) :
    s.ackWork + 1 ≤ t.ackWork + (Act.transmit o).setback s := by
  obtain ⟨m, rest, hqueue⟩ := List.exists_cons_of_ne_nil hlist
  cases hpc : s.pc with
  | exited => simp [txNext, hpc] at h
  | loop =>
      cases hprogress : s.bTransmissionInProgress <;>
        cases o <;> simp [txNext, hpc, hrun, hack, hprogress] at h
      · simp [← h, State.ackWork, hpc, hprogress, TxPc.ackStage]
      · simp [← h, State.ackWork, hpc, hprogress, TxPc.ackStage]
  | waitAck =>
      cases o with
      | ok =>
          simp only [txNext, hpc] at h
          split at h
          · cases h
          · cases h
            simp [State.ackWork, hpc, TxPc.ackStage]
      | expired =>
          simp only [txNext, hpc, Option.ite_none_right_eq_some, Option.some.injEq] at h
          simp [← h.2, State.ackWork, Act.setback, Act.fails, hpc, TxPc.ackStage]
      | interrupted =>
          simp only [txNext, hpc, Option.some.injEq] at h
          simp [← h, State.ackWork, Act.setback, Act.fails, hpc, TxPc.ackStage]
      | sendFails => simp [txNext, hpc] at h
  | readAck token =>
      cases o <;> simp only [txNext, hpc, reduceCtorEq] at h
      split at h
      · cases h
        simp [State.ackWork, hpc, TxPc.ackStage]
      · next hno =>
          cases h
          simp [State.ackWork, Act.setback, Act.fails, hpc, hno, TxPc.ackStage]
  | popAck =>
      cases o <;> simp only [txNext, hpc, hqueue, Option.some.injEq, reduceCtorEq] at h
      simp [← h, State.ackWork, State.pop, hpc, TxPc.ackStage]
      omega
  | popPlain =>
      cases o <;> simp only [txNext, hpc, hqueue, Option.some.injEq, reduceCtorEq] at h
      simp [← h, State.ackWork, State.pop, hpc, TxPc.ackStage]
      omega
  | send again f =>
      cases o with
      | ok =>
          cases again with
          | true =>
              have hprogress : s.bTransmissionInProgress = true := hI (by rw [hpc]; rfl)
              simp only [txNext, hpc, if_true, Option.some.injEq] at h
              simp [← h, State.ackWork, hpc, hprogress, TxPc.ackStage]
          | false =>
              simp [txNext, hpc, hack] at h
              simp [← h, State.ackWork, hpc, TxPc.ackStage]
      | sendFails =>
          simp only [txNext, hpc, Option.some.injEq] at h
          simp [← h, State.ackWork, Act.setback, Act.fails, hpc, TxPc.ackStage]
      | expired => simp [txNext, hpc] at h
      | interrupted => simp [txNext, hpc] at h
  | waitGet =>
      -- a token, or back to the top of the loop
      have hloop : 2 ≤ TxPc.ackStage s.bTransmissionInProgress .loop := by
        cases s.bTransmissionInProgress <;> simp [TxPc.ackStage]
      cases o <;> simp only [txNext, hpc, Option.ite_none_right_eq_some, Option.some.injEq,
        reduceCtorEq] at h
      · simp [← h.2, State.ackWork, hpc, TxPc.ackStage]
        omega
      · rw [← h.2]
        simp [State.ackWork, hpc, TxPc.ackStage] at hloop ⊢
        omega
      · rw [← h]
        simp [State.ackWork, hpc, TxPc.ackStage] at hloop ⊢
        omega
  | postPut acked =>
      cases o <;> simp only [txNext, hpc, Option.some.injEq, reduceCtorEq] at h
      cases acked <;> cases hprogress : s.bTransmissionInProgress <;>
        simp [← h, State.ackWork, hpc, hprogress, TxPc.ackStage] <;> omega
  | _ =>
      cases o <;> simp [txNext, hpc, hopen, hqueue] at h
      cases hprogress : s.bTransmissionInProgress <;>
        simp [← h, State.ackWork, hpc, hprogress, TxPc.ackStage] <;> omega

/-! ## a stretch of a session -/

/-- The driver stays open; the adapter answers what it received. -/
def Served : Act ι → State ι → Prop
  | .api _, _ => False
  | a, s => AckSession a s

theorem Served.ackSession {a : Act ι} (h : Served a s) : AckSession a s := by
  cases a with
  | api b => exact h.elim
  | _ => exact h

section
variable [DecidableEq ι] {as : List (Act ι)}

theorem retriesInProgress_of_reachable {c : Act ι → State ι → Prop} (hpc : s₀.pc = .start)
    (hs : (machine s₀).ReachableWhen c s) : RetriesInProgress s := by
  refine hs.invariant ?_ ?_
  · rintro s rfl
    simp [RetriesInProgress, hpc, TxPc.retries]
  · intro s t a hI _ hnext
    cases a with
    | transmit o => exact hI.tx (txNext_step hnext)
    | writer w a =>
        obtain ⟨ms, getSem, putSem, writer, rfl⟩ := writerNext_effect hnext
        exact hI
    | answer a =>
        cases hnext
        obtain ⟨info, sem, acked, nacked, heq⟩ := answerNext_effect a s
        rw [heq]
        exact hI
    | api b =>
        cases apiNext_step hnext with
        | opens hapi => exact fun h => by cases h
        | _ => exact hI

/-- What holds while the messages in `before` are sent. -/
structure Serving (s₀ : State ι) (before : List CanalMsg) (s : State ι) : Prop where
  reachable : (machine s₀).ReachableWhen AckSession s
  bRun : s.bRun = true
  bOpen : s.bOpen = true
  accepted : before <+: s.accepted

variable {before : List CanalMsg}

/-- Nobody else gets in the way. -/
theorem Serving.next (h₀ : Start s₀) (hpc : s₀.pc = .start) (hflag : ∀ s, Serving s₀ before s →
    s.waitForAck = true) {a : Act ι} (h : Serving s₀ before s) (hc : Served a s)
    (hnext : (machine s₀).next a s = some t) :
    Serving s₀ before t ∧ (before.length ≤ t.removed.length ∨
      s.ackWork + a.isTransmit.toNat ≤ t.ackWork + a.setback s) := by
  have hreachable := h.reachable.step a hc.ackSession hnext
  cases a with
  | transmit o =>
      have hstep := txNext_step hnext
      have hkeep : t.bRun = s.bRun ∧ t.bOpen = s.bOpen ∧ t.accepted = s.accepted ∧
          s.removed.length ≤ t.removed.length := by
        cases hstep <;> simp [State.pop]
      obtain ⟨hrun, hopen, haccepted, hremoved⟩ := hkeep
      refine ⟨⟨hreachable, hrun.trans h.bRun, hopen.trans h.bOpen, haccepted ▸ h.accepted⟩, ?_⟩
      by_cases hlist : s.transmitList = []
      · -- everything that was accepted is gone
        have hconserved := (ledger_of_reachable h₀ h.reachable).conserved
        rw [hlist, List.append_nil] at hconserved
        refine .inl (Nat.le_trans h.accepted.length_le ?_)
        rw [← hconserved]
        exact hremoved
      · exact .inr (txNext_ackWork (retriesInProgress_of_reachable hpc h.reachable) (hflag s h) h.bRun
          h.bOpen hlist hnext)
  | writer w a =>
      obtain ⟨ms, getSem, putSem, writer, rfl⟩ := writerNext_effect hnext
      exact ⟨⟨hreachable, h.bRun, h.bOpen, h.accepted.trans (List.prefix_append _ _)⟩,
        .inr (Nat.le_refl _)⟩
  | answer a =>
      cases hnext
      obtain ⟨info, sem, acked, nacked, heq⟩ := answerNext_effect a s
      rw [heq] at hreachable ⊢
      exact ⟨⟨hreachable, h.bRun, h.bOpen, h.accepted⟩, .inr (Nat.le_refl _)⟩
  | api b => exact hc.elim

/-! ## the result -/

/-- What the transmit thread has done after a stretch of a session. -/
structure Acknowledged (s t : State ι) : Prop where
  -- what the queue held has been removed, in order, each message after an ACK of a frame
  -- that carried it
  removed : s.accepted <+: t.removed
  acked : ∀ i m, s.accepted[i]? = some m → ∃ f ∈ t.acked, f ∈ t.sent ∧ f.pos = i ∧ f.msg = m
  -- and the thread can go on
  enabled : ∃ o u, o ≠ .sendFails ∧ txNext o t = some u

/-- **Every message gets through** in a session with ACK: twelve steps of the transmit
thread for each message in the queue, twelve for each attempt that fails, and one more send
and remove them all, however the steps of the writers and of the receive thread come in
between. -/
theorem ack_drains (h₀ : Start s₀) (hflag : s₀.waitForAck = true) (hpc : s₀.pc = .start)
    (hseq : s₀.seq = 0) (hprogress : s₀.bTransmissionInProgress = false)
    (hs : (machine s₀).ReachableWhen AckSession s) (hrun : s.bRun = true) (hopen : s.bOpen = true)
    (hpath : (machine s₀).Path Served s as t)
    (hsteps : 12 * s.transmitList.length + (machine s₀).cost Act.setback as s <
      as.countP Act.isTransmit) : Acknowledged s t := by
  have hack : ∀ u, (machine s₀).ReachableWhen AckSession u → AckInv u := fun u hu =>
    ackInv_of_reachable h₀ hflag hpc hseq hprogress hu
  have hstart : Serving s₀ s.accepted s := ⟨hs, hrun, hopen, List.prefix_refl _⟩
  have hflags : ∀ u, Serving s₀ s.accepted u → u.waitForAck = true := fun u hu =>
    (hack u hu.reachable).flag
  have hnext := fun u v a (hu : Serving s₀ s.accepted u) => hu.next (a := a) (t := v) h₀ hpc hflags
  have hend : Serving s₀ s.accepted t := hpath.keeps (fun u v a hu hc h => (hnext u v a hu hc h).1) hstart
  have hgain := hpath.gain_charged (fun t => s.accepted.length ≤ t.removed.length) Act.isTransmit
    Act.setback hnext (fun _ _ _ hgoal _ h => Nat.le_trans hgoal (removed_le h)) hstart
  have hledger := ledger_of_reachable h₀ hend.reachable
  have hlength : s.removed.length + s.transmitList.length = s.accepted.length := by
    rw [← (ledger_of_reachable h₀ hs).conserved, List.length_append]
  have hall : s.accepted.length ≤ t.removed.length := by
    cases hgain with
    | inl hgoal => exact hgoal
    | inr hgain =>
        have hstage := t.pc.ackStage_le t.bTransmissionInProgress
        simp only [State.ackWork] at hgain
        omega
  have hremoved : s.accepted <+: t.removed :=
    List.prefix_of_prefix_length_le hend.accepted ⟨_, hledger.conserved⟩ hall
  have hI := hack t hend.reachable
  refine ⟨hremoved, fun i m hm => ?_, txNext_enabled ?_⟩
  · obtain ⟨hi, rfl⟩ := List.getElem?_eq_some_iff.mp hm
    obtain ⟨f, hf, hpos, hmsg⟩ := hI.removed i _ (List.prefix_iff_getElem?.mp hremoved i hi)
    exact ⟨f, hf, hI.acked f hf, hpos, hmsg⟩
  · exact alive_of_reachable (by simp [hpc]) hend.reachable hend.bRun

instance : (a : Act ι) → (s : State ι) → Decidable (Served a s)
  | .transmit _, _ | .writer _ _, _ => .isTrue trivial
  | .answer a, s => inferInstanceAs (Decidable (AckSession (.answer a) s))
  | .api _, _ => .isFalse id

end

/-- The first frame is rejected and sent again; then both messages get through. -/
theorem ack_drains_nack : ∃ t : State Unit, t.transmitList = [] ∧ t.sent.length = 3 ∧
    Acknowledged ackStart t := by
  let f (k pos : Nat) (m : CanalMsg) : TxFrame := ⟨k, pos, m, UInt8.ofNat k⟩
  let m₀ : CanalMsg := ⟨0, 0, 5, 1, [7], 0⟩
  let m₁ : CanalMsg := ⟨0, 0, 6, 0, [], 0⟩
  let steps (n : Nat) : List (Act Unit) := List.replicate n (.transmit .ok)
  let path : List (Act Unit) :=
    steps 8 ++ [.answer ⟨false, 0, 0, some (f 0 0 m₀)⟩] ++ steps 7 ++
    [.answer ⟨true, 0, 1, some (f 1 0 m₀)⟩] ++ steps 11 ++ [.answer ⟨true, 0, 2, some (f 2 1 m₁)⟩] ++
    steps 6 ++ [.transmit .expired] ++ steps 2 ++ [.transmit .expired] ++ steps 2
  have hrun : ((machine ackStart).runWhen Served path ackStart).any (fun t => t.transmitList == [] &&
      t.sent.length == 3 && decide (24 + (machine ackStart).cost Act.setback path ackStart <
        path.countP Act.isTransmit)) = true := by decide
  obtain ⟨t, ht, hp⟩ := (Option.any_eq_true _ _).mp hrun
  simp only [Bool.and_eq_true, beq_iff_eq, decide_eq_true_eq] at hp
  obtain ⟨⟨hempty, hsent⟩, hsteps⟩ := hp
  exact ⟨t, hempty, hsent, ack_drains
    ⟨rfl, rfl, rfl, rfl, rfl, rfl, rfl, rfl, rfl, rfl, .inl rfl, fun h => by cases h⟩
    rfl rfl rfl rfl (.init rfl) rfl rfl (Machine.path_of_runWhen ht) hsteps⟩

end Can4vscp.Transmit
