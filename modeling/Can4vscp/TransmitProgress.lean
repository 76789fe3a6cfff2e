import Can4vscp.CloseTokens
import Can4vscp.PlainTransmit
import Can4vscp.Lib.Progress

/-!
# Can4vscp.TransmitProgress

The transmit thread gets on with its work.

`exactly_once` says that no message is lost; here it is shown that none is left in the
queue.  While the driver stays open and the port takes what it is given, the transmit
thread can always take a step, and `stage` says how far it is on its way to the removal
of the next message: no step of the thread leads back, and no step of a writer or of the
receive thread matters.  A pass of the loop has nine steps, so that many for each message
empty the queue (`transmit_drains`).
-/

namespace Can4vscp.Transmit

variable {ι : Type} {o : Outcome} {s t : State ι}

/-- What has been removed has been sent. -/
theorem PlainInv.removed_prefix (hI : PlainInv s) : s.removed <+: s.sent.map (·.msg) := by
  by_cases hpc : s.pc = .popPlain
  · simp only [PlainInv, hpc] at hI
    obtain ⟨m, hsent, _⟩ := hI
    rw [hsent]
    exact List.prefix_append _ _
  · simp only [hI.sent_removed hpc, List.prefix_rfl]

/-! ## the way to the next removal -/

/-- How far the transmit thread is, without ACK. -/
def TxPc.stage : TxPc → Nat
  | .start => 1
  | .postPut _ => 1
  | .waitGet => 1
  | .idle => 1
  | .disarm _ => 1
  | .loop => 2
  | .checkCount => 3
  | .checkCount2 => 4
  | .txOpen _ => 5
  | .fetch _ => 6
  | .arm _ _ => 7
  | .send _ _ => 8
  | .popPlain => 9
  | _ => 0

theorem TxPc.stage_le (pc : TxPc) : pc.stage ≤ 9 := by
  cases pc <;> simp [TxPc.stage]

/-- What has been removed, and how far the thread is with the next message. -/
def State.work (s : State ι) : Nat := 9 * s.removed.length + s.pc.stage

/-- Every step of the transmit thread is progress while there is a message. -/
theorem txNext_work (hI : PlainInv s) (hplain : s.waitForAck = false) (hrun : s.bRun = true)
    (hopen : s.bOpen = true) (hlist : s.transmitList ≠ []) (ho : o ≠ .sendFails)
    (h : txNext o s = some t) : s.work + 1 ≤ t.work := by
  obtain ⟨m, rest, hqueue⟩ := List.exists_cons_of_ne_nil hlist
  cases hpc : s.pc with
  | exited => simp [txNext, hpc] at h
  | waitAck => exact absurd hpc hI.no_wait.1
  | readAck token => exact absurd hpc (hI.no_wait.2.1 token)
  | popAck => exact absurd hpc hI.no_wait.2.2
  | popPlain =>
      cases o <;> simp only [txNext, hpc, hqueue, Option.some.injEq, reduceCtorEq] at h
      rw [← h]
      simp [State.work, State.pop, hpc, TxPc.stage]
      omega
  | send again f =>
      obtain rfl := hI.first (.inr (.inr (.inr ⟨f, hpc⟩)))
      cases o <;> simp [txNext, hpc, hplain] at h
      · rw [← h]
        simp [State.work, hpc, TxPc.stage]
      · exact absurd rfl ho
  | waitGet =>
      -- a token, or back to the top of the loop
      cases o <;> simp only [txNext, hpc, Option.ite_none_right_eq_some, Option.some.injEq,
        reduceCtorEq] at h
      · rw [← h.2]
        simp [State.work, hpc, TxPc.stage]
      · rw [← h.2]
        simp [State.work, hpc, TxPc.stage]
      · rw [← h]
        simp [State.work, hpc, TxPc.stage]
  | postPut acked =>
      cases o <;> simp only [txNext, hpc, Option.some.injEq, reduceCtorEq] at h
      rw [← h]
      cases acked <;> simp [State.work, hpc, TxPc.stage]
  | _ =>
      cases o <;> simp [txNext, hpc, hplain, hrun, hopen, hqueue] at h
      rw [← h]
      simp [State.work, hpc, TxPc.stage]

/-- The transmit thread is never stuck. -/
theorem txNext_enabled (hpc : s.pc ≠ .exited) : ∃ o t, o ≠ .sendFails ∧ txNext o s = some t := by
  cases h : s.pc with
  | exited => exact absurd h hpc
  | waitAck =>
      cases hsem : s.transmitAckNackSem with
      | nil => exact ⟨.expired, _, by simp, by simp only [txNext, h, hsem]; rfl⟩
      | cons token rest => exact ⟨.ok, _, by simp, by simp only [txNext, h, hsem]; rfl⟩
  | waitGet =>
      by_cases hsem : s.transmitDataGetSem = 0
      · exact ⟨.expired, _, by simp, by simp only [txNext, h, if_pos hsem]; rfl⟩
      · exact ⟨.ok, _, by simp, by simp only [txNext, h, if_pos (Nat.pos_of_ne_zero hsem)]; rfl⟩
  | loop => exact ⟨.ok, _, by simp, by simp only [txNext, h, ← apply_ite some]; rfl⟩
  | popAck => cases hlist : s.transmitList <;> exact ⟨.ok, _, by simp, by simp only [txNext, h, hlist]; rfl⟩
  | popPlain => cases hlist : s.transmitList <;> exact ⟨.ok, _, by simp, by simp only [txNext, h, hlist]; rfl⟩
  | fetch again =>
      cases hlist : s.transmitList <;> exact ⟨.ok, _, by simp, by simp only [txNext, h, hlist]; rfl⟩
  | _ => exact ⟨.ok, _, by simp, by simp only [txNext, h, ← apply_ite some]; rfl⟩

/-- It only ends when the driver has stopped. -/
theorem txNext_exits (h : txNext o s = some t) (hrun : s.bRun = true) : t.pc ≠ .exited := by
  intro ht
  cases txNext_step h with
  | exit hpc =>
      cases o <;> simp only [txNext, hpc, hrun, if_true, reduceCtorEq] at h
      split at h
      · exact absurd (congrArg State.pc (Option.some.inj h)) (by simp)
      · exact absurd (congrArg State.pc (Option.some.inj h)) (by simp)
  | check hpc pc hto => cases hto <;> simp_all
  | check2 hpc pc hto => cases hto <;> simp_all
  | postPut acked hpc => cases acked <;> cases ht
  | _ => cases ht

/-! ## a stretch of a run -/

section
variable [DecidableEq ι] {s₀ : State ι} {as : List (Act ι)}

/-- The driver stays open, and the port takes what it is given. -/
def Undisturbed : Act ι → State ι → Prop
  | .transmit o, _ => o ≠ .sendFails
  | .api _, _ => False
  | _, _ => True

/-- The transmit thread takes the step. -/
def Act.isTransmit : Act ι → Bool
  | .transmit _ => true
  | _ => false

/-- What holds while the messages in `before` are sent. -/
structure Sending (before : List CanalMsg) (s : State ι) : Prop where
  plain : s.waitForAck = false
  bRun : s.bRun = true
  bOpen : s.bOpen = true
  alive : s.pc ≠ .exited
  inv : PlainInv s
  ledger : Ledger s
  accepted : before <+: s.accepted

variable {before : List CanalMsg}

/-- Nobody else gets in the way. -/
theorem Sending.next {a : Act ι} (h : Sending before s) (hc : Undisturbed a s)
    (hnext : (machine s₀).next a s = some t) :
    Sending before t ∧
      (before.length ≤ t.removed.length ∨ s.work + a.isTransmit.toNat ≤ t.work) := by
  cases a with
  | transmit o =>
      have hstep := txNext_step hnext
      have hkeep : t.waitForAck = s.waitForAck ∧ t.bRun = s.bRun ∧ t.bOpen = s.bOpen ∧
          t.accepted = s.accepted ∧ s.removed.length ≤ t.removed.length := by
        cases hstep <;> simp [State.pop]
      obtain ⟨hplain, hrun, hopen, haccepted, hremoved⟩ := hkeep
      refine ⟨{
        plain := hplain.trans h.plain
        bRun := hrun.trans h.bRun
        bOpen := hopen.trans h.bOpen
        alive := txNext_exits hnext h.bRun
        inv := h.inv.tx h.plain hstep
        ledger := h.ledger.tx hstep
        accepted := haccepted ▸ h.accepted }, ?_⟩
      by_cases hlist : s.transmitList = []
      · -- everything that was accepted is gone
        have hall : s.removed = s.accepted := by
          have hconserved := h.ledger.conserved
          rwa [hlist, List.append_nil] at hconserved
        refine .inl (Nat.le_trans h.accepted.length_le ?_)
        rw [← hall]
        exact hremoved
      · exact .inr (txNext_work h.inv h.plain h.bRun h.bOpen hlist hc hnext)
  | writer w a =>
      obtain ⟨ms, getSem, putSem, writer, rfl⟩ := writerNext_effect hnext
      exact ⟨{ h with
        inv := h.inv.writers ms getSem putSem writer
        ledger := h.ledger.writers ms getSem putSem writer
        accepted := h.accepted.trans (List.prefix_append _ _) }, .inr (Nat.le_refl _)⟩
  | answer a =>
      cases hnext
      have hinv := h.inv.answer a
      have hledger := h.ledger.answer a
      obtain ⟨info, sem, acked, nacked, heq⟩ := answerNext_effect a s
      rw [heq] at hinv hledger ⊢
      exact ⟨{ h with inv := hinv, ledger := hledger }, .inr (Nat.le_refl _)⟩
  | api b => exact absurd hc id

/-- What has been removed stays so. -/
theorem removed_le {a : Act ι} (hnext : (machine s₀).next a s = some t) :
    s.removed.length ≤ t.removed.length := by
  cases a with
  | transmit o => cases txNext_step hnext <;> simp [State.pop]
  | writer w a =>
      obtain ⟨ms, getSem, putSem, writer, rfl⟩ := writerNext_effect hnext
      exact Nat.le_refl _
  | answer a =>
      cases hnext
      obtain ⟨info, sem, acked, nacked, heq⟩ := answerNext_effect a s
      rw [heq]
  | api b => cases apiNext_step hnext <;> exact Nat.le_refl _

/-- A thread that runs is alive. -/
theorem alive_of_reachable {c : Act ι → State ι → Prop}
    (h₀ : s₀.bRun = true → s₀.pc ≠ .exited) (hs : (machine s₀).ReachableWhen c s) :
    s.bRun = true → s.pc ≠ .exited := by
  refine hs.invariant (P := fun s => s.bRun = true → s.pc ≠ .exited) ?_ ?_
  · rintro s rfl
    exact h₀
  · intro s t a hI _ hnext hrun
    cases a with
    | transmit o =>
        rw [(txNext_step hnext).frame.2] at hrun
        exact txNext_exits hnext hrun
    | writer w a =>
        obtain ⟨ms, getSem, putSem, writer, rfl⟩ := writerNext_effect hnext
        exact hI hrun
    | answer a =>
        cases hnext
        obtain ⟨info, sem, acked, nacked, heq⟩ := answerNext_effect a s
        rw [heq] at hrun ⊢
        exact hI hrun
    | api b =>
        cases apiNext_step hnext with
        | opens hapi => simp
        | stops hapi => cases hrun
        | _ => exact hI hrun

/-! ## the result -/

/-- What the transmit thread has done after a stretch of a run. -/
structure Drained (s t : State ι) : Prop where
  -- what the queue held has been sent and removed, in order
  removed : s.accepted <+: t.removed
  sent : s.accepted <+: t.sent.map (·.msg)
  -- and the thread can go on
  enabled : ∃ o u, o ≠ .sendFails ∧ txNext o t = some u

/-- **No message is left behind**: without ACK, nine steps of the transmit thread for each
message in the queue, and one more, send and remove them all, however the steps of the
writers and of the receive thread come in between. -/
theorem transmit_drains (hs : (machine State.new).ReachableWhen PlainSession s)
    (hrun : s.bRun = true) (hopen : s.bOpen = true)
    (hpath : (machine State.new).Path Undisturbed s as t)
    (hsteps : 9 * s.transmitList.length < as.countP Act.isTransmit) : Drained s t := by
  have hledger := ledger_of_reachable start_new hs
  have hstart : Sending s.accepted s := {
    plain := plain_of_reachable rfl hs
    bRun := hrun
    bOpen := hopen
    alive := alive_of_reachable (fun h => by cases h) hs hrun
    inv := plainInv_of_reachable start_new rfl hs
    ledger := hledger
    accepted := List.prefix_refl _ }
  have hend : Sending s.accepted t :=
    hpath.keeps (fun _ _ _ h hc hnext => (h.next hc hnext).1) hstart
  have hgain := hpath.gain (fun t => s.accepted.length ≤ t.removed.length) Act.isTransmit
    (fun _ _ _ h hc hnext => h.next hc hnext)
    (fun _ _ _ hgoal _ hnext => Nat.le_trans hgoal (removed_le hnext)) hstart
  have hlength : s.removed.length + s.transmitList.length = s.accepted.length := by
    rw [← hledger.conserved, List.length_append]
  have hall : s.accepted.length ≤ t.removed.length := by
    cases hgain with
    | inl hgoal => exact hgoal
    | inr hgain =>
        have hstage := t.pc.stage_le
        simp only [State.work] at hgain
        omega
  have hremoved : s.accepted <+: t.removed :=
    List.prefix_of_prefix_length_le hend.accepted ⟨_, hend.ledger.conserved⟩ hall
  exact {
    removed := hremoved
    sent := hremoved.trans hend.inv.removed_prefix
    enabled := txNext_enabled hend.alive }

instance : (a : Act ι) → (s : State ι) → Decidable (Undisturbed a s)
  | .transmit o, _ => inferInstanceAs (Decidable (o ≠ .sendFails))
  | .writer _ _, _ => .isTrue trivial
  | .answer _, _ => .isTrue trivial
  | .api _, _ => .isFalse id

/-- Two messages are queued, and a third while the first is sent. -/
theorem transmit_drains_two : ∃ s t : State Unit, s.transmitList.length = 2 ∧
    t.transmitList.length = 1 ∧ Drained s t := by
  let m (k : UInt8) : CanalMsg := ⟨0, 0, 5, 1, [k], 0⟩
  let write (k : UInt8) : List (Act Unit) :=
    .writer () (.call true (m k)) :: List.replicate 3 (.writer () .go)
  let sends : List (Act Unit) := List.replicate 9 (.transmit .ok)
  let queued : List (Act Unit) := [.api false, .api false] ++ write 1 ++ write 2
  let path : List (Act Unit) := sends ++ write 3 ++ sends ++ [.transmit .ok]
  obtain ⟨s, t, hs, hpath, hp⟩ := (machine State.new).exists_path PlainSession
    Undisturbed queued path
    (fun s t => s.bRun && s.bOpen && s.transmitList.length == 2 && t.transmitList.length == 1)
    rfl (by decide)
  simp only [Bool.and_eq_true, beq_iff_eq] at hp
  obtain ⟨⟨⟨hrun, hopen⟩, hqueue⟩, hrest⟩ := hp
  exact ⟨s, t, hqueue, hrest, transmit_drains hs hrun hopen hpath (by rw [hqueue]; decide)⟩

end

end Can4vscp.Transmit
