import Can4vscp.Closing
import Can4vscp.TransmitProgress

/-!
# Can4vscp.Shutdown

`close` does not wait for the transmit thread for ever.

`close` clears `m_bRun` and joins the transmit thread, which looks at the flag at the top
of its loop only.  Until then it may wait for an answer or for a message, send what it
has in hand, or open the adapter again.  `State.nearExit` counts how far it is on its way
to the top: every step of the thread leads there, so after fourteen of them it has ended
(`transmit_shuts_down`), and there is always one it can take.
-/

namespace Can4vscp.Closing

open Transmit

variable {ι : Type} {x : External} {garbage : Memory.Mem UInt8} {s t : State ι}

/-! ## the way to the end -/

/-- How far the transmit thread is outside of `softOpen`. -/
def nearExit : TxPc → Nat
  | .waitAck => 0
  | .readAck _ => 1
  | .popAck => 2
  | .postPut acked => if acked then 3 else 12
  | .checkCount => 4
  | .waitGet => 5
  | .checkCount2 => 6
  | .txOpen _ => 7
  | .fetch _ => 8
  | .arm _ _ => 9
  | .send _ _ => 10
  | .popPlain => 11
  | .idle => 9
  | .start => 12
  | .disarm _ => 12
  | .loop => 13
  | .exited => 14

/-- How far it is, in `softOpen` and outside. -/
def State.nearExit (s : State ι) : Nat :=
  match s.soft with
  | .outside => Closing.nearExit s.tx.pc
  | .timestamp => 10
  | .baudrate => 11
  | .mode => 12

theorem State.nearExit_le (s : State ι) : s.nearExit ≤ 14 := by
  unfold State.nearExit Closing.nearExit
  repeat' split
  all_goals omega

theorem exited_of_nearExit (h : 14 ≤ s.nearExit) : s.tx.pc = .exited := by
  have hpc : ∀ pc, 14 ≤ Closing.nearExit pc → pc = .exited := by
    intro pc hle
    cases pc with
    | exited => rfl
    | postPut acked => cases acked <;> simp [Closing.nearExit] at hle
    | _ => simp [Closing.nearExit] at hle
  cases hsoft : s.soft with
  | outside => exact hpc _ (by simpa [State.nearExit, hsoft] using h)
  | _ => simp [State.nearExit, hsoft] at h

/-- The transmit thread of a driver that has stopped gets nearer to its end. -/
theorem txNext_nearExit {o : Transmit.Outcome} {s t : Transmit.State ι} (hrun : s.bRun = false)
    (h : txNext o s = some t) : Closing.nearExit s.pc + 1 ≤ Closing.nearExit t.pc := by
  by_cases hloop : s.pc = .loop
  · rw [exits_of_not_running h hloop hrun, hloop]
    decide
  · cases txNext_step h with
    | exit hpc => exact absurd hpc hloop
    | toWait hpc => exact absurd hpc hloop
    | toCheck hpc => exact absurd hpc hloop
    | postPut acked hpc => cases acked <;> simp [hpc, Closing.nearExit]
    | check hpc pc hto => cases hto <;> simp [*, Closing.nearExit]
    | check2 hpc pc hto => cases hto <;> simp [*, Closing.nearExit]
    | _ => simp [*, Closing.nearExit]

/-- A command of `softOpen`, answered or not. -/
theorem nearExit_sendSoft (cmdcode : UInt8) (param : List UInt8) (r : Sent)
    (next : State ι → State ι) {n : Nat} (hn : n ≤ 13) (hnext : ∀ u, n ≤ (next u).nearExit) :
    n ≤ (s.sendSoft x cmdcode param r next).nearExit := by
  cases r with
  | notWritten => exact hn
  | unanswered => exact hn
  | answered => exact hnext _

theorem softNext_nearExit {r : Sent} (h : softNext x r s = some t) :
    s.nearExit + 1 ≤ t.nearExit := by
  unfold softNext at h
  split at h
  · cases h
  · next hsoft =>
      have hs : s.nearExit = 10 := by simp [State.nearExit, hsoft]
      rw [hs]
      split at h
      · cases h
        exact nearExit_sendSoft _ _ r _ (by omega) fun _ => Nat.le_refl _
      · cases h
        exact Nat.le_refl _
  · next hsoft =>
      have hs : s.nearExit = 11 := by simp [State.nearExit, hsoft]
      rw [hs]
      split at h
      · cases h
        exact nearExit_sendSoft _ _ r _ (by omega) fun _ => Nat.le_refl _
      · cases h
        exact Nat.le_refl _
  · next hsoft =>
      have hs : s.nearExit = 12 := by simp [State.nearExit, hsoft]
      rw [hs]
      cases h
      exact nearExit_sendSoft _ _ r _ (by omega) fun _ => Nat.le_refl _

theorem softNext_bRun {r : Sent} (h : softNext x r s = some t) : t.tx.bRun = s.tx.bRun := by
  have hsend : ∀ cmdcode param (next : State ι → State ι), (∀ u, (next u).tx.bRun = u.tx.bRun) →
      (s.sendSoft x cmdcode param r next).tx.bRun = s.tx.bRun := by
    intro cmdcode param next hnext
    cases r with
    | answered => exact hnext _
    | _ => rfl
  unfold softNext at h
  split at h
  · cases h
  · split at h <;> cases h
    · exact hsend _ _ _ fun _ => rfl
    · rfl
  · split at h <;> cases h
    · exact hsend _ _ _ fun _ => rfl
    · rfl
  · cases h
    exact hsend _ _ _ fun _ => rfl

/-! ## closing -/

section
variable [DecidableEq ι] {as : List (Act ι)}

/-- The driver is not opened again meanwhile. -/
def Stopping : Act ι → State ι → Prop
  | .api _ _, s => s.tx.api ≠ .closed
  | _, _ => True

/-- The transmit thread takes the step. -/
def Act.isTransmit : Act ι → Bool
  | .transmit _ => true
  | .softOpen => true
  | .soft _ => true
  | _ => false

omit [DecidableEq ι] in
/-- The other steps of opening and closing are those of `Transmit`. -/
theorem apiNext_tx {flags : UInt32} {nBaud : UInt8} (hopen : s.tx.api ≠ .closed)
    (h : apiNext flags nBaud s = some t) :
    ∃ u, Transmit.apiNext (decide (flags &&& CAN4VSCP_FLAG_ENABLE_WAIT_FOR_ACK ≠ 0)) s.tx = some u ∧
      t.tx = u ∧ t.soft = s.soft := by
  unfold apiNext at h
  dsimp only at h
  split at h
  · next hapi => exact absurd hapi hopen
  · split at h
    · obtain ⟨u, hu, rfl⟩ := Option.map_eq_some_iff.mp h
      exact ⟨u, hu, rfl, rfl⟩
    · cases h
  · obtain ⟨u, hu, rfl⟩ := Option.map_eq_some_iff.mp h
    exact ⟨u, hu, rfl, rfl⟩

/-- Only the transmit thread changes where it is, and nobody sets `m_bRun`. -/
theorem next_nearExit {a : Act ι} (hrun : s.tx.bRun = false) (hc : Stopping a s)
    (hnext : (machine x garbage ι).next a s = some t) :
    t.tx.bRun = false ∧ s.nearExit + a.isTransmit.toNat ≤ t.nearExit := by
  cases a with
  | transmit o =>
      simp only [machine, transmitNext, Option.ite_none_right_eq_some, Option.map_eq_some_iff] at hnext
      obtain ⟨hsoft, u, hu, ht⟩ := hnext
      have hnear := txNext_nearExit hrun hu
      have hrun' := (txNext_step hu).frame.2.trans hrun
      split at ht
      · rw [← ht]
        exact ⟨hrun', by
          simpa [State.nearExit, State.write, hsoft, Act.isTransmit] using hnear⟩
      · rw [← ht]
        exact ⟨hrun', by simpa [State.nearExit, hsoft, Act.isTransmit] using hnear⟩
  | softOpen =>
      simp only [machine, softOpenNext, Option.ite_none_right_eq_some, Option.some.injEq] at hnext
      obtain ⟨⟨hpc, hsoft, -⟩, rfl⟩ := hnext
      exact ⟨hrun, by simp [State.nearExit, Closing.nearExit, hpc, hsoft, Act.isTransmit]⟩
  | soft r => exact ⟨(softNext_bRun hnext).trans hrun, softNext_nearExit hnext⟩
  | writer w a =>
      obtain ⟨u, hu, rfl⟩ := Option.map_eq_some_iff.mp hnext
      obtain ⟨ms, getSem, putSem, writer, rfl⟩ := writerNext_effect hu
      exact ⟨hrun, Nat.le_refl _⟩
  | answer a =>
      cases hnext
      obtain ⟨info, sem, acked, nacked, heq⟩ := answerNext_effect a s.tx
      rw [heq]
      exact ⟨hrun, Nat.le_refl _⟩
  | acknowledge ack seq =>
      cases hnext
      exact ⟨hrun, Nat.le_refl _⟩
  | close r =>
      simp only [machine, closeNext, Option.ite_none_right_eq_some, Option.some.injEq] at hnext
      obtain ⟨-, rfl⟩ := hnext
      exact ⟨hrun, Nat.le_refl _⟩
  | api flags nBaud =>
      obtain ⟨u, hu, htx, hsoft⟩ := apiNext_tx hc hnext
      have hnear : t.nearExit = s.nearExit := by
        simp only [State.nearExit, hsoft, htx, apiStep_pc (apiNext_step hu) hc]
      refine ⟨?_, Nat.le_of_eq hnear.symm⟩
      rw [htx]
      cases apiNext_step hu with
      | opens hapi => exact absurd hapi hc
      | stops hapi => rfl
      | _ => exact hrun

/-- The transmit thread is never stuck. -/
theorem transmit_enabled (halive : s.tx.pc ≠ .exited) :
    ∃ a t, Act.isTransmit a ∧ (machine x garbage ι).next a s = some t := by
  by_cases hsoft : s.soft = .outside
  · obtain ⟨o, u, -, hu⟩ := txNext_enabled halive
    have hsome : ((machine x garbage ι).next (.transmit o) s).isSome := by
      simp only [machine, transmitNext, if_pos hsoft, hu, Option.map_some, Option.isSome_some]
    obtain ⟨t, ht⟩ := Option.isSome_iff_exists.mp hsome
    exact ⟨.transmit o, t, rfl, ht⟩
  · have hsome : ∃ t, softNext x .unanswered s = some t := by
      cases h : s.soft with
      | outside => exact absurd h hsoft
      | _ => simp only [softNext, h, ← apply_ite some]; exact ⟨_, rfl⟩
    obtain ⟨t, ht⟩ := hsome
    exact ⟨.soft .unanswered, t, rfl, ht⟩

/-! ## the result -/

/-- How `close` gets to its end on a stretch of a run. -/
structure ShutsDown (x : External) (garbage : Memory.Mem UInt8) (as : List (Act ι))
    (t : State ι) : Prop where
  bounded : as.countP Act.isTransmit ≤ 14
  ended : as.countP Act.isTransmit = 14 → t.tx.pc = .exited
  enabled : t.tx.pc ≠ .exited → ∃ a u, Act.isTransmit a ∧ (machine x garbage ι).next a t = some u
  joined : t.tx.pc = .exited → t.tx.api = .joining →
    ∀ flags nBaud, ∃ u, (machine x garbage ι).next (.api flags nBaud) t = some u ∧ u.tx.api = .closed

/-- **The transmit thread shuts down**: once `m_bRun` is clear the transmit thread has at most fourteen
more steps, whatever the writers and the receive thread do and however `softOpen` fares;
it can always take the next one, and when it has ended the join is over. -/
theorem transmit_shuts_down (hrun : s.tx.bRun = false)
    (hpath : (machine x garbage ι).Path Stopping s as t) : ShutsDown x garbage as t := by
  have hgain := hpath.gain (fun _ => False) Act.isTransmit
    (fun _ _ _ h hc hnext => ⟨(next_nearExit h hc hnext).1, .inr (next_nearExit h hc hnext).2⟩)
    (fun _ _ _ h _ _ => h) hrun
  have hcount : s.nearExit + as.countP Act.isTransmit ≤ t.nearExit := hgain.resolve_left id
  have hle := t.nearExit_le
  refine ⟨by omega, fun hend => ?_, transmit_enabled, fun hexit hapi flags nBaud => ?_⟩
  · exact exited_of_nearExit (by omega)
  · simp only [machine, apiNext, hapi, Transmit.apiNext, hexit, if_true, Option.map_some]
    exact ⟨_, rfl, rfl⟩

instance : (a : Act ι) → (s : State ι) → Decidable (Stopping a s)
  | .api _ _, s => inferInstanceAs (Decidable (s.tx.api ≠ .closed))
  | .transmit _, _ => .isTrue trivial
  | .softOpen, _ => .isTrue trivial
  | .soft _, _ => .isTrue trivial
  | .writer _ _, _ => .isTrue trivial
  | .answer _, _ => .isTrue trivial
  | .acknowledge _ _, _ => .isTrue trivial
  | .close _, _ => .isTrue trivial

/-- The driver is closed while the transmit thread opens the adapter again. -/
theorem transmit_shuts_down_soft : ∃ (s t : State Unit) (as : List (Act Unit)),
    s.soft = .timestamp ∧ t.tx.pc = .exited ∧ ShutsDown .vscp (fun _ => 0) as t := by
  -- a message has been sent, and its token lets the thread find the queue empty
  let run : List (Act Unit) :=
    [.api CAN4VSCP_FLAG_ENABLE_REOPEN 1, .api 0 0,
      .writer () (.call false ⟨0, 0, 5, 0, [], 0⟩), .writer () .go, .writer () .go,
      .writer () .go] ++ List.replicate 14 (.transmit .ok) ++ [.close .answered, .softOpen, .api 0 0]
  let path : List (Act Unit) := [.soft .answered, .soft .answered, .api 0 0, .soft .unanswered,
    .transmit .ok]
  obtain ⟨s, t, -, hpath, hp⟩ := (machine .vscp (fun _ => 0) Unit).exists_path
    (fun _ _ => True) Stopping run path
    (fun s t => !s.tx.bRun && s.soft == .timestamp && t.tx.pc == .exited) rfl (by decide)
  simp only [Bool.and_eq_true, Bool.not_eq_true', beq_iff_eq] at hp
  exact ⟨s, t, path, hp.1.2, hp.2, transmit_shuts_down hp.1.1 hpath⟩

end

end Can4vscp.Closing
