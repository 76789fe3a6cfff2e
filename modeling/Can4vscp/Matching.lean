import Can4vscp.Commands

/-!
# Can4vscp.Matching

One caller and late replies.

Replies may be lost, repeated, reordered and late, also later than the deadline
of the call that sent the command; only a reply to a frame after which 256 or
more sequence numbers were used does not come any more.  Between the moment a
call has taken its sequence number and the moment it has emptied the response
queue, a reply with the same number can still be in the queue.
-/

namespace Can4vscp.Commands

open SeqNumber

variable {x : External} {s t : State Unit}

/-- A reply comes before 256 further sequence numbers are used. -/
def Timely : Act Unit → State Unit → Prop
  | .receive (.command r _), s => s.used - (r.number + 1) < 256
  | _, _ => True

instance : (a : Act Unit) → (s : State Unit) → Decidable (Timely a s)
  | .receive (.command r _), s => inferInstanceAs (Decidable (s.used - (r.number + 1) < 256))
  | .receive (.other _), _ | .caller _ _, _ => .isTrue trivial

/-! ## the invariant -/

/-- The place of the only caller: the number it has saved is the one of its
frame, and the last one used. -/
def OwnNumber (s : State Unit) : Prop :=
  match s.caller () with
  | .build _ saveseq => saveseq = s.sequencyno
  | .active _ _ saveseq r => r.frame.seq = saveseq ∧ r.number + 1 = s.used
  | .outside _ => True

/-- The replies in the queue are to the last 256 frames, but for those the call
is about to throw away. -/
def Window (s : State Unit) : Prop :=
  (∃ call saveseq r, s.caller () = .active .flush call saveseq r) ∨
    ∀ e ∈ s.responseList, ∀ r, e.source = some r → s.used ≤ r.number + 256

structure MatchInv (s : State Unit) : Prop where
  own : OwnNumber s
  window : Window s

/-- Away from its flush the caller only sees replies inside the window. -/
theorem Window.queue (h : Window s) (hpc : ∀ call saveseq r, s.caller () ≠ .active .flush call saveseq r) :
    ∀ e ∈ s.responseList, ∀ r, e.source = some r → s.used ≤ r.number + 256 := by
  cases h with
  | inl hflush =>
      obtain ⟨call, saveseq, r, hflush⟩ := hflush
      exact absurd hflush (hpc call saveseq r)
  | inr hqueue => exact hqueue

/-- Every step of the caller keeps the invariant. -/
theorem MatchInv.caller (h : MatchInv s) {a : CallerAct} (hstep : CallerStep x () s a t) :
    MatchInv t := by
  have hown := h.own
  unfold OwnNumber at hown
  have hwindow := h.window.queue
  cases hstep with
  | call rv hpc call => exact ⟨by simp [OwnNumber, State.goto], .inr (hwindow (by simp [hpc]))⟩
  | build call saveseq hpc =>
      rw [hpc] at hown
      exact ⟨by simp [OwnNumber, State.goto, Call.frame_seq, hown],
        .inl ⟨call, saveseq, _, by simp [State.goto]; rfl⟩⟩
  | flush call saveseq r hpc =>
      rw [hpc] at hown
      exact ⟨by simpa [OwnNumber, State.goto] using hown, .inr fun e he => by cases he⟩
  | send call saveseq r hpc pc hto =>
      rw [hpc] at hown
      refine ⟨?_, .inr (hwindow (by simp [hpc]))⟩
      cases hto with
      | inl hout => simp [OwnNumber, State.goto, hout.2]
      | inr hpoll => simpa [OwnNumber, State.goto, State.happen, hpoll] using hown
  | sendFails call saveseq r hpc =>
      exact ⟨by simp [OwnNumber, State.goto], .inr (hwindow (by simp [hpc]))⟩
  | sleep => exact h
  | take cmdcode param saveseq r hpc e rest hlist htakes =>
      have hqueue := hwindow (by simp [hpc])
      rw [hlist] at hqueue
      exact ⟨by simp [OwnNumber, State.goto],
        .inr fun e' he' => hqueue e' (List.mem_cons_of_mem e he')⟩
  | discard call saveseq r hpc e rest hlist hno =>
      have hqueue := hwindow (by simp [hpc])
      rw [hlist] at hqueue
      exact ⟨h.own, .inr fun e' he' => hqueue e' (List.mem_cons_of_mem e he')⟩
  | expired cmdcode param saveseq r hpc =>
      exact ⟨by simp [OwnNumber, State.goto], .inr (hwindow (by simp [hpc]))⟩
  | done call saveseq r hpc hcall =>
      exact ⟨by simp [OwnNumber, State.goto], .inr (hwindow (by simp [hpc]))⟩

/-- A reply inside the window is queued. -/
theorem Window.push (h : Window s) {new : Response}
    (hnew : ∀ r, new.source = some r → s.used ≤ r.number + 256) :
    Window { s with responseList := pushResponse s.responseList new } := by
  refine h.imp id fun hqueue e he r hr => ?_
  cases mem_pushResponse he with
  | inl hold => exact hqueue e hold r hr
  | inr heq => exact hnew r (heq ▸ hr)

/-- A timely reply is inside the window. -/
theorem MatchInv.receive (h : MatchInv s) {reply : Reply} (htimely : Timely (.receive reply) s)
    (hnext : receiveNext x reply s = some t) : MatchInv t := by
  unfold receiveNext at hnext
  split at hnext
  · next r channel =>
      split at hnext
      · cases hnext
        refine ⟨h.own, h.window.push fun r' hr' => ?_⟩
        cases hr'
        simp only [Timely] at htimely
        omega
      · cases hnext
  · next msg =>
      split at hnext
      · cases hnext
        exact ⟨h.own, h.window.push fun r hr => by cases hr⟩
      · cases hnext

theorem matchInv_of_reachable (hs : (machine x Unit).ReachableWhen Timely s) : MatchInv s := by
  refine hs.invariant ?_ ?_
  · rintro s rfl
    exact ⟨trivial, .inr fun e he => by cases he⟩
  · intro s t a hI htimely hnext
    cases a with
    | caller c a => exact hI.caller (callerNext_step hnext)
    | receive reply => exact hI.receive htimely hnext

/-! ## the result -/

/-- What passes the test of a call inside the window is the reply to its frame. -/
theorem source_of_isCommandResponse (hrec : Records x s) {r : Request} {cmdcode : UInt8} {e : Response}
    (he : e ∈ s.responseList) (hlast : r.number + 1 = s.used) (hsent : .sent r ∈ s.log)
    (hwindow : ∀ r', e.source = some r' → s.used ≤ r'.number + 256)
    (htakes : isCommandResponse x e.msg cmdcode r.frame.seq = true) : e.source = some r := by
  simp only [isCommandResponse, Bool.and_eq_true, decide_eq_true_eq] at htakes
  obtain ⟨⟨⟨⟨-, hseq⟩, hop⟩, -⟩, -⟩ := htakes
  cases hsource : e.source with
  | none => exact absurd hop.symm (hrec.others e he hsource)
  | some r' =>
      obtain ⟨horder, channel, hmsg⟩ := hrec.queued e he r' hsource
      have hsent' : .sent r' ∈ s.log := horder.subset (by simp)
      obtain ⟨hlt, hseq'⟩ := hrec.sent r' hsent'
      have hnumber : seq8 r'.number = seq8 r.number := by
        rw [← hseq', ← (hrec.sent r hsent).2, hseq, hmsg]
        rfl
      have hw := hwindow r' hsource
      have heq : r'.number = r.number := eq_of_seq8_eq (by omega) (by omega) hnumber
      rw [hrec.same r' r hsent' hsent heq]

/-- A `sendCommandWait` that returns true takes the reply to the very frame it
has sent, received after that. -/
def AnsweredByOwn (x : External) (s : State Unit) : Prop :=
  ∀ stage cmdcode param saveseq r, s.caller () = .active stage (.sendCommandWait cmdcode param) saveseq r →
    ∀ a t, (machine x Unit).next a s = some t → t.caller () = .outside (some true) →
      r.frame = commandFrame x cmdcode param saveseq ∧
      ∃ e rest, s.responseList = e :: rest ∧ e.source = some r ∧
        [Event.sent r, .received r].Sublist s.log

/-- **Command and reply match**: in every run with one caller, whatever the
adapter loses, repeats, reorders or delays by fewer than 256 sequence numbers, no
other reply is taken for the answer. -/
theorem answered_by_own (x : External) (s : State Unit)
    (hs : (machine x Unit).ReachableWhen Timely s) : AnsweredByOwn x s := by
  have hrec := records_of_reachable hs
  have hI := matchInv_of_reachable hs
  intro stage cmdcode param saveseq r hpc a t hnext htrue
  have hown := hI.own
  have hok := hrec.callers ()
  simp only [OwnNumber, hpc] at hown
  rw [hpc] at hok
  obtain ⟨hlt, hframe, hsent, -⟩ := hok
  obtain ⟨rfl, hlast⟩ := hown
  cases a with
  | receive reply =>
      have hcaller : t.caller = s.caller := receiveNext_caller hnext
      rw [hcaller, hpc] at htrue
      cases htrue
  | caller c a =>
      have hstep : CallerStep x () s a t := callerNext_step hnext
      cases hstep with
      | take cmdcode' param' saveseq' r' hpc' e rest hlist htakes =>
          rw [hpc] at hpc'
          cases hpc'
          have he : e ∈ s.responseList := by simp [hlist]
          have hsource := source_of_isCommandResponse hrec he hlast (hsent rfl)
            (hI.window.queue (by simp [hpc]) e he) htakes
          refine ⟨?_, e, rest, hlist, hsource, (hrec.queued e he r hsource).1⟩
          rw [hframe, Call.frame_seq]
          rfl
      | send call saveseq' r' hpc' pc hto =>
          rw [hpc] at hpc'
          cases hpc'
          cases hto with
          | inl hout => simp at hout
          | inr hpoll => simp [State.goto, hpoll] at htrue
      | sleep => simp [hpc] at htrue
      | discard => simp [hpc] at htrue
      | done call saveseq' r' hpc' hcall =>
          rw [hpc] at hpc'
          cases hpc'
          exact absurd rfl (hcall cmdcode param)
      | call | build | flush | sendFails | expired => simp [State.goto] at htrue

/-- The reply to a command that has timed out comes during the next call, before
the reply to that one. -/
theorem answered_by_own_stale : ∃ s t : State Unit, ∃ r e rest,
    r.number = 1 ∧ (machine .vscp Unit).next (.caller () .go) s = some t ∧
      t.caller () = .outside (some true) ∧ s.responseList = e :: rest ∧ e.source = some r := by
  let r (k : Nat) : Request := ⟨k, commandFrame .vscp 1 [] (seq8 k)⟩
  let send : List (Act Unit) :=
    [.caller () (.call (.sendCommandWait 1 [])), .caller () .go, .caller () .go, .caller () .go]
  obtain ⟨s, hs, hp⟩ := (machine .vscp Unit).exists_reachableWhen (c := Timely)
    (send ++ [.caller () .expired] ++ send ++
      [.receive (.command (r 0) 0), .receive (.command (r 1) 0), .caller () .go])
    (fun s => s.caller () == .active .poll (.sendCommandWait 1 []) 1 (r 1) &&
      ((machine .vscp Unit).next (.caller () .go) s).any
        (fun t => t.caller () == .outside (some true))) rfl (by decide)
  simp only [Bool.and_eq_true, beq_iff_eq, Option.any_eq_true] at hp
  obtain ⟨hpc, t, hnext, htrue⟩ := hp
  obtain ⟨-, e, rest, hlist, hsource, -⟩ := answered_by_own .vscp s hs _ _ _ _ _ hpc _ t hnext htrue
  exact ⟨s, t, r 1, e, rest, rfl, hnext, htrue, hlist, hsource⟩

end Can4vscp.Commands
