import Can4vscp.Commands
import Mathlib.Data.Fintype.Basic

/-!
# Can4vscp.Interference

Several callers around one response queue.

Every call reads `m_sequencyno` and increments it later, empties the whole queue
before it sends, and throws away every response at the head that is not the one
it waits for.  Nothing keeps two calls apart (`m_can4vscpObjMutex` is never
taken), so one call can throw away the reply to another (`reply_lost`).

`no_interference` says what callers have to do instead (`Apart`): one at a time
reads and increments the number, one at a time is between the emptying of the
queue and its return, and a call that waits reads the queue faster than it
overflows and up to its end.  Calls may still overlap in the rest.
-/

namespace Can4vscp.Commands

open SeqNumber

variable {ι : Type} [DecidableEq ι] {x : External} {s t : State ι}

/-! ## the property and the condition -/

/-- Between the read of the sequence number and its increment. -/
def CallPc.numbers : CallPc → Bool
  | .build _ _ => true
  | _ => false

/-- Between the emptying of the response queue and the return. -/
def CallPc.exchanges : CallPc → Bool
  | .active .send _ _ _ | .active .poll _ _ _ => true
  | _ => false

/-- About to empty the response queue. -/
def CallPc.flushes : CallPc → Bool
  | .active .flush _ _ _ => true
  | _ => false

/-- The request whose answer the caller waits for. -/
def CallPc.awaited : CallPc → Option Request
  | .active .poll (.sendCommandWait _ _) _ r => some r
  | _ => none

/-- The caller waits for the answer to the request. -/
def State.Awaits (s : State ι) (c : ι) (r : Request) : Prop := (s.caller c).awaited = some r

/-- A call waits for the number of its own frame, its reply stays in the queue
until it takes it, and when it returns after its reply was queued, it returns
true. -/
structure NoInterference (s : State ι) : Prop where
  number : ∀ c stage cmdcode param saveseq r,
    s.caller c = .active stage (.sendCommandWait cmdcode param) saveseq r → r.frame.seq = saveseq
  kept : ∀ c r, s.Awaits c r → .received r ∈ s.log → ∃ e ∈ s.responseList, e.source = some r
  returned : ∀ r taken, [.received r, .returned r taken].Sublist s.log → taken.isSome = true

/-- What callers have to keep to. -/
def Apart : Act ι → State ι → Prop
  -- a call reads the number when no other is about to increment it
  | .caller c (.call _), s => ∀ c', c' ≠ c → (s.caller c').numbers = false
  -- it empties the queue when no other has emptied it and not yet returned
  | .caller c .go, s =>
    (s.caller c).flushes = true → ∀ c', c' ≠ c → (s.caller c').exchanges = false
  -- it gives up when it has read the whole queue
  | .caller c .expired, s => (s.caller c).awaited.isSome = true → s.responseList = []
  -- responses come in while there is room, as long as a call waits
  | .receive _, s => ∀ c, (s.caller c).awaited.isSome = true →
    s.responseList.length < CAN4VSCP_MAX_RESPONSEMSG
  | .caller _ .sendFails, _ => True

omit [DecidableEq ι] in
theorem State.awaits_iff {c : ι} {r : Request} : s.Awaits c r ↔ ∃ cmdcode param saveseq,
    s.caller c = .active .poll (.sendCommandWait cmdcode param) saveseq r := by
  unfold State.Awaits CallPc.awaited
  constructor
  · intro h
    split at h
    · next cmdcode param saveseq r' hpc =>
        cases h
        exact ⟨cmdcode, param, saveseq, hpc⟩
    · cases h
  · rintro ⟨cmdcode, param, saveseq, hpc⟩
    rw [hpc]

omit [DecidableEq ι] in
theorem State.Awaits.exchanges {c : ι} {r : Request} (h : s.Awaits c r) :
    (s.caller c).exchanges = true := by
  obtain ⟨cmdcode, param, saveseq, hpc⟩ := State.awaits_iff.mp h
  rw [hpc]
  rfl

/-! ## one at a time -/

/-- At most one caller is at such a place. -/
def AtMostOne (place : CallPc → Bool) (caller : ι → CallPc) : Prop :=
  ∀ c c', place (caller c) = true → place (caller c') = true → c = c'

section
variable {place : CallPc → Bool} {caller : ι → CallPc} {c : ι} {pc : CallPc}

omit [DecidableEq ι] in
theorem AtMostOne.others (h : AtMostOne place caller) (hc : place (caller c) = true) (c' : ι)
    (hne : c' ≠ c) : place (caller c') = false := by
  rw [← Bool.not_eq_true]
  exact fun hc' => hne (h c' c hc' hc)

/-- A caller that goes to such a place was there before, or nobody else is. -/
theorem AtMostOne.update (h : AtMostOne place caller)
    (hpc : place pc = true → place (caller c) = true ∨ ∀ c', c' ≠ c → place (caller c') = false) :
    AtMostOne place (Function.update caller c pc) := by
  have hothers : place pc = true → ∀ c', c' ≠ c → place (caller c') = false := by
    intro hplace
    cases hpc hplace with
    | inl hthere => exact h.others hthere
    | inr hnobody => exact hnobody
  intro c₁ c₂ h₁ h₂
  simp only [Function.update_apply] at h₁ h₂
  split at h₁ <;> split at h₂
  · next hc₁ hc₂ => exact hc₁.trans hc₂.symm
  · next hc₂ => simp [hothers h₁ c₂ hc₂] at h₂
  · next hc₁ _ => simp [hothers h₂ c₁ hc₁] at h₁
  · exact h c₁ c₂ h₁ h₂

end

/-- One caller at a time has the number, and one at a time has the queue. -/
structure Sections (s : State ι) : Prop where
  numbers : AtMostOne CallPc.numbers s.caller
  exchanges : AtMostOne CallPc.exchanges s.caller

/-- Callers that keep apart stay apart. -/
theorem Sections.caller (h : Sections s) {c : ι} {a : CallerAct} (hapart : Apart (.caller c a) s)
    (hstep : CallerStep x c s a t) : Sections t := by
  cases hstep with
  | call rv hpc call =>
      exact ⟨h.numbers.update fun _ => .inr hapart, h.exchanges.update (by simp [CallPc.exchanges])⟩
  | flush call saveseq r hpc =>
      exact ⟨h.numbers.update (by simp [CallPc.numbers]),
        h.exchanges.update fun _ => .inr (hapart (by rw [hpc]; rfl))⟩
  | send call saveseq r hpc pc hto =>
      have hsending : (s.caller c).exchanges = true := by rw [hpc]; rfl
      refine ⟨h.numbers.update fun hpc => ?_, h.exchanges.update fun _ => .inl hsending⟩
      rcases hto with ⟨-, rfl⟩ | rfl <;> cases hpc
  | sleep => exact h
  | discard call saveseq r hpc e rest hlist hno => exact ⟨h.numbers, h.exchanges⟩
  | build | sendFails | take | expired | done =>
      exact ⟨h.numbers.update (by simp [CallPc.numbers]),
        h.exchanges.update (by simp [CallPc.exchanges])⟩

/-! ## the invariant -/

/-- What a caller can rely on where it is. -/
def CallerInv (s : State ι) : CallPc → Prop
  | .build (.sendCommandWait _ _) saveseq => saveseq = s.sequencyno
  | .active stage (.sendCommandWait _ _) saveseq r =>
    r.frame.seq = saveseq ∧
      (stage = .poll → .received r ∈ s.log → ∃ e ∈ s.responseList, e.source = some r)
  | _ => True

structure CallInv (s : State ι) : Prop where
  callers : ∀ c, CallerInv s (s.caller c)
  returned : ∀ r taken, [.received r, .returned r taken].Sublist s.log → taken.isSome = true

omit [DecidableEq ι] in
theorem CallInv.noInterference (h : CallInv s) : NoInterference s where
  number := fun c stage cmdcode param saveseq r hpc => by
    have hok := h.callers c
    rw [hpc] at hok
    exact hok.1
  kept := fun c r hwaits hreceived => by
    obtain ⟨cmdcode, param, saveseq, hpc⟩ := State.awaits_iff.mp hwaits
    have hok := h.callers c
    rw [hpc] at hok
    exact hok.2 rfl hreceived
  returned := h.returned

omit [DecidableEq ι] in
/-- The callers that stay where they are keep what they rely on: the number if
they have only read it, and a reply they wait for. -/
theorem CallerInv.stay {c : ι} {t : State ι} (h : CallerInv s (s.caller c))
    (hnumber : (s.caller c).numbers = true → t.sequencyno = s.sequencyno)
    (hreceived : ∀ r, s.Awaits c r → .received r ∈ t.log →
      (.received r ∈ s.log ∧ ∀ e ∈ s.responseList, e.source = some r → e ∈ t.responseList) ∨
        ∃ e ∈ t.responseList, e.source = some r) :
    CallerInv t (s.caller c) := by
  cases hpc : s.caller c with
  | outside rv => trivial
  | build call saveseq =>
      cases call with
      | sendCommandWait cmdcode param =>
          rw [hpc] at h
          exact h.trans (hnumber (by rw [hpc]; rfl)).symm
      | _ => trivial
  | active stage call saveseq r =>
      cases call with
      | sendCommandWait cmdcode param =>
          rw [hpc] at h
          refine ⟨h.1, fun hpoll hlog => ?_⟩
          subst hpoll
          cases hreceived r (State.awaits_iff.mpr ⟨cmdcode, param, saveseq, hpc⟩) hlog with
          | inl hold =>
              obtain ⟨e, he, hsource⟩ := h.2 rfl hold.1
              exact ⟨e, hold.2 e he hsource, hsource⟩
          | inr hnew => exact hnew
      | _ => trivial

/-- One caller moves, the others stay. -/
theorem CallInv.move (h : CallInv s) {c : ι} {pc : CallPc} {u : State ι} (hu : u.caller = s.caller)
    (hpc : CallerInv u pc)
    (hnumber : u.sequencyno = s.sequencyno ∨ ∀ c', c' ≠ c → (s.caller c').numbers = false)
    (hreceived : ∀ r, .received r ∈ u.log → .received r ∈ s.log)
    (hkept : ∀ c', c' ≠ c → ∀ r, s.Awaits c' r → ∀ e ∈ s.responseList, e.source = some r →
      e ∈ u.responseList)
    (hreturned : ∀ r taken, [.received r, .returned r taken].Sublist u.log → taken.isSome = true) :
    CallInv (u.goto c pc) where
  callers := by
    refine (Function.forall_update_iff u.caller fun _ pc => CallerInv u pc).mpr ⟨hpc, ?_⟩
    intro c' hc
    rw [hu]
    refine (h.callers c').stay ?_ fun r hwaits hlog =>
      .inl ⟨hreceived r hlog, hkept c' hc r hwaits⟩
    intro hnumbers
    cases hnumber with
    | inl hsame => exact hsame
    | inr hnone => simp [hnone c' hc] at hnumbers
  returned := hreturned

/-- One caller moves, and what it did is logged; nothing is received by that. -/
theorem CallInv.moveLogged (h : CallInv s) {c : ι} {pc : CallPc} {responses : List Response}
    {event : Event}
    (hpc : CallerInv (({ s with responseList := responses } : State ι).happen event) pc)
    (hevent : ∀ r, event ≠ .received r)
    (hkept : ∀ c', c' ≠ c → ∀ r, s.Awaits c' r → ∀ e ∈ s.responseList, e.source = some r →
      e ∈ responses)
    (hreturned : ∀ r taken, event = .returned r taken → .received r ∈ s.log →
      taken.isSome = true) :
    CallInv ((({ s with responseList := responses } : State ι).happen event).goto c pc) := by
  refine h.move (u := ({ s with responseList := responses } : State ι).happen event) rfl hpc
    (.inl rfl) ?_ hkept ?_
  · intro r hlog
    cases List.mem_append.mp hlog with
    | inl hold => exact hold
    | inr hnew => exact absurd (List.mem_singleton.mp hnew).symm (hevent r)
  · intro r taken hlog
    cases History.pair_cases hlog with
    | inl hold => exact h.returned r taken hold
    | inr hnew => exact hreturned r taken hnew.1.symm hnew.2

omit [DecidableEq ι] in
/-- A queued reply to the request of a call passes the test of that call. -/
theorem takes_of_source (hrec : Records x s) {c : ι} {cmdcode saveseq : UInt8} {param : List UInt8}
    {r : Request} (hpc : s.caller c = .active .poll (.sendCommandWait cmdcode param) saveseq r)
    (hseq : r.frame.seq = saveseq) {e : Response} (he : e ∈ s.responseList)
    (hsource : e.source = some r) :
    (Call.sendCommandWait cmdcode param).takes x e.msg saveseq = true := by
  have hok := hrec.callers c
  rw [hpc] at hok
  have hframe : r.frame = commandFrame x cmdcode param (seq8 r.number) := hok.2.1
  obtain ⟨-, channel, hmsg⟩ := hrec.queued e he r hsource
  rw [← hseq, hmsg, hframe]
  exact isCommandResponse_commandReply x cmdcode param (seq8 r.number) channel

/-- Every step of a caller that keeps apart keeps the invariant. -/
theorem CallInv.caller (h : CallInv s) (hrec : Records x s) (hsections : Sections s) {c : ι}
    {a : CallerAct} (hapart : Apart (.caller c a) s) (hstep : CallerStep x c s a t) : CallInv t := by
  have hok := h.callers c
  -- who has the queue is the only one that waits
  have halone : (s.caller c).exchanges = true → ∀ c', c' ≠ c → ∀ r, ¬ s.Awaits c' r := by
    intro hc c' hne r hwaits
    exact hne (hsections.exchanges c' c hwaits.exchanges hc)
  cases hstep with
  | call rv hpc call =>
      refine h.move rfl ?_ (.inl rfl) (fun _ hr => hr) (fun _ _ _ _ _ he _ => he) h.returned
      cases call with
      | sendCommandWait cmdcode param => rfl
      | _ => trivial
  | build call saveseq hpc =>
      have hothers := hsections.numbers.others (c := c) (by rw [hpc]; rfl)
      rw [hpc] at hok
      refine h.move rfl ?_ (.inr hothers) (fun _ hr => hr) (fun _ _ _ _ _ he _ => he) h.returned
      cases call with
      | sendCommandWait cmdcode param => exact ⟨by rw [Call.frame_seq, hok], by simp⟩
      | _ => trivial
  | flush call saveseq r hpc =>
      have hothers := hapart (by rw [hpc]; rfl)
      rw [hpc] at hok
      refine h.move rfl ?_ (.inl rfl) (fun _ hr => hr) ?_ h.returned
      · cases call with
        | sendCommandWait cmdcode param => exact ⟨hok.1, by simp⟩
        | _ => trivial
      · intro c' hc r' hwaits e he hsource
        have hexchanges := hwaits.exchanges
        simp [hothers c' hc] at hexchanges
  | send call saveseq r hpc pc hto =>
      have hcaller := hrec.callers c
      rw [hpc] at hok hcaller
      refine h.moveLogged ?_ (by simp) (fun _ _ _ _ _ he _ => he) (by simp)
      cases hto with
      | inl hout => rw [hout.2]; trivial
      | inr hpoll =>
          rw [hpoll]
          cases call with
          | sendCommandWait cmdcode param =>
              refine ⟨hok.1, fun _ hlog => ?_⟩
              -- nothing has been received for a frame that goes out just now
              have hold : .received r ∈ s.log := by simpa [State.happen] using hlog
              exact absurd rfl (hcaller.2.2.2 (by simp) r (hrec.received r hold))
          | _ => trivial
  | sendFails call saveseq r hpc =>
      exact h.move rfl trivial (.inl rfl) (fun _ hr => hr) (fun _ _ _ _ _ he _ => he) h.returned
  | sleep => exact h
  | take cmdcode param saveseq r hpc e rest hlist htakes =>
      refine h.moveLogged trivial (by simp) ?_ ?_
      · intro c' hc r' hwaits
        exact absurd hwaits (halone (by rw [hpc]; rfl) c' hc r')
      · intro r' taken heq _
        cases heq
        rfl
  | discard call saveseq r hpc e rest hlist hno =>
      have hexchanges : (s.caller c).exchanges = true := by rw [hpc]; rfl
      refine ⟨fun c' => (h.callers c').stay (fun _ => rfl) fun r' hwaits hlog => ?_, h.returned⟩
      refine .inl ⟨hlog, fun e' he' hsource => ?_⟩
      rw [hlist] at he'
      cases List.mem_cons.mp he' with
      | inr hrest => exact hrest
      | inl hhead =>
          subst hhead
          by_cases hc : c' = c
          · -- the call would have taken its own reply
            subst hc
            obtain ⟨cmdcode, param, saveseq', hpc'⟩ := State.awaits_iff.mp hwaits
            rw [hpc'] at hpc hok
            cases hpc
            have htakes := takes_of_source hrec hpc' hok.1 (by simp [hlist]) hsource
            simp [htakes] at hno
          · exact absurd hwaits (halone hexchanges c' hc r')
  | expired cmdcode param saveseq r hpc =>
      have hempty : s.responseList = [] := hapart (by rw [hpc]; rfl)
      rw [hpc] at hok
      refine h.moveLogged trivial (by simp) (fun _ _ _ _ _ he _ => he) ?_
      intro r' taken heq hreceived
      cases heq
      obtain ⟨e, he, -⟩ := hok.2 rfl hreceived
      rw [hempty] at he
      cases he
  | done call saveseq r hpc hcall =>
      exact h.move rfl trivial (.inl rfl) (fun _ hr => hr) (fun _ _ _ _ _ he _ => he) h.returned

/-- What stays in the queue when a response comes in. -/
theorem pushResponse_keeps {responses : List Response} {e : Response} (new : Response)
    (hroom : responses.length < CAN4VSCP_MAX_RESPONSEMSG) (he : e ∈ responses) :
    e ∈ pushResponse responses new := by
  unfold pushResponse
  rw [if_neg (Nat.not_le.mpr hroom)]
  exact List.mem_append_left _ he

omit [DecidableEq ι] in
/-- Every response that finds room keeps the invariant. -/
theorem CallInv.receive (h : CallInv s) {reply : Reply} (hapart : Apart (.receive reply) s)
    (hnext : receiveNext x reply s = some t) : CallInv t := by
  have hkeeps : ∀ (c : ι) (r : Request) (new e : Response), s.Awaits c r → e ∈ s.responseList →
      e ∈ pushResponse s.responseList new := by
    intro c r new e hwaits he
    exact pushResponse_keeps new (hapart c (by rw [hwaits]; rfl)) he
  unfold receiveNext at hnext
  split at hnext
  · next r channel =>
      split at hnext
      · cases hnext
        refine ⟨fun c => (h.callers c).stay (fun _ => rfl) fun r' hwaits hlog => ?_, ?_⟩
        · cases List.mem_append.mp hlog with
          | inl hold => exact .inl ⟨hold, fun e he _ => hkeeps c r' _ e hwaits he⟩
          | inr hnew =>
              cases List.mem_singleton.mp hnew
              exact .inr ⟨_, List.mem_append_right _ (List.mem_singleton_self _), rfl⟩
        · intro r' taken hlog
          cases History.pair_cases hlog with
          | inl hold => exact h.returned r' taken hold
          | inr hnew => simp at hnew
      · cases hnext
  · split at hnext
    · cases hnext
      exact ⟨fun c => (h.callers c).stay (fun _ => rfl) fun r' hwaits hlog =>
        .inl ⟨hlog, fun e he _ => hkeeps c r' _ e hwaits he⟩, h.returned⟩
    · cases hnext

/-! ## the runs -/

theorem sections_of_reachable (hs : (machine x ι).ReachableWhen Apart s) : Sections s := by
  refine hs.invariant ?_ ?_
  · rintro s rfl
    have hnobody : ∀ place : CallPc → Bool, place (.outside none) = false →
        AtMostOne place (State.new : State ι).caller := by
      intro place hout c c' hc
      rw [show (State.new : State ι).caller c = .outside none from rfl, hout] at hc
      cases hc
    exact ⟨hnobody _ rfl, hnobody _ rfl⟩
  · intro s t a hI hapart hnext
    cases a with
    | caller c a => exact hI.caller hapart (callerNext_step hnext)
    | receive reply =>
        have hcaller := receiveNext_caller hnext
        exact ⟨hcaller ▸ hI.numbers, hcaller ▸ hI.exchanges⟩

/-- **No interference** in the runs in which callers keep apart, with any number of
them. -/
theorem no_interference (x : External) (s : State ι)
    (hs : (machine x ι).ReachableWhen Apart s) : NoInterference s := by
  refine CallInv.noInterference (hs.invariant_of (P := fun s => Records x s ∧ Sections s) ?_ ?_ ?_)
  · exact fun s hs => ⟨records_of_reachable hs, sections_of_reachable hs⟩
  · rintro s rfl
    exact ⟨fun _ => trivial, fun r taken h => by cases h⟩
  · rintro s t a ⟨hrec, hsections⟩ hI hapart hnext
    cases a with
    | caller c a => exact hI.caller hrec hsections hapart (callerNext_step hnext)
    | receive reply => exact hI.receive hapart hnext

instance [Fintype ι] : (a : Act ι) → (s : State ι) → Decidable (Apart a s)
  | .caller c (.call _), s => inferInstanceAs (Decidable (∀ c', c' ≠ c → (s.caller c').numbers = false))
  | .caller c .go, s => inferInstanceAs (Decidable ((s.caller c).flushes = true →
      ∀ c', c' ≠ c → (s.caller c').exchanges = false))
  | .caller c .expired, s => inferInstanceAs (Decidable ((s.caller c).awaited.isSome = true →
      s.responseList = []))
  | .receive _, s => inferInstanceAs (Decidable (∀ c, (s.caller c).awaited.isSome = true →
      s.responseList.length < CAN4VSCP_MAX_RESPONSEMSG))
  | .caller _ .sendFails, _ => .isTrue trivial

/-! ## two callers -/

/-- The thread inside `open` or `close`, and the transmit thread inside
`softOpen`. -/
inductive Thread where
  | api
  | transmit
  deriving DecidableEq, Repr

instance : Fintype Thread := ⟨{.api, .transmit}, fun c => by cases c <;> simp⟩

/-- Both threads only call `sendCommandWait`, and the adapter answers every
command once. -/
def TwoCalls : Act Thread → State Thread → Prop
  | .caller _ (.call (.sendCommandWait _ _)), _ => True
  | .caller _ (.call _), _ => False
  | .receive (.command r _), s => .received r ∉ s.log
  | _, _ => True

instance : (a : Act Thread) → (s : State Thread) → Decidable (TwoCalls a s)
  | .caller _ (.call (.sendCommandWait _ _)), _ => .isTrue trivial
  | .caller _ (.call (.sendCommand _ _)), _ => .isFalse id
  | .caller _ (.call .getDeviceCapabilities), _ => .isFalse id
  | .caller _ .go, _ | .caller _ .expired, _ | .caller _ .sendFails, _ => .isTrue trivial
  | .receive (.command r _), s => inferInstanceAs (Decidable (.received r ∉ s.log))
  | .receive (.other _), _ => .isTrue trivial

/-- Call `sendCommandWait` and go on until the frame has been sent. -/
def sendWait (c : Thread) (cmdcode : UInt8) : List (Act Thread) :=
  [.caller c (.call (.sendCommandWait cmdcode [])), .caller c .go, .caller c .go, .caller c .go]

/-- The request with command code and sequence number as given. -/
def request (k : Nat) (cmdcode : UInt8) : Request := ⟨k, commandFrame .vscp cmdcode [] (seq8 k)⟩

/-- While the first call waits the other one takes its number; it goes on when the first has
got its reply, which comes behind a frame that nobody waits for. -/
theorem no_interference_overlap : ∃ s : State Thread,
    s.caller .api = .outside (some true) ∧ s.caller .transmit = .outside (some true) ∧
      NoInterference s := by
  obtain ⟨s, hs, hp⟩ := (machine .vscp Thread).exists_reachableWhen (c := Apart)
    (sendWait .api 4 ++ [.caller .transmit (.call (.sendCommandWait 1 [])), .caller .transmit .go,
      .receive (.other ⟨0, 9, 0, 0, []⟩), .receive (.command (request 0 4) 0),
      .caller .api .go, .caller .api .go, .caller .transmit .go, .caller .transmit .go,
      .receive (.command (request 1 1) 0), .caller .transmit .go])
    (fun s => s.caller .api == .outside (some true) && s.caller .transmit == .outside (some true))
    rfl (by decide)
  simp only [Bool.and_eq_true, beq_iff_eq] at hp
  exact ⟨s, hp.1, hp.2, no_interference .vscp s hs⟩

/-- The reply to the first call is queued, the second call empties the queue
before it sends, and the first call times out. -/
theorem reply_lost :
    ∃ s, (machine .vscp Thread).ReachableWhen TwoCalls s ∧ ¬ NoInterference s := by
  obtain ⟨s, hs, hp⟩ := (machine .vscp Thread).exists_reachableWhen (c := TwoCalls)
    (sendWait .api 4 ++ [.receive (.command (request 0 4) 0)] ++ sendWait .transmit 1 ++
      [.caller .api .expired])
    (fun s => decide ([Event.received (request 0 4), .returned (request 0 4) none].Sublist s.log))
    rfl (by decide)
  refine ⟨s, hs, fun h => ?_⟩
  have := h.returned _ _ (of_decide_eq_true hp)
  simp at this

end Can4vscp.Commands
