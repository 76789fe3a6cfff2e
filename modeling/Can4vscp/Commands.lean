import Can4vscp.Driver
import Can4vscp.Lib.Machine
import Can4vscp.Lib.History
import Can4vscp.Lib.SeqNumber

/-!
# Can4vscp.Commands

Commands and their replies as a machine: any number of callers
(`sendCommand`, `sendCommandWait`, `getDeviceCapabilities`) and the receive
thread, which puts responses into the response queue.

A step is a section of `m_responseMutex`, the call that hands a frame to the
serial port, or an access to `m_sequencyno`, which no mutex protects.  A reply is
received when the receive thread puts it into the queue.

`used` and `log` are history, and so are the request a caller keeps and the one a
response answers: no step of the source depends on them.
-/

namespace Can4vscp.Commands

open SeqNumber

variable (x : External)

/-! ## frames -/

/-- The frame `sendCommand` builds. -/
def commandFrame (cmdcode : UInt8) (param : List UInt8) (seq : UInt8) : Frame :=
  ⟨x.code .command, 0, seq, UInt16.ofNat ((param.length + 1) % 256), cmdcode :: param⟩

/-- The frame `getDeviceCapabilities` builds. -/
def capsRequestFrame (seq : UInt8) : Frame := ⟨x.code .capsRequest, 0, seq, 2, [1, 10]⟩

/-- The test of `wait4CommandResponse`. -/
def isCommandResponse (msg : CmdResponseMsg) (cmdcode saveseq : UInt8) : Bool :=
  msg.sizePayload = 2 && saveseq = msg.seq && x.code .commandReply = msg.op &&
    msg.payload.getD 0 0 = 0 && cmdcode = msg.payload.getD 1 0

/-- The reply of the adapter to a command frame, as `addToResponseQueue` stores
it. -/
def commandReply (f : Frame) (channel : UInt8) : CmdResponseMsg :=
  ⟨x.code .commandReply, f.seq, channel, 2, [0, f.payload.headD 0]⟩

/-- A reply passes the test of the call that sent the command. -/
theorem isCommandResponse_commandReply (cmdcode : UInt8) (param : List UInt8)
    (seq channel : UInt8) :
    isCommandResponse x (commandReply x (commandFrame x cmdcode param seq) channel) cmdcode seq =
      true := by
  simp [isCommandResponse, commandReply, commandFrame]

/-! ## states -/

/-- A frame with a sequence number; `number` counts the sequence numbers used
before. -/
structure Request where
  number : Nat
  frame : Frame
  deriving DecidableEq, Repr

/-- A response in the queue, with the request it answers. -/
structure Response where
  msg : CmdResponseMsg
  source : Option Request
  deriving DecidableEq, Repr

inductive Call where
  | sendCommand (cmdcode : UInt8) (param : List UInt8)
  | sendCommandWait (cmdcode : UInt8) (param : List UInt8)
  | getDeviceCapabilities
  deriving DecidableEq, Repr

/-- The frame a call builds. -/
def Call.frame (seq : UInt8) : Call → Frame
  | .sendCommand cmdcode param => commandFrame x cmdcode param seq
  | .sendCommandWait cmdcode param => commandFrame x cmdcode param seq
  | .getDeviceCapabilities => capsRequestFrame x seq

/-- The call returns with this response. -/
def Call.takes (msg : CmdResponseMsg) (saveseq : UInt8) : Call → Bool
  | .sendCommandWait cmdcode _ => isCommandResponse x msg cmdcode saveseq
  | _ => false

/-- What a call does once its frame is built. -/
inductive Stage where
  | flush
  | send
  | poll
  deriving DecidableEq, Repr

/-- Where a caller is. -/
inductive CallPc where
  | outside (rv : Option Bool)
  | build (call : Call) (saveseq : UInt8)
  | active (stage : Stage) (call : Call) (saveseq : UInt8) (request : Request)
  deriving DecidableEq, Repr

/-- What happens in a run.  `returned` is the end of a `sendCommandWait` that has
sent its frame, with the response it took. -/
inductive Event where
  | sent (request : Request)
  | received (request : Request)
  | returned (request : Request) (taken : Option Response)
  deriving DecidableEq, Repr

structure State (ι : Type) where
  sequencyno : UInt8
  responseList : List Response
  caller : ι → CallPc
  -- history
  used : Nat
  log : List Event

variable {ι : Type}

/-- A driver as it is constructed. -/
def State.new : State ι where
  sequencyno := 0
  responseList := []
  caller := fun _ => .outside none
  used := 0
  log := []

def State.happen (s : State ι) (e : Event) : State ι := { s with log := s.log ++ [e] }

/-! ## the callers -/

/-- What a caller does next, or how its wait or its send ends. -/
inductive CallerAct where
  | call (call : Call)
  | go
  | expired
  | sendFails
  deriving DecidableEq, Repr

variable [DecidableEq ι]

/-- A caller goes to another place. -/
def State.goto (s : State ι) (c : ι) (pc : CallPc) : State ι :=
  { s with caller := Function.update s.caller c pc }

/-- One step of a caller. -/
def callerNext (c : ι) (a : CallerAct) (s : State ι) : Option (State ι) :=
  match s.caller c, a with
  -- uint8_t saveseq = m_sequencyno
  | .outside _, .call call => some (s.goto c (.build call s.sequencyno))
  -- m_sequencyno++
  | .build call saveseq, .go =>
    some ({ s with sequencyno := s.sequencyno + 1, used := s.used + 1 }.goto c
      (.active .flush call saveseq ⟨s.used, call.frame x s.sequencyno⟩))
  -- Empty reply list
  | .active .flush call saveseq r, .go =>
    some ({ s with responseList := [] }.goto c (.active .send call saveseq r))
  | .active .send call saveseq r, .go =>
    match call with
    | .sendCommand _ _ => some ((s.happen (.sent r)).goto c (.outside (some true)))
    | call => some ((s.happen (.sent r)).goto c (.active .poll call saveseq r))
  | .active .send _ _ _, .sendFails => some (s.goto c (.outside (some false)))
  -- wait4CommandResponse, and the loop of getDeviceCapabilities, which always ends
  -- at its deadline
  | .active .poll call saveseq r, .go =>
    match s.responseList with
    | [] => some s
    | e :: rest =>
      if call.takes x e.msg saveseq then
        some (({ s with responseList := rest }.happen (.returned r (some e))).goto c
          (.outside (some true)))
      else some { s with responseList := rest }
  | .active .poll call _ r, .expired =>
    match call with
    | .sendCommandWait _ _ =>
      some ((s.happen (.returned r none)).goto c (.outside (some false)))
    | _ => some (s.goto c (.outside (some true)))
  | _, _ => none

/-! ## the receive thread -/

/-- What the receive thread puts into the queue: the reply to a command that was
sent, or some other frame. -/
inductive Reply where
  | command (request : Request) (channel : UInt8)
  | other (msg : CmdResponseMsg)
  deriving DecidableEq, Repr

/-- One section of `addToResponseQueue`. -/
def receiveNext (reply : Reply) (s : State ι) : Option (State ι) :=
  match reply with
  | .command r channel =>
    if .sent r ∈ s.log ∧ r.frame.frameType = x.code .command then
      some ({ s with
        responseList := pushResponse s.responseList
          ⟨commandReply x r.frame channel, some r⟩ }.happen (.received r))
    else none
  | .other msg =>
    if msg.op ≠ x.code .commandReply then
      some { s with responseList := pushResponse s.responseList ⟨msg, none⟩ }
    else none

/-! ## the machine -/

/-- Who moves. -/
inductive Act (ι : Type) where
  | caller (c : ι) (a : CallerAct)
  | receive (reply : Reply)
  deriving DecidableEq

/-- The callers and the receive thread around the response queue. -/
def machine (ι : Type) [DecidableEq ι] : Machine (State ι) (Act ι) where
  init := (· = State.new)
  next
    | .caller c a, s => callerNext x c a s
    | .receive reply, s => receiveNext x reply s

/-! ## what a step can do -/

/-- The steps of a caller. -/
inductive CallerStep (c : ι) (s : State ι) : CallerAct → State ι → Prop where
  | call (rv : Option Bool) (hpc : s.caller c = .outside rv) (call : Call) :
      CallerStep c s (.call call) (s.goto c (.build call s.sequencyno))
  | build (call : Call) (saveseq : UInt8) (hpc : s.caller c = .build call saveseq) :
      CallerStep c s .go ({ s with sequencyno := s.sequencyno + 1, used := s.used + 1 }.goto c
        (.active .flush call saveseq ⟨s.used, call.frame x s.sequencyno⟩))
  | flush (call : Call) (saveseq : UInt8) (r : Request)
      (hpc : s.caller c = .active .flush call saveseq r) :
      CallerStep c s .go ({ s with responseList := [] }.goto c (.active .send call saveseq r))
  | send (call : Call) (saveseq : UInt8) (r : Request)
      (hpc : s.caller c = .active .send call saveseq r) (pc : CallPc)
      (hto : (∃ cmdcode param, call = .sendCommand cmdcode param) ∧ pc = .outside (some true) ∨
        pc = .active .poll call saveseq r) :
      CallerStep c s .go ((s.happen (.sent r)).goto c pc)
  | sendFails (call : Call) (saveseq : UInt8) (r : Request)
      (hpc : s.caller c = .active .send call saveseq r) :
      CallerStep c s .sendFails (s.goto c (.outside (some false)))
  | sleep : CallerStep c s .go s
  | take (cmdcode : UInt8) (param : List UInt8) (saveseq : UInt8) (r : Request)
      (hpc : s.caller c = .active .poll (.sendCommandWait cmdcode param) saveseq r)
      (e : Response) (rest : List Response) (hlist : s.responseList = e :: rest)
      (htakes : isCommandResponse x e.msg cmdcode saveseq = true) :
      CallerStep c s .go (({ s with responseList := rest }.happen (.returned r (some e))).goto c
        (.outside (some true)))
  | discard (call : Call) (saveseq : UInt8) (r : Request)
      (hpc : s.caller c = .active .poll call saveseq r) (e : Response) (rest : List Response)
      (hlist : s.responseList = e :: rest) (hno : call.takes x e.msg saveseq = false) :
      CallerStep c s .go { s with responseList := rest }
  | expired (cmdcode : UInt8) (param : List UInt8) (saveseq : UInt8) (r : Request)
      (hpc : s.caller c = .active .poll (.sendCommandWait cmdcode param) saveseq r) :
      CallerStep c s .expired ((s.happen (.returned r none)).goto c (.outside (some false)))
  | done (call : Call) (saveseq : UInt8) (r : Request)
      (hpc : s.caller c = .active .poll call saveseq r)
      (hcall : ∀ cmdcode param, call ≠ .sendCommandWait cmdcode param) :
      CallerStep c s .expired (s.goto c (.outside (some true)))

variable {x} {s t : State ι}

theorem callerNext_step {c : ι} {a : CallerAct} (h : callerNext x c a s = some t) :
    CallerStep x c s a t := by
  unfold callerNext at h
  split at h
  · next rv call hpc =>
      cases h
      exact .call rv hpc call
  · next call saveseq hpc =>
      cases h
      exact .build call saveseq hpc
  · next call saveseq r hpc =>
      cases h
      exact .flush call saveseq r hpc
  · next call saveseq r hpc =>
      split at h
      · cases h
        exact .send _ saveseq r hpc _ (.inl ⟨⟨_, _, rfl⟩, rfl⟩)
      · cases h
        exact .send _ saveseq r hpc _ (.inr rfl)
  · next call saveseq r hpc =>
      cases h
      exact .sendFails call saveseq r hpc
  · next call saveseq r hpc =>
      split at h
      · cases h
        exact .sleep
      · next e rest hlist =>
          split at h
          · next htakes =>
              cases h
              cases call with
              | sendCommandWait cmdcode param => exact .take cmdcode param saveseq r hpc e rest hlist htakes
              | _ => simp [Call.takes] at htakes
          · next hno =>
              cases h
              exact .discard call saveseq r hpc e rest hlist (by simpa using hno)
  · next call saveseq r hpc =>
      split at h
      · cases h
        exact .expired _ _ saveseq r hpc
      · next hcall =>
          cases h
          exact .done _ saveseq r hpc hcall
  · cases h

omit [DecidableEq ι] in
theorem receiveNext_caller {reply : Reply} (h : receiveNext x reply s = some t) :
    t.caller = s.caller := by
  unfold receiveNext at h
  split at h
  · split at h
    · cases h
      rfl
    · cases h
  · split at h
    · cases h
      rfl
    · cases h

/-! ## what every step keeps -/

def CallPc.request : CallPc → Option Request
  | .active _ _ _ r => some r
  | _ => none

variable (x) in
/-- What a caller knows where it is: its request is its own, and has been sent
when it waits for the reply. -/
def CallerOk (s : State ι) : CallPc → Prop
  | .active stage call _ r =>
    r.number < s.used ∧ r.frame = call.frame x (seq8 r.number) ∧
      (stage = .poll → .sent r ∈ s.log) ∧
      (stage ≠ .poll → ∀ r', .sent r' ∈ s.log → r'.number ≠ r.number)
  | _ => True

variable (x) in
/-- What holds in every run, however the replies come. -/
structure Records (s : State ι) : Prop where
  seqno : s.sequencyno = seq8 s.used
  callers : ∀ c, CallerOk x s (s.caller c)
  distinct : ∀ c c' r r', (s.caller c).request = some r → (s.caller c').request = some r' →
    r.number = r'.number → c = c'
  sent : ∀ r, .sent r ∈ s.log → r.number < s.used ∧ r.frame.seq = seq8 r.number
  -- a sequence number is used for one frame
  same : ∀ r r', .sent r ∈ s.log → .sent r' ∈ s.log → r.number = r'.number → r = r'
  received : ∀ r, .received r ∈ s.log → .sent r ∈ s.log
  queued : ∀ e ∈ s.responseList, ∀ r, e.source = some r →
    [.sent r, .received r].Sublist s.log ∧ ∃ channel, e.msg = commandReply x r.frame channel
  others : ∀ e ∈ s.responseList, e.source = none → e.msg.op ≠ x.code .commandReply

omit [DecidableEq ι] in
theorem records_new : Records x (State.new : State ι) where
  seqno := rfl
  callers := fun _ => trivial
  distinct := fun _ _ _ _ h => by cases h
  sent := fun _ h => by cases h
  same := fun _ _ h => by cases h
  received := fun _ h => by cases h
  queued := fun _ h => by cases h
  others := fun _ h => by cases h

omit [DecidableEq ι] in
theorem Records.number_lt (h : Records x s) {c : ι} {r : Request}
    (hr : (s.caller c).request = some r) : r.number < s.used := by
  have hok := h.callers c
  cases hpc : s.caller c with
  | active stage call saveseq r' =>
      rw [hpc] at hok hr
      cases hr
      exact hok.1
  | _ => rw [hpc] at hr; cases hr

theorem request_goto {c c' : ι} {pc : CallPc} {r : Request}
    (hreq : ∀ r, pc.request = some r → (s.caller c).request = some r)
    (h : ((s.goto c pc).caller c').request = some r) : (s.caller c').request = some r := by
  by_cases hc : c' = c
  · subst hc
    exact hreq r (by simpa [State.goto] using h)
  · simpa [State.goto, hc] using h

/-- A caller goes to a place where it has the same request, or none. -/
theorem Records.goto (h : Records x s) (c : ι) (pc : CallPc) (hok : CallerOk x s pc)
    (hreq : ∀ r, pc.request = some r → (s.caller c).request = some r) : Records x (s.goto c pc) where
  seqno := h.seqno
  callers := (Function.forall_update_iff s.caller fun _ pc => CallerOk x s pc).mpr
    ⟨hok, fun c' _ => h.callers c'⟩
  distinct := fun c₁ c₂ r₁ r₂ h₁ h₂ heq =>
    h.distinct c₁ c₂ r₁ r₂ (request_goto hreq h₁) (request_goto hreq h₂) heq
  sent := h.sent
  same := h.same
  received := h.received
  queued := h.queued
  others := h.others

omit [DecidableEq ι] in
/-- Responses leave the queue. -/
theorem Records.shrink (h : Records x s) {responses : List Response}
    (hsub : responses ⊆ s.responseList) : Records x { s with responseList := responses } :=
  { h with
    queued := fun e he => h.queued e (hsub he)
    others := fun e he => h.others e (hsub he) }

omit [DecidableEq ι] in
/-- Something happens that is not a send. -/
theorem Records.happen (h : Records x s) {ev : Event} (hev : ∀ r, ev ≠ .sent r)
    (hsent : ∀ r, ev = .received r → .sent r ∈ s.log) : Records x (s.happen ev) := by
  have hiff : ∀ r, .sent r ∈ (s.happen ev).log ↔ .sent r ∈ s.log := by
    intro r
    simp [State.happen, Ne.symm (hev r)]
  exact {
    seqno := h.seqno
    callers := fun c => by
      have hok := h.callers c
      change CallerOk x (s.happen ev) (s.caller c)
      revert hok
      cases s.caller c with
      | active stage call saveseq r =>
          simp only [CallerOk, hiff]
          exact id
      | _ => exact id
    distinct := h.distinct
    sent := fun r hr => h.sent r ((hiff r).mp hr)
    same := fun r r' hr hr' => h.same r r' ((hiff r).mp hr) ((hiff r').mp hr')
    received := fun r hr => by
      rw [hiff]
      cases List.mem_append.mp hr with
      | inl hold => exact h.received r hold
      | inr hnew => exact hsent r (List.mem_singleton.mp hnew).symm
    queued := fun e he r hr => ⟨History.grow (h.queued e he r hr).1 ev, (h.queued e he r hr).2⟩
    others := h.others }

/-- A call takes the next sequence number. -/
theorem Records.build (h : Records x s) (c : ι) (call : Call) (saveseq : UInt8) :
    Records x ({ s with sequencyno := s.sequencyno + 1, used := s.used + 1 }.goto c
      (.active .flush call saveseq ⟨s.used, call.frame x s.sequencyno⟩)) where
  seqno := by simp [State.goto, h.seqno, seq8_succ]
  callers := by
    refine (Function.forall_update_iff s.caller fun _ pc => CallerOk x _ pc).mpr ⟨?_, ?_⟩
    · refine ⟨Nat.lt_succ_self _, by rw [h.seqno], by simp, fun _ r' hr' => ?_⟩
      exact Nat.ne_of_lt (h.sent r' hr').1
    · intro c' _
      have hok := h.callers c'
      revert hok
      cases s.caller c' with
      | active stage call saveseq r => exact fun ⟨h1, h2⟩ => ⟨Nat.lt_succ_of_lt h1, h2⟩
      | _ => exact id
  distinct := fun c₁ c₂ r₁ r₂ h₁ h₂ heq => by
    -- nobody else has the new number
    have hlt := fun c' r => h.number_lt (c := c') (r := r)
    simp only [State.goto, Function.update_apply] at h₁ h₂
    split at h₁ <;> split at h₂
    · next hc₁ hc₂ => exact hc₁.trans hc₂.symm
    · cases h₁
      have := hlt c₂ r₂ h₂
      simp only at heq
      omega
    · cases h₂
      have := hlt c₁ r₁ h₁
      simp only at heq
      omega
    · exact h.distinct c₁ c₂ r₁ r₂ h₁ h₂ heq
  sent := fun r hr => ⟨Nat.lt_succ_of_lt (h.sent r hr).1, (h.sent r hr).2⟩
  same := h.same
  received := h.received
  queued := h.queued
  others := h.others

theorem Call.frame_seq (call : Call) (seq : UInt8) : (call.frame x seq).seq = seq := by
  cases call <;> rfl

/-- The frame of a call goes out. -/
theorem Records.send (h : Records x s) {c : ι} {call : Call} {saveseq : UInt8} {r : Request}
    (hpc : s.caller c = .active .send call saveseq r) (pc : CallPc)
    (hto : pc = .outside (some true) ∨ pc = .active .poll call saveseq r) :
    Records x ((s.happen (.sent r)).goto c pc) := by
  have hok := h.callers c
  rw [hpc] at hok
  obtain ⟨hlt, hframe, -, hfresh⟩ := hok
  have hfresh := hfresh (by simp)
  have hmem : ∀ r', .sent r' ∈ (s.happen (.sent r)).log ↔ .sent r' ∈ s.log ∨ r' = r := by
    intro r'
    simp [State.happen]
  exact {
    seqno := h.seqno
    callers := by
      refine (Function.forall_update_iff s.caller fun _ pc => CallerOk x _ pc).mpr ⟨?_, ?_⟩
      · cases hto with
        | inl hout => rw [hout]; trivial
        | inr hpoll =>
            rw [hpoll]
            exact ⟨hlt, hframe, fun _ => (hmem r).mpr (.inr rfl), by simp⟩
      · intro c' hc
        have hok' := h.callers c'
        have hother := h.distinct c' c
        revert hok' hother
        cases s.caller c' with
        | active stage call' saveseq' r' =>
            intro ⟨h1, h2, h3, h4⟩ hother
            refine ⟨h1, h2, fun hp => (hmem r').mpr (.inl (h3 hp)), fun hp r'' hr'' => ?_⟩
            cases (hmem r'').mp hr'' with
            | inl hold => exact h4 hp r'' hold
            | inr hnew =>
                rw [hnew]
                exact fun heq => hc (hother r' r rfl (by rw [hpc]; rfl) heq.symm)
        | _ => exact fun _ _ => trivial
    distinct := fun c₁ c₂ r₁ r₂ h₁ h₂ heq => by
      have hreq : ∀ r', pc.request = some r' → (s.caller c).request = some r' := by
        intro r' hr'
        cases hto with
        | inl hout => simp [hout, CallPc.request] at hr'
        | inr hpoll => simpa [hpoll, hpc, CallPc.request] using hr'
      exact h.distinct c₁ c₂ r₁ r₂ (request_goto (s := s.happen (.sent r)) hreq h₁)
        (request_goto (s := s.happen (.sent r)) hreq h₂) heq
    sent := fun r' hr' => by
      cases (hmem r').mp hr' with
      | inl hold => exact h.sent r' hold
      | inr hnew =>
          rw [hnew]
          exact ⟨hlt, by rw [hframe, Call.frame_seq]⟩
    same := fun r₁ r₂ h₁ h₂ heq => by
      cases (hmem r₁).mp h₁ with
      | inl h₁ =>
          cases (hmem r₂).mp h₂ with
          | inl h₂ => exact h.same r₁ r₂ h₁ h₂ heq
          | inr h₂ => exact absurd (h₂ ▸ heq) (hfresh r₁ h₁)
      | inr h₁ =>
          cases (hmem r₂).mp h₂ with
          | inl h₂ => exact absurd (h₁ ▸ heq).symm (hfresh r₂ h₂)
          | inr h₂ => rw [h₁, h₂]
    received := fun r' hr' => (hmem r').mpr (.inl (h.received r' (by
      simpa [State.goto, State.happen] using hr')))
    queued := fun e he r' hr' => ⟨History.grow (h.queued e he r' hr').1 _, (h.queued e he r' hr').2⟩
    others := h.others }

/-- Every step of a caller keeps the records. -/
theorem Records.caller (h : Records x s) {c : ι} {a : CallerAct} (hstep : CallerStep x c s a t) :
    Records x t := by
  cases hstep with
  | call rv hpc call => exact h.goto c _ trivial (by simp [CallPc.request])
  | build call saveseq hpc => exact h.build c call saveseq
  | flush call saveseq r hpc =>
      have hok := h.callers c
      rw [hpc] at hok
      obtain ⟨hlt, hframe, -, hfresh⟩ := hok
      exact (h.shrink (List.nil_subset _)).goto c _
        ⟨hlt, hframe, by simp, fun _ => hfresh (by simp)⟩ (by simp [CallPc.request, hpc])
  | send call saveseq r hpc pc hto => exact h.send hpc pc (hto.imp And.right id)
  | sendFails call saveseq r hpc => exact h.goto c _ trivial (by simp [CallPc.request])
  | sleep => exact h
  | take cmdcode param saveseq r hpc e rest hlist htakes =>
      have hshrink : Records x { s with responseList := rest } := h.shrink (by simp [hlist])
      exact (hshrink.happen (by simp) (by simp)).goto c _ trivial (by simp [CallPc.request])
  | discard call saveseq r hpc e rest hlist hno => exact h.shrink (by simp [hlist])
  | expired cmdcode param saveseq r hpc =>
      exact (h.happen (by simp) (by simp)).goto c _ trivial (by simp [CallPc.request])
  | done call saveseq r hpc hcall => exact h.goto c _ trivial (by simp [CallPc.request])

omit [DecidableEq ι] in
/-- Every response that comes in keeps the records. -/
theorem Records.receive (h : Records x s) {reply : Reply} (hnext : receiveNext x reply s = some t) :
    Records x t := by
  unfold receiveNext at hnext
  split at hnext
  · next r channel =>
      split at hnext
      · next hsent =>
          cases hnext
          have hh : Records x (s.happen (.received r)) :=
            h.happen (by simp) (by simpa using hsent.1)
          exact { hh with
            queued := fun e he r' hr' => by
              cases mem_pushResponse he with
              | inl hold => exact hh.queued e hold r' hr'
              | inr hnew =>
                  subst hnew
                  cases hr'
                  exact ⟨History.pair_last hsent.1 _, channel, rfl⟩
            others := fun e he hnone => by
              cases mem_pushResponse he with
              | inl hold => exact h.others e hold hnone
              | inr hnew => simp [hnew] at hnone }
      · cases hnext
  · next msg =>
      split at hnext
      · next hop =>
          cases hnext
          exact { h with
            queued := fun e he r' hr' => by
              cases mem_pushResponse he with
              | inl hold => exact h.queued e hold r' hr'
              | inr hnew => simp [hnew] at hr'
            others := fun e he hnone => by
              cases mem_pushResponse he with
              | inl hold => exact h.others e hold hnone
              | inr hnew => simpa [hnew] using hop }
      · cases hnext

/-- Every run keeps the records. -/
theorem records_of_reachable {c : Act ι → State ι → Prop}
    (hs : (machine x ι).ReachableWhen c s) : Records x s := by
  refine hs.invariant ?_ ?_
  · rintro s rfl
    exact records_new
  · intro s t a hI _ hnext
    cases a with
    | caller c a => exact hI.caller (callerNext_step hnext)
    | receive reply => exact hI.receive hnext

end Can4vscp.Commands
