import Can4vscp.Matching
import Can4vscp.Lib.Progress

/-!
# Can4vscp.ReplyFound

A reply that has come is found.

`wait4CommandResponse` takes one response out of the queue at each poll, whatever it is, and
polls every ten milliseconds.  Meanwhile the receive thread adds what comes, and drops the
oldest response when `CAN4VSCP_MAX_RESPONSEMSG` are waiting.  So a reply moves one place
forward at each poll, and is only lost when it has become the oldest and as many responses
have come behind it (`reply_found`).

The induction is on the run, with the responses in front of the reply and those behind it.
-/

namespace Can4vscp.Commands

open SeqNumber

variable {x : External} {s t u : State Unit} {as : List (Act Unit)}

/-! ## a call that waits -/

/-- The call polls, and responses come in. -/
def Waiting : Act Unit → State Unit → Prop
  | .caller _ a, _ => a = .go
  | .receive _, _ => True

def Act.isPoll : Act Unit → Bool
  | .caller _ _ => true
  | .receive _ => false

def Act.isReceive : Act Unit → Bool
  | .caller _ _ => false
  | .receive _ => true

/-- The call has come back with a response it took for its reply. -/
structure Found (r : Request) (s : State Unit) : Prop where
  rv : s.caller () = .outside (some true)
  taken : ∃ e, .returned r (some e) ∈ s.log

/-- What has been found stays found while nobody calls. -/
theorem Found.next {r : Request} {a : Act Unit} (h : Found r s) (hc : Waiting a s)
    (hnext : (machine x Unit).next a s = some t) : Found r t := by
  cases a with
  | caller c a =>
      rw [show a = .go from hc] at hnext
      simp [machine, callerNext, h.rv] at hnext
  | receive reply =>
      have hcaller : t.caller = s.caller := receiveNext_caller hnext
      have hlog : ∀ e ∈ s.log, e ∈ t.log := by
        simp only [machine, receiveNext] at hnext
        intro e he
        split at hnext
        · split at hnext
          · cases hnext
            exact List.mem_append_left _ he
          · cases hnext
        · split at hnext
          · cases hnext
            exact he
          · cases hnext
      obtain ⟨e, he⟩ := h.taken
      exact ⟨by rw [hcaller, h.rv], e, hlog _ he⟩

/-! ## the place of the reply -/

variable {cmdcode : UInt8} {param : List UInt8} {saveseq : UInt8} {r : Request} {e : Response}
  {front back : List Response}

/-- A poll takes the first response: it is the reply, or something that passes for it, or
it is thrown away. -/
theorem poll_cases (hpc : s.caller () = .active .poll (.sendCommandWait cmdcode param) saveseq r)
    (hlist : s.responseList = e :: back)
    (hnext : (machine x Unit).next (.caller () .go) s = some t) :
    Found r t ∨ isCommandResponse x e.msg cmdcode saveseq = false ∧
      t = { s with responseList := back } := by
  simp only [machine, callerNext, hpc, hlist] at hnext
  split at hnext
  · next htakes =>
      cases hnext
      exact .inl ⟨by simp [State.goto], e, by simp [State.goto, State.happen]⟩
  · next hno =>
      cases hnext
      exact .inr ⟨by simpa [Call.takes] using hno, rfl⟩

/-- A response comes in behind the reply; the oldest one in front of it may go. -/
theorem receive_behind {reply : Reply} (hlist : s.responseList = front ++ e :: back)
    (hroom : back.length + 1 < CAN4VSCP_MAX_RESPONSEMSG)
    (hnext : (machine x Unit).next (.receive reply) s = some t) :
    ∃ front' new, t.responseList = front' ++ e :: (back ++ [new]) ∧
      front'.length ≤ front.length := by
  have hpush : ∀ new : Response, ∃ front', pushResponse s.responseList new =
      front' ++ e :: (back ++ [new]) ∧ front'.length ≤ front.length := by
    intro new
    rw [hlist, pushResponse]
    by_cases hfull : (front ++ e :: back).length ≥ CAN4VSCP_MAX_RESPONSEMSG
    · rw [if_pos hfull]
      cases front with
      | nil =>
          rw [List.nil_append, List.length_cons] at hfull
          omega
      | cons f front => exact ⟨front, by simp, by simp⟩
    · rw [if_neg hfull]
      exact ⟨front, by simp, Nat.le_refl _⟩
  simp only [machine, receiveNext] at hnext
  split at hnext
  · next r' channel =>
      split at hnext
      · cases hnext
        obtain ⟨front', heq, hle⟩ := hpush ⟨commandReply x r'.frame channel, some r'⟩
        exact ⟨front', _, heq, hle⟩
      · cases hnext
  · next msg =>
      split at hnext
      · cases hnext
        obtain ⟨front', heq, hle⟩ := hpush ⟨msg, none⟩
        exact ⟨front', _, heq, hle⟩
      · cases hnext

/-- A response that passes for the reply is found in as many polls as it has others in
front of it, and one more, unless too many come behind it. -/
theorem found_of_queued (hpath : (machine x Unit).Path Waiting s as t)
    (hpc : s.caller () = .active .poll (.sendCommandWait cmdcode param) saveseq r)
    (hlist : s.responseList = front ++ e :: back)
    (htakes : isCommandResponse x e.msg cmdcode saveseq = true)
    (hbehind : back.length + as.countP Act.isReceive < CAN4VSCP_MAX_RESPONSEMSG) :
    Found r t ∨ as.countP Act.isPoll ≤ front.length ∧
      t.caller () = .active .poll (.sendCommandWait cmdcode param) saveseq r := by
  induction hpath generalizing front back with
  | nil s => exact .inr ⟨Nat.zero_le _, hpc⟩
  | @cons s t u as a hc hnext hrest ih =>
      have hkeeps : Found r t → Found r u := hrest.keeps fun _ _ _ h => h.next
      cases a with
      | caller c a =>
          rw [show a = .go from hc] at hnext
          have hcount : (Act.caller c a :: as).countP Act.isPoll = as.countP Act.isPoll + 1 :=
            List.countP_cons_of_pos rfl
          have hreceives : (Act.caller c a :: as).countP Act.isReceive = as.countP Act.isReceive :=
            List.countP_cons_of_neg (by simp [Act.isReceive])
          rw [hreceives] at hbehind
          cases front with
          | nil =>
              cases poll_cases hpc hlist hnext with
              | inl hfound => exact .inl (hkeeps hfound)
              | inr hno =>
                  rw [hno.1] at htakes
                  cases htakes
          | cons f front =>
              cases poll_cases hpc hlist hnext with
              | inl hfound => exact .inl (hkeeps hfound)
              | inr hno =>
                  obtain ⟨-, rfl⟩ := hno
                  refine (ih hpc rfl hbehind).imp_right fun hpolls => ⟨?_, hpolls.2⟩
                  rw [hcount]
                  exact Nat.succ_le_succ hpolls.1
      | receive reply =>
          have hcount : (Act.receive reply :: as).countP Act.isPoll = as.countP Act.isPoll :=
            List.countP_cons_of_neg (by simp [Act.isPoll])
          have hreceives : (Act.receive reply :: as).countP Act.isReceive =
              as.countP Act.isReceive + 1 := List.countP_cons_of_pos rfl
          rw [hreceives] at hbehind
          obtain ⟨front', new, hlist', hle⟩ := receive_behind hlist (by omega) hnext
          have hcaller : t.caller = s.caller := receiveNext_caller hnext
          have hmore : (back ++ [new]).length + as.countP Act.isReceive < CAN4VSCP_MAX_RESPONSEMSG := by
            rw [List.length_append, List.length_singleton]
            omega
          refine (ih (by rw [hcaller, hpc]) hlist' hmore).imp_right fun hpolls => ⟨?_, hpolls.2⟩
          rw [hcount]
          exact Nat.le_trans hpolls.1 hle

/-! ## the bound -/

theorem length_pushResponse_le {responses : List Response} (new : Response)
    (h : responses.length ≤ CAN4VSCP_MAX_RESPONSEMSG) :
    (pushResponse responses new).length ≤ CAN4VSCP_MAX_RESPONSEMSG := by
  unfold pushResponse
  split
  · rw [List.length_append, List.length_tail, List.length_singleton]
    simp only [CAN4VSCP_MAX_RESPONSEMSG] at h ⊢
    omega
  · rw [List.length_append, List.length_singleton]
    omega

/-- The response queue is bounded in every run. -/
theorem length_responseList_le {c : Act Unit → State Unit → Prop}
    (hs : (machine x Unit).ReachableWhen c s) :
    s.responseList.length ≤ CAN4VSCP_MAX_RESPONSEMSG := by
  refine hs.invariant (P := fun s => s.responseList.length ≤ CAN4VSCP_MAX_RESPONSEMSG)
    (fun s hs => ?_) fun s t a h _ hnext => ?_
  · rw [show s = .new from hs]
    exact Nat.zero_le _
  · cases a with
    | caller c a =>
        have hstep : CallerStep x c s a t := callerNext_step hnext
        cases hstep with
        | take cmdcode param saveseq r hpc e rest hlist =>
            rw [hlist] at h
            exact Nat.le_of_succ_le h
        | discard call saveseq r hpc e rest hlist =>
            rw [hlist] at h
            exact Nat.le_of_succ_le h
        | flush => exact Nat.zero_le _
        | _ => exact h
    | receive reply =>
        simp only [machine, receiveNext] at hnext
        split at hnext
        · split at hnext
          · cases hnext
            exact length_pushResponse_le _ h
          · cases hnext
        · split at hnext
          · cases hnext
            exact length_pushResponse_le _ h
          · cases hnext

/-! ## the result -/

/-- How far a call is that waits for a reply with some responses in front of it. -/
structure Finds (x : External) (r : Request) (front : List Response) (as : List (Act Unit))
    (t : State Unit) : Prop where
  found : Found r t ∨ as.countP Act.isPoll ≤ front.length
  few : front.length < CAN4VSCP_MAX_RESPONSEMSG
  enabled : Found r t ∨ ∃ u, (machine x Unit).next (.caller () .go) t = some u

/-- **A reply that has come is found**: in every run with one caller, the call that waits
for it returns true after at most 32 more polls, whatever else is in the queue and comes
in, as long as fewer than 32 responses come behind the reply. -/
theorem reply_found (hs : (machine x Unit).ReachableWhen Timely s)
    (hpc : s.caller () = .active .poll (.sendCommandWait cmdcode param) saveseq r)
    (hlist : s.responseList = front ++ e :: back) (hsource : e.source = some r)
    (hpath : (machine x Unit).Path Waiting s as t)
    (hbehind : back.length + as.countP Act.isReceive < CAN4VSCP_MAX_RESPONSEMSG) :
    Finds x r front as t := by
  have hown := (matchInv_of_reachable hs).own
  have hrec := records_of_reachable hs
  have hok := hrec.callers ()
  rw [hpc] at hok
  simp only [OwnNumber, hpc] at hown
  have htakes : isCommandResponse x e.msg cmdcode saveseq = true := by
    obtain ⟨channel, hmsg⟩ := (hrec.queued e (by simp [hlist]) r hsource).2
    rw [hmsg, hok.2.1, ← hown.1, hok.2.1, Call.frame_seq]
    exact isCommandResponse_commandReply x cmdcode param _ channel
  have hlength := length_responseList_le hs
  rw [hlist, List.length_append, List.length_cons] at hlength
  cases found_of_queued hpath hpc hlist htakes hbehind with
  | inl hfound => exact ⟨.inl hfound, by omega, .inl hfound⟩
  | inr hpolls =>
      refine ⟨.inr hpolls.1, by omega, .inr ?_⟩
      simp only [machine, callerNext, hpolls.2]
      split
      · exact ⟨_, rfl⟩
      · split <;> exact ⟨_, rfl⟩

instance : (a : Act Unit) → (s : State Unit) → Decidable (Waiting a s)
  | .caller _ a, _ => inferInstanceAs (Decidable (a = .go))
  | .receive _, _ => .isTrue trivial

/-- The reply comes when 31 other responses are waiting, and one more comes behind it. -/
theorem reply_found_crowded : ∃ (r : Request) (front : List Response) (as : List (Act Unit))
    (t : State Unit), front.length = 31 ∧ Finds .vscp r front as t ∧ Found r t := by
  let r : Request := ⟨0, commandFrame .vscp 1 [] 0⟩
  let ack : CmdResponseMsg := ⟨251, 7, 0, 0, []⟩
  let front : List Response := List.replicate 31 ⟨ack, none⟩
  let call : List (Act Unit) :=
    [.caller () (.call (.sendCommandWait 1 [])), .caller () .go, .caller () .go, .caller () .go]
  let path : List (Act Unit) :=
    .caller () .go :: .receive (.other ack) :: List.replicate 31 (.caller () .go)
  obtain ⟨s, t, hs, hpath, hp⟩ := (machine .vscp Unit).exists_path Timely Waiting
    (call ++ List.replicate 31 (.receive (.other ack)) ++ [.receive (.command r 0)]) path
    (fun s t => s.caller () == .active .poll (.sendCommandWait 1 []) 0 r &&
      s.responseList == front ++ [⟨commandReply .vscp r.frame 0, some r⟩] &&
      t.caller () == .outside (some true)) rfl (by decide +kernel)
  simp only [Bool.and_eq_true, beq_iff_eq] at hp
  obtain ⟨⟨hpc, hlist⟩, -⟩ := hp
  have hfinds := reply_found hs hpc hlist rfl hpath (by decide)
  exact ⟨r, front, path, t, rfl, hfinds, hfinds.found.resolve_right (by decide)⟩

end Can4vscp.Commands
