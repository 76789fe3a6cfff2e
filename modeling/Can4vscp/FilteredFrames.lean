import Can4vscp.Malformed

/-!
# Can4vscp.FilteredFrames

The filter law for whole frames.

A frame carries the messages of its sub-frames, each with the id of its own; the filter
should let those through that meet the law.  What the driver does differs from that in two
places: its verdict is not always that of the law, and the CANAL branch asks it about the
id of the first sub-frame only.  `filter_law_iff` says for which frames of the four types
the right messages are queued.
-/

namespace Can4vscp

open Memory ReadProgram MaskedMatch

variable (x : External)

/-! ## the messages of a frame -/

section
variable {k : Nat}

/-- The messages of sub-frames, but for their time stamps. -/
def subMsgs (L : List (RawSubFrame k)) : List CanalMsg := L.map fun f => f.msg x f.id 0

/-- The filter law for the message of a sub-frame. -/
def SubLaw (filter mask : UInt32) (f : RawSubFrame k) : Prop :=
  FilterLaw x filter mask (f.msg x f.id 0)

/-- The verdict on the message of a sub-frame is that of the law. -/
def SubIndifferent (filter mask : UInt32) (f : RawSubFrame k) : Prop :=
  FilterIndifferent x filter mask (f.msg x f.id 0)

/-- From `d` to `d'` the messages of the sub-frames that meet the law are queued, in order,
and no others. -/
def QueuesLawful (filter mask : UInt32) (d d' : Driver) (L : List (RawSubFrame k)) : Prop :=
  ∃ ms, d'.receiveList = d.receiveList ++ ms ∧
    ms.map CanalMsg.untimed = (subMsgs x L).filter (FilterLaw x filter mask ·)

/-- The filter matches an id with the bits of the decimal numbers. -/
def DecimalMatch (filter mask : UInt32) (id : UInt32) : Prop :=
  Matches (bit filter) (bit mask) (bit (decimalId id))

instance (filter mask id : UInt32) : Decidable (DecimalMatch filter mask id) :=
  inferInstanceAs (Decidable (∀ _, _ → _))

/-- What it takes for the messages that meet the law to be queued, and no others. -/
def FiltersLawful (t : CanalFrame) (filter mask : UInt32) (m : Mem UInt8) (room : Nat)
    (L : List (RawSubFrame k)) : Prop :=
  match t, L with
  | .canal, [] => True
  -- all are judged by the first id
  | .canal, f :: L =>
    if DecimalMatch filter mask f.id then
      SubIndifferent x filter mask f ∧ ∀ g ∈ L, g.id = f.id
    else ∀ g ∈ f :: L, ¬ SubLaw x filter mask g
  -- one is taken, whether there is one or not
  | .canalTimestamp, [] => room = 0 ∨ ¬ DecimalMatch filter mask ((word29 5).run m)
  | .canalTimestamp, f :: L =>
    SubIndifferent x filter mask f ∧ ∀ g ∈ L, ¬ SubLaw x filter mask g
  | .multiFrameCanal, L => ∀ f ∈ L, SubIndifferent x filter mask f
  | .multiFrameCanalTimestamp, L => ∀ f ∈ L, SubIndifferent x filter mask f

instance (filter mask : UInt32) (f : RawSubFrame k) : Decidable (SubLaw x filter mask f) :=
  inferInstanceAs (Decidable (FilterLaw _ _ _ _))

instance (filter mask : UInt32) (f : RawSubFrame k) : Decidable (SubIndifferent x filter mask f) :=
  inferInstanceAs (Decidable ((∀ _, _ → _) ∨ (∃ _, _) ∨ ((∃ _, _) ∧ ∃ _, _)))

instance (filter mask : UInt32) (m : Mem UInt8) (room : Nat) :
    (t : CanalFrame) → (L : List (RawSubFrame k)) →
      Decidable (FiltersLawful x t filter mask m room L)
  | .canal, [] => .isTrue trivial
  | .canal, f :: L => inferInstanceAs (Decidable (if DecimalMatch filter mask f.id then
      SubIndifferent x filter mask f ∧ ∀ g ∈ L, g.id = f.id
    else ∀ g ∈ f :: L, ¬ SubLaw x filter mask g))
  | .canalTimestamp, [] => inferInstanceAs (Decidable (_ ∨ _))
  | .canalTimestamp, _ :: _ => inferInstanceAs (Decidable (_ ∧ _))
  | .multiFrameCanal, _ | .multiFrameCanalTimestamp, _ => inferInstanceAs (Decidable (∀ _ ∈ _, _))

end

variable {x} {filter mask : UInt32} {k : Nat} {d d' : Driver} {rx : RxState} {channel seq : UInt8}
variable {us us₀ : List CanalMsg}

/-! ## verdicts -/

theorem filter_eq_filter_iff {α : Type} {p q : α → Bool} {l : List α} :
    l.filter p = l.filter q ↔ ∀ a ∈ l, p a = q a := by
  constructor
  · intro h a ha
    have hmem : a ∈ l.filter p ↔ a ∈ l.filter q := by rw [h]
    simp only [List.mem_filter, ha, true_and] at hmem
    exact Bool.eq_iff_iff.mpr hmem
  · exact List.filter_congr

/-- Time stamps play no part. -/
theorem queuesLawful_iff {L : List (RawSubFrame k)}
    (h : d'.receiveList = d.receiveList ++ us.filter (doFilter x filter mask))
    (hus : us.map CanalMsg.untimed = us₀) :
    QueuesLawful x filter mask d d' L ↔
      us₀.filter (doFilter x filter mask) = (subMsgs x L).filter (FilterLaw x filter mask ·) := by
  have huntimed : (us.filter (doFilter x filter mask)).map CanalMsg.untimed =
      us₀.filter (doFilter x filter mask) := by
    rw [← hus, List.filter_map]
    rfl
  constructor
  · rintro ⟨ms, hms, hlawful⟩
    rw [← hlawful, ← huntimed, List.append_cancel_left (h.symm.trans hms)]
  · exact fun heq => ⟨_, h, huntimed.trans heq⟩

theorem untimed_msgs {idOf : RawSubFrame k → UInt32} {L : List (RawSubFrame k)}
    (h : List.Forall₂ (fun msg f => ∃ ts, msg = f.msg x (idOf f) ts) us L) :
    us.map CanalMsg.untimed = L.map fun f => f.msg x (idOf f) 0 := by
  induction h with
  | nil => rfl
  | cons hmsg _ ih =>
      obtain ⟨ts, rfl⟩ := hmsg
      rw [List.map_cons, List.map_cons, ih]
      rfl

/-- No sub-frame meets the law. -/
theorem lawful_eq_nil_iff (L : List (RawSubFrame k)) :
    [] = (subMsgs x L).filter (FilterLaw x filter mask ·) ↔ ∀ f ∈ L, ¬ SubLaw x filter mask f := by
  rw [eq_comm, List.filter_eq_nil_iff, subMsgs, List.forall_mem_map]
  simp [SubLaw]

section
variable (hext : x.CANAL_IDFLAG_EXTENDED ≠ 0) (hrtr : x.CANAL_IDFLAG_RTR ≠ 0)
include hext hrtr

/-- What the filter says to a message of a sub-frame, under any id. -/
theorem verdict_iff (f : RawSubFrame k) (id ts : UInt32) :
    doFilter x filter mask (f.msg x id ts) = true ↔ DecimalMatch filter mask id :=
  doFilter_iff hext hrtr filter mask (f.msg x id ts)

theorem subIndifferent_iff (f : RawSubFrame k) :
    SubIndifferent x filter mask f ↔ (DecimalMatch filter mask f.id ↔ SubLaw x filter mask f) := by
  rw [SubIndifferent, ← doFilter_law_iff hext hrtr, verdict_iff hext hrtr]
  rfl

/-- Sub-frames that are judged by their own ids. -/
theorem own_ids_iff (L : List (RawSubFrame k)) :
    (subMsgs x L).filter (doFilter x filter mask) =
        (subMsgs x L).filter (FilterLaw x filter mask ·) ↔
      ∀ f ∈ L, SubIndifferent x filter mask f := by
  rw [filter_eq_filter_iff, subMsgs, List.forall_mem_map]
  refine forall₂_congr fun f _ => ?_
  rw [subIndifferent_iff hext hrtr, Bool.eq_iff_iff, verdict_iff hext hrtr, decide_eq_true_eq]
  rfl

/-- Sub-frames that are judged by the id of the first one. -/
theorem first_id_iff (f : RawSubFrame k) (L : List (RawSubFrame k)) :
    ((f :: L).map fun g => g.msg x f.id 0).filter (doFilter x filter mask) =
        (subMsgs x (f :: L)).filter (FilterLaw x filter mask ·) ↔
      if DecimalMatch filter mask f.id then
        SubIndifferent x filter mask f ∧ ∀ g ∈ L, g.id = f.id
      else ∀ g ∈ f :: L, ¬ SubLaw x filter mask g := by
  split
  · next hmatch =>
      have hall : ((f :: L).map fun g => g.msg x f.id 0).filter (doFilter x filter mask) =
          (f :: L).map fun g => g.msg x f.id 0 := by
        rw [List.filter_eq_self, List.forall_mem_map]
        exact fun g _ => (verdict_iff hext hrtr g f.id 0).mpr hmatch
      rw [hall, subIndifferent_iff hext hrtr, iff_true_left hmatch]
      constructor
      · intro heq
        -- as many as there are can only be all
        have hlen := congrArg List.length heq
        rw [List.length_map, ← List.length_map (fun g => g.msg x g.id 0), eq_comm] at hlen
        have hlawful := List.length_filter_eq_length_iff.mp hlen
        rw [List.filter_eq_self.mpr hlawful, subMsgs, List.map_inj_left] at heq
        refine ⟨?_, fun g hg => ?_⟩
        · simpa [SubLaw] using hlawful _ (List.mem_map_of_mem List.mem_cons_self)
        · exact (((g.msg_eq_iff).mp (heq g (List.mem_cons_of_mem f hg))).1).symm
      · rintro ⟨hlaw, hids⟩
        have hid : ∀ g ∈ f :: L, g.id = f.id := List.forall_mem_cons.mpr ⟨rfl, hids⟩
        have hsame : subMsgs x (f :: L) = (f :: L).map fun g => g.msg x f.id 0 :=
          List.map_inj_left.mpr fun g hg => by rw [hid g hg]
        rw [hsame, eq_comm, List.filter_eq_self, List.forall_mem_map]
        exact fun g _ => decide_eq_true (show FilterLaw x filter mask (g.msg x f.id 0) from hlaw)
  · next hno =>
      have hnone : ((f :: L).map fun g => g.msg x f.id 0).filter (doFilter x filter mask) = [] := by
        rw [List.filter_eq_nil_iff, List.forall_mem_map]
        exact fun g _ => mt (verdict_iff hext hrtr g f.id 0).mp hno
      rw [hnone]
      exact lawful_eq_nil_iff _

/-- The first sub-frame alone. -/
theorem one_taken_iff (f : RawSubFrame k) (L : List (RawSubFrame k)) :
    [f.msg x f.id 0].filter (doFilter x filter mask) =
        (subMsgs x (f :: L)).filter (FilterLaw x filter mask ·) ↔
      SubIndifferent x filter mask f ∧ ∀ g ∈ L, ¬ SubLaw x filter mask g := by
  have hcons : subMsgs x (f :: L) = f.msg x f.id 0 :: subMsgs x L := rfl
  rw [subIndifferent_iff hext hrtr]
  by_cases hmatch : DecimalMatch filter mask f.id
  · rw [List.filter_cons_of_pos ((verdict_iff hext hrtr f f.id 0).mpr hmatch), List.filter_nil,
      iff_true_left hmatch, hcons]
    by_cases hlaw : FilterLaw x filter mask (f.msg x f.id 0)
    · rw [List.filter_cons, if_pos (decide_eq_true hlaw), List.cons_inj_right, lawful_eq_nil_iff,
        and_iff_right (show SubLaw x filter mask f from hlaw)]
    · rw [List.filter_cons, if_neg (by simpa using hlaw)]
      refine iff_of_false (fun heq => hlaw ?_) fun h => hlaw h.1
      have hmem : f.msg x f.id 0 ∈ (subMsgs x L).filter (FilterLaw x filter mask ·) := by
        rw [← heq]
        exact List.mem_singleton_self _
      exact of_decide_eq_true (List.mem_filter.mp hmem).2
  · rw [List.filter_cons_of_neg (mt (verdict_iff hext hrtr f f.id 0).mp hmatch), List.filter_nil,
      lawful_eq_nil_iff, List.forall_mem_cons, iff_false_left hmatch]

end

/-! ## the branches -/

/-- The driver without a filter and with an empty queue. -/
def Driver.emptied (d : Driver) : Driver := { d with receiveList := [], mask := 0 }

theorem Driver.emptied_room (d : Driver) : 0 < (d.emptied.touch x).room :=
  (by decide : 0 < CAN4VSCP_MAX_RCVMSG - ([] : List CanalMsg).length)

theorem unfilteredMsgs_of_received {ms : List CanalMsg} {overruns : Nat}
    (hrun : actOnReceived x d.emptied rx = d')
    (h : (d.emptied.touch x).Received d' ms overruns) : unfilteredMsgs x d rx = ms := by
  rw [← hrun] at h
  exact h.receiveList

/-- What a filter makes of the messages of some sub-frames that the queue has room for. -/
theorem queuesLawful_of_unfiltered {idOf : RawSubFrame k → UInt32} {K L : List (RawSubFrame k)}
    (hus : List.Forall₂ (fun msg f => ∃ ts, msg = f.msg x (idOf f) ts) (unfilteredMsgs x d rx) K)
    (hfew : K.length < CAN4VSCP_MAX_RCVMSG)
    (hroom : d.receiveList.length + K.length ≤ CAN4VSCP_MAX_RCVMSG) :
    QueuesLawful x d.filter d.mask d (actOnReceived x d rx) L ↔
      (K.map fun f => f.msg x (idOf f) 0).filter (doFilter x d.filter d.mask) =
        (subMsgs x L).filter (FilterLaw x d.filter d.mask ·) := by
  refine queuesLawful_iff (received_filter ⟨?_, ?_⟩) (untimed_msgs hus)
  · rwa [hus.length_eq]
  · rwa [hus.length_eq]

/-- The sub-frames that fit the receive buffer are fewer than the queue can hold. -/
theorem few_of_fits (hk : 0 < k) {L : List (RawSubFrame k)}
    (hfits : (RawSubFrame.encode L).length + 6 ≤ bufferMsgRcvSize) :
    L.length < CAN4VSCP_MAX_RCVMSG := by
  have htwo : L.length * 2 ≤ L.length * (k + 1) := Nat.mul_le_mul_left _ (by omega)
  have hle := htwo.trans (RawSubFrame.mul_length_le_encode L)
  simp only [bufferMsgRcvSize, CAN4VSCP_MAX_RCVMSG] at hfits ⊢
  omega

theorem unfiltered_canal {L : List (RawSubFrame 4)}
    (hfits : (RawSubFrame.encode L).length + 6 ≤ bufferMsgRcvSize)
    (h : rx.Holds x (payloadFrame x .canal channel seq (RawSubFrame.encode L))) (d : Driver) :
    List.Forall₂ (fun msg f => ∃ ts, msg = f.msg x ((word29 5).run rx.bufferMsgRcv) ts)
      (unfilteredMsgs x d rx) L := by
  obtain ⟨hsize, hpayload⟩ := h.payload hfits
  obtain ⟨ms, extra, overruns, hR, hreceived, hquiet⟩ := guardedLoop_payload
    (d := d.emptied.touch x) (decodes_canal (x := x)) receives_canal
    (RawSubFrame.splits_encode L) hpayload (Nat.le_of_lt (few_of_fits (by decide) hfits)) rfl
  obtain rfl : extra = [] := hquiet.mpr (.inl rfl)
  have hrun : actOnReceived x d.emptied rx =
      (guardedLoop 5 (canalDecode x) (RawSubFrame.encode L).length 5 (RawSubFrame.encode L).length
        (d.emptied.touch x)).run rx.bufferMsgRcv := by
    rw [h.actOnReceived, payloadFrame, dispatch_canal, canalFrame, run_bind, hsize]
  rw [List.append_nil] at hreceived
  rw [unfilteredMsgs_of_received hrun hreceived]
  exact hR

theorem unfiltered_multiFrameCanal {L : List (RawSubFrame 4)}
    (hfits : (RawSubFrame.encode L).length + 6 ≤ bufferMsgRcvSize)
    (h : rx.Holds x (payloadFrame x .multiFrameCanal channel seq (RawSubFrame.encode L)))
    (d : Driver) :
    List.Forall₂ (fun msg f => ∃ ts, msg = f.msg x f.id ts) (unfilteredMsgs x d rx) L := by
  obtain ⟨hsize, hpayload⟩ := h.payload hfits
  obtain ⟨ms, extra, overruns, hR, hreceived, hquiet⟩ := multiLoop_payload
    (d := d.emptied.touch x) (decodes_multi (x := x)) (RawSubFrame.splits_encode L) hpayload
    (Nat.le_of_lt (few_of_fits (by decide) hfits)) rfl
  obtain rfl : extra = [] := hquiet.mpr (.inl rfl)
  have hrun : actOnReceived x d.emptied rx =
      (multiLoop x (RawSubFrame.encode L).length 5 (RawSubFrame.encode L).length
        (d.emptied.touch x)).run rx.bufferMsgRcv := by
    rw [h.actOnReceived, payloadFrame, dispatch_multiFrameCanal, multiFrameCanal, run_bind, hsize]
  rw [List.append_nil] at hreceived
  rw [unfilteredMsgs_of_received hrun hreceived]
  exact hR

theorem unfiltered_multiFrameCanalTimestamp {L : List (RawSubFrame 8)}
    (hfits : (RawSubFrame.encode L).length + 6 ≤ bufferMsgRcvSize)
    (h : rx.Holds x (payloadFrame x .multiFrameCanalTimestamp channel seq (RawSubFrame.encode L)))
    (d : Driver) :
    List.Forall₂ (fun msg f => ∃ ts, msg = f.msg x f.id ts) (unfilteredMsgs x d rx) L := by
  obtain ⟨hsize, hpayload⟩ := h.payload hfits
  obtain ⟨ms, extra, overruns, hR, hreceived, hquiet⟩ := guardedLoop_payload
    (d := d.emptied.touch x) (decodes_multiTimestamp (x := x)) receives_multiTimestamp
    (RawSubFrame.splits_encode L) hpayload (Nat.le_of_lt (few_of_fits (by decide) hfits)) rfl
  obtain rfl : extra = [] := hquiet.mpr (.inl rfl)
  have hrun : actOnReceived x d.emptied rx =
      (guardedLoop 9 (multiTimestampDecode x) (RawSubFrame.encode L).length 5
        (RawSubFrame.encode L).length (d.emptied.touch x)).run rx.bufferMsgRcv := by
    rw [h.actOnReceived, payloadFrame, dispatch_multiFrameCanalTimestamp,
      multiFrameCanalTimestamp, run_bind, hsize]
  rw [List.append_nil] at hreceived
  rw [unfilteredMsgs_of_received hrun hreceived]
  exact hR.imp fun msg f hmsg => ⟨_, hmsg⟩

/-- The time stamped CANAL branch takes the first sub-frame. -/
theorem unfiltered_canalTimestamp {f : RawSubFrame 8} {L : List (RawSubFrame 8)}
    (hfits : (RawSubFrame.encode (f :: L)).length + 6 ≤ bufferMsgRcvSize)
    (h : rx.Holds x (payloadFrame x .canalTimestamp channel seq (RawSubFrame.encode (f :: L))))
    (d : Driver) :
    List.Forall₂ (fun msg f => ∃ ts, msg = f.msg x f.id ts) (unfilteredMsgs x d rx) [f] := by
  have hpayload := (h.payload hfits).2
  have hreceived := (Driver.received_unmasked (x := x) (d := d.emptied.touch x) rfl
    (f.msg x f.id (f.timestamp &&& 0x1fffffff))).1
  have hrun : actOnReceived x d.emptied rx =
      (d.emptied.touch x).receive x (f.msg x f.id (f.timestamp &&& 0x1fffffff)) := by
    rw [h.actOnReceived, payloadFrame, dispatch_canalTimestamp]
    exact run_canalTimestampFrame (RawSubFrame.read_cons hpayload).1 d.emptied_room
  rw [unfilteredMsgs_of_received hrun hreceived]
  exact .cons ⟨_, rfl⟩ .nil

/-- It also takes one where there is none. -/
theorem unfiltered_canalTimestamp_nil
    (h : rx.Holds x (payloadFrame x .canalTimestamp channel seq [])) (d : Driver) :
    ∃ msg : CanalMsg, unfilteredMsgs x d rx = [msg] ∧ msg.id = (word29 5).run rx.bufferMsgRcv := by
  let msg : CanalMsg := ⟨x.CANAL_IDFLAG_EXTENDED, 0, (word29 5).run rx.bufferMsgRcv,
    clamp8 (rx.bufferMsgRcv 13), slice rx.bufferMsgRcv 14 (clamp8 (rx.bufferMsgRcv 13)).toNat,
    (word29 9).run rx.bufferMsgRcv⟩
  have hreceived := (Driver.received_unmasked (x := x) (d := d.emptied.touch x) rfl msg).1
  have hrun : actOnReceived x d.emptied rx = (d.emptied.touch x).receive x msg := by
    rw [h.actOnReceived, payloadFrame, dispatch_canalTimestamp, canalTimestampFrame, ifRoom,
      if_pos ((d.emptied.touch x).hasRoom_iff.mpr d.emptied_room)]
    simp [msg]
  exact ⟨msg, unfilteredMsgs_of_received hrun hreceived, rfl⟩

/-! ## the filter law -/

/-- A full queue takes nothing from a time stamped CANAL frame. -/
theorem actOnReceived_full (h : rx.Holds x (payloadFrame x .canalTimestamp channel seq []))
    (hfull : d.room = 0) : (actOnReceived x d rx).receiveList = d.receiveList := by
  have hfull' : (d.touch x).room = 0 := hfull
  rw [h.actOnReceived, payloadFrame, dispatch_canalTimestamp, canalTimestampFrame_full hfull']
  rfl

section
variable (hext : x.CANAL_IDFLAG_EXTENDED ≠ 0) (hrtr : x.CANAL_IDFLAG_RTR ≠ 0)
include hext hrtr

theorem queuesLawful_canal {L : List (RawSubFrame 4)}
    (hfits : (RawSubFrame.encode L).length + 6 ≤ bufferMsgRcvSize)
    (h : rx.Holds x (payloadFrame x .canal channel seq (RawSubFrame.encode L)))
    (hroom : d.receiveList.length + L.length ≤ CAN4VSCP_MAX_RCVMSG) :
    QueuesLawful x d.filter d.mask d (actOnReceived x d rx) L ↔
      FiltersLawful x .canal d.filter d.mask rx.bufferMsgRcv d.room L := by
  rw [queuesLawful_of_unfiltered (unfiltered_canal hfits h d) (few_of_fits (by decide) hfits) hroom]
  cases L with
  | nil => exact iff_of_true rfl trivial
  | cons f L =>
      have hpayload := (h.payload hfits).2
      have hid : (word29 5).run rx.bufferMsgRcv = f.id :=
        f.run_id (RawSubFrame.read_bytes (RawSubFrame.read_cons hpayload).1).1
      rw [hid]
      exact first_id_iff hext hrtr f L

theorem queuesLawful_multiFrameCanal {L : List (RawSubFrame 4)}
    (hfits : (RawSubFrame.encode L).length + 6 ≤ bufferMsgRcvSize)
    (h : rx.Holds x (payloadFrame x .multiFrameCanal channel seq (RawSubFrame.encode L)))
    (hroom : d.receiveList.length + L.length ≤ CAN4VSCP_MAX_RCVMSG) :
    QueuesLawful x d.filter d.mask d (actOnReceived x d rx) L ↔
      FiltersLawful x .multiFrameCanal d.filter d.mask rx.bufferMsgRcv d.room L := by
  rw [queuesLawful_of_unfiltered (unfiltered_multiFrameCanal hfits h d)
    (few_of_fits (by decide) hfits) hroom]
  exact own_ids_iff hext hrtr L

theorem queuesLawful_multiFrameCanalTimestamp {L : List (RawSubFrame 8)}
    (hfits : (RawSubFrame.encode L).length + 6 ≤ bufferMsgRcvSize)
    (h : rx.Holds x (payloadFrame x .multiFrameCanalTimestamp channel seq (RawSubFrame.encode L)))
    (hroom : d.receiveList.length + L.length ≤ CAN4VSCP_MAX_RCVMSG) :
    QueuesLawful x d.filter d.mask d (actOnReceived x d rx) L ↔
      FiltersLawful x .multiFrameCanalTimestamp d.filter d.mask rx.bufferMsgRcv d.room L := by
  rw [queuesLawful_of_unfiltered (unfiltered_multiFrameCanalTimestamp hfits h d)
    (few_of_fits (by decide) hfits) hroom]
  exact own_ids_iff hext hrtr L

theorem queuesLawful_canalTimestamp {L : List (RawSubFrame 8)}
    (hfits : (RawSubFrame.encode L).length + 6 ≤ bufferMsgRcvSize)
    (h : rx.Holds x (payloadFrame x .canalTimestamp channel seq (RawSubFrame.encode L)))
    (hroom : d.receiveList.length + L.length ≤ CAN4VSCP_MAX_RCVMSG) :
    QueuesLawful x d.filter d.mask d (actOnReceived x d rx) L ↔
      FiltersLawful x .canalTimestamp d.filter d.mask rx.bufferMsgRcv d.room L := by
  cases L with
  | cons f L =>
      have hone : d.receiveList.length + [f].length ≤ CAN4VSCP_MAX_RCVMSG := by
        simp only [List.length_cons, List.length_nil] at hroom ⊢
        omega
      rw [queuesLawful_of_unfiltered (unfiltered_canalTimestamp hfits h d)
        (by decide : 1 < CAN4VSCP_MAX_RCVMSG) hone]
      exact one_taken_iff hext hrtr f L
  | nil =>
      by_cases hfull : d.room = 0
      · have hsame := actOnReceived_full h hfull
        exact iff_of_true ⟨[], by rw [hsame, List.append_nil], rfl⟩ (.inl hfull)
      · obtain ⟨msg, hus, hid⟩ := unfiltered_canalTimestamp_nil h d
        have hroom : RoomFor d (unfilteredMsgs x d rx) := by
          rw [hus]
          refine ⟨(by decide : 1 < CAN4VSCP_MAX_RCVMSG), ?_⟩
          rw [List.length_singleton]
          unfold Driver.room at hfull
          omega
        have hreceived := received_filter hroom
        have hno : FiltersLawful x .canalTimestamp d.filter d.mask rx.bufferMsgRcv d.room
            ([] : List (RawSubFrame 8)) ↔ ¬ DecimalMatch d.filter d.mask msg.id := by
          rw [hid]
          exact or_iff_right hfull
        rw [hus] at hreceived
        rw [queuesLawful_iff hreceived rfl, hno, DecimalMatch, ← doFilter_iff hext hrtr]
        exact List.filter_eq_nil_iff.trans List.forall_mem_singleton

end

/-- **The filter law**: a verdict is right if and only if the bits of the decimal numbers
make no difference; and of the messages in a frame with room in the queue those that meet
the law are queued, and no others, if and only if the frame is as `FiltersLawful` says. -/
theorem filter_law_iff (hext : x.CANAL_IDFLAG_EXTENDED ≠ 0) (hrtr : x.CANAL_IDFLAG_RTR ≠ 0)
    (d : Driver) (filter mask : UInt32) :
    let d' := (d.setFilter filter).setMask mask
    (∀ msg, (doFilter x d'.filter d'.mask msg = true ↔ FilterLaw x filter mask msg) ↔
      FilterIndifferent x filter mask msg) ∧
    ∀ (t : CanalFrame) (L : List (RawSubFrame t.header)) (rx : RxState) (channel seq : UInt8),
      (RawSubFrame.encode L).length + 6 ≤ bufferMsgRcvSize →
      rx.Holds x (payloadFrame x t.type channel seq (RawSubFrame.encode L)) →
      d'.receiveList.length + L.length ≤ CAN4VSCP_MAX_RCVMSG →
      (QueuesLawful x filter mask d' (actOnReceived x d' rx) L ↔
        FiltersLawful x t filter mask rx.bufferMsgRcv d'.room L) := by
  intro d'
  refine ⟨doFilter_law_iff hext hrtr filter mask, fun t L rx channel seq hfits h hroom => ?_⟩
  cases t with
  | canal => exact queuesLawful_canal (d := d') hext hrtr hfits h hroom
  | canalTimestamp => exact queuesLawful_canalTimestamp (d := d') hext hrtr hfits h hroom
  | multiFrameCanal => exact queuesLawful_multiFrameCanal (d := d') hext hrtr hfits h hroom
  | multiFrameCanalTimestamp =>
      exact queuesLawful_multiFrameCanalTimestamp (d := d') hext hrtr hfits h hroom

/-- The sub-frames with the ids 5 and 6. -/
def rawTwoIds : List (RawSubFrame 4) := twoIds.map SubFrame.toRaw

/-- The filter 5 with the mask 7 lets the id 5 of a multi-frame through and stops the id 6,
as it should; the filter 0 with the mask 1 stops the id 6 of a CANAL frame, which it should
not. -/
theorem filter_law_iff_twoIds :
    (let d := (Driver.new.setFilter 5).setMask 7
    QueuesLawful External.vscp 5 7 d
      (actOnReceived External.vscp d (receivedTwoIds .multiFrameCanal)) rawTwoIds) ∧
    (let d := (Driver.new.setFilter 0).setMask 1
    ¬ QueuesLawful External.vscp 0 1 d
      (actOnReceived External.vscp d (receivedTwoIds .canal)) rawTwoIds) := by
  have hext : External.vscp.CANAL_IDFLAG_EXTENDED ≠ 0 := by decide
  have hrtr : External.vscp.CANAL_IDFLAG_RTR ≠ 0 := by decide
  constructor
  · have hlawful : FiltersLawful External.vscp .multiFrameCanal 5 7
        (receivedTwoIds .multiFrameCanal).bufferMsgRcv 4096 rawTwoIds := by decide +kernel
    exact ((filter_law_iff hext hrtr Driver.new 5 7).2 .multiFrameCanal rawTwoIds _ 0 0 (by decide)
      holds_twoIds_multiFrameCanal (by decide)).mpr hlawful
  · have hlawful : ¬ FiltersLawful External.vscp .canal 0 1 (receivedTwoIds .canal).bufferMsgRcv
        4096 rawTwoIds := by decide +kernel
    exact mt ((filter_law_iff hext hrtr Driver.new 0 1).2 .canal rawTwoIds _ 0 0 (by decide)
      holds_twoIds_canal (by decide)).mp hlawful

/-- A new driver that should only let the id 5 through. -/
def onlyFive : Driver := (Driver.new.setFilter 5).setMask 0x1fffffff

/-- A multi-frame with the ids 5 and 6 comes in, and neither message is queued. -/
theorem filter_rejects_five :
    FilterLaw External.vscp 5 0x1fffffff ⟨1, 0, 5, 2, [1, 2], 0⟩ ∧
      doFilter External.vscp 5 0x1fffffff ⟨1, 0, 5, 2, [1, 2], 0⟩ = false ∧
      (subMsgs External.vscp rawTwoIds).head? = some ⟨1, 0, 5, 2, [1, 2], 0⟩ ∧
      (receivedTwoIds .multiFrameCanal).Holds External.vscp
        (payloadFrame External.vscp .multiFrameCanal 0 0 (RawSubFrame.encode rawTwoIds)) ∧
      ¬ QueuesLawful External.vscp 5 0x1fffffff onlyFive
        (actOnReceived External.vscp onlyFive (receivedTwoIds .multiFrameCanal)) rawTwoIds := by
  refine ⟨by decide +kernel, by decide, by decide, holds_twoIds_multiFrameCanal, ?_⟩
  have hnone : (actOnReceived External.vscp onlyFive (receivedTwoIds .multiFrameCanal)).receiveList =
      onlyFive.receiveList := by decide +kernel
  rintro ⟨ms, hms, hlawful⟩
  have hnil : ms = [] := List.append_cancel_left ((hms.symm.trans hnone).trans (List.append_nil _).symm)
  rw [hnil] at hlawful
  revert hlawful
  decide +kernel

end Can4vscp
