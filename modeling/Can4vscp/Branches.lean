import Can4vscp.SubFrames

/-!
# Can4vscp.Branches

The two branches of `readSerialData` for a payload of sub-frames.

The multi-frame branch scans the sub-frames, whatever is in the queue
(`multiFrameCanal_scans`).  The CANAL branch reads every id at the start of the
payload, so it gives all sub-frames the id of the first one; `branches_agree_iff`
says when that makes no difference.
-/

namespace Can4vscp

open Memory ReadProgram

variable {x : External} {rx rx' : RxState} {L : List SubFrame} {channel seq channel' seq' : UInt8}

/-! ## the multi-frame branch -/

theorem actOnReceived_multiFrameCanal (hfits : SubFrame.Fits L)
    (h : rx.Holds x (SubFrame.frame x .multiFrameCanal channel seq L)) (d : Driver) :
    actOnReceived x d rx = L.foldl (fun d f => d.takeSub x f.id f) (d.touch x) := by
  obtain ⟨hsize, hpayload⟩ := h.subFrames hfits
  rw [h.actOnReceived, SubFrame.frame, dispatch_multiFrameCanal, multiFrameCanal, run_bind, hsize]
  exact run_multiLoop _ hpayload (SubFrame.length_le_encode L)

/-- What the multi-frame branch queues and drops. -/
theorem received_multiFrameCanal (hfits : SubFrame.Fits L)
    (h : rx.Holds x (SubFrame.frame x .multiFrameCanal channel seq L)) (d : Driver) :
    ∃ ms, Shows x SubFrame.id ms (scan (SubFrame.accepted x d.filter d.mask SubFrame.id) d.room L).1 ∧
      d.Received (actOnReceived x d rx) ms
        (scan (SubFrame.accepted x d.filter d.mask SubFrame.id) d.room L).2 := by
  obtain ⟨ms, hshows, hreceived⟩ := foldl_takeSub (x := x) SubFrame.id (d.touch x) L
  rw [actOnReceived_multiFrameCanal hfits h]
  have htrans := (Driver.received_touch d).trans hreceived
  rw [List.nil_append, Nat.zero_add] at htrans
  exact ⟨ms, hshows, htrans⟩

/-- **Multi-frames are scanned**: the loop ends after as many passes as there are
sub-frames; from left to right, each one is dropped and counted if the receive
queue is full, and else queued and counted if the filter accepts it. -/
theorem multiFrameCanal_scans (hfits : SubFrame.Fits L)
    (h : rx.Holds x (SubFrame.frame x .multiFrameCanal channel seq L)) (d : Driver) :
    (∀ fuel, L.length ≤ fuel →
      (multiLoop x fuel 5 (SubFrame.encode L).length (d.touch x)).run rx.bufferMsgRcv =
        actOnReceived x d rx) ∧
    ∃ ms, Shows x SubFrame.id ms (scan (SubFrame.accepted x d.filter d.mask SubFrame.id) d.room L).1 ∧
      d.Received (actOnReceived x d rx) ms
        (scan (SubFrame.accepted x d.filter d.mask SubFrame.id) d.room L).2 := by
  refine ⟨fun fuel hfuel => ?_, received_multiFrameCanal hfits h d⟩
  rw [actOnReceived_multiFrameCanal hfits h]
  exact run_multiLoop _ (h.subFrames hfits).2 hfuel

/-- Two sub-frames with different ids. -/
def twoIds : List SubFrame := [⟨5, [1, 2], by decide, by decide⟩, ⟨6, [3], by decide, by decide⟩]

/-- What a new receive machine makes of a frame with these sub-frames. -/
def receivedTwoIds (t : FrameType) : RxState :=
  (serialData2StateMachine RxState.new
    ((Frame.encode crc8Update (SubFrame.frame External.vscp t 0 0 twoIds)).map ReadChar.byte)).1

theorem holds_twoIds_multiFrameCanal :
    (receivedTwoIds .multiFrameCanal).Holds External.vscp
      (SubFrame.frame External.vscp .multiFrameCanal 0 0 twoIds) :=
  RxState.holds_of_content (by decide +kernel) (by decide) (by decide +kernel)

theorem multiFrameCanal_scans_twoIds :
    (∀ fuel, twoIds.length ≤ fuel →
      (multiLoop External.vscp fuel 5 (SubFrame.encode twoIds).length
          (Driver.new.touch External.vscp)).run (receivedTwoIds .multiFrameCanal).bufferMsgRcv =
        actOnReceived External.vscp Driver.new (receivedTwoIds .multiFrameCanal)) ∧
    ∃ ms, Shows External.vscp SubFrame.id ms
        (scan (SubFrame.accepted External.vscp 0 0 SubFrame.id) Driver.new.room twoIds).1 ∧
      Driver.new.Received (actOnReceived External.vscp Driver.new (receivedTwoIds .multiFrameCanal))
        ms (scan (SubFrame.accepted External.vscp 0 0 SubFrame.id) Driver.new.room twoIds).2 :=
  multiFrameCanal_scans (by decide) holds_twoIds_multiFrameCanal Driver.new

/-! ## the CANAL branch -/

/-- The id at the start of a payload. -/
def firstId : List SubFrame → UInt32
  | [] => 0
  | f :: _ => f.id

theorem actOnReceived_canal (hfits : SubFrame.Fits L)
    (h : rx.Holds x (SubFrame.frame x .canal channel seq L)) (d : Driver) :
    actOnReceived x d rx = L.foldl (fun d f => d.takeSub x (firstId L) f) (d.touch x) := by
  obtain ⟨hsize, hpayload⟩ := h.subFrames hfits
  rw [h.actOnReceived, SubFrame.frame, dispatch_canal, canalFrame, run_bind, hsize]
  cases L with
  | nil => rfl
  | cons f L =>
      have hid := (SubFrame.read_bytes (SubFrame.read_cons hpayload).1).1
      exact run_guardedLoop_canal _ (run_word29 hid f.id_lt) hpayload (SubFrame.length_le_encode _)

/-- What the CANAL branch queues and drops. -/
theorem received_canal (hfits : SubFrame.Fits L)
    (h : rx.Holds x (SubFrame.frame x .canal channel seq L)) (d : Driver) :
    ∃ ms, Shows x (fun _ => firstId L) ms
        (scan (SubFrame.accepted x d.filter d.mask fun _ => firstId L) d.room L).1 ∧
      d.Received (actOnReceived x d rx) ms
        (scan (SubFrame.accepted x d.filter d.mask fun _ => firstId L) d.room L).2 := by
  obtain ⟨ms, hshows, hreceived⟩ := foldl_takeSub (x := x) (fun _ => firstId L) (d.touch x) L
  rw [actOnReceived_canal hfits h]
  have htrans := (Driver.received_touch d).trans hreceived
  rw [List.nil_append, Nat.zero_add] at htrans
  exact ⟨ms, hshows, htrans⟩

/-! ## agreement -/

/-- A message but for its time stamp. -/
def CanalMsg.untimed (m : CanalMsg) : CanalMsg := { m with timestamp := 0 }

/-- From one driver, two results with the same messages queued, time stamps aside,
and the same counts. -/
structure Agree (d d₁ d₂ : Driver) : Prop where
  receiveList : ∃ ms₁ ms₂, d₁.receiveList = d.receiveList ++ ms₁ ∧
    d₂.receiveList = d.receiveList ++ ms₂ ∧ ms₁.map CanalMsg.untimed = ms₂.map CanalMsg.untimed
  cntReceiveFrames : d₁.stat.cntReceiveFrames = d₂.stat.cntReceiveFrames
  cntReceiveData : d₁.stat.cntReceiveData = d₂.stat.cntReceiveData
  cntOverruns : d₁.stat.cntOverruns = d₂.stat.cntOverruns

theorem Agree.map_untimed {d d₁ d₂ : Driver} (h : Agree d d₁ d₂) :
    d₁.receiveList.map CanalMsg.untimed = d₂.receiveList.map CanalMsg.untimed := by
  obtain ⟨ms₁, ms₂, h₁, h₂, heq⟩ := h.receiveList
  rw [h₁, h₂, List.map_append, List.map_append, heq]

theorem agree_iff {d d₁ d₂ : Driver} {ms₁ ms₂ : List CanalMsg} {k₁ k₂ : Nat}
    (h₁ : d.Received d₁ ms₁ k₁) (h₂ : d.Received d₂ ms₂ k₂) :
    Agree d d₁ d₂ ↔ ms₁.map CanalMsg.untimed = ms₂.map CanalMsg.untimed ∧ k₁ = k₂ := by
  constructor
  · intro h
    obtain ⟨ns₁, ns₂, hl₁, hl₂, heq⟩ := h.receiveList
    have hns₁ : ns₁ = ms₁ := List.append_cancel_left (hl₁.symm.trans h₁.receiveList)
    have hns₂ : ns₂ = ms₂ := List.append_cancel_left (hl₂.symm.trans h₂.receiveList)
    have hover := h.cntOverruns
    rw [h₁.cntOverruns, h₂.cntOverruns] at hover
    exact ⟨hns₁ ▸ hns₂ ▸ heq, by omega⟩
  · rintro ⟨heq, hk⟩
    have hlen : ms₁.length = ms₂.length := by simpa using congrArg List.length heq
    have hdata : (ms₁.map fun m => m.sizeData.toNat) = ms₂.map fun m => m.sizeData.toNat := by
      have := congrArg (List.map fun m => m.sizeData.toNat) heq
      rwa [List.map_map, List.map_map] at this
    exact {
      receiveList := ⟨ms₁, ms₂, h₁.receiveList, h₂.receiveList, heq⟩
      cntReceiveFrames := by rw [h₁.cntReceiveFrames, h₂.cntReceiveFrames, hlen]
      cntReceiveData := by rw [h₁.cntReceiveData, h₂.cntReceiveData, hdata]
      cntOverruns := by rw [h₁.cntOverruns, h₂.cntOverruns, hk] }

theorem Shows.untimed {idOf : SubFrame → UInt32} {ms : List CanalMsg} (h : Shows x idOf ms L) :
    ms.map CanalMsg.untimed = L.map fun f => f.msg x (idOf f) 0 := by
  induction h with
  | nil => rfl
  | cons hm _ ih =>
      obtain ⟨timestamp, rfl⟩ := hm
      rw [List.map_cons, List.map_cons, ih]
      rfl

/-- Messages of the same sub-frames are the same if and only if the ids are. -/
theorem msgs_eq_iff {id : UInt32} :
    (L.map fun f => f.msg x id 0) = (L.map fun f => f.msg x f.id 0) ↔ ∀ f ∈ L, f.id = id := by
  rw [List.map_inj_left]
  simp only [SubFrame.msg, CanalMsg.mk.injEq, true_and, and_true, eq_comm]

variable (x)

/-- Whether it makes no difference that the CANAL branch gives every sub-frame the
id of the first one. -/
def SameVerdicts (d : Driver) : List SubFrame → Prop
  | [] => True
  | f :: L =>
    if f.accepted x d.filter d.mask SubFrame.id then ∀ g ∈ (f :: L).take d.room, g.id = f.id
    else d.room = 0 ∨ ∀ g ∈ f :: L, g.accepted x d.filter d.mask SubFrame.id = false

variable {x}

section
variable {filter mask : UInt32} {room : Nat} {f : SubFrame}

theorem accepted_id (f g : SubFrame) (h : g.id = f.id) :
    g.accepted x filter mask SubFrame.id = f.accepted x filter mask SubFrame.id := by
  rw [SubFrame.accepted, SubFrame.accepted, h]
  rfl

/-- The CANAL branch queues what there is room for; the other branch does so too if
and only if the ids are the same. -/
theorem agree_of_accepted (hfirst : f.accepted x filter mask SubFrame.id = true) :
    ((scan (SubFrame.accepted x filter mask fun _ => f.id) room (f :: L)).1.map
          (fun g => g.msg x f.id 0) =
        (scan (SubFrame.accepted x filter mask SubFrame.id) room (f :: L)).1.map
          (fun g => g.msg x g.id 0) ∧
      (scan (SubFrame.accepted x filter mask fun _ => f.id) room (f :: L)).2 =
        (scan (SubFrame.accepted x filter mask SubFrame.id) room (f :: L)).2) ↔
      ∀ g ∈ (f :: L).take room, g.id = f.id := by
  have hcanal : scan (SubFrame.accepted x filter mask fun _ => f.id) room (f :: L) =
      ((f :: L).take room, (f :: L).length - room) := scan_eq_take fun _ _ => hfirst
  rw [hcanal]
  constructor
  · rintro ⟨hmsgs, hover⟩
    have hlen := congrArg List.length hmsgs
    rw [List.length_map, List.length_map, List.length_take] at hlen
    rw [scan_fst_of_length (by simp only at hover; omega)] at hmsgs
    exact msgs_eq_iff.mp hmsgs
  · intro hids
    have hmulti : scan (SubFrame.accepted x filter mask SubFrame.id) room (f :: L) =
        ((f :: L).take room, (f :: L).length - room) :=
      scan_eq_take fun g hg => (accepted_id f g (hids g hg)).trans hfirst
    rw [hmulti]
    exact ⟨msgs_eq_iff.mpr hids, rfl⟩

/-- The CANAL branch queues nothing, and drops everything if the queue is full; the
other branch does so too if and only if it queues nothing. -/
theorem agree_of_rejected (hfirst : f.accepted x filter mask SubFrame.id = false) :
    ((scan (SubFrame.accepted x filter mask fun _ => f.id) room (f :: L)).1.map
          (fun g => g.msg x f.id 0) =
        (scan (SubFrame.accepted x filter mask SubFrame.id) room (f :: L)).1.map
          (fun g => g.msg x g.id 0) ∧
      (scan (SubFrame.accepted x filter mask fun _ => f.id) room (f :: L)).2 =
        (scan (SubFrame.accepted x filter mask SubFrame.id) room (f :: L)).2) ↔
      room = 0 ∨ ∀ g ∈ f :: L, g.accepted x filter mask SubFrame.id = false := by
  cases room with
  | zero => simp [scan_full]
  | succ room =>
      have hcanal : scan (SubFrame.accepted x filter mask fun _ => f.id) (room + 1) (f :: L) =
          ([], 0) := scan_eq_nil fun _ _ => hfirst
      rw [hcanal]
      constructor
      · rintro ⟨hmsgs, -⟩
        exact .inr (rejected_of_scan (List.map_eq_nil_iff.mp hmsgs.symm))
      · rintro (hroom | hall)
        · cases hroom
        · rw [scan_eq_nil hall]
          exact ⟨rfl, rfl⟩

end

/-- **The branches agree exactly then**: if the filter accepts the first sub-frame,
when the sub-frames the queue has room for all have the id of the first one; if
it rejects the first, when it rejects all of them, or the queue is full. -/
theorem branches_agree_iff (hfits : SubFrame.Fits L)
    (h : rx.Holds x (SubFrame.frame x .canal channel seq L))
    (h' : rx'.Holds x (SubFrame.frame x .multiFrameCanal channel' seq' L)) (d : Driver) :
    Agree d (actOnReceived x d rx) (actOnReceived x d rx') ↔ SameVerdicts x d L := by
  obtain ⟨ms₁, hshows₁, h₁⟩ := received_canal hfits h d
  obtain ⟨ms₂, hshows₂, h₂⟩ := received_multiFrameCanal hfits h' d
  rw [agree_iff h₁ h₂, hshows₁.untimed, hshows₂.untimed]
  cases L with
  | nil => simp [SameVerdicts]
  | cons f L =>
      cases hfirst : f.accepted x d.filter d.mask SubFrame.id with
      | true =>
          rw [SameVerdicts, if_pos hfirst]
          exact agree_of_accepted hfirst
      | false =>
          rw [SameVerdicts, if_neg (by simp [hfirst])]
          exact agree_of_rejected hfirst

theorem holds_twoIds_canal :
    (receivedTwoIds .canal).Holds External.vscp
      (SubFrame.frame External.vscp .canal 0 0 twoIds) :=
  RxState.holds_of_content (by decide +kernel) (by decide) (by decide +kernel)

theorem branches_agree_iff_twoIds :
    Agree Driver.new (actOnReceived External.vscp Driver.new (receivedTwoIds .canal))
        (actOnReceived External.vscp Driver.new (receivedTwoIds .multiFrameCanal)) ↔
      SameVerdicts External.vscp Driver.new twoIds :=
  branches_agree_iff (by decide) holds_twoIds_canal holds_twoIds_multiFrameCanal Driver.new

/-- A new driver that gets a CANAL frame with the ids 5 and 6 queues two messages
with the id 5. -/
theorem branches_disagree_twoIds :
    (receivedTwoIds .canal).Holds External.vscp (SubFrame.frame External.vscp .canal 0 0 twoIds) ∧
      (receivedTwoIds .multiFrameCanal).Holds External.vscp
        (SubFrame.frame External.vscp .multiFrameCanal 0 0 twoIds) ∧
      ¬ Agree Driver.new (actOnReceived External.vscp Driver.new (receivedTwoIds .canal))
        (actOnReceived External.vscp Driver.new (receivedTwoIds .multiFrameCanal)) := by
  refine ⟨holds_twoIds_canal, holds_twoIds_multiFrameCanal, fun h => ?_⟩
  have hids := congrArg (List.map CanalMsg.id) h.map_untimed
  revert hids
  decide +kernel

end Can4vscp
