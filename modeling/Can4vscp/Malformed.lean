import Can4vscp.RawFrames

/-!
# Can4vscp.Malformed

Payloads that are not a list of sub-frames.

The complete sub-frames at the front of a payload are the ones to be queued; what is
left of it, the tail, is to queue nothing.  `queues_iff` says when it is so, for each of
the four frame types that carry CANAL messages and whatever bytes the payload has: the
loops compare what is left with zero only, so of the four paths none knows a sub-frame
that is cut off, and the one without a loop looks at no size at all.
-/

namespace Can4vscp

open Memory ReadProgram Records

variable (x : External)

/-! ## the frame types -/

/-- The frames that carry CANAL messages. -/
inductive CanalFrame where
  | canal
  | canalTimestamp
  | multiFrameCanal
  | multiFrameCanalTimestamp
  deriving DecidableEq, Repr

namespace CanalFrame

def type : CanalFrame → FrameType
  | canal => .canal
  | canalTimestamp => .canalTimestamp
  | multiFrameCanal => .multiFrameCanal
  | multiFrameCanalTimestamp => .multiFrameCanalTimestamp

/-- The sub-frames have a time stamp. -/
def stamped : CanalFrame → Bool
  | canal | multiFrameCanal => false
  | canalTimestamp | multiFrameCanalTimestamp => true

/-- The bytes of a sub-frame before its dlc. -/
def header (t : CanalFrame) : Nat := if t.stamped then 8 else 4

end CanalFrame

section
variable {k : Nat}

/-- A message is that of a sub-frame: it has its id, its dlc, its data and, if it has one,
its time stamp. -/
def RawSubFrame.IsMsg (stamped : Bool) (msg : CanalMsg) (f : RawSubFrame k) : Prop :=
  ∃ timestamp, msg = f.msg x f.id timestamp ∧ (stamped = true → timestamp = f.timestamp)

/-- From `d` to `d'` the messages of the sub-frames are queued, in order, and no others. -/
def Queues (stamped : Bool) (d d' : Driver) (L : List (RawSubFrame k)) : Prop :=
  ∃ ms, d'.receiveList = d.receiveList ++ ms ∧ List.Forall₂ (RawSubFrame.IsMsg x stamped) ms L

/-- What it takes for a branch to queue the sub-frames of a payload and nothing else. -/
def Clean (t : CanalFrame) (m : Mem UInt8) (room : Nat) (L : List (RawSubFrame k))
    (tail : List UInt8) : Prop :=
  match t with
  | .canal =>
    (tail = [] ∨ 8 < nextDlc m L ∨ room = L.length) ∧ ∀ f ∈ L, ∀ g ∈ L, f.id = g.id
  | .canalTimestamp => room = 0 ∨ L.length = 1 ∧ ∀ f ∈ L, f.timestamp < 0x20000000
  | .multiFrameCanal => tail = [] ∨ room = L.length
  | .multiFrameCanalTimestamp =>
    (tail = [] ∨ 8 < nextDlc m L ∨ room = L.length) ∧ ∀ f ∈ L, f.timestamp < 0x20000000

instance (t : CanalFrame) (m : Mem UInt8) (room : Nat) (L : List (RawSubFrame k))
    (tail : List UInt8) : Decidable (Clean t m room L tail) := by
  cases t <;> unfold Clean <;> infer_instance

end

variable {x} {m : Mem UInt8} {k : Nat} {d d' : Driver}

/-! ## what is queued -/

namespace RawSubFrame

theorem msg_eq_iff (f : RawSubFrame k) {id id' timestamp timestamp' : UInt32} :
    f.msg x id timestamp = f.msg x id' timestamp' ↔ id = id' ∧ timestamp = timestamp' := by
  simp [msg]

/-- The clock is read for a message without a time stamp. -/
theorem isMsg_clocked (f : RawSubFrame k) (id timestamp : UInt32) :
    f.IsMsg x false (f.msg x id timestamp) ↔ f.id = id := by
  simp [IsMsg, msg_eq_iff, eq_comm]

theorem isMsg_stamped (f : RawSubFrame k) :
    f.IsMsg x true (f.msg x f.id (f.timestamp &&& 0x1fffffff)) ↔ f.timestamp < 0x20000000 := by
  simp [IsMsg, msg_eq_iff, ← and_eq_self_iff, eq_comm]

end RawSubFrame

/-- Messages that each belong to a sub-frame. -/
theorem forall₂_isMsg_iff {R : CanalMsg → RawSubFrame k → Prop} {stamped : Bool}
    {Q : RawSubFrame k → Prop} (hR : ∀ msg f, R msg f → (f.IsMsg x stamped msg ↔ Q f))
    {ms : List CanalMsg} {L : List (RawSubFrame k)} (h : List.Forall₂ R ms L) :
    List.Forall₂ (RawSubFrame.IsMsg x stamped) ms L ↔ ∀ f ∈ L, Q f := by
  induction h with
  | nil => simp
  | cons hmsg h ih => simp [hR _ _ hmsg, ih]

theorem queues_iff_forall₂ {stamped : Bool} {ms : List CanalMsg} {L : List (RawSubFrame k)}
    {overruns : Nat} (h : d.Received d' ms overruns) :
    Queues x stamped d d' L ↔ List.Forall₂ (RawSubFrame.IsMsg x stamped) ms L := by
  constructor
  · rintro ⟨ms', hlist, hms'⟩
    obtain rfl : ms = ms' := List.append_cancel_left (h.receiveList.symm.trans hlist)
    exact hms'
  · exact fun hms => ⟨ms, h.receiveList, hms⟩

/-- Behind the messages of the sub-frames nothing more may be queued. -/
theorem queues_iff_of_received {R : CanalMsg → RawSubFrame k → Prop} {stamped : Bool}
    {ms extra : List CanalMsg} {L : List (RawSubFrame k)} {overruns : Nat}
    (hR : List.Forall₂ R ms L) (h : d.Received d' (ms ++ extra) overruns) :
    Queues x stamped d d' L ↔ extra = [] ∧ List.Forall₂ (RawSubFrame.IsMsg x stamped) ms L := by
  rw [queues_iff_forall₂ h]
  constructor
  · intro hms
    have hlen := hms.length_eq
    rw [List.length_append, hR.length_eq, Nat.add_eq_left, List.length_eq_zero_iff] at hlen
    rw [hlen, List.append_nil] at hms
    exact ⟨hlen, hms⟩
  · rintro ⟨rfl, hms⟩
    rwa [List.append_nil]

/-! ## the branches -/

variable {rx : RxState} {channel seq : UInt8} {p tail : List UInt8}

theorem queues_canal {L : List (RawSubFrame 4)} (hfits : p.length + 6 ≤ bufferMsgRcvSize)
    (h : rx.Holds x (payloadFrame x .canal channel seq p)) (hmask : d.mask = 0)
    (hsplit : Splits RawSubFrame.bytes p L tail) (hroom : L.length ≤ d.room) :
    Queues x false d (actOnReceived x d rx) L ↔ Clean .canal rx.bufferMsgRcv d.room L tail := by
  obtain ⟨hsize, hpayload⟩ := h.payload hfits
  obtain ⟨ms, extra, overruns, hR, hreceived, hquiet⟩ := guardedLoop_payload (d := d.touch x)
    (decodes_canal (x := x)) receives_canal hsplit hpayload hroom hmask
  have hrun : actOnReceived x d rx =
      (guardedLoop 5 (canalDecode x) p.length 5 p.length (d.touch x)).run rx.bufferMsgRcv := by
    rw [h.actOnReceived, payloadFrame, dispatch_canal, canalFrame, run_bind, hsize]
  have hone : (∀ f ∈ L, f.id = (word29 5).run rx.bufferMsgRcv) ↔ ∀ f ∈ L, ∀ g ∈ L, f.id = g.id := by
    cases L with
    | nil => simp
    | cons f L =>
        have hm : slice rx.bufferMsgRcv 5 (RawSubFrame.encode (f :: L)).length =
            RawSubFrame.encode (f :: L) := by
          have hp : p = RawSubFrame.encode (f :: L) ++ tail := hsplit.eq
          rw [hp, List.length_append] at hpayload
          exact (slice_eq_append _ 5 hpayload).1
        have hid : (word29 5).run rx.bufferMsgRcv = f.id :=
          f.run_id (RawSubFrame.read_bytes (RawSubFrame.read_cons hm).1).1
        rw [hid]
        constructor
        · exact fun hall g hg g' hg' => (hall g hg).trans (hall g' hg').symm
        · exact fun hall g hg => hall g hg f List.mem_cons_self
  rw [hrun, queues_iff_of_received hR ((Driver.received_touch d).trans hreceived), hquiet,
    forall₂_isMsg_iff (Q := fun f => f.id = (word29 5).run rx.bufferMsgRcv) ?_ hR, hone]
  · rfl
  · rintro msg f ⟨timestamp, rfl⟩
    exact f.isMsg_clocked _ timestamp

theorem queues_multiFrameCanal {L : List (RawSubFrame 4)}
    (hfits : p.length + 6 ≤ bufferMsgRcvSize)
    (h : rx.Holds x (payloadFrame x .multiFrameCanal channel seq p)) (hmask : d.mask = 0)
    (hsplit : Splits RawSubFrame.bytes p L tail) (hroom : L.length ≤ d.room) :
    Queues x false d (actOnReceived x d rx) L ↔
      Clean .multiFrameCanal rx.bufferMsgRcv d.room L tail := by
  obtain ⟨hsize, hpayload⟩ := h.payload hfits
  obtain ⟨ms, extra, overruns, hR, hreceived, hquiet⟩ := multiLoop_payload (d := d.touch x)
    (decodes_multi (x := x)) hsplit hpayload hroom hmask
  have hrun : actOnReceived x d rx =
      (multiLoop x p.length 5 p.length (d.touch x)).run rx.bufferMsgRcv := by
    rw [h.actOnReceived, payloadFrame, dispatch_multiFrameCanal, multiFrameCanal, run_bind, hsize]
  rw [hrun, queues_iff_of_received hR ((Driver.received_touch d).trans hreceived), hquiet,
    forall₂_isMsg_iff (Q := fun _ => True) ?_ hR]
  · simp only [implies_true, and_true]
    rfl
  · rintro msg f ⟨timestamp, rfl⟩
    simp [f.isMsg_clocked]

theorem queues_multiFrameCanalTimestamp {L : List (RawSubFrame 8)}
    (hfits : p.length + 6 ≤ bufferMsgRcvSize)
    (h : rx.Holds x (payloadFrame x .multiFrameCanalTimestamp channel seq p)) (hmask : d.mask = 0)
    (hsplit : Splits RawSubFrame.bytes p L tail) (hroom : L.length ≤ d.room) :
    Queues x true d (actOnReceived x d rx) L ↔
      Clean .multiFrameCanalTimestamp rx.bufferMsgRcv d.room L tail := by
  obtain ⟨hsize, hpayload⟩ := h.payload hfits
  obtain ⟨ms, extra, overruns, hR, hreceived, hquiet⟩ := guardedLoop_payload (d := d.touch x)
    (decodes_multiTimestamp (x := x)) receives_multiTimestamp hsplit hpayload hroom hmask
  have hrun : actOnReceived x d rx =
      (guardedLoop 9 (multiTimestampDecode x) p.length 5 p.length (d.touch x)).run
        rx.bufferMsgRcv := by
    rw [h.actOnReceived, payloadFrame, dispatch_multiFrameCanalTimestamp,
      multiFrameCanalTimestamp, run_bind, hsize]
  rw [hrun, queues_iff_of_received hR ((Driver.received_touch d).trans hreceived), hquiet,
    forall₂_isMsg_iff (Q := fun f => f.timestamp < 0x20000000) ?_ hR]
  · rfl
  · rintro msg f rfl
    exact f.isMsg_stamped

/-- The time stamped CANAL branch queues one message, whatever the payload is. -/
theorem received_canalTimestampFrame (hroom : 0 < d.room) (hmask : d.mask = 0) :
    ∃ msg, d.Received ((canalTimestampFrame x d).run m) [msg] 0 := by
  obtain ⟨decode, hdecode, heq⟩ := receives_canalTimestamp (x := x) (m := m)
  rw [heq, ifRoom, if_pos (d.hasRoom_iff.mpr hroom)]
  exact hdecode.received hmask

theorem canalTimestampFrame_full (hfull : d.room = 0) :
    canalTimestampFrame x d = pure d.overrun := by
  rw [canalTimestampFrame, ifRoom, if_neg (by simp [Driver.hasRoom_iff, hfull])]

theorem queues_canalTimestamp {L : List (RawSubFrame 8)} (hfits : p.length + 6 ≤ bufferMsgRcvSize)
    (h : rx.Holds x (payloadFrame x .canalTimestamp channel seq p)) (hmask : d.mask = 0)
    (hsplit : Splits RawSubFrame.bytes p L tail) (hroom : L.length ≤ d.room) :
    Queues x true d (actOnReceived x d rx) L ↔
      Clean .canalTimestamp rx.bufferMsgRcv d.room L tail := by
  have hpayload := (h.payload hfits).2
  have hp : p = RawSubFrame.encode L ++ tail := hsplit.eq
  rw [hp, List.length_append] at hpayload
  replace hpayload := (slice_eq_append _ 5 hpayload).1
  rw [h.actOnReceived, payloadFrame, dispatch_canalTimestamp]
  by_cases hfull : (d.touch x).room = 0
  · -- nothing can come, and nothing is to come
    have hL : L = [] := List.length_eq_zero_iff.mp (Nat.le_zero.mp (hfull ▸ hroom))
    have hdropped := (Driver.received_touch (x := x) d).trans (Driver.received_overrun (d.touch x))
    rw [canalTimestampFrame_full hfull, run_pure, queues_iff_forall₂ hdropped, hL]
    exact iff_of_true .nil (.inl hfull)
  · have hroom' : 0 < (d.touch x).room := Nat.pos_of_ne_zero hfull
    have hfull' : d.room ≠ 0 := hfull
    obtain ⟨msg, hreceived⟩ := received_canalTimestampFrame (m := rx.bufferMsgRcv) hroom' hmask
    cases L with
    | nil =>
        rw [queues_iff_forall₂ ((Driver.received_touch d).trans hreceived)]
        simp [Clean, hfull']
    | cons f L =>
        cases L with
        | nil =>
            have hone := (Driver.received_unmasked (x := x) (d := d.touch x) hmask
              (f.msg x f.id (f.timestamp &&& 0x1fffffff))).1
            rw [run_canalTimestampFrame (RawSubFrame.read_cons hpayload).1 hroom',
              queues_iff_forall₂ ((Driver.received_touch d).trans hone)]
            simp [Clean, hfull', f.isMsg_stamped]
        | cons g L =>
            rw [queues_iff_forall₂ ((Driver.received_touch d).trans hreceived)]
            simp [Clean, hfull']

/-! ## all four -/

/-- **When exactly the complete sub-frames are queued**: every payload splits in one way
into complete sub-frames and a tail, and a branch queues the messages of these sub-frames
and nothing else if and only if the payload is clean for it. -/
theorem queues_iff (hmask : d.mask = 0) (t : CanalFrame) (p : List UInt8)
    (hfits : p.length + 6 ≤ bufferMsgRcvSize)
    (h : rx.Holds x (payloadFrame x t.type channel seq p)) :
    (∃! s : List (RawSubFrame t.header) × List UInt8, Splits RawSubFrame.bytes p s.1 s.2) ∧
    ∀ (L : List (RawSubFrame t.header)) (tail : List UInt8), Splits RawSubFrame.bytes p L tail →
      L.length ≤ d.room →
      (Queues x t.stamped d (actOnReceived x d rx) L ↔ Clean t rx.bufferMsgRcv d.room L tail) := by
  refine ⟨RawSubFrame.exists_unique_splits t.header p, fun L tail hsplit hroom => ?_⟩
  cases t with
  | canal => exact queues_canal hfits h hmask hsplit hroom
  | canalTimestamp => exact queues_canalTimestamp hfits h hmask hsplit hroom
  | multiFrameCanal => exact queues_multiFrameCanal hfits h hmask hsplit hroom
  | multiFrameCanalTimestamp => exact queues_multiFrameCanalTimestamp hfits h hmask hsplit hroom

/-- An id, a dlc of 8 and two data bytes. -/
def cutOff : List UInt8 := idBytes 5 ++ [8, 1, 2]

theorem splits_cutOff : Splits (RawSubFrame.bytes (k := 4)) cutOff [] cutOff :=
  ⟨rfl, RawSubFrame.stops_iff.mpr (by decide)⟩

/-- A CANAL frame with this payload, received by a new machine. -/
def receivedCutOff : RxState := .after (payloadFrame External.vscp .canal 0 0 cutOff)

theorem holds_cutOff :
    receivedCutOff.Holds External.vscp
      (payloadFrame External.vscp .canal 0 0 cutOff) :=
  RxState.holds_of_content (by decide +kernel) (by decide) (by decide +kernel)

theorem queues_iff_cutOff :
    Queues External.vscp false Driver.new
        (actOnReceived External.vscp Driver.new receivedCutOff)
        ([] : List (RawSubFrame 4)) ↔
      Clean .canal receivedCutOff.bufferMsgRcv Driver.new.room
        ([] : List (RawSubFrame 4)) cutOff :=
  (queues_iff rfl .canal cutOff (by decide) holds_cutOff).2 [] cutOff splits_cutOff (by decide)

/-- The sub-frame that is cut off is queued, with data from behind the payload. -/
theorem cutOff_queued :
    receivedCutOff.Holds External.vscp
      (payloadFrame External.vscp .canal 0 0 cutOff) ∧
    Splits (RawSubFrame.bytes (k := 4)) cutOff [] cutOff ∧
    ¬ Queues External.vscp false Driver.new
        (actOnReceived External.vscp Driver.new receivedCutOff)
        ([] : List (RawSubFrame 4)) := by
  refine ⟨holds_cutOff, splits_cutOff, ?_⟩
  rintro ⟨ms, hlist, hms⟩
  rw [List.forall₂_nil_right_iff.mp hms] at hlist
  revert hlist
  decide +kernel

end Can4vscp
