import Can4vscp.RawFrames

/-!
# Can4vscp.Timestamps

Time stamped frames.

A time stamp is put together from its bytes with the masks of an id, so of its 32
bits 29 are left.  `timestamps_exact_iff` says when that makes no difference, for a
MULTI_FRAME_CANAL_TIMESTAMP frame of any number of sub-frames and for a
CANAL_TIMESTAMP frame of one.
-/

namespace Can4vscp

open Memory ReadProgram

variable (x : External)

/-! ## time stamped sub-frames -/

/-- A sub-frame with a time stamp. -/
structure TimedSubFrame extends SubFrame where
  timestamp : UInt32
  deriving DecidableEq, Repr

namespace TimedSubFrame

/-- A time stamped sub-frame in a payload. -/
def bytes (f : TimedSubFrame) : List UInt8 :=
  idBytes f.id ++ idBytes f.timestamp ++ [f.dlc] ++ f.data

/-- The payload of a list of time stamped sub-frames. -/
def encode (L : List TimedSubFrame) : List UInt8 := L.flatMap bytes

/-- The message of a sub-frame: its own id, its own time stamp, its dlc and its data. -/
def msg (f : TimedSubFrame) : CanalMsg :=
  ⟨x.CANAL_IDFLAG_EXTENDED, 0, f.id, f.dlc, f.data, f.timestamp⟩

/-- The message with what is left of the time stamp. -/
def cutMsg (f : TimedSubFrame) : CanalMsg :=
  ⟨x.CANAL_IDFLAG_EXTENDED, 0, f.id, f.dlc, f.data, f.timestamp &&& 0x1fffffff⟩

/-- A frame whose payload is a list of time stamped sub-frames. -/
def frame (t : FrameType) (channel seq : UInt8) (L : List TimedSubFrame) : Frame :=
  payloadFrame x t channel seq (encode L)

/-- The sub-frames fit the receive buffer, with the header and the CRC. -/
def Fits (L : List TimedSubFrame) : Prop := (encode L).length + 6 ≤ bufferMsgRcvSize

instance (L : List TimedSubFrame) : Decidable (Fits L) := inferInstanceAs (Decidable (_ ≤ _))

/-- The sub-frame with its header as bytes. -/
def toRaw (f : TimedSubFrame) : RawSubFrame 8 :=
  ⟨idBytes f.id ++ idBytes f.timestamp, f.data, rfl, f.length_le⟩

theorem toRaw_bytes (f : TimedSubFrame) : f.toRaw.bytes = f.bytes := rfl

theorem encode_toRaw (L : List TimedSubFrame) :
    RawSubFrame.encode (L.map toRaw) = encode L := by
  rw [RawSubFrame.encode, List.flatMap_map]
  rfl

theorem toRaw_id (f : TimedSubFrame) : f.toRaw.id = f.id := by
  have hword : f.toRaw.id = word (idBytes f.id) &&& 0x1fffffff := rfl
  rw [hword, word_idBytes, (and_eq_self_iff f.id).mpr f.id_lt]

theorem toRaw_timestamp (f : TimedSubFrame) : f.toRaw.timestamp = f.timestamp :=
  word_idBytes f.timestamp

/-- What the decode paths make of a sub-frame. -/
theorem toRaw_msg (f : TimedSubFrame) :
    f.toRaw.msg x f.toRaw.id (f.toRaw.timestamp &&& 0x1fffffff) = f.cutMsg x := by
  rw [toRaw_id, toRaw_timestamp]
  rfl

theorem cutMsg_eq_iff (f : TimedSubFrame) : f.cutMsg x = f.msg x ↔ f.timestamp < 0x20000000 := by
  simp [cutMsg, msg, and_eq_self_iff]

end TimedSubFrame

variable {x} {rx : RxState} {d : Driver} {channel seq : UInt8}

/-! ## the two branches -/

/-- The messages of a time stamped multi-frame. -/
theorem received_multiFrameCanalTimestamp {L : List TimedSubFrame} (hfits : TimedSubFrame.Fits L)
    (h : rx.Holds x (TimedSubFrame.frame x .multiFrameCanalTimestamp channel seq L))
    (hmask : d.mask = 0) (hroom : L.length ≤ d.room) :
    (actOnReceived x d rx).receiveList = d.receiveList ++ L.map (TimedSubFrame.cutMsg x) := by
  obtain ⟨hsize, hpayload⟩ := h.payload hfits
  rw [← TimedSubFrame.encode_toRaw] at hsize hpayload
  have hroom' : L.length ≤ (d.touch x).room := hroom
  obtain ⟨ms, extra, _, hR, hreceived, hquiet⟩ := guardedLoop_payload (d := d.touch x)
    (decodes_multiTimestamp (x := x)) receives_multiTimestamp
    (RawSubFrame.splits_encode (L.map TimedSubFrame.toRaw)) hpayload (by rwa [List.length_map]) hmask
  obtain rfl : extra = [] := hquiet.mpr (.inl rfl)
  have hms : ms = L.map (TimedSubFrame.cutMsg x) := by
    rw [List.forall₂_map_right_iff] at hR
    rw [← List.forall₂_eq_eq_eq, List.forall₂_map_right_iff]
    exact hR.imp fun m f hm => hm.trans (f.toRaw_msg x)
  rw [h.actOnReceived, TimedSubFrame.frame, payloadFrame, dispatch_multiFrameCanalTimestamp,
    multiFrameCanalTimestamp, run_bind, hsize, hreceived.receiveList, List.append_nil, hms]
  rfl

/-- The message of a time stamped CANAL frame. -/
theorem received_canalTimestamp {f : TimedSubFrame}
    (h : rx.Holds x (TimedSubFrame.frame x .canalTimestamp channel seq [f]))
    (hmask : d.mask = 0) (hroom : 0 < d.room) :
    (actOnReceived x d rx).receiveList = d.receiveList ++ [f.cutMsg x] := by
  have hfits : TimedSubFrame.Fits [f] := by
    have := f.length_le
    simp [TimedSubFrame.Fits, TimedSubFrame.encode, TimedSubFrame.bytes, bufferMsgRcvSize]
    omega
  have hpayload := (h.payload hfits).2
  rw [← TimedSubFrame.encode_toRaw] at hpayload
  have hroom' : 0 < (d.touch x).room := hroom
  have hreceived := (Driver.received_unmasked (x := x) (d := d.touch x) hmask (f.cutMsg x)).1
  rw [h.actOnReceived, TimedSubFrame.frame, payloadFrame, dispatch_canalTimestamp,
    run_canalTimestampFrame (f := f.toRaw) (by simpa using hpayload) hroom', f.toRaw_msg,
    hreceived.receiveList]
  rfl

/-- **The decode is exact for time stamps of 29 bits, and for no others**: of a
multi-frame of time stamped sub-frames, and of a CANAL frame with one, exactly their
messages are queued, in order, if and only if every time stamp is below 2^29. -/
theorem timestamps_exact_iff (hmask : d.mask = 0) :
    (∀ (L : List TimedSubFrame) (rx : RxState) (channel seq : UInt8), TimedSubFrame.Fits L →
      rx.Holds x (TimedSubFrame.frame x .multiFrameCanalTimestamp channel seq L) →
      L.length ≤ d.room →
      ((actOnReceived x d rx).receiveList = d.receiveList ++ L.map (TimedSubFrame.msg x) ↔
        ∀ f ∈ L, f.timestamp < 0x20000000)) ∧
    ∀ (f : TimedSubFrame) (rx : RxState) (channel seq : UInt8),
      rx.Holds x (TimedSubFrame.frame x .canalTimestamp channel seq [f]) → 0 < d.room →
      ((actOnReceived x d rx).receiveList = d.receiveList ++ [f.msg x] ↔
        f.timestamp < 0x20000000) := by
  constructor
  · intro L rx channel seq hfits h hroom
    rw [received_multiFrameCanalTimestamp hfits h hmask hroom, List.append_cancel_left_eq,
      List.map_inj_left]
    simp only [TimedSubFrame.cutMsg_eq_iff]
  · intro f rx channel seq h hroom
    rw [received_canalTimestamp h hmask hroom, List.append_cancel_left_eq, List.singleton_inj]
    exact f.cutMsg_eq_iff x

/-- Two sub-frames; the clock of the hardware has passed 2^29 before the second. -/
def twoStamps : List TimedSubFrame :=
  [⟨⟨7, [4, 5], by decide, by decide⟩, 0x1fffffff⟩, ⟨⟨8, [6], by decide, by decide⟩, 0x20000000⟩]

/-- A frame with these sub-frames, received by a new machine. -/
def receivedTwoStamps : RxState :=
  .after (TimedSubFrame.frame External.vscp .multiFrameCanalTimestamp 0 0 twoStamps)

theorem holds_twoStamps :
    receivedTwoStamps.Holds External.vscp
      (TimedSubFrame.frame External.vscp .multiFrameCanalTimestamp 0 0 twoStamps) :=
  RxState.holds_of_content (by decide +kernel) (by decide) (by decide +kernel)

theorem timestamps_exact_iff_twoStamps :
    (actOnReceived External.vscp Driver.new receivedTwoStamps).receiveList =
      Driver.new.receiveList ++ twoStamps.map (TimedSubFrame.msg External.vscp) ↔
    ∀ f ∈ twoStamps, f.timestamp < 0x20000000 :=
  (timestamps_exact_iff rfl).1 twoStamps _ 0 0 (by decide) holds_twoStamps (by decide)

/-- A new driver that gets a multi-frame with a time stamp of 2^29 does not queue it. -/
theorem timestamp_lost :
    receivedTwoStamps.Holds External.vscp
      (TimedSubFrame.frame External.vscp .multiFrameCanalTimestamp 0 0 twoStamps) ∧
    (actOnReceived External.vscp Driver.new receivedTwoStamps).receiveList ≠
      Driver.new.receiveList ++ twoStamps.map (TimedSubFrame.msg External.vscp) := by
  refine ⟨holds_twoStamps, ?_⟩
  decide +kernel

end Can4vscp
