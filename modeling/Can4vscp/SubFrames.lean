import Can4vscp.RawSubFrames
import Mathlib.Algebra.Ring.Nat

/-!
# Can4vscp.SubFrames

Frames that hold several messages.

The payload of a MULTI_FRAME_CANAL frame, and of a CANAL frame, is a list of
sub-frames: an id, a dlc and as many data bytes as the dlc says.  `scan` is what
becomes of such a list: from left to right, each sub-frame is dropped if the
receive queue is full, and else queued if it is accepted.  The two loops of
`readSerialData` come down to it (`run_multiLoop`, `run_guardedLoop_canal`), the second
one with the id of the first sub-frame for all of them.
-/

namespace Can4vscp

open Memory ReadProgram

variable (x : External)

/-! ## sub-frames -/

/-- An id of 29 bits and the data of a CAN frame. -/
structure SubFrame where
  id : UInt32
  data : List UInt8
  id_lt : id < 0x20000000
  length_le : data.length ≤ 8
  deriving DecidableEq, Repr

namespace SubFrame

def dlc (f : SubFrame) : UInt8 := UInt8.ofNat f.data.length

/-- A sub-frame in a payload. -/
def bytes (f : SubFrame) : List UInt8 := idBytes f.id ++ [f.dlc] ++ f.data

/-- The payload of a list of sub-frames. -/
def encode (L : List SubFrame) : List UInt8 := L.flatMap bytes

/-- The message of a sub-frame, under a given id. -/
def msg (f : SubFrame) (id timestamp : UInt32) : CanalMsg :=
  ⟨x.CANAL_IDFLAG_EXTENDED, 0, id, f.dlc, f.data, timestamp⟩

/-- The sub-frame with its id as bytes. -/
def toRaw (f : SubFrame) : RawSubFrame 4 := ⟨idBytes f.id, f.data, rfl, f.length_le⟩

theorem toRaw_bytes (f : SubFrame) : f.toRaw.bytes = f.bytes := rfl

theorem encode_toRaw (L : List SubFrame) : RawSubFrame.encode (L.map toRaw) = encode L := by
  rw [RawSubFrame.encode, List.flatMap_map]
  rfl

theorem dlc_toNat (f : SubFrame) : f.dlc.toNat = f.data.length := f.toRaw.dlc_toNat

theorem dlc_le (f : SubFrame) : f.dlc ≤ 8 := f.toRaw.dlc_le

@[simp] theorem encode_nil : encode [] = [] := rfl

@[simp] theorem encode_cons (f : SubFrame) (L : List SubFrame) : encode (f :: L) = f.bytes ++ encode L :=
  rfl

theorem length_le_encode (L : List SubFrame) : L.length ≤ (encode L).length := by
  have h := RawSubFrame.length_le_encode (L.map toRaw)
  rwa [List.length_map, encode_toRaw] at h

/-- A frame whose payload is a list of sub-frames. -/
def frame (t : FrameType) (channel seq : UInt8) (L : List SubFrame) : Frame :=
  ⟨x.code t, channel, seq, UInt16.ofNat (encode L).length, encode L⟩

/-- What a memory has where a list of sub-frames stands. -/
theorem read_cons {m : Mem UInt8} {pos : Nat} {f : SubFrame} {L : List SubFrame}
    (hm : slice m pos (encode (f :: L)).length = encode (f :: L)) :
    slice m pos f.bytes.length = f.bytes ∧
      slice m (pos + f.bytes.length) (encode L).length = encode L := by
  rw [encode_cons, List.length_append] at hm
  exact slice_eq_append m pos hm

/-- What it has where one stands. -/
theorem read_bytes {m : Mem UInt8} {pos : Nat} {f : SubFrame}
    (hm : slice m pos f.bytes.length = f.bytes) :
    slice m pos 4 = idBytes f.id ∧ m (pos + 4) = f.dlc ∧
      slice m (pos + 5) f.dlc.toNat = f.data :=
  RawSubFrame.read_bytes (f := f.toRaw) hm

end SubFrame

/-! ## the scan -/

/-- From left to right, with `room` places left in a queue: the elements that are
queued, and the number of those dropped because the queue was full. -/
def scan {α : Type} (accepts : α → Bool) : Nat → List α → List α × Nat
  | _, [] => ([], 0)
  | 0, _ :: L => ([], (scan accepts 0 L).2 + 1)
  | room + 1, f :: L =>
    if accepts f then (f :: (scan accepts room L).1, (scan accepts room L).2)
    else scan accepts (room + 1) L

section
variable {α : Type} {accepts : α → Bool} {room : Nat} {f : α} {L : List α}

@[simp] theorem scan_nil : scan accepts room [] = ([], 0) := by
  cases room <;> rfl

/-- A full queue drops everything. -/
theorem scan_full : scan accepts 0 L = ([], L.length) := by
  induction L with
  | nil => rfl
  | cons f L ih => rw [scan, ih, List.length_cons]

theorem scan_accepted (h : accepts f = true) :
    scan accepts (room + 1) (f :: L) = (f :: (scan accepts room L).1, (scan accepts room L).2) := by
  rw [scan, if_pos h]

theorem scan_rejected (h : accepts f = false) :
    scan accepts (room + 1) (f :: L) = scan accepts (room + 1) L := by
  rw [scan, if_neg (by simp [h])]

/-- If everything is accepted until the queue is full, the queue takes what it has
room for. -/
theorem scan_eq_take (h : ∀ f ∈ L.take room, accepts f = true) :
    scan accepts room L = (L.take room, L.length - room) := by
  induction L generalizing room with
  | nil => simp
  | cons f L ih =>
      cases room with
      | zero => simp [scan_full]
      | succ room =>
          rw [List.take_succ_cons] at h ⊢
          rw [scan_accepted (h f List.mem_cons_self), ih fun g hg => h g (List.mem_cons_of_mem f hg)]
          simp

theorem scan_eq_nil (h : ∀ f ∈ L, accepts f = false) : scan accepts (room + 1) L = ([], 0) := by
  induction L with
  | nil => simp
  | cons f L ih =>
      rw [scan_rejected (h f List.mem_cons_self)]
      exact ih fun g hg => h g (List.mem_cons_of_mem f hg)

/-- What is neither queued nor dropped has been rejected. -/
theorem length_scan_le :
    (scan accepts room L).1.length + (scan accepts room L).2 ≤ L.length := by
  induction L generalizing room with
  | nil => simp
  | cons f L ih =>
      cases room with
      | zero => simp [scan_full]
      | succ room =>
          cases hf : accepts f with
          | true =>
              have := @ih room
              simp only [scan_accepted hf, List.length_cons]
              omega
          | false =>
              have := @ih (room + 1)
              simp only [scan_rejected hf, List.length_cons]
              omega

/-- If nothing has been rejected, the queue has taken what it had room for. -/
theorem scan_fst_of_length
    (h : (scan accepts room L).1.length + (scan accepts room L).2 = L.length) :
    (scan accepts room L).1 = L.take room := by
  induction L generalizing room with
  | nil => simp
  | cons f L ih =>
      cases room with
      | zero => simp [scan_full]
      | succ room =>
          cases hf : accepts f with
          | true =>
              simp only [scan_accepted hf, List.length_cons] at h ⊢
              rw [ih (by omega), List.take_succ_cons]
          | false =>
              have hle : (scan accepts (room + 1) L).1.length + (scan accepts (room + 1) L).2 ≤ L.length :=
                length_scan_le
              simp only [scan_rejected hf, List.length_cons] at h
              omega

/-- If there was room and nothing has been queued, everything has been rejected. -/
theorem rejected_of_scan (h : (scan accepts (room + 1) L).1 = []) : ∀ f ∈ L, accepts f = false := by
  induction L with
  | nil => simp
  | cons f L ih =>
      cases hf : accepts f with
      | true => simp [scan_accepted hf] at h
      | false =>
          rw [scan_rejected hf] at h
          rintro g (_ | ⟨_, hg⟩)
          · exact hf
          · exact ih h g hg

end

/-! ## what the driver does with a sub-frame -/

namespace Driver

/-- Drop the sub-frame if the queue is full, else queue it if the filter accepts
it. -/
def takeSub (id : UInt32) (d : Driver) (f : SubFrame) : Driver :=
  if d.hasRoom then d.tick.receive x (f.msg x id (x.getClockMicroSeconds d.ticks)) else d.overrun

/-- The places left in the receive queue. -/
def room (d : Driver) : Nat := CAN4VSCP_MAX_RCVMSG - d.receiveList.length

/-- The driver has queued some messages and counted some overruns; its filter is
what it was. -/
structure Received (d d' : Driver) (ms : List CanalMsg) (overruns : Nat) : Prop where
  receiveList : d'.receiveList = d.receiveList ++ ms
  cntReceiveFrames : d'.stat.cntReceiveFrames = d.stat.cntReceiveFrames + ms.length
  cntReceiveData :
    d'.stat.cntReceiveData = d.stat.cntReceiveData + (ms.map fun m => m.sizeData.toNat).sum
  cntOverruns : d'.stat.cntOverruns = d.stat.cntOverruns + overruns
  filter : d'.filter = d.filter
  mask : d'.mask = d.mask

theorem hasRoom_iff (d : Driver) : d.hasRoom = true ↔ 0 < d.room := by
  simp [hasRoom, room]

theorem Received.room {d d' : Driver} {ms : List CanalMsg} {k : Nat} (h : d.Received d' ms k) :
    d'.room = d.room - ms.length := by
  rw [Driver.room, h.receiveList, List.length_append, Driver.room]
  omega

theorem Received.refl (d : Driver) : d.Received d [] 0 := by
  constructor <;> simp

theorem Received.trans {d e f : Driver} {ms ms' : List CanalMsg} {k k' : Nat}
    (h : d.Received e ms k) (h' : e.Received f ms' k') : d.Received f (ms ++ ms') (k + k') where
  receiveList := by rw [h'.receiveList, h.receiveList, List.append_assoc]
  cntReceiveFrames := by
    rw [h'.cntReceiveFrames, h.cntReceiveFrames, List.length_append]
    omega
  cntReceiveData := by
    rw [h'.cntReceiveData, h.cntReceiveData, List.map_append, List.sum_append]
    omega
  cntOverruns := by
    rw [h'.cntOverruns, h.cntOverruns]
    omega
  filter := h'.filter.trans h.filter
  mask := h'.mask.trans h.mask

variable {x}

theorem received_touch (d : Driver) : d.Received (d.touch x) [] 0 := by
  constructor <;> simp [touch]

theorem received_overrun (d : Driver) : d.Received d.overrun [] 1 := by
  constructor <;> simp [overrun]

/-- A message that is accepted is queued and counted. -/
theorem received_accepted {d : Driver} {m : CanalMsg} (h : doFilter x d.filter d.mask m = true) :
    d.Received (d.tick.receive x m) [m] 0 := by
  have htick : doFilter x d.tick.filter d.tick.mask m = true := h
  rw [receive, if_pos htick]
  constructor <;> simp [tick]

theorem received_rejected {d : Driver} {m : CanalMsg} (h : doFilter x d.filter d.mask m = false) :
    d.Received (d.tick.receive x m) [] 0 := by
  have htick : ¬ doFilter x d.tick.filter d.tick.mask m = true := by simp [tick, h]
  rw [receive, if_neg htick]
  constructor <;> simp [tick]

end Driver

/-- The verdict of the filter on a sub-frame under an id; the time stamp plays no
part. -/
def SubFrame.accepted (filter mask : UInt32) (idOf : SubFrame → UInt32) (f : SubFrame) : Bool :=
  doFilter x filter mask (f.msg x (idOf f) 0)

/-- The messages of some sub-frames, with time stamps of any value. -/
def Shows (idOf : SubFrame → UInt32) (ms : List CanalMsg) (L : List SubFrame) : Prop :=
  List.Forall₂ (fun m f => ∃ timestamp, m = SubFrame.msg x f (idOf f) timestamp) ms L

variable {x}

/-- **The driver scans a list of sub-frames**: what it queues and what it drops. -/
theorem foldl_takeSub (idOf : SubFrame → UInt32) (d : Driver) (L : List SubFrame) :
    ∃ ms, Shows x idOf ms (scan (SubFrame.accepted x d.filter d.mask idOf) d.room L).1 ∧
      d.Received (L.foldl (fun d f => d.takeSub x (idOf f) f) d) ms
        (scan (SubFrame.accepted x d.filter d.mask idOf) d.room L).2 := by
  induction L generalizing d with
  | nil => exact ⟨[], by simp [Shows], by simpa using Driver.Received.refl d⟩
  | cons f L ih =>
      rw [List.foldl_cons]
      cases hroom : d.room with
      | zero =>
          have hstep : d.takeSub x (idOf f) f = d.overrun := by
            rw [Driver.takeSub, if_neg (by simp [Driver.hasRoom_iff, hroom])]
          obtain ⟨ms, hshows, hreceived⟩ := ih d.overrun
          rw [hstep]
          have hfull : d.overrun.room = 0 := hroom
          rw [hfull, scan_full] at hshows hreceived
          refine ⟨ms, by simpa [scan_full] using hshows, ?_⟩
          rw [scan_full, List.length_cons, Nat.add_comm]
          exact (Driver.received_overrun d).trans hreceived
      | succ room =>
          have hstep : d.takeSub x (idOf f) f =
              d.tick.receive x (f.msg x (idOf f) (x.getClockMicroSeconds d.ticks)) := by
            rw [Driver.takeSub, if_pos (by simp [Driver.hasRoom_iff, hroom])]
          rw [hstep]
          obtain ⟨ms, hshows, hreceived⟩ :=
            ih (d.tick.receive x (f.msg x (idOf f) (x.getClockMicroSeconds d.ticks)))
          cases hverdict : f.accepted x d.filter d.mask idOf with
          | true =>
              have h1 := Driver.received_accepted (d := d)
                (m := f.msg x (idOf f) (x.getClockMicroSeconds d.ticks)) hverdict
              rw [h1.filter, h1.mask, h1.room, hroom] at hshows hreceived
              rw [scan_accepted hverdict]
              refine ⟨_, .cons ⟨x.getClockMicroSeconds d.ticks, rfl⟩ hshows, ?_⟩
              simpa using h1.trans hreceived
          | false =>
              have h1 := Driver.received_rejected (d := d)
                (m := f.msg x (idOf f) (x.getClockMicroSeconds d.ticks)) hverdict
              rw [h1.filter, h1.mask, h1.room, hroom] at hshows hreceived
              rw [scan_rejected hverdict]
              refine ⟨ms, hshows, ?_⟩
              simpa using h1.trans hreceived

/-! ## the loops -/

variable {m : Mem UInt8}

/-- Decode a message under an id that is already known. -/
theorem run_ifRoom {d : Driver} {f : SubFrame} {id : UInt32} {p : ReadProgram UInt8 Driver}
    (hp : p.run m = d.tick.receive x (f.msg x id (x.getClockMicroSeconds d.ticks))) :
    (ifRoom d p).run m = d.takeSub x id f := by
  unfold ifRoom Driver.takeSub
  split
  · exact hp
  · rfl

/-- The multi-frame loop scans the sub-frames, each under its own id, in as many
passes as there are sub-frames. -/
theorem run_multiLoop {L : List SubFrame} {pos fuel : Nat} (d : Driver)
    (hm : slice m pos (SubFrame.encode L).length = SubFrame.encode L) (hfuel : L.length ≤ fuel) :
    (multiLoop x fuel pos (SubFrame.encode L).length d).run m =
      L.foldl (fun d f => d.takeSub x f.id f) d := by
  induction L generalizing pos fuel d with
  | nil => cases fuel <;> simp [multiLoop]
  | cons f L ih =>
      obtain ⟨hf, hL⟩ := SubFrame.read_cons hm
      obtain ⟨hid, hdlc, hdata⟩ := SubFrame.read_bytes hf
      have hdecode : (multiDecode x pos d).run m =
          d.tick.receive x (f.msg x f.id (x.getClockMicroSeconds d.ticks)) := by
        have hle : ¬ f.dlc > 8 := UInt8.not_lt.mpr f.dlc_le
        simp [multiDecode, run_word29 hid f.id_lt, hdlc, clamp8, hle, hdata, SubFrame.msg]
      rw [List.length_cons] at hfuel
      obtain ⟨fuel, rfl⟩ : ∃ k, fuel = k + 1 := ⟨fuel - 1, by omega⟩
      rw [SubFrame.encode_cons, List.length_append, ← f.toRaw_bytes, run_multiLoop_step hf,
        run_ifRoom hdecode]
      exact ih _ hL (by omega)

/-- The CANAL loop scans the sub-frames, all under the id at the start of the
payload. -/
theorem run_guardedLoop_canal {L : List SubFrame} {pos fuel : Nat} {id : UInt32} (d : Driver)
    (hid : (word29 5).run m = id)
    (hm : slice m pos (SubFrame.encode L).length = SubFrame.encode L) (hfuel : L.length ≤ fuel) :
    (guardedLoop 5 (canalDecode x) fuel pos (SubFrame.encode L).length d).run m =
      L.foldl (fun d f => d.takeSub x id f) d := by
  induction L generalizing pos fuel d with
  | nil => cases fuel <;> simp [guardedLoop]
  | cons f L ih =>
      obtain ⟨hf, hL⟩ := SubFrame.read_cons hm
      obtain ⟨-, -, hdata⟩ := SubFrame.read_bytes hf
      have hdecode : (canalDecode x pos f.dlc d).run m =
          d.tick.receive x (f.msg x id (x.getClockMicroSeconds d.ticks)) := by
        simp [canalDecode, hid, hdata, SubFrame.msg]
      rw [List.length_cons] at hfuel
      obtain ⟨fuel, rfl⟩ : ∃ k, fuel = k + 1 := ⟨fuel - 1, by omega⟩
      rw [SubFrame.encode_cons, List.length_append, ← f.toRaw_bytes, run_guardedLoop_step hf]
      rw [run_ifRoom (p := canalDecode x pos f.toRaw.dlc d) hdecode]
      exact ih _ hL (by omega)

/-! ## received frames -/

variable (x)

/-- The receive machine holds a frame, and its CRC is right. -/
structure RxState.Holds (rx : RxState) (f : Frame) : Prop where
  read : f.ReadFrom rx.bufferMsgRcv
  crc : (checkCRC x.crc8 (UInt16.ofNat rx.lengthMsgRcv)).run rx.bufferMsgRcv = true

/-- A frame that declares the payload it carries. -/
def payloadFrame (t : FrameType) (channel seq : UInt8) (p : List UInt8) : Frame :=
  ⟨x.code t, channel, seq, UInt16.ofNat p.length, p⟩

/-- The sub-frames fit the receive buffer, with the header and the CRC. -/
def SubFrame.Fits (L : List SubFrame) : Prop := (SubFrame.encode L).length + 6 ≤ bufferMsgRcvSize

instance (L : List SubFrame) : Decidable (SubFrame.Fits L) := inferInstanceAs (Decidable (_ ≤ _))

variable {x} {rx : RxState} {f : Frame}

/-- A machine that has received the content of a frame holds it. -/
theorem RxState.holds_of_content (hlen : rx.lengthMsgRcv = 6 + f.payload.length)
    (hfits : 6 + f.payload.length < 65536) (hcontent : rx.content = f.content x.crc8) :
    rx.Holds x f := by
  rw [RxState.content, hlen] at hcontent
  refine ⟨Frame.readFrom_content x.crc8 hcontent, ?_⟩
  rw [hlen]
  exact checkCRC_content x.crc8 _ f hfits hcontent

/-- What a new machine makes of the line bytes of a frame. -/
def RxState.after (f : Frame) : RxState :=
  (serialData2StateMachine RxState.new ((f.encode crc8Update).map ReadChar.byte)).1

theorem RxState.Holds.actOnReceived (h : rx.Holds x f) (d : Driver) :
    actOnReceived x d rx = (dispatch x f.frameType d).run rx.bufferMsgRcv := by
  simp [Can4vscp.actOnReceived, actOnFrame, h.crc, h.read.frameType]

/-- Where the payload of a frame stands, and how long it is said to be. -/
theorem RxState.Holds.payload {t : FrameType} {channel seq : UInt8} {p : List UInt8}
    (h : rx.Holds x (payloadFrame x t channel seq p)) (hfits : p.length + 6 ≤ bufferMsgRcvSize) :
    sizePayload.run rx.bufferMsgRcv = p.length ∧ slice rx.bufferMsgRcv 5 p.length = p := by
  simp only [bufferMsgRcvSize] at hfits
  have hsize := h.read.size
  rw [payloadFrame, UInt16.toNat_ofNat_of_lt' (by simp only [UInt16.size]; omega)] at hsize
  refine ⟨?_, h.read.payload⟩
  simpa only [sizePayload, run_bind, run_get, run_pure] using hsize

/-- Where the sub-frames of a frame stand, and how long they are said to be. -/
theorem RxState.Holds.subFrames {t : FrameType} {channel seq : UInt8} {L : List SubFrame}
    (h : rx.Holds x (SubFrame.frame x t channel seq L)) (hfits : SubFrame.Fits L) :
    sizePayload.run rx.bufferMsgRcv = (SubFrame.encode L).length ∧
      slice rx.bufferMsgRcv 5 (SubFrame.encode L).length = SubFrame.encode L :=
  h.payload hfits

end Can4vscp
