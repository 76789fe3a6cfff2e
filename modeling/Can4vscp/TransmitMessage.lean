import Can4vscp.ReadSerialData
import Mathlib.Tactic.IntervalCases

/-!
# Can4vscp.TransmitMessage

The CANAL frame of a message (`transmitMessage`).

On the way out a CANAL frame holds the id and the data, on the way in the dlc
stands between them.  The id is read back the way it is written as long as it
fits 29 bits (`joinBytes_idBytes`).

`garbage` is what memory holds that nobody has written; it is sent when a
message announces more data than it has.
-/

namespace Can4vscp

open Memory ReadProgram

/-! ## the frame -/

/-- The bytes of an id, the most significant one first. -/
def idBytes (id : UInt32) : List UInt8 :=
  [((id >>> 24) &&& 0xff).toUInt8, ((id >>> 16) &&& 0xff).toUInt8, ((id >>> 8) &&& 0xff).toUInt8,
    (id &&& 0xff).toUInt8]

@[simp] theorem length_idBytes (id : UInt32) : (idBytes id).length = 4 := rfl

variable (x : External) (garbage : Mem UInt8)

/-- The payload: the id, and `sizeData` bytes from where the data of the message
begin. -/
def transmitPayload (msg : CanalMsg) : List UInt8 :=
  idBytes msg.id ++ slice (storeAll garbage 0 msg.data) 0 msg.sizeData.toNat

/-- The frame `transmitMessage` hands to `sendMsg`. -/
def transmitFrame (msg : CanalMsg) (seq : UInt8) : Frame :=
  ⟨x.code .canal, 0, seq, UInt16.ofNat (4 + msg.sizeData.toNat), transmitPayload garbage msg⟩

/-! ## messages that fit a CAN frame -/

/-- An extended CAN message with its data. -/
structure CanalMsg.Extended (msg : CanalMsg) : Prop where
  id : msg.id < 0x20000000
  sizeData : msg.sizeData ≤ 8
  data : msg.sizeData.toNat ≤ msg.data.length

/-- The data a message announces. -/
def CanalMsg.canData (msg : CanalMsg) : List UInt8 := msg.data.take msg.sizeData.toNat

variable {msg : CanalMsg}

theorem CanalMsg.Extended.length_canData (h : msg.Extended) :
    msg.canData.length = msg.sizeData.toNat :=
  List.length_take_of_le h.data

theorem CanalMsg.Extended.sizeData_toNat (h : msg.Extended) : msg.sizeData.toNat ≤ 8 :=
  UInt8.le_iff_toNat_le.mp h.sizeData

/-- Of a message that has its data, the id and the data are sent. -/
theorem CanalMsg.Extended.transmitPayload_eq (h : msg.Extended) :
    transmitPayload garbage msg = idBytes msg.id ++ msg.canData := by
  rw [transmitPayload, slice_storeAll_take _ _ _ h.data, canData]

/-! ## the id -/

/-- **Ids survive**: an id of 29 bits is read back from its bytes. -/
theorem joinBytes_idBytes (id : UInt32) (h : id < 0x20000000) :
    joinBytes ((id >>> 24) &&& 0xff).toUInt8 ((id >>> 16) &&& 0xff).toUInt8
      ((id >>> 8) &&& 0xff).toUInt8 (id &&& 0xff).toUInt8 = id := by
  have hlt : id.toNat < 2 ^ 29 := by simpa using UInt32.lt_iff_toNat_lt.mp h
  have hhigh : ∀ (i : Nat) (hi : i < 32), 29 ≤ i → id.toBitVec[i] = false := by
    intro i hi h29
    rw [← BitVec.getLsbD_eq_getElem, BitVec.getLsbD]
    exact Nat.testBit_lt_two_pow (Nat.lt_of_lt_of_le hlt (Nat.pow_le_pow_right (by decide) h29))
  -- bit by bit; the mask of the first byte only clears bits that are clear
  apply UInt32.eq_of_toBitVec_eq
  apply BitVec.eq_of_getLsbD_eq
  intro i hi
  simp [joinBytes, -UInt32.toUInt32_toUInt8]
  interval_cases i <;> simp [hhigh]

/-- An id of 29 bits is read where its bytes are. -/
theorem run_word29 {m : Mem UInt8} {p : Nat} {id : UInt32} (hm : slice m p 4 = idBytes id)
    (h : id < 0x20000000) : (word29 p).run m = id := by
  simp only [slice, idBytes, List.cons.injEq, and_true] at hm
  obtain ⟨h0, h1, h2, h3⟩ := hm
  simp only [word29, run_bind, run_get, run_pure]
  rw [h0, h1, h2, h3, joinBytes_idBytes id h]

end Can4vscp
