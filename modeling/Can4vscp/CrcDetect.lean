import Can4vscp.Protocol
import Can4vscp.Lib.Checksum
import Mathlib.Logic.Equiv.Defs

/-!
# Can4vscp.CrcDetect

What `can4vscp_checkCRC` detects.

If the byte update looks up `crc ^ c` in a table that is a permutation of the byte
values, it is lossless, and a frame content of which one byte has been changed,
wherever it stands, is rejected (`checkCRC_rejects`).
-/

namespace Can4vscp

open Memory ReadProgram Checksum

variable {crc8 : UInt8 → UInt8 → UInt8}

/-- An update by a table of all byte values is lossless. -/
theorem lossless_of_table (T : Equiv.Perm UInt8) (hT : ∀ crc c, crc8 crc c = T (crc ^^^ c)) :
    Lossless crc8 where
  state := fun c s s' h => by
    have hxor : s ^^^ c = s' ^^^ c := T.injective (by simpa only [hT] using h)
    exact (UInt8.xor_left_inj c).mp hxor
  value := fun s c c' h => by
    have hxor : s ^^^ c = s ^^^ c' := T.injective (by simpa only [hT] using h)
    exact (UInt8.xor_right_inj s).mp hxor

/-- The last byte is compared with the CRC of all bytes before it. -/
theorem checkCRC_iff {m : Mem UInt8} {len : UInt16} :
    (checkCRC crc8 len).run m = true ↔
      len ≠ 0 ∧ (slice m 0 (len.toNat - 1)).foldl crc8 0 = m (len.toNat - 1) := by
  unfold checkCRC
  split
  · next hzero => simp [hzero]
  · next hne => simp [hne]

/-- A content of which one byte has been changed is rejected. -/
theorem checkCRC_store (h : Lossless crc8) {m : Mem UInt8} {len : UInt16}
    (haccept : (checkCRC crc8 len).run m = true) {i : Nat} (hi : i < len.toNat) {c : UInt8}
    (hc : c ≠ m i) : (checkCRC crc8 len).run (store m i c) = false := by
  obtain ⟨hne, hcrc⟩ := checkCRC_iff.mp haccept
  rw [Bool.eq_false_iff, Ne, checkCRC_iff]
  rintro ⟨-, hcrc'⟩
  have hset := slice_store m 0 (len.toNat - 1) i c
  rw [Nat.zero_add] at hset
  rw [hset] at hcrc'
  by_cases hlast : i = len.toNat - 1
  · -- the CRC byte: the CRC of the body is what it was
    rw [hlast, store_same, List.set_eq_of_length_le (by simp)] at hcrc'
    rw [hlast, ← hcrc, ← hcrc'] at hc
    exact hc rfl
  · have hbody : i < (slice m 0 (len.toNat - 1)).length := by
      rw [length_slice]
      omega
    rw [store_of_ne _ _ (Ne.symm hlast), ← hcrc] at hcrc'
    refine h.foldl_set_ne 0 hbody ?_ hcrc'
    rw [getElem_slice, Nat.zero_add]
    exact hc

/-- **Every single-byte corruption is detected**: whatever content of whatever length
is accepted, in particular the content of a frame, it is rejected once one of its
bytes has another value. -/
theorem checkCRC_rejects (T : Equiv.Perm UInt8) (hT : ∀ crc c, crc8 crc c = T (crc ^^^ c)) :
    (∀ (m : Mem UInt8) (len : UInt16), (checkCRC crc8 len).run m = true →
      ∀ i < len.toNat, ∀ c, c ≠ m i → (checkCRC crc8 len).run (store m i c) = false) ∧
    ∀ (m : Mem UInt8) (f : Frame), 6 + f.payload.length < 65536 →
      slice m 0 (6 + f.payload.length) = f.content crc8 →
      (checkCRC crc8 (UInt16.ofNat (6 + f.payload.length))).run m = true ∧
      ∀ i < 6 + f.payload.length, ∀ c, c ≠ m i →
        (checkCRC crc8 (UInt16.ofNat (6 + f.payload.length))).run (store m i c) = false := by
  have h := lossless_of_table T hT
  refine ⟨fun m len haccept i hi c hc => checkCRC_store h haccept hi hc, ?_⟩
  intro m f hlen hcontent
  have haccept := checkCRC_content crc8 m f hlen hcontent
  refine ⟨haccept, fun i hi c hc => checkCRC_store h haccept ?_ hc⟩
  rwa [UInt16.toNat_ofNat_of_lt' hlen]

/-! ## the CRC-8 with polynomial 0x07 -/

/-- `crc8Bit` backwards. -/
def crc8BitInv (v : UInt8) : UInt8 :=
  if v &&& 1 = 0 then v >>> 1 else ((v ^^^ 0x07) >>> 1) ||| 0x80

/-- One bit of the CRC is a permutation of the byte values. -/
def crc8BitPerm : Equiv.Perm UInt8 where
  toFun := crc8Bit
  invFun := crc8BitInv
  left_inv := fun v => by
    have h : ∀ v : BitVec 8, crc8BitInv (crc8Bit (UInt8.ofBitVec v)) = UInt8.ofBitVec v := by
      decide +kernel
    exact h v.toBitVec
  right_inv := fun v => by
    have h : ∀ v : BitVec 8, crc8Bit (crc8BitInv (UInt8.ofBitVec v)) = UInt8.ofBitVec v := by
      decide +kernel
    exact h v.toBitVec

/-- The table of `crc8Update`. -/
def crc8Table : Equiv.Perm UInt8 :=
  crc8BitPerm.trans <| crc8BitPerm.trans <| crc8BitPerm.trans <| crc8BitPerm.trans <|
    crc8BitPerm.trans <| crc8BitPerm.trans <| crc8BitPerm.trans crc8BitPerm

theorem checkCRC_rejects_update :
    (∀ (m : Mem UInt8) (len : UInt16), (checkCRC crc8Update len).run m = true →
      ∀ i < len.toNat, ∀ c, c ≠ m i → (checkCRC crc8Update len).run (store m i c) = false) ∧
    ∀ (m : Mem UInt8) (f : Frame), 6 + f.payload.length < 65536 →
      slice m 0 (6 + f.payload.length) = f.content crc8Update →
      (checkCRC crc8Update (UInt16.ofNat (6 + f.payload.length))).run m = true ∧
      ∀ i < 6 + f.payload.length, ∀ c, c ≠ m i →
        (checkCRC crc8Update (UInt16.ofNat (6 + f.payload.length))).run (store m i c) = false :=
  checkCRC_rejects crc8Table fun _ _ => rfl

end Can4vscp
