import Can4vscp.ReceiveThread
import Can4vscp.Lib.Records
import Mathlib.Data.List.GetD
import Mathlib.Tactic.IntervalCases

/-!
# Can4vscp.RawSubFrames

Sub-frames as they stand in a payload.

A payload begins with complete sub-frames (a header of four or eight bytes, a dlc of at
most 8 and as many data bytes) and ends with a tail that does not start with one
(`exists_unique_splits`, `stops_iff`).  A pass of either loop of `readSerialData` takes a
complete sub-frame and goes on behind it (`run_guardedLoop_step`, `run_multiLoop_step`).
-/

namespace Can4vscp

open Memory ReadProgram Records

variable (x : External)

/-! ## raw sub-frames -/

/-- Bytes as a number, the most significant one first. -/
def word (bs : List UInt8) : UInt32 := bs.foldl (fun w b => (w <<< 8) ||| b.toUInt32) 0

/-- A complete sub-frame whose header has `k` bytes. -/
@[ext] structure RawSubFrame (k : Nat) where
  header : List UInt8
  data : List UInt8
  length_header : header.length = k
  length_le : data.length ≤ 8
  deriving Repr

namespace RawSubFrame

variable {k : Nat}

def dlc (f : RawSubFrame k) : UInt8 := UInt8.ofNat f.data.length

/-- A sub-frame in a payload. -/
def bytes (f : RawSubFrame k) : List UInt8 := f.header ++ [f.dlc] ++ f.data

/-- The payload of a list of sub-frames. -/
def encode (L : List (RawSubFrame k)) : List UInt8 := L.flatMap bytes

/-- The 29 bits of the id. -/
def id (f : RawSubFrame k) : UInt32 := word (f.header.take 4) &&& 0x1fffffff

/-- The 32 bits of the time stamp behind the id. -/
def timestamp (f : RawSubFrame k) : UInt32 := word (f.header.drop 4)

/-- The message of a sub-frame. -/
def msg (f : RawSubFrame k) (id timestamp : UInt32) : CanalMsg :=
  ⟨x.CANAL_IDFLAG_EXTENDED, 0, id, f.dlc, f.data, timestamp⟩

theorem dlc_toNat (f : RawSubFrame k) : f.dlc.toNat = f.data.length := by
  have := f.length_le
  simp [dlc]
  omega

theorem dlc_le (f : RawSubFrame k) : f.dlc ≤ 8 := by
  rw [UInt8.le_iff_toNat_le, dlc_toNat]
  exact f.length_le

theorem length_bytes (f : RawSubFrame k) : f.bytes.length = k + 1 + f.dlc.toNat := by
  rw [bytes, List.length_append, List.length_append, f.length_header, dlc_toNat]
  rfl

theorem bytes_ne_nil (f : RawSubFrame k) : f.bytes ≠ [] := by
  intro h
  have := f.length_bytes
  rw [h, List.length_nil] at this
  omega

@[simp] theorem encode_nil : encode ([] : List (RawSubFrame k)) = [] := rfl

@[simp] theorem encode_cons (f : RawSubFrame k) (L : List (RawSubFrame k)) :
    encode (f :: L) = f.bytes ++ encode L := rfl

theorem mul_length_le_encode (L : List (RawSubFrame k)) :
    L.length * (k + 1) ≤ (encode L).length := by
  induction L with
  | nil => simp
  | cons f L ih =>
      rw [encode_cons, List.length_append, length_bytes, List.length_cons, Nat.add_one_mul]
      omega

theorem length_le_encode (L : List (RawSubFrame k)) : L.length ≤ (encode L).length :=
  Nat.le_trans (Nat.le_mul_of_pos_right _ (Nat.succ_pos k)) (mul_length_le_encode L)

/-- No sub-frame begins with another one. -/
theorem bytes_free (f g : RawSubFrame k) (xs ys : List UInt8)
    (h : f.bytes ++ xs = g.bytes ++ ys) : f = g := by
  simp only [bytes, List.append_assoc] at h
  obtain ⟨hheader, hrest⟩ := List.append_inj h (f.length_header.trans g.length_header.symm)
  obtain ⟨hdlc, hdata⟩ := List.append_inj hrest rfl
  have hlen : f.data.length = g.data.length := by
    rw [← f.dlc_toNat, ← g.dlc_toNat, List.singleton_inj.mp hdlc]
  exact RawSubFrame.ext hheader (List.append_inj hdata hlen).1

/-- A list of sub-frames is all there is of its payload. -/
theorem splits_encode (L : List (RawSubFrame k)) : Splits bytes (encode L) L [] :=
  ⟨(List.append_nil _).symm, fun f hf => f.bytes_ne_nil (List.prefix_nil.mp hf)⟩

/-- What does not start with a complete sub-frame: it ends before the dlc, its dlc is
above 8, or it ends before the data does. -/
theorem stops_iff {tail : List UInt8} :
    (∀ f : RawSubFrame k, ¬ f.bytes <+: tail) ↔
      tail.length ≤ k ∨ 8 < tail.getD k 0 ∨ tail.length < k + 1 + (tail.getD k 0).toNat := by
  constructor
  · intro hstops
    by_contra hlong
    simp only [not_or, Nat.not_le, Nat.not_lt, UInt8.not_lt] at hlong
    obtain ⟨hk, hdlc, hdata⟩ := hlong
    rw [UInt8.le_iff_toNat_le] at hdlc
    have hhead : tail.drop k = tail.getD k 0 :: tail.drop (k + 1) := by
      rw [List.getD_eq_getElem _ _ hk]
      exact List.drop_eq_getElem_cons hk
    have hlen : ((tail.drop (k + 1)).take (tail.getD k 0).toNat).length = (tail.getD k 0).toNat := by
      rw [List.length_take, List.length_drop]
      omega
    refine hstops ⟨tail.take k, (tail.drop (k + 1)).take (tail.getD k 0).toNat,
      List.length_take_of_le (Nat.le_of_lt hk), by rw [hlen]; exact hdlc⟩
      ⟨(tail.drop (k + 1)).drop (tail.getD k 0).toNat, ?_⟩
    simp only [bytes, dlc, hlen, UInt8.ofNat_toNat, List.append_assoc, List.take_append_drop]
    rw [List.singleton_append, ← hhead, List.take_append_drop]
  · rintro hshort f ⟨rest, rfl⟩
    have hk : (f.bytes ++ rest).getD k 0 = f.dlc := by
      simp [bytes, f.length_header]
    have hlen := f.length_bytes
    rw [hk, List.length_append] at hshort
    rcases hshort with hshort | hshort | hshort
    · omega
    · exact absurd f.dlc_le (UInt8.not_le.mpr hshort)
    · omega

/-- **Every payload splits**, in one way, into complete sub-frames and a tail that does
not start with one. -/
theorem exists_unique_splits (k : Nat) (p : List UInt8) :
    ∃! s : List (RawSubFrame k) × List UInt8, Splits bytes p s.1 s.2 := by
  obtain ⟨L, tail, h⟩ := exists_splits (bytes_ne_nil (k := k)) p
  refine ⟨(L, tail), h, ?_⟩
  rintro ⟨L', tail'⟩ h'
  obtain ⟨rfl, rfl⟩ := Splits.unique bytes_free h h'
  rfl

/-- What a memory has where a list of sub-frames stands. -/
theorem read_cons {m : Mem UInt8} {pos : Nat} {f : RawSubFrame k} {L : List (RawSubFrame k)}
    (hm : slice m pos (encode (f :: L)).length = encode (f :: L)) :
    slice m pos f.bytes.length = f.bytes ∧
      slice m (pos + (k + 1 + f.dlc.toNat)) (encode L).length = encode L := by
  rw [encode_cons, List.length_append] at hm
  rw [← length_bytes]
  exact slice_eq_append m pos hm

theorem read_bytes {m : Mem UInt8} {pos : Nat} {f : RawSubFrame k}
    (hm : slice m pos f.bytes.length = f.bytes) :
    slice m pos k = f.header ∧ m (pos + k) = f.dlc ∧
      slice m (pos + (k + 1)) f.dlc.toNat = f.data := by
  rw [bytes, List.length_append] at hm
  obtain ⟨hhead, hdata⟩ := slice_eq_append m pos hm
  rw [List.length_append] at hhead
  obtain ⟨hheader, hdlc⟩ := slice_eq_append m pos hhead
  rw [f.length_header] at hheader hdlc
  rw [List.length_append, f.length_header] at hdata
  rw [dlc_toNat]
  exact ⟨hheader, by simpa [slice] using hdlc, hdata⟩

end RawSubFrame

/-! ## ids and time stamps -/

/-- All decode paths drop the three highest bits of a number. -/
theorem joinBytes_eq (b0 b1 b2 b3 : UInt8) :
    joinBytes b0 b1 b2 b3 = word [b0, b1, b2, b3] &&& 0x1fffffff := by
  apply UInt32.eq_of_toBitVec_eq
  apply BitVec.eq_of_getLsbD_eq
  intro i hi
  simp [joinBytes, word]
  interval_cases i <;> simp

theorem word_idBytes (n : UInt32) : word (idBytes n) = n := by
  apply UInt32.eq_of_toBitVec_eq
  apply BitVec.eq_of_getLsbD_eq
  intro i hi
  simp [word, idBytes, -UInt32.toUInt32_toUInt8]
  interval_cases i <;> simp

theorem and_eq_self_iff (n : UInt32) : n &&& 0x1fffffff = n ↔ n < 0x20000000 := by
  have hand : n.toNat &&& 0x1fffffff = n.toNat % 0x20000000 :=
    Nat.and_two_pow_sub_one_eq_mod n.toNat 29
  rw [← UInt32.toNat_inj, UInt32.lt_iff_toNat_lt, UInt32.toNat_and]
  simp [hand]

theorem run_word29_eq (m : Mem UInt8) (p : Nat) :
    (word29 p).run m = word (slice m p 4) &&& 0x1fffffff := by
  simp only [word29, run_bind, run_get, run_pure, joinBytes_eq, slice]

/-- The id of a header of four bytes, as it is read. -/
theorem RawSubFrame.run_id {m : Mem UInt8} {pos : Nat} (f : RawSubFrame 4)
    (hheader : slice m pos 4 = f.header) : (word29 pos).run m = f.id := by
  rw [run_word29_eq, hheader, id, List.take_of_length_le (Nat.le_of_eq f.length_header)]

/-- The two numbers of a header of eight bytes, as they are read. -/
theorem RawSubFrame.run_words {m : Mem UInt8} {pos : Nat} {f : RawSubFrame 8}
    (hheader : slice m pos 8 = f.header) :
    (word29 pos).run m = f.id ∧ (word29 (pos + 4)).run m = f.timestamp &&& 0x1fffffff := by
  have hsplit : f.header = slice m pos 4 ++ slice m (pos + 4) 4 := by
    rw [← hheader]
    exact slice_add m pos 4 4
  rw [run_word29_eq, run_word29_eq, id, timestamp, hsplit]
  exact ⟨by rw [List.take_left' (length_slice m pos 4)],
    by rw [List.drop_left' (length_slice m pos 4)]⟩

/-! ## a pass of a loop -/

section
variable {x} {m : Mem UInt8} {k fuel pos left : Nat} {d : Driver}

/-- The guarded loop takes a complete sub-frame. -/
theorem run_guardedLoop_step {decode : Nat → UInt8 → Driver → ReadProgram UInt8 Driver}
    {f : RawSubFrame k} (hm : slice m pos f.bytes.length = f.bytes) :
    (guardedLoop (k + 1) decode (fuel + 1) pos (f.bytes.length + left) d).run m =
      (guardedLoop (k + 1) decode fuel (pos + f.bytes.length) left
        ((ifRoom d (decode pos f.dlc d)).run m)).run m := by
  obtain ⟨-, hdlc, -⟩ := RawSubFrame.read_bytes hm
  have hlen := f.length_bytes
  have hle : ¬ f.dlc > 8 := UInt8.not_lt.mpr f.dlc_le
  rw [guardedLoop, if_neg (by omega)]
  simp only [run_bind, run_get, Nat.add_one_sub_one, hdlc, if_neg hle]
  rw [← hlen, Nat.add_sub_cancel_left]

/-- So does the multi-frame loop. -/
theorem run_multiLoop_step {f : RawSubFrame 4} (hm : slice m pos f.bytes.length = f.bytes) :
    (multiLoop x (fuel + 1) pos (f.bytes.length + left) d).run m =
      (multiLoop x fuel (pos + f.bytes.length) left
        ((ifRoom d (multiDecode x pos d)).run m)).run m := by
  obtain ⟨-, hdlc, -⟩ := RawSubFrame.read_bytes hm
  have hlen := f.length_bytes
  rw [multiLoop, if_neg (by omega)]
  simp only [run_bind, run_get, hdlc]
  rw [← hlen, Nat.add_sub_cancel_left]

end

end Can4vscp
