import Can4vscp.TransmitMessage
import Can4vscp.Transmit

/-!
# Can4vscp.EncodeSafety

The buffers of `transmitMessage`.

Neither `writeMsg` nor `writeMsgBlocking` looks at the size of a message, and
`transmitMessage` copies as many data bytes as the message announces into a
buffer that has room for eight.  `encodeSafe_iff` says for which of the messages
it encodes, in any run, it stays inside the message and its two buffers.

The data of the message, `payload` and `sendData` are memory seen from their base
pointers, with 8, 12 and 128 bytes in them.
-/

namespace Can4vscp

open Memory ReadProgram

variable (x : External)

/-! ## encoding -/

/-- `for (int i = 0; i < msg.sizeData; i++) payload[lenPayload++] = msg.data[i];`,
with `n` turns left from `i` on. -/
def copyData : Nat → Nat → Mem UInt8 → UInt16 → ReadProgram UInt8 (Mem UInt8 × UInt16)
  | 0, _, payload, lenPayload => pure (payload, lenPayload)
  | n + 1, i, payload, lenPayload => do
    let c ← get i
    copyData n (i + 1) (store payload lenPayload.toNat c) (lenPayload + 1)

/-- The payload: the buffer, and the number of bytes in it. -/
def encodePayload (msg : CanalMsg) (payload : Mem UInt8) : ReadProgram UInt8 (Mem UInt8 × UInt16) :=
  let payload := store payload 0 ((msg.id >>> 24) &&& 0xff).toUInt8
  let payload := store payload 1 ((msg.id >>> 16) &&& 0xff).toUInt8
  let payload := store payload 2 ((msg.id >>> 8) &&& 0xff).toUInt8
  let payload := store payload 3 (msg.id &&& 0xff).toUInt8
  copyData msg.sizeData.toNat 0 payload 4

/-- `transmitMessage`, from the copy of the message to the bytes handed to
`sendMsg`: the two buffers and the number of bytes to send. -/
def encodeMessage (msg : CanalMsg) (seq : UInt8) (payload sendData : Mem UInt8) :
    ReadProgram UInt8 (Mem UInt8 × Mem UInt8 × UInt16) := do
  let (payload, lenPayload) ← encodePayload msg payload
  let (sendData, len) := buildFrame x.crc8 sendData (x.code .canal) 0 seq
    (UInt16.ofNat (4 + msg.sizeData.toNat)) (slice payload 0 lenPayload.toNat)
  pure (payload, sendData, len)

/-- Whatever memory holds: only the eight data bytes of the message are read, only
the 12 bytes of `payload` and the 128 bytes of `sendData` are written, and the
bytes to send are the CANAL frame with the id and the data of the message. -/
structure EncodeSafe (msg : CanalMsg) (seq : UInt8) : Prop where
  reads : ∀ garbage payload sendData : Mem UInt8,
    ∀ i ∈ (encodeMessage x msg seq payload sendData).trace (storeAll garbage 0 msg.data), i < 8
  payload : ∀ garbage payload sendData : Mem UInt8, ∀ i, 12 ≤ i →
    ((encodeMessage x msg seq payload sendData).run (storeAll garbage 0 msg.data)).1 i = payload i
  sendData : ∀ garbage payload sendData : Mem UInt8, ∀ i, 128 ≤ i →
    ((encodeMessage x msg seq payload sendData).run (storeAll garbage 0 msg.data)).2.1 i = sendData i
  sent : ∀ garbage payload sendData : Mem UInt8,
    let r := (encodeMessage x msg seq payload sendData).run (storeAll garbage 0 msg.data)
    slice r.2.1 0 r.2.2.toNat = (transmitFrame x garbage msg seq).encode x.crc8

/-! ## what is written -/

variable {m payload : Mem UInt8}

/-- The loop appends the data behind what is in the buffer. -/
theorem run_copyData (n i : Nat) {bs : List UInt8} {lenPayload : UInt16}
    (hlen : lenPayload.toNat = bs.length) (hfits : bs.length + n < 65536) :
    (copyData n i (storeAll payload 0 bs) lenPayload).run m =
      (storeAll payload 0 (bs ++ slice m i n), UInt16.ofNat (bs.length + n)) := by
  induction n generalizing i bs lenPayload with
  | zero => simp [copyData, slice, ← hlen]
  | succ n ih =>
      have hlen' : (lenPayload + 1).toNat = (bs ++ [m i]).length := by
        simp [UInt16.toNat_add, hlen]
        omega
      have hput : store (storeAll payload 0 bs) lenPayload.toNat (m i) =
          storeAll payload 0 (bs ++ [m i]) := by
        rw [storeAll_concat, hlen, Nat.zero_add]
      have hcount : (bs ++ [m i]).length + n = bs.length + (n + 1) := by
        simp
        omega
      simp only [copyData, run_bind, run_get]
      rw [hput, ih (i + 1) hlen' (by omega), hcount, slice, List.append_assoc]
      rfl

/-- The loop reads the data it copies. -/
theorem trace_copyData (n i : Nat) (lenPayload : UInt16) :
    (copyData n i payload lenPayload).trace m = List.range' i n := by
  induction n generalizing i payload lenPayload with
  | zero => rfl
  | succ n ih => simp [copyData, ih, List.range'_succ]

theorem run_encodePayload (garbage : Mem UInt8) (msg : CanalMsg) :
    (encodePayload msg payload).run (storeAll garbage 0 msg.data) =
      (storeAll payload 0 (transmitPayload garbage msg), UInt16.ofNat (4 + msg.sizeData.toNat)) := by
  have hsize := msg.sizeData.toNat_lt
  have hfits : (idBytes msg.id).length + msg.sizeData.toNat < 65536 := by
    simp
    omega
  exact run_copyData msg.sizeData.toNat 0 (rfl : (4 : UInt16).toNat = (idBytes msg.id).length) hfits

theorem trace_encodeMessage (msg : CanalMsg) (seq : UInt8) (sendData : Mem UInt8) :
    (encodeMessage x msg seq payload sendData).trace m = List.range' 0 msg.sizeData.toNat := by
  simp [encodeMessage, encodePayload, trace_copyData]

/-- The buffers and the length after encoding. -/
theorem run_encodeMessage (garbage : Mem UInt8) (msg : CanalMsg) (seq : UInt8)
    (sendData : Mem UInt8) :
    (encodeMessage x msg seq payload sendData).run (storeAll garbage 0 msg.data) =
      (storeAll payload 0 (transmitPayload garbage msg),
        storeAll sendData 0 ((transmitFrame x garbage msg seq).bytes x.crc8),
        UInt16.ofNat ((transmitFrame x garbage msg seq).bytes x.crc8).length) := by
  have hsize := msg.sizeData.toNat_lt
  have hlen : (transmitPayload garbage msg).length = 4 + msg.sizeData.toNat := by
    simp [transmitPayload]
  have hn : (UInt16.ofNat (4 + msg.sizeData.toNat)).toNat = (transmitPayload garbage msg).length := by
    rw [hlen]
    exact UInt16.toNat_ofNat_of_lt' (by simp only [UInt16.size]; omega)
  have hbuild := buildFrame_eq x.crc8 sendData (transmitFrame x garbage msg seq)
    (by simp only [transmitFrame, hlen]; omega)
  simp only [transmitFrame] at hbuild
  simp only [encodeMessage, run_bind, run_encodePayload, run_pure, hn, slice_storeAll, hbuild]
  rfl

/-- A message of at most eight bytes is encoded inside its buffers, and no other
message is. -/
theorem encodeSafe_iff_sizeData (msg : CanalMsg) (seq : UInt8) :
    EncodeSafe x msg seq ↔ msg.sizeData ≤ 8 := by
  rw [UInt8.le_iff_toNat_le]
  constructor
  · intro h
    have hreads := h.reads (fun _ => 0) (fun _ => 0) (fun _ => 0)
    rw [trace_encodeMessage] at hreads
    by_contra hsize
    have := hreads 8 (List.mem_range'_1.mpr ⟨Nat.zero_le 8, by simpa using hsize⟩)
    omega
  · intro hsize
    have hsize8 : msg.sizeData.toNat ≤ 8 := hsize
    have hpayload : ∀ garbage, (transmitPayload garbage msg).length ≤ 12 := by
      intro garbage
      simp [transmitPayload]
      omega
    have hbytes : ∀ garbage, ((transmitFrame x garbage msg seq).bytes x.crc8).length ≤ 128 := by
      intro garbage
      have h1 := (transmitFrame x garbage msg seq).length_bytes_le x.crc8
      have h2 := hpayload garbage
      simp only [transmitFrame] at h1 ⊢
      omega
    constructor
    · intro garbage payload sendData i hi
      rw [trace_encodeMessage, List.mem_range'_1] at hi
      omega
    · intro garbage payload sendData i hi
      rw [run_encodeMessage]
      exact storeAll_of_ge _ _ (by have := hpayload garbage; omega)
    · intro garbage payload sendData i hi
      rw [run_encodeMessage]
      exact storeAll_of_ge _ _ (by have := hbytes garbage; omega)
    · intro garbage payload sendData r
      have hlen := hbytes garbage
      have hn : (UInt16.ofNat ((transmitFrame x garbage msg seq).bytes x.crc8).length).toNat =
          ((transmitFrame x garbage msg seq).bytes x.crc8).length :=
        UInt16.toNat_ofNat_of_lt' (by simp only [UInt16.size]; omega)
      have hpay := hpayload garbage
      rw [Frame.encode_eq x.crc8 _ (by simp only [transmitFrame]; omega)]
      simp only [r, run_encodeMessage, hn]
      exact slice_storeAll _ _ _

/-! ## the messages that are encoded -/

namespace Transmit

variable {ι : Type} {s t : State ι} {again : Bool} {f : TxFrame}

/-- A message that has been copied was at the head of the queue. -/
theorem TxStep.fetched (h : TxStep s t) (hpc : t.pc = .arm again f) :
    t.accepted = s.accepted ∧ ∃ rest, s.transmitList = f.msg :: rest := by
  cases h with
  | fetch again' hfetch m rest hlist =>
      cases hpc
      exact ⟨rfl, rest, hlist⟩
  | postPut acked _ => cases acked <;> cases hpc
  | check _ pc hto => rcases hto with rfl | rfl <;> cases hpc
  | check2 _ pc hto => rcases hto with rfl | rfl <;> cases hpc
  | _ => cases hpc

/-- The message that is being encoded has been accepted. -/
def Fetched (s : State ι) : Prop := ∀ again f, s.pc = .arm again f → f.msg ∈ s.accepted

variable [DecidableEq ι]

theorem fetched_of_reachable (hs : (machine State.new).Reachable s) : Fetched s := by
  refine hs.invariant_of (P := Ledger) (fun s hs => ledger_of_reachable start_new hs) ?_ ?_
  · rintro s rfl again f hpc
    cases hpc
  · intro s t a hl hI _ hnext again f hpc
    cases a with
    | transmit o =>
        obtain ⟨haccepted, rest, hlist⟩ := (txNext_step hnext).fetched hpc
        rw [haccepted, ← hl.conserved, hlist]
        simp
    | writer w a =>
        obtain ⟨ms, getSem, putSem, writer, rfl⟩ := writerNext_effect hnext
        exact List.mem_append_left ms (hI again f hpc)
    | answer a =>
        cases hnext
        obtain ⟨info, sem, acked, nacked, heq⟩ := answerNext_effect a s
        rw [heq] at hpc ⊢
        exact hI again f hpc
    | api b =>
        have ht := apiNext_step hnext
        cases ht with
        | opens hapi => cases hpc
        | _ => exact hI again f hpc

/-- **Safe to encode, exactly**: whatever `transmitMessage` encodes, in any run, has
been accepted from a writer, and it is encoded inside its buffers if and only if
it announces at most eight data bytes. -/
theorem encodeSafe_iff (x : External) (hs : (machine State.new).Reachable s)
    (hpc : s.pc = .arm again f) :
    f.msg ∈ s.accepted ∧ (EncodeSafe x f.msg f.seq ↔ f.msg.sizeData ≤ 8) :=
  ⟨fetched_of_reachable hs again f hpc, encodeSafe_iff_sizeData x f.msg f.seq⟩

/-- A message that announces nine data bytes. -/
def nineBytes : CanalMsg := ⟨0, 0, 5, 9, [1, 2, 3, 4, 5, 6, 7, 8], 0⟩

/-- One writer, one call of `writeMsg`, up to the moment when the message has been
copied. -/
theorem reachable_nineBytes : ∃ s : State Unit, (machine State.new).Reachable s ∧
    s.writer () = .outside (some .success) ∧ s.pc = .arm false ⟨0, 0, nineBytes, 0⟩ := by
  let run : List (Act Unit) :=
    [.api false, .api false, .writer () (.call false nineBytes), .writer () .go, .writer () .go,
      .writer () .go] ++ List.replicate 6 (.transmit .ok)
  obtain ⟨s, hs, hp⟩ := (machine State.new).exists_reachableWhen (c := fun _ _ => True) run
    (fun s => s.writer () == .outside (some .success) && s.pc == .arm false ⟨0, 0, nineBytes, 0⟩)
    rfl (by decide)
  simp only [Bool.and_eq_true, beq_iff_eq] at hp
  exact ⟨s, hs, hp.1, hp.2⟩

theorem encodeSafe_iff_nineBytes : ∃ s : State Unit, nineBytes ∈ s.accepted ∧
    (EncodeSafe External.vscp nineBytes 0 ↔ nineBytes.sizeData ≤ 8) := by
  obtain ⟨s, hs, -, hpc⟩ := reachable_nineBytes
  exact ⟨s, encodeSafe_iff External.vscp hs hpc⟩

/-- `writeMsg` accepts a message that announces nine data bytes, and it is not
encoded inside its buffers. -/
theorem nineBytes_not_safe : ∃ s : State Unit, (machine State.new).Reachable s ∧
    s.writer () = .outside (some .success) ∧ s.pc = .arm false ⟨0, 0, nineBytes, 0⟩ ∧
    ¬ EncodeSafe External.vscp nineBytes 0 := by
  obtain ⟨s, hs, hwriter, hpc⟩ := reachable_nineBytes
  refine ⟨s, hs, hwriter, hpc, fun h => ?_⟩
  exact absurd ((encodeSafe_iff_sizeData External.vscp nineBytes 0).mp h) (by decide)

end Transmit

end Can4vscp
