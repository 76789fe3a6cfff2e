import Can4vscp.ReadSerialData

/-!
# Can4vscp.Locality

Which part of the receive buffer the driver reads for a frame.

`FrameLocal` is what one would like of every reported frame: only bytes of the
frame are read, so bytes left over from earlier frames change nothing.  The
driver does not check the declared payload size, nor the sub-frames in it,
against the length received, so this is not so for every frame.
`frameLocal_iff` says for which frames it is: those of which the header, the
declared payload and every sub-frame that a decode path begins lie inside the
received length (`FrameCovered`).
-/

namespace Can4vscp

open Memory ReadProgram

variable (x : External)

/-! ## covered frames -/

/-- The declared payload size. -/
def declaredSize (m : Mem UInt8) : Nat := (m 3).toNat * 256 + (m 4).toNat

/-- Every sub-frame the guarded loop begins lies inside the first `len` bytes. -/
def GuardedCovered (m : Mem UInt8) (len head : Nat) : Nat → Nat → Nat → Prop
  | 0, _, _ => True
  | fuel + 1, pos, left =>
    0 < left →
      pos + head ≤ len ∧
      (¬ m (pos + (head - 1)) > 8 →
        pos + head + (m (pos + (head - 1))).toNat ≤ len ∧
        GuardedCovered m len head fuel (pos + (head + (m (pos + (head - 1))).toNat))
          (left - (head + (m (pos + (head - 1))).toNat)))

/-- Every sub-frame the multi-frame loop begins lies inside the first `len`
bytes, its data cut to eight bytes. -/
def MultiCovered (m : Mem UInt8) (len : Nat) : Nat → Nat → Nat → Prop
  | 0, _, _ => True
  | fuel + 1, pos, left =>
    0 < left →
      pos + 5 + (clamp8 (m (pos + 4))).toNat ≤ len ∧
      MultiCovered m len fuel (pos + (5 + (m (pos + 4)).toNat)) (left - (5 + (m (pos + 4)).toNat))

/-- The sub-frames of a frame lie inside it, whichever decode path it takes. -/
structure SubFramesCovered (m : Mem UInt8) (len : Nat) : Prop where
  canal : m 0 = x.code .canal → GuardedCovered m len 5 (declaredSize m) 5 (declaredSize m)
  canalTimestamp : m 0 = x.code .canalTimestamp → 14 + (clamp8 (m 13)).toNat ≤ len
  multiFrameCanal : m 0 = x.code .multiFrameCanal →
    MultiCovered m len (declaredSize m) 5 (declaredSize m)
  multiFrameCanalTimestamp : m 0 = x.code .multiFrameCanalTimestamp →
    GuardedCovered m len 9 (declaredSize m) 5 (declaredSize m)

/-- The header, the declared payload and, if the CRC is right, the sub-frames lie
inside the received length. -/
structure FrameCovered (m : Mem UInt8) (len : Nat) : Prop where
  header : 5 ≤ len
  payload : 5 + declaredSize m ≤ len
  subFrames : (checkCRC x.crc8 (UInt16.ofNat len)).run m = true → SubFramesCovered x m len

/-- Only bytes of the frame are read, and bytes behind it change nothing,
whatever state the driver is in. -/
structure FrameLocal (rx : RxState) : Prop where
  reads : ∀ (d : Driver), ∀ i ∈ (actOnFrame x (UInt16.ofNat rx.lengthMsgRcv) d).trace
    rx.bufferMsgRcv, i < rx.lengthMsgRcv ∧ i < bufferMsgRcvSize
  stale : ∀ (d : Driver) (m' : Mem UInt8),
    (∀ i, i < rx.lengthMsgRcv → m' i = rx.bufferMsgRcv i) →
      (actOnFrame x (UInt16.ofNat rx.lengthMsgRcv) d).run m' =
        (actOnFrame x (UInt16.ofNat rx.lengthMsgRcv) d).run rx.bufferMsgRcv

/-! ## what the pieces read -/

variable (m : Mem UInt8) (len : Nat)

@[simp] theorem run_sizePayload : sizePayload.run m = declaredSize m := by
  simp [sizePayload, declaredSize]

@[simp] theorem readsBelow_sizePayload : ReadsBelow m len sizePayload ↔ 5 ≤ len := by
  simp [sizePayload]
  omega

@[simp] theorem readsBelow_traceFrame :
    ReadsBelow m len traceFrame ↔ 5 ≤ len ∧ 5 + declaredSize m ≤ len := by
  simp [traceFrame]
  omega

@[simp] theorem readsBelow_word29 (p : Nat) : ReadsBelow m len (word29 p) ↔ p + 4 ≤ len := by
  simp [word29]
  omega

/-- The CRC check reads the frame and nothing else. -/
theorem readsBelow_checkCRC (h : len < 65536) :
    ReadsBelow m len (checkCRC x.crc8 (UInt16.ofNat len)) := by
  have hn : (UInt16.ofNat len).toNat = len := UInt16.toNat_ofNat_of_lt' h
  unfold checkCRC
  split
  · simp
  · next hne =>
      have hpos : len ≠ 0 := fun h0 => hne (by rw [h0]; rfl)
      simp [hn]
      omega

theorem readsBelow_nackFrame (d : Driver) (h : 5 ≤ len) : ReadsBelow m len (nackFrame x d) := by
  simp [nackFrame]
  omega

theorem readsBelow_ackFrame (d : Driver) (h : 5 ≤ len) : ReadsBelow m len (ackFrame x d) := by
  simp [ackFrame]
  omega

theorem readsBelow_answerFrame (d : Driver) (h : 5 ≤ len) :
    ReadsBelow m len (answerFrame x d) := by
  have h0 : 0 < len := by omega
  have h1 : 1 < len := by omega
  have h2 : 2 < len := by omega
  simp [answerFrame, h0, h1, h2]

theorem readsBelow_addToResponseQueue (d : Driver) (h : 5 ≤ len)
    (hsize : 5 + declaredSize m ≤ len) : ReadsBelow m len (addToResponseQueue x d) := by
  have hcut : (if declaredSize m > 512 then 512 else declaredSize m) ≤ declaredSize m := by
    split <;> omega
  simp only [addToResponseQueue, readsBelow_bind, readsBelow_get, readsBelow_sizePayload,
    readsBelow_getSlice, readsBelow_pure, run_sizePayload, and_true]
  refine ⟨readsBelow_answerFrame x m len d h, by omega, by omega, by omega, h, ?_⟩
  omega

@[simp] theorem readsBelow_ifRoom (d : Driver) (decode : ReadProgram UInt8 Driver) :
    ReadsBelow m len (ifRoom d decode) ↔ (d.hasRoom = true → ReadsBelow m len decode) := by
  simp [ifRoom]

theorem readsBelow_canalTimestampFrame (d : Driver) (h : 14 + (clamp8 (m 13)).toNat ≤ len) :
    ReadsBelow m len (canalTimestampFrame x d) := by
  simp [canalTimestampFrame]
  omega

/-! ## the loops read covered sub-frames -/

variable {m len} {head fuel pos left : Nat}
  {decode : Nat → UInt8 → Driver → ReadProgram UInt8 Driver}

/-- A decode path that reads the head and the data of its sub-frame, and perhaps
bytes in front of it. -/
def DecodesAt (m : Mem UInt8) (len head : Nat)
    (decode : Nat → UInt8 → Driver → ReadProgram UInt8 Driver) : Prop :=
  ∀ (pos : Nat) (dataLen : UInt8) (d : Driver), 5 ≤ pos → pos + head ≤ len →
    (ReadsBelow m len (decode pos dataLen d) ↔ pos + head + dataLen.toNat ≤ len)

theorem decodesAt_canal : DecodesAt m len 5 (canalDecode x) := by
  intro pos dataLen d h1 h2
  simp [canalDecode]
  omega

theorem decodesAt_multiTimestamp : DecodesAt m len 9 (multiTimestampDecode x) := by
  intro pos dataLen d h1 h2
  simp [multiTimestampDecode]
  omega

/-- The guarded loop reads inside a covered frame. -/
theorem readsBelow_guardedLoop (d : Driver) (hhead : 0 < head)
    (hdec : DecodesAt m len head decode) (hpos : 5 ≤ pos)
    (hc : GuardedCovered m len head fuel pos left) :
    ReadsBelow m len (guardedLoop head decode fuel pos left d) := by
  induction fuel generalizing pos left d with
  | zero => simp [guardedLoop]
  | succ fuel ih =>
      unfold guardedLoop
      split
      · simp
      · next hleft =>
          obtain ⟨hfits, hrest⟩ := hc (Nat.pos_of_ne_zero hleft)
          simp only [readsBelow_bind, readsBelow_get, run_get, readsBelow_ite, readsBelow_pure,
            readsBelow_ifRoom, implies_true, true_and]
          refine ⟨by omega, fun hdlc => ?_⟩
          obtain ⟨hdata, hnext⟩ := hrest hdlc
          exact ⟨fun _ => (hdec pos _ d hpos hfits).mpr hdata, ih _ (by omega) hnext⟩

/-- The multi-frame loop reads inside a covered frame. -/
theorem readsBelow_multiLoop (d : Driver) (hc : MultiCovered m len fuel pos left) :
    ReadsBelow m len (multiLoop x fuel pos left d) := by
  induction fuel generalizing pos left d with
  | zero => simp [multiLoop]
  | succ fuel ih =>
      unfold multiLoop
      split
      · simp
      · next hleft =>
          obtain ⟨hfits, hrest⟩ := hc (Nat.pos_of_ne_zero hleft)
          simp only [readsBelow_bind, readsBelow_get, run_get, readsBelow_ifRoom]
          refine ⟨fun _ => ?_, by omega, ih _ hrest⟩
          simp [multiDecode]
          omega

/-! ## covered frames are read locally -/

/-- Every branch reads inside a covered frame. -/
theorem readsBelow_dispatch (d : Driver) (h : 5 ≤ len) (hsize : 5 + declaredSize m ≤ len)
    (hsub : SubFramesCovered x m len) : ReadsBelow m len (dispatch x (m 0) d) := by
  have hcanal : x.code .canal = m 0 → ReadsBelow m len (canalFrame x (d.touch x)) := by
    intro hop
    have := readsBelow_guardedLoop (d.touch x) (by omega) (decodesAt_canal x) (by omega)
      (hsub.canal hop.symm)
    simpa [canalFrame, h] using this
  have hmultiTs : x.code .multiFrameCanalTimestamp = m 0 →
      ReadsBelow m len (multiFrameCanalTimestamp x (d.touch x)) := by
    intro hop
    have := readsBelow_guardedLoop (d.touch x) (by omega) (decodesAt_multiTimestamp x) (by omega)
      (hsub.multiFrameCanalTimestamp hop.symm)
    simpa [multiFrameCanalTimestamp, h] using this
  have hmulti : x.code .multiFrameCanal = m 0 →
      ReadsBelow m len (multiFrameCanal x (d.touch x)) := by
    intro hop
    have := readsBelow_multiLoop x (d.touch x) (hsub.multiFrameCanal hop.symm)
    simpa [multiFrameCanal, h] using this
  have hts : x.code .canalTimestamp = m 0 → ReadsBelow m len (canalTimestampFrame x (d.touch x)) :=
    fun hop => readsBelow_canalTimestampFrame x m len _ (hsub.canalTimestamp hop.symm)
  have hresponse := readsBelow_addToResponseQueue x m len (d.touch x) h hsize
  have hnack := readsBelow_nackFrame x m len (d.touch x) h
  have hack := readsBelow_ackFrame x m len (d.touch x) h
  simp only [dispatch, readsBelow_ite, readsBelow_pure, hresponse, hnack, hack, implies_true,
    and_true, true_and]
  exact fun _ => ⟨hcanal, fun _ => ⟨hts, fun _ _ _ _ _ _ _ _ => ⟨hmulti, fun _ => hmultiTs⟩⟩⟩

/-- What acting on a frame reads. -/
theorem readsBelow_actOnFrame_iff (d : Driver) (hlen : len < 65536) :
    ReadsBelow m len (actOnFrame x (UInt16.ofNat len) d) ↔
      5 ≤ len ∧ 5 + declaredSize m ≤ len ∧
        ((checkCRC x.crc8 (UInt16.ofNat len)).run m = true →
          ReadsBelow m len (dispatch x (m 0) d)) := by
  have hcrc := readsBelow_checkCRC x m len hlen
  simp only [actOnFrame, readsBelow_bind, readsBelow_traceFrame, hcrc, true_and]
  cases (checkCRC x.crc8 (UInt16.ofNat len)).run m with
  | false => simp
  | true =>
      simp only [if_true, readsBelow_bind, readsBelow_get, run_get, forall_const]
      constructor
      · rintro ⟨⟨h1, h2⟩, -, h3⟩
        exact ⟨h1, h2, h3⟩
      · rintro ⟨h1, h2, h3⟩
        exact ⟨⟨h1, h2⟩, by omega, h3⟩

theorem readsBelow_of_covered (d : Driver) (hlen : len < 65536) (hc : FrameCovered x m len) :
    ReadsBelow m len (actOnFrame x (UInt16.ofNat len) d) :=
  (readsBelow_actOnFrame_iff x d hlen).mpr ⟨hc.header, hc.payload, fun hcrc =>
    readsBelow_dispatch x d hc.header hc.payload (hc.subFrames hcrc)⟩

/-! ## local reads need a covered frame -/

/-- The filter rejects every message and the receive queue is empty: nothing the
driver decodes takes room from what follows. -/
structure Driver.Shut (d : Driver) : Prop where
  filter : d.filter = 0x80000000
  mask : d.mask = 0x80000000
  receiveList : d.receiveList = []

theorem filter_bit31 (w : UInt32) (hw : w.toBitVec[31] = false) :
    (0x80000000 ^^^ w) &&& 0x80000000 ≠ 0 := by
  intro h
  have hbit := congrArg (fun v : UInt32 => v.toBitVec[31]) h
  simp [hw] at hbit

/-- Bit 31 of what `doFilter` compares is never set. -/
theorem doFilter_shut (msg : CanalMsg) : doFilter x 0x80000000 0x80000000 msg = false := by
  unfold doFilter
  rw [if_neg (by decide)]
  refine decide_eq_false (filter_bit31 _ ?_)
  split <;> split <;> simp

theorem Driver.Shut.hasRoom {d : Driver} (h : d.Shut) : d.hasRoom = true := by
  simp [Driver.hasRoom, h.receiveList, CAN4VSCP_MAX_RCVMSG]

theorem Driver.Shut.receive {d : Driver} (h : d.Shut) (msg : CanalMsg) : d.receive x msg = d := by
  simp [Driver.receive, h.filter, h.mask, doFilter_shut]

theorem Driver.Shut.tick {d : Driver} (h : d.Shut) : d.tick.Shut := ⟨h.filter, h.mask, h.receiveList⟩

theorem Driver.Shut.touch {d : Driver} (h : d.Shut) : (d.touch x).Shut :=
  ⟨h.filter, h.mask, h.receiveList⟩

@[simp] theorem run_ifRoom_shut {d : Driver} (h : d.Shut) (p : ReadProgram UInt8 Driver) :
    (ifRoom d p).run m = p.run m := by
  rw [ifRoom, if_pos h.hasRoom]

/-- A decode path leaves a shut driver shut. -/
def KeepsShut (m : Mem UInt8) (decode : Nat → UInt8 → Driver → ReadProgram UInt8 Driver) : Prop :=
  ∀ (pos : Nat) (dataLen : UInt8) (d : Driver), d.Shut → ((decode pos dataLen d).run m).Shut

theorem keepsShut_canal : KeepsShut m (canalDecode x) := by
  intro pos dataLen d h
  simp [canalDecode, h.tick.receive]
  exact h.tick

theorem keepsShut_multiTimestamp : KeepsShut m (multiTimestampDecode x) := by
  intro pos dataLen d h
  simp [multiTimestampDecode, h.receive]
  exact h

theorem keepsShut_multi {d : Driver} (h : d.Shut) : ((multiDecode x pos d).run m).Shut := by
  simp [multiDecode, h.tick.receive]
  exact h.tick

theorem guardedCovered_of_reads (d : Driver) (hd : d.Shut) (hhead : 0 < head)
    (hdec : DecodesAt m len head decode) (hkeep : KeepsShut m decode) (hpos : 5 ≤ pos)
    (h : ReadsBelow m len (guardedLoop head decode fuel pos left d)) :
    GuardedCovered m len head fuel pos left := by
  induction fuel generalizing pos left d with
  | zero => trivial
  | succ fuel ih =>
      intro hleft
      simp only [guardedLoop, if_neg (Nat.ne_of_gt hleft), readsBelow_bind, readsBelow_get, run_get,
        readsBelow_ite, readsBelow_ifRoom, run_ifRoom_shut hd] at h
      obtain ⟨hhd, -, hrest⟩ := h
      have hfits : pos + head ≤ len := by omega
      refine ⟨hfits, fun hdlc => ?_⟩
      obtain ⟨hdata, hnext⟩ := hrest hdlc
      exact ⟨(hdec pos _ d hpos hfits).mp (hdata hd.hasRoom),
        ih _ (hkeep pos _ d hd) (by omega) hnext⟩

theorem multiCovered_of_reads (d : Driver) (hd : d.Shut)
    (h : ReadsBelow m len (multiLoop x fuel pos left d)) : MultiCovered m len fuel pos left := by
  induction fuel generalizing pos left d with
  | zero => trivial
  | succ fuel ih =>
      intro hleft
      simp only [multiLoop, if_neg (Nat.ne_of_gt hleft), readsBelow_bind, readsBelow_get, run_get,
        readsBelow_ifRoom, run_ifRoom_shut hd] at h
      obtain ⟨hdec, hhd, hnext⟩ := h
      have hdata := hdec hd.hasRoom
      simp only [multiDecode, readsBelow_bind, readsBelow_getSlice, readsBelow_get, run_get] at hdata
      exact ⟨by omega, ih _ (keepsShut_multi x hd) hnext⟩

/-- A shut driver decodes every sub-frame it begins. -/
theorem subFramesCovered_of_reads (d : Driver) (hd : d.Shut)
    (h : ReadsBelow m len (dispatch x (m 0) d)) : SubFramesCovered x m len where
  canal := by
    intro hop
    rw [hop, dispatch_canal] at h
    simp only [canalFrame, readsBelow_bind, run_sizePayload] at h
    exact guardedCovered_of_reads _ (hd.touch x) (by omega) (decodesAt_canal x)
      (keepsShut_canal x) (by omega) h.2
  canalTimestamp := by
    intro hop
    rw [hop, dispatch_canalTimestamp] at h
    have hreads := (readsBelow_ifRoom m len _ _).mp h (hd.touch x).hasRoom
    simp only [readsBelow_bind, readsBelow_getSlice, readsBelow_get, run_get] at hreads
    omega
  multiFrameCanal := by
    intro hop
    rw [hop, dispatch_multiFrameCanal] at h
    simp only [multiFrameCanal, readsBelow_bind, run_sizePayload] at h
    exact multiCovered_of_reads x _ (hd.touch x) h.2
  multiFrameCanalTimestamp := by
    intro hop
    rw [hop, dispatch_multiFrameCanalTimestamp] at h
    simp only [multiFrameCanalTimestamp, readsBelow_bind, run_sizePayload] at h
    exact guardedCovered_of_reads _ (hd.touch x) (by omega) (decodesAt_multiTimestamp x)
      (keepsShut_multiTimestamp x) (by omega) h.2

/-! ## the exact condition -/

/-- A driver whose filter rejects everything. -/
def shutDriver : Driver := { Driver.new with filter := 0x80000000, mask := 0x80000000 }

/-- **Frame locality, exactly**: when the receive machine hands over the bytes it
has, whatever it read before, only these bytes are read, in every driver state,
if and only if they are a covered frame; and then two buffers that agree on the
frame give the same result. -/
theorem frameLocal_iff (rx : RxState) (hrx : rx.Live) (input : List ReadChar) :
    FrameLocal x (serialData2StateMachine rx input).1 ↔
      FrameCovered x (serialData2StateMachine rx input).1.bufferMsgRcv
        (serialData2StateMachine rx input).1.lengthMsgRcv := by
  set rx' := (serialData2StateMachine rx input).1 with hrx'
  have hlen : rx'.lengthMsgRcv ≤ bufferMsgRcvSize := by
    obtain ⟨used, -, hfeed, -⟩ := serialData2StateMachine_spec 0 rx input
    have hlive := (feed_live 0 rx used hrx).1
    rw [hfeed] at hlive
    exact hlive.length
  have h16 : rx'.lengthMsgRcv < 65536 := by
    simp only [bufferMsgRcvSize] at hlen
    omega
  constructor
  · intro h
    have hreads : ReadsBelow rx'.bufferMsgRcv rx'.lengthMsgRcv
        (actOnFrame x (UInt16.ofNat rx'.lengthMsgRcv) shutDriver) :=
      fun i hi => (h.reads shutDriver i hi).1
    obtain ⟨h1, h2, h3⟩ := (readsBelow_actOnFrame_iff x shutDriver h16).mp hreads
    exact ⟨h1, h2, fun hcrc => subFramesCovered_of_reads x shutDriver ⟨rfl, rfl, rfl⟩ (h3 hcrc)⟩
  · intro h
    have hreads := fun d => readsBelow_of_covered x d h16 h
    exact ⟨fun d i hi => ⟨hreads d i hi, Nat.lt_of_lt_of_le (hreads d i hi) hlen⟩,
      fun d m' hagree => (run_congr _ fun i hi => hagree i (hreads d i hi)).2⟩

/-- A CANAL frame with one sub-frame, received by a new driver. -/
theorem frameLocal_iff_canal :
    let r := serialData2StateMachine RxState.new
      ((Frame.encode crc8Update ⟨2, 0, 0, 6, [0, 0, 0, 5, 1, DLE]⟩).map ReadChar.byte)
    r.2.1 = true ∧
      (FrameLocal External.vscp r.1 ↔
        FrameCovered External.vscp r.1.bufferMsgRcv r.1.lengthMsgRcv) :=
  ⟨by decide +kernel, frameLocal_iff External.vscp RxState.new ⟨.inl rfl, Nat.zero_le _⟩ _⟩

/-- A frame that declares 13 payload bytes and has none: with a byte left over
from an earlier frame behind it, the driver queues other messages. -/
theorem oversized_not_frameLocal :
    let r := serialData2StateMachine RxState.new
      ((Frame.encode crc8Update ⟨2, 0, 0, 13, []⟩).map ReadChar.byte)
    r.2.1 = true ∧ ¬ FrameLocal External.vscp r.1 := by
  intro r
  refine ⟨by decide +kernel, fun h => ?_⟩
  have hlen : r.1.lengthMsgRcv = 6 := by decide +kernel
  have hstale := h.stale Driver.new (store r.1.bufferMsgRcv 9 9) fun i hi => by
    rw [hlen] at hi
    exact store_of_ne _ _ (by omega)
  have hqueue := congrArg (fun d : Driver => d.receiveList.length) hstale
  revert hqueue
  decide +kernel

end Can4vscp
