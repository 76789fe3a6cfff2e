import Can4vscp.Receiver

/-!
# Can4vscp.Sync

The encoder and the receive machine agree, and the machine finds back to the
frame boundaries by itself.

A frame fed to a receiver without a pending DLE is reported intact
(`feed_frame`), whatever the receiver was doing.  A pending DLE swallows the
DLE of the frame's DLE STX; the rest of the frame is then read in step, so the
machine is between frames when the frame ends and at most one junk frame has
been reported (`feed_frame_lost`).  The stream theorem follows by induction
over the frames.
-/

namespace Can4vscp

open Memory ByteStuffing ReadProgram

/-- A frame the receiver has room for, with a frame type and a channel that are
not mistaken for a delimiter. -/
structure SerialFrame extends Frame where
  frameType_ne : frameType ≠ DLE
  channel_ne : channel ≠ DLE
  fits : 6 + payload.length ≤ bufferMsgRcvSize

variable (crc8 : UInt8 → UInt8 → UInt8)

/-- A report shows a frame intact: the received bytes are its content, and the
CRC check accepts them. -/
structure Intact (r : Report) (f : Frame) : Prop where
  content : r.rx.content = f.content crc8
  crc : (checkCRC crc8 (UInt16.ofNat r.rx.lengthMsgRcv)).run r.rx.bufferMsgRcv = true

/-- The line form of a serial frame. -/
theorem SerialFrame.encode_eq (f : SerialFrame) :
    f.encode crc8 = [DLE, STX] ++ stuff DLE (f.content crc8) ++ [DLE, ETX] := by
  have h := f.fits
  simp only [bufferMsgRcvSize] at h
  rw [Frame.encode_eq crc8 f.toFrame (by omega), Frame.bytes_eq_stuff _ _ f.frameType_ne f.channel_ne]

/-! ## delimiters -/

/-- A DLE out of a pending DLE is remembered, between frames and inside one. -/
theorem rxByte_dle (s : RxState) (h : s.Live) (hsub : s.rxMsgSubState = .none) :
    rxByte s DLE = ({ s with rxMsgSubState := .dle }, false) := by
  rcases h.state with hs | hs <;> simp [rxByte, hs, hsub]

/-- DLE STX begins a frame. -/
theorem feed_dle_stx (k : Nat) (s : RxState) (h : s.Live) (hsub : s.rxMsgSubState = .none) :
    feed k s [DLE, STX] = (s.start, []) := by
  simp only [feed, rxByte_dle s h hsub]
  rcases h.state with hs | hs <;> simp [rxByte, hs, Ne.symm STX_ne_DLE, RxState.start]

/-- DLE ETX inside a frame reports it. -/
theorem feed_dle_etx (k : Nat) (s : RxState) (hs : s.rxMsgState = .stx)
    (hsub : s.rxMsgSubState = .none) :
    feed k s [DLE, ETX] =
      ({ s with rxMsgState := .none, rxMsgSubState := .none },
        [⟨k + 2, { s with rxMsgState := .none, rxMsgSubState := .none }⟩]) := by
  simp only [feed, rxByte_stx_dle s hs hsub]
  simp [rxByte, hs, Ne.symm ETX_ne_DLE, Ne.symm ETX_ne_STX]

/-- DLE ETX between frames reports nothing. -/
theorem feed_dle_etx_none (k : Nat) (s : RxState) (hs : s.rxMsgState = .none)
    (hsub : s.rxMsgSubState = .none) : feed k s [DLE, ETX] = (s.reset, []) := by
  simp [feed, rxByte, hs, hsub, Ne.symm ETX_ne_DLE, Ne.symm ETX_ne_STX, RxState.reset]

/-- DLE ETX from a receiver in step ends between frames, with at most one
report, at its last byte. -/
theorem feed_dle_etx_aligned (k : Nat) (s : RxState) (h : s.Live) (hsub : s.rxMsgSubState = .none) :
    (feed k s [DLE, ETX]).1.Idle ∧ (feed k s [DLE, ETX]).2.length ≤ 1 ∧
      ∀ r ∈ (feed k s [DLE, ETX]).2, r.consumed = k + 2 := by
  rcases h.state with hs | hs
  · rw [feed_dle_etx_none k s hs hsub]
    exact ⟨⟨rfl, rfl⟩, by simp, by simp⟩
  · rw [feed_dle_etx k s hs hsub]
    exact ⟨⟨rfl, rfl⟩, by simp, by simp⟩

/-! ## one frame -/

/-- **A frame is received**: without a pending DLE, the frame is the one report,
at its last byte, and it is intact. -/
theorem feed_frame (k : Nat) (s : RxState) (f : SerialFrame) (h : s.Live)
    (hsub : s.rxMsgSubState = .none) :
    ∃ r, feed k s (f.encode crc8) = (r.rx, [r]) ∧ r.consumed = k + (f.encode crc8).length ∧
      Intact crc8 r f.toFrame ∧ r.rx.Idle := by
  have hlen := f.toFrame.length_content crc8
  have hroom : (s.start).lengthMsgRcv + (f.content crc8).length ≤ bufferMsgRcvSize := by
    have := f.fits
    simp only [RxState.start]
    omega
  let t : RxState := { s.start with
    rxMsgState := .none
    bufferMsgRcv := storeAll s.bufferMsgRcv 0 (f.content crc8)
    lengthMsgRcv := 6 + f.payload.length }
  have hslice : slice (storeAll s.bufferMsgRcv 0 (f.content crc8)) 0 (6 + f.payload.length) =
      f.content crc8 := by
    rw [← hlen]
    exact slice_storeAll _ _ _
  refine ⟨⟨k + (f.encode crc8).length, t⟩, ?_, rfl, ⟨hslice, ?_⟩, ⟨rfl, rfl⟩⟩
  · rw [f.encode_eq crc8, feed_append, feed_append, feed_dle_stx k s h hsub]
    rw [feed_stuff _ s.start (f.content crc8) rfl rfl hroom]
    dsimp only
    rw [feed_dle_etx _ _ rfl rfl]
    simp [t, RxState.start, hlen, Nat.add_assoc]
  · have hfits := f.fits
    simp only [bufferMsgRcvSize] at hfits
    exact checkCRC_content crc8 t.bufferMsgRcv f.toFrame (by omega) hslice

/-- **A frame is lost**: with a pending DLE the frame's first byte completes a
doubled DLE or is dropped.  When the frame ends the receiver is between frames;
at most one report was made, at the latest at the frame's last byte. -/
theorem feed_frame_lost (k : Nat) (s : RxState) (f : SerialFrame) (h : s.Live)
    (hsub : s.rxMsgSubState = .dle) :
    (feed k s (f.encode crc8)).1.Idle ∧ (feed k s (f.encode crc8)).2.length ≤ 1 ∧
      ∀ r ∈ (feed k s (f.encode crc8)).2, r.consumed ≤ k + (f.encode crc8).length := by
  -- the pending DLE and the first byte
  have hfirst : ∃ t : RxState, rxByte s DLE = (t, false) ∧ t.Live ∧ t.rxMsgSubState = .none := by
    have hlive := (rxByte_live s DLE h).1
    rcases h.state with hs | hs
    · refine ⟨s.reset, ?_, ⟨.inl rfl, Nat.zero_le _⟩, rfl⟩
      simp [rxByte, hs, hsub, STX_ne_DLE]
    · exact ⟨s.data DLE, rxByte_stx_dle_dle s hs hsub, (data_live s DLE h).1, data_sub s DLE⟩
  obtain ⟨t, hbyte, htlive, htsub⟩ := hfirst
  -- the rest of the opening and the body are read in step
  have hsplit : f.encode crc8 = [DLE] ++ (stuff DLE (STX :: f.content crc8) ++ [DLE, ETX]) := by
    rw [f.encode_eq crc8, stuff_cons, stuff1_of_ne STX_ne_DLE]
    simp
  have hopen : feed k s [DLE] = (t, []) := by simp [feed, hbyte]
  obtain ⟨hbsub, hbrep⟩ := feed_stuff_aligned (k + 1) t (STX :: f.content crc8) htlive htsub
  have hblive := (feed_live (k + 1) t (stuff DLE (STX :: f.content crc8)) htlive).1
  obtain ⟨hidle, hone, hpos⟩ := feed_dle_etx_aligned
    (k + 1 + (stuff DLE (STX :: f.content crc8)).length) _ hblive hbsub
  rw [hsplit, feed_append, hopen, feed_append, List.length_singleton, hbrep]
  refine ⟨hidle, by simpa using hone, fun r hr => ?_⟩
  have hr' := hpos r (by simpa using hr)
  simp only [List.length_append, List.length_cons, List.length_nil] at hr' ⊢
  omega

/-! ## streams of frames -/

/-- The line bytes of a sequence of frames. -/
def stream (fs : List SerialFrame) : List UInt8 :=
  fs.flatMap fun f => f.encode crc8

/-- From between frames, a stream of frames is reported frame by frame. -/
theorem feed_stream (k : Nat) (s : RxState) (fs : List SerialFrame) (h : s.Live) (hidle : s.Idle) :
    List.Forall₂ (fun r (f : SerialFrame) => Intact crc8 r f.toFrame)
        (feed k s (stream crc8 fs)).2 fs ∧
      (feed k s (stream crc8 fs)).1.Idle := by
  induction fs generalizing k s with
  | nil => exact ⟨.nil, hidle⟩
  | cons f fs ih =>
      obtain ⟨r, hfeed, -, hintact, hrIdle⟩ := feed_frame crc8 k s f h hidle.sub
      have hrlive : r.rx.Live := by
        have := (feed_live k s (f.encode crc8) h).1
        rwa [hfeed] at this
      obtain ⟨hrest, hend⟩ := ih (k + (f.encode crc8).length) r.rx hrlive hrIdle
      rw [stream, List.flatMap_cons, feed_append, hfeed]
      exact ⟨.cons hintact hrest, hend⟩

/-- However many calls are made, memory behind the buffer is untouched. -/
theorem rxCalls_sameBeyond (n k : Nat) (s : RxState) (input : List ReadChar) (h : s.Live) :
    (rxCalls n k s input).1.Live ∧ SameBeyond s (rxCalls n k s input).1 := by
  induction n generalizing k s input with
  | zero => exact ⟨h, fun _ _ => rfl⟩
  | succ n ih =>
      obtain ⟨used, -, h2, -⟩ := serialData2StateMachine_spec k s input
      have hcall : (serialData2StateMachine s input).1 = (feed k s used).1 := by rw [h2]
      obtain ⟨hlive, hsame⟩ := feed_live k s used h
      rw [← hcall] at hlive hsame
      obtain ⟨hlive', hsame'⟩ := ih (k + ((bytesOf input).length -
        (bytesOf (serialData2StateMachine s input).2.2).length))
        (serialData2StateMachine s input).1 (serialData2StateMachine s input).2.2 hlive
      exact ⟨hlive', hsame.trans hsame'⟩

/-- **Framing round trip and self-synchronisation.**  Frames `f₁ :: fs` are sent
to a receiver in any state, and read in any cuts.  The reports are those of
`f₁` followed by exactly one intact report for each frame of `fs`, in order.
Without a pending DLE `f₁` is reported intact as well; otherwise at most one
junk frame is reported in its place, not after its end.  The receiver never
writes behind its buffer, reads everything and ends between frames. -/
theorem rxCalls_stream (f₁ : SerialFrame) (fs : List SerialFrame)
    (rx : RxState) (hrx : rx.Live) (input : List ReadChar)
    (hinput : bytesOf input = stream crc8 (f₁ :: fs)) (n : Nat) (hn : input.length ≤ n) :
    (∃ first rest, (rxCalls n 0 rx input).2.1 = first ++ rest ∧
      List.Forall₂ (fun r (f : SerialFrame) => Intact crc8 r f.toFrame) rest fs ∧
      first.length ≤ 1 ∧ (∀ r ∈ first, r.consumed ≤ (f₁.encode crc8).length) ∧
      (rx.rxMsgSubState = .none → ∃ r, first = [r] ∧ Intact crc8 r f₁.toFrame)) ∧
    (∀ m, SameBeyond rx (rxCalls m 0 rx input).1) ∧
    (rxCalls n 0 rx input).1.Idle ∧ (rxCalls n 0 rx input).2.2 = [] := by
  rw [rxCalls_eq n 0 rx input hn, hinput, stream, List.flatMap_cons, feed_append, Nat.zero_add]
  set t := (feed 0 rx (f₁.encode crc8)).1 with ht
  have hlive : t.Live := (feed_live 0 rx (f₁.encode crc8) hrx).1
  have hbeyond : ∀ m, SameBeyond rx (rxCalls m 0 rx input).1 :=
    fun m => (rxCalls_sameBeyond m 0 rx input hrx).2
  cases hsub : rx.rxMsgSubState with
  | none =>
      obtain ⟨r, hfeed, hpos, hintact, hidle⟩ := feed_frame crc8 0 rx f₁ hrx hsub
      have htr : t = r.rx := by rw [ht, hfeed]
      rw [htr] at hlive ⊢
      obtain ⟨hrest, hend⟩ :=
        feed_stream crc8 (f₁.encode crc8).length r.rx fs hlive hidle
      refine ⟨⟨[r], _, by rw [hfeed]; rfl, hrest, Nat.le_refl 1, ?_, fun _ => ⟨r, rfl, hintact⟩⟩,
        hbeyond, hend, rfl⟩
      intro r' hr'
      rw [List.mem_singleton.mp hr']
      omega
  | dle =>
      obtain ⟨hidle, hone, hpos⟩ := feed_frame_lost crc8 0 rx f₁ hrx hsub
      obtain ⟨hrest, hend⟩ := feed_stream crc8 (f₁.encode crc8).length t fs hlive hidle
      refine ⟨⟨_, _, rfl, hrest, hone, fun r hr => ?_, fun h => by cases h⟩, hbeyond, hend, rfl⟩
      have := hpos r hr
      omega

/-- Two frames with DLEs in them, sent to a receiver with a pending DLE and read
in two calls. -/
theorem rxCalls_stream_two :
    let f₁ : SerialFrame := ⟨⟨2, 0, DLE, 1, [DLE]⟩, by decide, by decide, by decide⟩
    let f₂ : SerialFrame := ⟨⟨2, 0, 1, 2, [DLE, ETX]⟩, by decide, by decide, by decide⟩
    let rx : RxState := ⟨.stx, .dle, fun _ => 0, 3⟩
    let input := (stream crc8Update [f₁, f₂]).map ReadChar.byte
    ∃ first rest, (rxCalls (input.length + 1) 0 rx (.noData :: input)).2.1 = first ++ rest ∧
      List.Forall₂ (fun r (f : SerialFrame) => Intact crc8Update r f.toFrame) rest [f₂] := by
  intro f₁ f₂ rx input
  obtain ⟨⟨first, rest, h, hrest, -⟩, -⟩ := rxCalls_stream crc8Update f₁ [f₂] rx
    ⟨.inr rfl, by decide⟩ (.noData :: input) (by decide +kernel) (input.length + 1)
    (Nat.le_refl _)
  exact ⟨first, rest, h, hrest⟩

end Can4vscp
