import Can4vscp.Sync
import Can4vscp.TransmitMessage

/-!
# Can4vscp.ReceiveThread

The receive thread over a stream: what the calls of `readSerialData` do is what
acting on the frames one by one does, however the bytes are cut into calls
(`readSerialData_spec`, `foldl_driverByte`).

For the two kinds of frames the adapter sends in answer to a CANAL frame this
gives the effect of the line bytes on the driver: an ACK leaves the receive
queue alone (`foldl_ack`), a CANAL frame with one message puts it there
(`foldl_canal`).  Whatever comes in, what the driver has sent stays sent
(`foldl_com`).
-/

namespace Can4vscp

open Memory ReadProgram

variable (x : External)

/-! ## byte by byte -/

/-- What the driver does when the receive machine has completed a frame. -/
def actOnReceived (d : Driver) (rx : RxState) : Driver :=
  (actOnFrame x (UInt16.ofNat rx.lengthMsgRcv) d).run rx.bufferMsgRcv

/-- One byte comes in. -/
def driverByte (s : RxState × Driver) (c : UInt8) : RxState × Driver :=
  match rxByte s.1 c with
  | (rx, true) => (rx, actOnReceived x s.2 rx)
  | (rx, false) => (rx, s.2)

/-- A byte that completes a frame leaves the machine between frames. -/
theorem rxByte_complete {s t : RxState} {c : UInt8} (h : rxByte s c = (t, true)) : t.Idle := by
  unfold rxByte at h
  split at h
  · split at h
    · cases h
    · split at h <;> cases h
  · split at h
    · cases h
    · split at h
      · cases h
      · split at h
        · cases h
          exact ⟨rfl, rfl⟩
        · cases h
  · cases h
  · cases h

/-- One call reads some first part of the input, and does what its bytes do one
by one. -/
theorem readSerialData_spec (rx : RxState) (d : Driver) (input : List ReadChar) :
    ∃ used, bytesOf input = used ++ bytesOf (readSerialData x rx d input).2.2 ∧
      used.foldl (driverByte x) (rx, d) =
        ((readSerialData x rx d input).1, (readSerialData x rx d input).2.1) := by
  induction input generalizing rx with
  | nil => exact ⟨[], by simp [readSerialData, serialData2StateMachine, bytesOf]⟩
  | cons r rest ih =>
      cases r with
      | noData => exact ⟨[], by simp [readSerialData, serialData2StateMachine, bytesOf]⟩
      | error e => exact ⟨[], by simp [readSerialData, serialData2StateMachine, bytesOf]⟩
      | byte c =>
          cases hb : rxByte rx c with
          | mk t done =>
            cases done with
            | true =>
                have hidle := rxByte_complete hb
                have ht : { t with rxMsgState := .none, rxMsgSubState := .none } = t := by
                  rw [← hidle.state, ← hidle.sub]
                refine ⟨[c], ?_, ?_⟩
                · simp [readSerialData, serialData2StateMachine, bytesOf, hb]
                · simp [readSerialData, serialData2StateMachine, driverByte, hb, actOnReceived, ht]
            | false =>
                obtain ⟨used, h1, h2⟩ := ih t
                have hcall : readSerialData x rx d (.byte c :: rest) = readSerialData x t d rest := by
                  simp only [readSerialData, serialData2StateMachine, hb]
                refine ⟨c :: used, ?_, ?_⟩
                · rw [hcall, bytesOf, h1, List.cons_append]
                · rw [hcall, List.foldl_cons, ← h2]
                  simp only [driverByte, hb]

/-- The bytes of a stream do what acting on the reported frames does. -/
theorem foldl_driverByte (k : Nat) (s : RxState) (d : Driver) (cs : List UInt8) :
    cs.foldl (driverByte x) (s, d) =
      ((feed k s cs).1, (feed k s cs).2.foldl (fun d r => actOnReceived x d r.rx) d) := by
  induction cs generalizing k s d with
  | nil => rfl
  | cons c cs ih =>
      cases hb : rxByte s c with
      | mk t done =>
        cases done with
        | true =>
            simp only [List.foldl_cons, driverByte, hb, feed]
            rw [ih (k + 1)]
            rfl
        | false =>
            simp only [List.foldl_cons, driverByte, hb, feed]
            rw [ih (k + 1)]
            rfl

/-! ## what the driver sends -/

/-- The ACK/NACK part answers the frame in transmit, or does nothing. -/
theorem run_answerFrame (d : Driver) (m : Mem UInt8) :
    (answerFrame x d).run m = d ∨ ∃ bAck, (answerFrame x d).run m = d.answer bAck := by
  unfold answerFrame
  split
  · simp only [run_bind, run_get]
    split
    · simp only [run_bind, run_get]
      split
      · simp only [run_bind, run_get]
        split
        · exact .inr ⟨true, rfl⟩
        · split
          · exact .inr ⟨false, rfl⟩
          · exact .inl rfl
      · exact .inl rfl
    · exact .inl rfl
  · exact .inl rfl

/-- A decode path sends nothing. -/
def SendsNothing (m : Mem UInt8) (decode : Nat → UInt8 → Driver → ReadProgram UInt8 Driver) : Prop :=
  ∀ pos dataLen d, ((decode pos dataLen d).run m).com = d.com

section
variable {x} {m : Mem UInt8}

theorem sendsNothing_canal : SendsNothing m (canalDecode x) := by
  intro pos dataLen d
  simp [canalDecode, Driver.receive_com, Driver.tick]

theorem sendsNothing_multiTimestamp : SendsNothing m (multiTimestampDecode x) := by
  intro pos dataLen d
  simp [multiTimestampDecode, Driver.receive_com]

theorem ifRoom_com {d : Driver} {p : ReadProgram UInt8 Driver} (h : (p.run m).com = d.com) :
    ((ifRoom d p).run m).com = d.com := by
  unfold ifRoom
  split
  · exact h
  · rfl

theorem guardedLoop_com {head : Nat} {decode : Nat → UInt8 → Driver → ReadProgram UInt8 Driver}
    (hdecode : SendsNothing m decode) (fuel pos left : Nat) (d : Driver) :
    ((guardedLoop head decode fuel pos left d).run m).com = d.com := by
  induction fuel generalizing pos left d with
  | zero => rfl
  | succ fuel ih =>
      unfold guardedLoop
      split
      · rfl
      · simp only [run_bind, run_get]
        split
        · rfl
        · rw [run_bind, ih]
          exact ifRoom_com (hdecode pos _ d)

theorem multiLoop_com (fuel pos left : Nat) (d : Driver) :
    ((multiLoop x fuel pos left d).run m).com = d.com := by
  induction fuel generalizing pos left d with
  | zero => rfl
  | succ fuel ih =>
      unfold multiLoop
      split
      · rfl
      · simp only [run_bind, ih]
        exact ifRoom_com (by simp [multiDecode, Driver.receive_com, Driver.tick])

theorem canalTimestampFrame_com (d : Driver) : ((canalTimestampFrame x d).run m).com = d.com := by
  refine ifRoom_com ?_
  simp [Driver.receive_com]

theorem addToResponseQueue_com (d : Driver) : ((addToResponseQueue x d).run m).com = d.com := by
  simp only [addToResponseQueue, run_bind, run_pure]
  cases run_answerFrame x d m with
  | inl hsame => rw [hsame]; rfl
  | inr hanswer =>
      obtain ⟨bAck, hanswer⟩ := hanswer
      rw [hanswer]
      rfl

/-- What has been sent stays sent, whatever the frame. -/
theorem dispatch_com (op : UInt8) (d : Driver) : d.com <+: ((dispatch x op d).run m).com := by
  have hkeep : ∀ {p : ReadProgram UInt8 Driver}, (p.run m).com = (d.touch x).com →
      d.com <+: (p.run m).com := fun h => h ▸ List.prefix_refl _
  refine dispatch_rel (R := fun p _ => d.com <+: (p.run m).com) (e := d) op
    ?_ ?_ ?_ ?_ ?_ ?_ ?_ (List.prefix_refl _)
  · exact List.prefix_append _ _
  · exact List.prefix_append _ _
  · exact hkeep (addToResponseQueue_com (d.touch x))
  · exact hkeep (guardedLoop_com sendsNothing_canal _ _ _ _)
  · exact hkeep (canalTimestampFrame_com (d.touch x))
  · exact hkeep (multiLoop_com _ _ _ _)
  · exact hkeep (guardedLoop_com sendsNothing_multiTimestamp _ _ _ _)

/-- What has been sent stays sent, whatever bytes come in. -/
theorem foldl_com (s : RxState × Driver) (cs : List UInt8) :
    s.2.com <+: (cs.foldl (driverByte x) s).2.com := by
  induction cs generalizing s with
  | nil => exact List.prefix_refl _
  | cons c cs ih =>
      refine List.IsPrefix.trans ?_ (ih (driverByte x s c))
      unfold driverByte
      split
      · next rx _ =>
          simp only [actOnReceived, actOnFrame, run_bind]
          split
          · rw [run_bind]
            exact dispatch_com _ _
          · rw [run_bind]
            exact List.prefix_refl _
      · exact List.prefix_refl _

end

/-! ## one frame -/

/-- **A frame comes in**: its line bytes make a driver that is between frames act
on it. -/
theorem foldl_frame {s : RxState} (d : Driver) (f : SerialFrame) (h : s.Live) (hidle : s.Idle) :
    ∃ rx, (f.encode x.crc8).foldl (driverByte x) (s, d) =
        (rx, (dispatch x f.frameType d).run rx.bufferMsgRcv) ∧
      rx.Live ∧ rx.Idle ∧ f.ReadFrom rx.bufferMsgRcv := by
  obtain ⟨r, hfeed, -, hintact, hrIdle⟩ := feed_frame x.crc8 0 s f h hidle.sub
  have hlive : r.rx.Live := by
    have := (feed_live 0 s (f.encode x.crc8) h).1
    rwa [hfeed] at this
  have hlen : r.rx.lengthMsgRcv = 6 + f.payload.length := by
    rw [← length_slice r.rx.bufferMsgRcv 0 r.rx.lengthMsgRcv, ← Frame.length_content x.crc8]
    exact congrArg List.length hintact.content
  have hread : f.ReadFrom r.rx.bufferMsgRcv :=
    Frame.readFrom_content x.crc8 (by rw [← hlen]; exact hintact.content)
  refine ⟨r.rx, ?_, hlive, hrIdle, hread⟩
  rw [foldl_driverByte x 0, hfeed]
  simp [actOnReceived, actOnFrame, hintact.crc, hread.frameType]

/-! ## the frames of the adapter -/

/-- The driver keeps its receive queue, lets everything through as before, and
sends nothing. -/
structure Driver.SameReceive (d e : Driver) : Prop where
  receiveList : e.receiveList = d.receiveList
  mask : e.mask = d.mask
  com : e.com = d.com

/-- **A response comes in**: it goes to the end of the response queue. -/
theorem run_dispatch_response (d : Driver) {t : FrameType} (ht : t.response = true) {m : Mem UInt8}
    {f : Frame} (hread : f.ReadFrom m) (hsize : f.declaredSizePayload.toNat = f.payload.length)
    (hlen : f.payload.length ≤ 512) :
    ((dispatch x (x.code t) d).run m).responseList = pushResponse d.responseList
        ⟨f.frameType, f.seq, f.channel, f.declaredSizePayload, f.payload⟩ ∧
      d.SameReceive ((dispatch x (x.code t) d).run m) := by
  have hshort : ¬ f.payload.length > 512 := by omega
  have hn : UInt16.ofNat f.payload.length = f.declaredSizePayload := by
    rw [← hsize, UInt16.ofNat_toNat]
  simp only [dispatch_response x d ht, addToResponseQueue, sizePayload, run_bind, run_get, run_pure,
    run_getSlice, hread.frameType, hread.channel, hread.seq, hread.size, hsize, if_neg hshort,
    hread.payload, hn]
  cases run_answerFrame x (d.touch x) m with
  | inl hsame =>
      rw [hsame]
      exact ⟨rfl, rfl, rfl, rfl⟩
  | inr hanswer =>
      obtain ⟨bAck, hanswer⟩ := hanswer
      rw [hanswer]
      exact ⟨rfl, rfl, rfl, rfl⟩

/-- Nothing is left of the payload. -/
theorem guardedLoop_end (head : Nat) (decode : Nat → UInt8 → Driver → ReadProgram UInt8 Driver)
    (fuel posFrame : Nat) (d : Driver) : guardedLoop head decode fuel posFrame 0 d = pure d := by
  cases fuel with
  | zero => rfl
  | succ fuel => simp [guardedLoop]

/-- The last sub-frame of a payload, also if it is cut off. -/
theorem run_guardedLoop_last {m : Mem UInt8} {head : Nat}
    (decode : Nat → UInt8 → Driver → ReadProgram UInt8 Driver)
    (fuel posFrame : Nat) (d : Driver) {dlc : UInt8} (hm : m (posFrame + (head - 1)) = dlc)
    (hdlc : dlc ≤ 8) {left : Nat} (hleft : 0 < left) (hlast : left ≤ head + dlc.toNat) :
    (guardedLoop head decode (fuel + 1) posFrame left d).run m =
      (ifRoom d (decode posFrame dlc d)).run m := by
  rw [guardedLoop, if_neg (Nat.pos_iff_ne_zero.mp hleft)]
  simp only [run_bind, run_get, hm]
  rw [if_neg (UInt8.not_lt.mpr hdlc)]
  simp only [run_bind, Nat.sub_eq_zero_of_le hlast, guardedLoop_end, run_pure]

/-- A CANAL frame with one message puts it into the receive queue. -/
theorem run_dispatch_canal (d : Driver) {m : Mem UInt8} {f : Frame} (hread : f.ReadFrom m)
    {id : UInt32} {dlc : UInt8} {data : List UInt8} (hid : id < 0x20000000) (hdlc : dlc ≤ 8)
    (hdata : data.length = dlc.toNat) (hpayload : f.payload = idBytes id ++ [dlc] ++ data)
    (hsize : f.declaredSizePayload.toNat = 5 + dlc.toNat)
    (hroom : d.receiveList.length < CAN4VSCP_MAX_RCVMSG) (hmask : d.mask = 0) :
    ∃ timestamp, ((dispatch x (x.code .canal) d).run m).receiveList = d.receiveList ++
        [⟨x.CANAL_IDFLAG_EXTENDED, 0, id, dlc, data, timestamp⟩] ∧
      ((dispatch x (x.code .canal) d).run m).mask = 0 ∧
      ((dispatch x (x.code .canal) d).run m).com = d.com := by
  have hparts : slice m 5 ((idBytes id ++ [dlc]).length + data.length) =
      idBytes id ++ [dlc] ++ data := by
    rw [← List.length_append, ← hpayload, hread.payload]
  obtain ⟨hhead, hbytes⟩ := slice_eq_append m 5 hparts
  rw [List.length_append] at hhead
  obtain ⟨hword, hlast⟩ := slice_eq_append m 5 hhead
  have h9 : m 9 = dlc := by simpa [slice] using hlast
  have hread10 : slice m 10 dlc.toNat = data := by simpa [hdata] using hbytes
  have hroom' : (d.touch x).hasRoom = true := decide_eq_true hroom
  -- one pass takes the whole payload
  have hloop : (canalFrame x (d.touch x)).run m = (canalDecode x 5 dlc (d.touch x)).run m := by
    have hlast := run_guardedLoop_last (canalDecode x) (4 + dlc.toNat) 5 (d.touch x) h9 hdlc
      (by omega) (Nat.le_refl (5 + dlc.toNat))
    rw [show 4 + dlc.toNat + 1 = 5 + dlc.toNat by omega, ifRoom, if_pos hroom'] at hlast
    simp only [canalFrame, sizePayload, run_bind, run_get, run_pure]
    rw [hread.size, hsize, hlast]
  refine ⟨x.getClockMicroSeconds (d.touch x).ticks, ?_⟩
  rw [dispatch_canal, hloop]
  simp only [canalDecode, run_bind, run_getSlice, run_pure, run_word29 hword hid, hread10]
  simp [Driver.receive, Driver.tick, Driver.touch, hmask, doFilter_mask_zero]

/-! ## the answers on the line -/

/-- **A response comes in**: it is put into the response queue, and the receive
queue stays as it is. -/
theorem foldl_response {s : RxState} (d : Driver) (f : SerialFrame) (h : s.Live) (hidle : s.Idle)
    {t : FrameType} (ht : t.response = true) (htype : f.frameType = x.code t)
    (hsize : f.declaredSizePayload.toNat = f.payload.length) (hlen : f.payload.length ≤ 512) :
    ∃ rx d', (f.encode x.crc8).foldl (driverByte x) (s, d) = (rx, d') ∧ rx.Live ∧ rx.Idle ∧
      d'.responseList = pushResponse d.responseList
        ⟨f.frameType, f.seq, f.channel, f.declaredSizePayload, f.payload⟩ ∧
      d.SameReceive d' := by
  obtain ⟨rx, hfold, hlive, hrxIdle, hread⟩ := foldl_frame x d f h hidle
  rw [htype] at hfold
  exact ⟨rx, _, hfold, hlive, hrxIdle, run_dispatch_response x d ht hread hsize hlen⟩

/-- An ACK leaves the receive queue as it is. -/
theorem foldl_ack {s : RxState} (d : Driver) (seq : UInt8) (h : s.Live) (hidle : s.Idle) :
    ∃ rx d', (Frame.encode x.crc8 ⟨x.code .ack, 0, seq, 0, []⟩).foldl (driverByte x) (s, d) =
        (rx, d') ∧ rx.Live ∧ rx.Idle ∧ d.SameReceive d' := by
  let f : SerialFrame :=
    ⟨⟨x.code .ack, 0, seq, 0, []⟩, code_ne_DLE x x.ack (by decide), by simp [DLE], by simp [bufferMsgRcvSize]⟩
  obtain ⟨rx, d', hfold, hlive, hrxIdle, -, hsame⟩ :=
    foldl_response x d f h hidle (t := .ack) rfl rfl rfl (Nat.zero_le _)
  exact ⟨rx, d', hfold, hlive, hrxIdle, hsame⟩

/-- **A CANAL frame comes in**: its message goes to the end of the receive queue. -/
theorem foldl_canal {s : RxState} {d : Driver} (seq : UInt8) (h : s.Live) (hidle : s.Idle)
    {id : UInt32} {dlc : UInt8} {data : List UInt8} (hid : id < 0x20000000) (hdlc : dlc ≤ 8)
    (hdata : data.length = dlc.toNat) (hroom : d.receiveList.length < CAN4VSCP_MAX_RCVMSG)
    (hmask : d.mask = 0) :
    ∃ rx d' timestamp,
      (Frame.encode x.crc8 ⟨x.code .canal, 0, seq, UInt16.ofNat (4 + 1 + dlc.toNat),
        idBytes id ++ [dlc] ++ data⟩).foldl (driverByte x) (s, d) = (rx, d') ∧
      rx.Live ∧ rx.Idle ∧ d'.mask = 0 ∧ d'.com = d.com ∧ d'.receiveList = d.receiveList ++
        [⟨x.CANAL_IDFLAG_EXTENDED, 0, id, dlc, data, timestamp⟩] := by
  have hn : dlc.toNat ≤ 8 := UInt8.le_iff_toNat_le.mp hdlc
  let f : SerialFrame :=
    ⟨⟨x.code .canal, 0, seq, UInt16.ofNat (4 + 1 + dlc.toNat), idBytes id ++ [dlc] ++ data⟩,
      code_ne_DLE x x.canal (by decide), by simp [DLE], by simp [bufferMsgRcvSize, hdata]; omega⟩
  obtain ⟨rx, hfold, hlive, hrxIdle, hread⟩ := foldl_frame x d f h hidle
  have hsize : f.declaredSizePayload.toNat = 5 + dlc.toNat :=
    UInt16.toNat_ofNat_of_lt' (by simp only [UInt16.size]; omega)
  obtain ⟨timestamp, hlist, hmask', hcom⟩ :=
    run_dispatch_canal x d hread hid hdlc hdata rfl hsize hroom hmask
  exact ⟨rx, _, timestamp, hfold, hlive, hrxIdle, hmask', hcom, hlist⟩

end Can4vscp
