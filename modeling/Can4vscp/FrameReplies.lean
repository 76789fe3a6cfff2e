import Can4vscp.Filter

/-!
# Can4vscp.FrameReplies

What the receive thread does with a frame, apart from the messages in it.

A NOOP frame is answered with an ACK and a frame of a kind the driver does not handle with a
NACK, both with its sequence number.  A response goes to the response queue, and if it is the
ACK or NACK the transmit thread waits for, it settles the attempt.  `frames_replied` says
that this is all: for every list of frames the adapter sends, however its bytes are cut into
calls of `readSerialData`, and after any number of calls.
-/

namespace Can4vscp

open Memory ReadProgram

/-! ## the effect of a frame -/

/-- The kinds of frames the driver does not handle. -/
def FrameType.refused : FrameType → Bool
  | .vscpEvent | .vscpEventTimestamp | .configure | .poll | .noEvent => true
  | .multiFrameVscp | .multiFrameVscpTimestamp => true
  | _ => false

def FrameType.all : List FrameType :=
  [.noop, .vscpEvent, .canal, .configure, .poll, .noEvent, .multiFrameVscp, .multiFrameCanal,
    .capsRequest, .capsResponse, .vscpEventTimestamp, .canalTimestamp, .multiFrameVscpTimestamp,
    .multiFrameCanalTimestamp, .sentAck, .sentNack, .ack, .nack, .error, .commandReply, .command]

theorem FrameType.mem_all (t : FrameType) : t ∈ FrameType.all := by
  cases t <;> simp [FrameType.all]

variable (x : External)

/-- The kind of frame a code stands for. -/
def External.kind (op : UInt8) : Option FrameType := FrameType.all.find? fun t => x.code t == op

theorem External.kind_eq_some {op : UInt8} {t : FrameType} (h : x.kind op = some t) :
    op = x.code t := by
  have hfound := List.find?_some h
  exact (beq_iff_eq.mp hfound).symm

theorem External.kind_eq_none {op : UInt8} (h : x.kind op = none) (t : FrameType) :
    x.code t ≠ op := by
  have hnot := List.find?_eq_none.mp h t t.mem_all
  simpa using hnot

theorem External.kind_code (t : FrameType) : x.kind (x.code t) = some t := by
  cases h : x.kind (x.code t) with
  | none => exact absurd rfl (x.kind_eq_none h t)
  | some u => rw [x.code_injective (x.kind_eq_some h)]

namespace Frame

/-- What is sent in return. -/
def reply (f : Frame) : Option (List UInt8) :=
  match x.kind f.frameType with
  | some .noop => some (Frame.encode x.crc8 ⟨x.code .ack, 0, f.seq, 0, []⟩)
  | some t => if t.refused then some (Frame.encode x.crc8 ⟨x.code .nack, 0, f.seq, 0, []⟩) else none
  | none => none

/-- What is put into the response queue. -/
def response (f : Frame) : Option CmdResponseMsg :=
  if (x.kind f.frameType).any FrameType.response then
    some ⟨f.frameType, f.seq, f.channel, f.declaredSizePayload, f.payload.take 512⟩
  else none

/-- What becomes of the attempt in transmit: its response info and the tokens. -/
def settle (initFlag : UInt32) (p : MsgResponseInfo × Nat) (f : Frame) : MsgResponseInfo × Nat :=
  if initFlag &&& CAN4VSCP_FLAG_ENABLE_WAIT_FOR_ACK ≠ 0 ∧ p.1.bWaitingForAckNack ∧
      p.1.channel = f.channel ∧ p.1.seq = f.seq then
    if x.code .ack = f.frameType then
      ({ p.1 with bAck := true, bWaitingForAckNack := false }, p.2 + 1)
    else if x.code .nack = f.frameType then
      ({ p.1 with bAck := false, bWaitingForAckNack := false }, p.2 + 1)
    else p
  else p

end Frame

/-- What a list of frames makes of a driver. -/
structure Replied (fs : List Frame) (d e : Driver) : Prop where
  initFlag : e.initFlag = d.initFlag
  com : e.com = d.com ++ fs.filterMap (Frame.reply x)
  responseList : e.responseList = (fs.filterMap (Frame.response x)).foldl pushResponse d.responseList
  settled : (e.msgResponseInfo, e.transmitAckNackSem) =
    fs.foldl (Frame.settle x d.initFlag) (d.msgResponseInfo, d.transmitAckNackSem)

variable {x} {d e e' : Driver} {m : Mem UInt8} {f : Frame} {fs gs : List Frame}

theorem Replied.nil (d : Driver) : Replied x [] d d := ⟨rfl, by simp, rfl, rfl⟩

theorem Replied.append (h : Replied x fs d e) (h' : Replied x gs e e') : Replied x (fs ++ gs) d e' where
  initFlag := h'.initFlag.trans h.initFlag
  com := by rw [h'.com, h.com, List.filterMap_append, List.append_assoc]
  responseList := by rw [h'.responseList, h.responseList, List.filterMap_append, List.foldl_append]
  settled := by rw [h'.settled, h.settled, h.initFlag, List.foldl_append]

/-! ## messages -/

/-- A driver with the same replies, responses and attempt. -/
structure Driver.SameReplies (d e : Driver) : Prop where
  initFlag : e.initFlag = d.initFlag
  com : e.com = d.com
  responseList : e.responseList = d.responseList
  msgResponseInfo : e.msgResponseInfo = d.msgResponseInfo
  transmitAckNackSem : e.transmitAckNackSem = d.transmitAckNackSem

theorem Driver.SameReplies.trans (h : d.SameReplies e) (h' : e.SameReplies e') : d.SameReplies e' where
  initFlag := h'.initFlag.trans h.initFlag
  com := h'.com.trans h.com
  responseList := h'.responseList.trans h.responseList
  msgResponseInfo := h'.msgResponseInfo.trans h.msgResponseInfo
  transmitAckNackSem := h'.transmitAckNackSem.trans h.transmitAckNackSem

theorem Driver.sameReplies_receive (d : Driver) (msg : CanalMsg) : d.SameReplies (d.receive x msg) := by
  unfold Driver.receive
  split
  · exact ⟨rfl, rfl, rfl, rfl, rfl⟩
  · exact ⟨rfl, rfl, rfl, rfl, rfl⟩

/-- One message is decoded, if there is room for it. -/
theorem sameReplies_take {decode : Driver → ReadProgram UInt8 Driver} (h : Receives x m decode)
    (d : Driver) : d.SameReplies ((ifRoom d (decode d)).run m) := by
  obtain ⟨clocked, msg, hrun⟩ := h
  unfold ifRoom
  split
  · rw [hrun]
    have hclocked : d.SameReplies (if clocked then d.tick else d) := by
      cases clocked <;> exact ⟨rfl, rfl, rfl, rfl, rfl⟩
    exact hclocked.trans (Driver.sameReplies_receive _ _)
  · exact ⟨rfl, rfl, rfl, rfl, rfl⟩

theorem sameReplies_guardedLoop {head : Nat} {decode : Nat → UInt8 → Driver → ReadProgram UInt8 Driver}
    (h : ∀ pos dataLen, Receives x m (decode pos dataLen)) (fuel pos left : Nat) (d : Driver) :
    d.SameReplies ((guardedLoop head decode fuel pos left d).run m) := by
  induction fuel generalizing pos left d with
  | zero => exact ⟨rfl, rfl, rfl, rfl, rfl⟩
  | succ fuel ih =>
      unfold guardedLoop
      split
      · exact ⟨rfl, rfl, rfl, rfl, rfl⟩
      · simp only [run_bind, run_get]
        split
        · exact ⟨rfl, rfl, rfl, rfl, rfl⟩
        · rw [run_bind]
          exact (sameReplies_take (h pos _) d).trans (ih _ _ _)

theorem sameReplies_multiLoop (fuel pos left : Nat) (d : Driver) :
    d.SameReplies ((multiLoop x fuel pos left d).run m) := by
  induction fuel generalizing pos left d with
  | zero => exact ⟨rfl, rfl, rfl, rfl, rfl⟩
  | succ fuel ih =>
      unfold multiLoop
      split
      · exact ⟨rfl, rfl, rfl, rfl, rfl⟩
      · simp only [run_bind]
        exact (sameReplies_take (receives_multi pos) d).trans (ih _ _ _)

theorem sameReplies_canalTimestampFrame (d : Driver) :
    d.SameReplies ((canalTimestampFrame x d).run m) := by
  obtain ⟨decode, hdecode, hframe⟩ := receives_canalTimestamp (x := x) (m := m)
  rw [hframe]
  exact sameReplies_take hdecode d

/-- A frame that asks for nothing. -/
theorem Driver.SameReplies.replied (h : d.SameReplies e) (hreply : f.reply x = none)
    (hresponse : f.response x = none)
    (hsettle : f.settle x d.initFlag (d.msgResponseInfo, d.transmitAckNackSem) =
      (d.msgResponseInfo, d.transmitAckNackSem)) : Replied x [f] d e where
  initFlag := h.initFlag
  com := by simp [h.com, hreply]
  responseList := by simp [h.responseList, hresponse]
  settled := by simp [h.msgResponseInfo, h.transmitAckNackSem, hsettle]

/-! ## responses -/

/-- The ACK/NACK part of `addToResponseQueue` settles the attempt. -/
theorem run_answerFrame_eq (d : Driver) (hread : f.ReadFrom m) :
    (answerFrame x d).run m = { d with
      msgResponseInfo := (f.settle x d.initFlag (d.msgResponseInfo, d.transmitAckNackSem)).1
      transmitAckNackSem := (f.settle x d.initFlag (d.msgResponseInfo, d.transmitAckNackSem)).2 } := by
  by_cases hwait : d.initFlag &&& CAN4VSCP_FLAG_ENABLE_WAIT_FOR_ACK ≠ 0 ∧
      d.msgResponseInfo.bWaitingForAckNack
  · rw [answerFrame, if_pos hwait]
    simp only [run_bind, run_get, hread.channel]
    by_cases hchannel : d.msgResponseInfo.channel = f.channel
    · rw [if_pos hchannel]
      simp only [run_bind, run_get, hread.seq]
      by_cases hseq : d.msgResponseInfo.seq = f.seq
      · rw [if_pos hseq, Frame.settle, if_pos ⟨hwait.1, hwait.2, hchannel, hseq⟩]
        simp only [run_bind, run_get, hread.frameType]
        by_cases hack : x.code .ack = f.frameType
        · rw [if_pos hack, if_pos hack]
          rfl
        · rw [if_neg hack, if_neg hack]
          by_cases hnack : x.code .nack = f.frameType
          · rw [if_pos hnack, if_pos hnack]
            rfl
          · rw [if_neg hnack, if_neg hnack]
            rfl
      · rw [if_neg hseq, Frame.settle, if_neg fun h => hseq h.2.2.2]
        rfl
    · rw [if_neg hchannel, Frame.settle, if_neg fun h => hchannel h.2.2.1]
      rfl
  · rw [answerFrame, if_neg hwait, Frame.settle, if_neg fun h => hwait ⟨h.1, h.2.1⟩]
    rfl

/-- A response goes to the end of the queue. -/
theorem run_addToResponseQueue (d : Driver) (hread : f.ReadFrom m)
    (hsize : f.declaredSizePayload.toNat = f.payload.length) :
    (addToResponseQueue x d).run m = ((answerFrame x d).run m).addResponse
      ⟨f.frameType, f.seq, f.channel, f.declaredSizePayload, f.payload.take 512⟩ := by
  have hn : UInt16.ofNat f.payload.length = f.declaredSizePayload := by
    rw [← hsize, UInt16.ofNat_toNat]
  have htake : slice m 5 (if f.payload.length > 512 then 512 else f.payload.length) =
      f.payload.take 512 := by
    split
    · next hlong =>
        have hparts : slice m 5 ((f.payload.take 512).length + (f.payload.drop 512).length) =
            f.payload.take 512 ++ f.payload.drop 512 := by
          rw [← List.length_append, List.take_append_drop, hread.payload]
        have hfirst := (slice_eq_append m 5 hparts).1
        rwa [List.length_take_of_le (Nat.le_of_lt hlong)] at hfirst
    · next hshort => rw [hread.payload, List.take_of_length_le (Nat.not_lt.mp hshort)]
  simp only [addToResponseQueue, sizePayload, run_bind, run_get, run_pure, run_getSlice,
    hread.frameType, hread.channel, hread.seq, hread.size, hsize, htake, hn]

/-! ## the dispatch -/

theorem dispatch_noop (d : Driver) : dispatch x (x.code .noop) d = ackFrame x (d.touch x) := by
  simp [dispatch]

theorem dispatch_refused (d : Driver) {t : FrameType} (ht : t.refused = true) :
    dispatch x (x.code t) d = nackFrame x (d.touch x) := by
  cases t <;> simp [FrameType.refused] at ht <;> simp [dispatch, x.code_injective.eq_iff]

theorem dispatch_capsRequest (d : Driver) : dispatch x (x.code .capsRequest) d = pure d := by
  simp [dispatch, x.code_injective.eq_iff]

theorem dispatch_unknown (d : Driver) {op : UInt8} (h : ∀ t, x.code t ≠ op) :
    dispatch x op d = pure d := by
  simp [dispatch, h]

/-- The attempt is only settled by an ACK or a NACK. -/
theorem Frame.settle_of_ne {t : FrameType} (hcode : f.frameType = x.code t) (hack : t ≠ .ack)
    (hnack : t ≠ .nack) (initFlag : UInt32) (p : MsgResponseInfo × Nat) :
    f.settle x initFlag p = p := by
  simp [settle, hcode, x.code_injective.eq_iff, Ne.symm hack, Ne.symm hnack]

/-- A NOOP frame is answered with an ACK. -/
theorem replied_noop (d : Driver) (hcode : f.frameType = x.code .noop) (hread : f.ReadFrom m) :
    Replied x [f] d ((dispatch x f.frameType d).run m) := by
  have hkind : x.kind f.frameType = some .noop := by rw [hcode, x.kind_code]
  have hresponse : f.response x = none := by simp [Frame.response, hkind, FrameType.response]
  have hsettle := Frame.settle_of_ne hcode (by simp) (by simp) d.initFlag
    (d.msgResponseInfo, d.transmitAckNackSem)
  rw [hcode, dispatch_noop]
  simp only [ackFrame, run_bind, run_get, hread.seq, run_pure]
  exact {
    initFlag := rfl
    com := by simp [Frame.reply, hkind, Driver.sendACK, Driver.sendMsg, Driver.touch]
    responseList := by simp [hresponse, Driver.sendACK, Driver.sendMsg, Driver.touch]
    settled := hsettle.symm }

/-- A frame of a kind the driver does not handle is answered with a NACK. -/
theorem replied_refused (d : Driver) {t : FrameType} (ht : t.refused = true)
    (hcode : f.frameType = x.code t) (hread : f.ReadFrom m) :
    Replied x [f] d ((dispatch x f.frameType d).run m) := by
  have hkind : x.kind f.frameType = some t := by rw [hcode, x.kind_code]
  have hreply : f.reply x = some (Frame.encode x.crc8 ⟨x.code .nack, 0, f.seq, 0, []⟩) := by
    cases t <;> simp [FrameType.refused] at ht <;> simp [Frame.reply, hkind, FrameType.refused]
  have hresponse : f.response x = none := by
    cases t <;> simp [FrameType.refused] at ht <;> simp [Frame.response, hkind, FrameType.response]
  have hsettle := Frame.settle_of_ne hcode (by rintro rfl; cases ht) (by rintro rfl; cases ht)
    d.initFlag (d.msgResponseInfo, d.transmitAckNackSem)
  rw [hcode, dispatch_refused d ht]
  simp only [nackFrame, run_bind, run_get, hread.seq, run_pure]
  exact {
    initFlag := rfl
    com := by simp [hreply, Driver.sendNACK, Driver.sendMsg, Driver.touch]
    responseList := by simp [hresponse, Driver.sendNACK, Driver.sendMsg, Driver.touch]
    settled := hsettle.symm }

/-- A response is queued, and settles the attempt it answers. -/
theorem replied_response (d : Driver) {t : FrameType} (ht : t.response = true)
    (hcode : f.frameType = x.code t) (hread : f.ReadFrom m)
    (hsize : f.declaredSizePayload.toNat = f.payload.length) :
    Replied x [f] d ((dispatch x f.frameType d).run m) := by
  have hkind : x.kind f.frameType = some t := by rw [hcode, x.kind_code]
  have hreply : f.reply x = none := by
    cases t <;> simp [FrameType.response] at ht <;> simp [Frame.reply, hkind, FrameType.refused]
  have hresponse : f.response x = some
      ⟨f.frameType, f.seq, f.channel, f.declaredSizePayload, f.payload.take 512⟩ := by
    simp [Frame.response, hkind, ht]
  rw [hcode, dispatch_response x d ht, run_addToResponseQueue _ hread hsize, run_answerFrame_eq _ hread]
  exact {
    initFlag := rfl
    com := by simp [hreply, Driver.addResponse, Driver.touch]
    responseList := by simp [hresponse, Driver.addResponse, Driver.touch]
    settled := rfl }

/-- Every other kind of frame asks for nothing. -/
theorem replied_other (d : Driver) {t : FrameType} (hnoop : t ≠ .noop) (hrefused : t.refused = false)
    (hresponds : t.response = false) (hcode : f.frameType = x.code t) :
    Replied x [f] d ((dispatch x f.frameType d).run m) := by
  have hkind : x.kind f.frameType = some t := by rw [hcode, x.kind_code]
  have hsame : d.SameReplies ((dispatch x (x.code t) d).run m) := by
    have htouch : d.SameReplies (d.touch x) := ⟨rfl, rfl, rfl, rfl, rfl⟩
    cases t with
    | canal =>
        rw [dispatch_canal]
        exact htouch.trans (sameReplies_guardedLoop receives_canal _ _ _ _)
    | canalTimestamp =>
        rw [dispatch_canalTimestamp]
        exact htouch.trans (sameReplies_canalTimestampFrame _)
    | multiFrameCanal =>
        rw [dispatch_multiFrameCanal]
        exact htouch.trans (sameReplies_multiLoop _ _ _ _)
    | multiFrameCanalTimestamp =>
        rw [dispatch_multiFrameCanalTimestamp]
        exact htouch.trans (sameReplies_guardedLoop receives_multiTimestamp _ _ _ _)
    | capsRequest =>
        rw [dispatch_capsRequest]
        exact ⟨rfl, rfl, rfl, rfl, rfl⟩
    | noop => exact absurd rfl hnoop
    | _ => simp [FrameType.refused, FrameType.response] at hrefused hresponds
  rw [← hcode] at hsame
  refine hsame.replied ?_ ?_ ?_
  · cases t <;> simp_all [Frame.reply]
  · simp [Frame.response, hkind, hresponds]
  · exact Frame.settle_of_ne hcode (by rintro rfl; cases hresponds) (by rintro rfl; cases hresponds) _ _

/-- **A frame is dealt with**: whatever its kind, it has its effect and no other. -/
theorem replied_dispatch (d : Driver) (hread : f.ReadFrom m)
    (hsize : f.declaredSizePayload.toNat = f.payload.length) :
    Replied x [f] d ((dispatch x f.frameType d).run m) := by
  cases hkind : x.kind f.frameType with
  | none =>
      have hunknown := x.kind_eq_none hkind
      rw [dispatch_unknown d hunknown]
      refine Driver.SameReplies.replied ⟨rfl, rfl, rfl, rfl, rfl⟩ ?_ ?_ ?_
      · simp [Frame.reply, hkind]
      · simp [Frame.response, hkind]
      · simp [Frame.settle, hunknown]
  | some t =>
      have hcode := x.kind_eq_some hkind
      by_cases hnoop : t = .noop
      · exact replied_noop d (hnoop ▸ hcode) hread
      · cases hrefused : t.refused with
        | true => exact replied_refused d hrefused hcode hread
        | false =>
            cases hresponds : t.response with
            | true => exact replied_response d hresponds hcode hread hsize
            | false => exact replied_other d hnoop hrefused hresponds hcode

/-! ## a stream of frames -/

/-- A report is made before the bytes are used up. -/
theorem consumed_le (k : Nat) (s : RxState) (cs : List UInt8) :
    ∀ r ∈ (feed k s cs).2, r.consumed ≤ k + cs.length := by
  induction cs generalizing k s with
  | nil => simp [feed]
  | cons c cs ih =>
      intro r hr
      have hrest := ih (k + 1) (rxByte s c).1
      simp only [feed] at hr
      rw [List.length_cons]
      split at hr
      · cases List.mem_cons.mp hr with
        | inl hfirst =>
            rw [hfirst]
            show k + 1 ≤ k + (cs.length + 1)
            omega
        | inr hlater =>
            have hle := hrest r hlater
            omega
      · have hle := hrest r hr
        omega

/-- Nothing is reported of a frame that is not complete. -/
theorem feed_part {crc8 : UInt8 → UInt8 → UInt8} {s : RxState} (f : SerialFrame) (h : s.Live)
    (hidle : s.Idle) {part rest : List UInt8} (hcut : f.encode crc8 = part ++ rest) (hrest : rest ≠ []) :
    (feed 0 s part).2 = [] := by
  obtain ⟨r, hfeed, hconsumed, -, -⟩ := feed_frame crc8 0 s f h hidle.sub
  rw [hcut, feed_append] at hfeed
  rw [hcut, List.length_append] at hconsumed
  have hreports := congrArg Prod.snd hfeed
  have hlen := List.length_pos_of_ne_nil hrest
  cases hpart : (feed 0 s part).2 with
  | nil => rfl
  | cons r' rs =>
      have hle := consumed_le 0 s part r' (by rw [hpart]; exact List.mem_cons_self)
      simp only [hpart, List.cons_append, List.cons.injEq] at hreports
      rw [hreports.1] at hle
      omega

/-- A frame that is not complete has no effect yet. -/
theorem foldl_part {s : RxState} (d : Driver) (f : SerialFrame) (h : s.Live) (hidle : s.Idle)
    {part rest : List UInt8} (hcut : f.encode x.crc8 = part ++ rest) (hrest : rest ≠ []) :
    ∃ rx, part.foldl (driverByte x) (s, d) = (rx, d) := by
  refine ⟨(feed 0 s part).1, ?_⟩
  rw [foldl_driverByte x 0, feed_part f h hidle hcut hrest]
  rfl

variable (x) in
/-- The frames that are complete after `n` bytes of a stream. -/
def complete : List SerialFrame → Nat → List Frame
  | [], _ => []
  | f :: fs, n =>
    if (f.encode x.crc8).length ≤ n then f.toFrame :: complete fs (n - (f.encode x.crc8).length)
    else []

/-- The declared sizes are right, as in every frame of an adapter. -/
def Sized (fs : List SerialFrame) : Prop := ∀ f ∈ fs, f.declaredSizePayload.toNat = f.payload.length

/-- The bytes of a stream of frames, as far as they have been read. -/
theorem replied_stream {fs : List SerialFrame} (hsized : Sized fs) {s : RxState} (h : s.Live)
    (hidle : s.Idle) (d : Driver) {used more : List UInt8}
    (hline : fs.flatMap (fun f => f.encode x.crc8) = used ++ more) :
    ∃ rx e, used.foldl (driverByte x) (s, d) = (rx, e) ∧
      Replied x (complete x fs used.length) d e := by
  induction fs generalizing s d used with
  | nil =>
      have hnil : used = [] := (List.append_eq_nil_iff.mp hline.symm).1
      exact ⟨s, d, by rw [hnil]; rfl, .nil d⟩
  | cons f fs ih =>
      rw [List.flatMap_cons] at hline
      by_cases hle : (f.encode x.crc8).length ≤ used.length
      · -- the first frame is complete
        obtain ⟨used', hused⟩ : f.encode x.crc8 <+: used :=
          List.prefix_of_prefix_length_le ⟨_, hline⟩ (List.prefix_append used more) hle
        subst hused
        rw [List.append_assoc, List.append_cancel_left_eq] at hline
        obtain ⟨rx, hfold, hlive, hrxIdle, hread⟩ := foldl_frame x d f h hidle
        have hfirst := replied_dispatch (x := x) d hread (hsized f List.mem_cons_self)
        obtain ⟨rx', e, hfold', hreplied⟩ := ih (fun g hg => hsized g (List.mem_cons_of_mem f hg))
          hlive hrxIdle ((dispatch x f.frameType d).run rx.bufferMsgRcv) hline
        refine ⟨rx', e, by rw [List.foldl_append, hfold, hfold'], ?_⟩
        rw [complete, if_pos hle, List.length_append, Nat.add_sub_cancel_left]
        exact hfirst.append hreplied
      · obtain ⟨rest, hcut⟩ : used <+: f.encode x.crc8 :=
          List.prefix_of_prefix_length_le ⟨_, hline.symm⟩ (List.prefix_append _ _) (by omega)
        have hrest : rest ≠ [] := by
          rintro rfl
          rw [List.append_nil] at hcut
          exact hle (by rw [hcut])
        obtain ⟨rx, hfold⟩ := foldl_part d f h hidle hcut.symm hrest
        rw [complete, if_neg hle]
        exact ⟨rx, d, hfold, .nil d⟩

/-! ## calls -/

variable (x) in
/-- Successive calls of `readSerialData`: the receive machine, the driver and the results of
`readChar` not asked for. -/
def readCalls : Nat → RxState → Driver → List ReadChar → RxState × Driver × List ReadChar
  | 0, rx, d, input => (rx, d, input)
  | n + 1, rx, d, input =>
    let (rx, d, rest) := readSerialData x rx d input
    readCalls n rx d rest

theorem readCalls_spec (n : Nat) (rx : RxState) (d : Driver) (input : List ReadChar) :
    ∃ used, bytesOf input = used ++ bytesOf (readCalls x n rx d input).2.2 ∧
      used.foldl (driverByte x) (rx, d) =
        ((readCalls x n rx d input).1, (readCalls x n rx d input).2.1) := by
  induction n generalizing rx d input with
  | zero => exact ⟨[], rfl, rfl⟩
  | succ n ih =>
      obtain ⟨used, hbytes, hfold⟩ := readSerialData_spec x rx d input
      obtain ⟨used', hbytes', hfold'⟩ := ih (readSerialData x rx d input).1
        (readSerialData x rx d input).2.1 (readSerialData x rx d input).2.2
      refine ⟨used ++ used', ?_, ?_⟩
      · rw [hbytes, hbytes', List.append_assoc]
        rfl
      · rw [List.foldl_append, hfold, hfold']
        rfl

/-- **Every frame is replied to as it should be, and to nothing else**: whatever frames the
adapter sends and however their bytes are cut into calls, after any number of calls the
driver has sent, queued and settled what the complete frames ask for, in order. -/
theorem frames_replied {fs : List SerialFrame} (hsized : Sized fs) (rx : RxState) (h : rx.Live)
    (hidle : rx.Idle) (d : Driver) (n : Nat) {input : List ReadChar}
    (hline : bytesOf input <+: fs.flatMap fun f => f.encode x.crc8) :
    Replied x (complete x fs
        ((bytesOf input).length - (bytesOf (readCalls x n rx d input).2.2).length))
      d (readCalls x n rx d input).2.1 := by
  obtain ⟨used, hbytes, hfold⟩ := readCalls_spec (x := x) n rx d input
  obtain ⟨more, hmore⟩ := hline
  have hcut : fs.flatMap (fun f => f.encode x.crc8) =
      used ++ (bytesOf (readCalls x n rx d input).2.2 ++ more) := by
    rw [← hmore, hbytes, List.append_assoc]
  obtain ⟨rx', e, hfold', hreplied⟩ := replied_stream hsized h hidle d hcut
  rw [hfold] at hfold'
  have hread : (bytesOf input).length - (bytesOf (readCalls x n rx d input).2.2).length = used.length := by
    rw [hbytes, List.length_append, Nat.add_sub_cancel]
  rw [hread, (Prod.mk.inj hfold').2]
  exact hreplied

/-- A NOOP, a POLL and most of a response: an ACK and a NACK go out, and no response has come. -/
theorem frames_replied_two : ∃ fs : List Frame, fs.length = 2 ∧ ∃ e : Driver,
    Replied .vscp fs .new e ∧ e.com.length = 2 ∧ e.responseList = [] := by
  let noop : SerialFrame := ⟨⟨0, 0, 5, 0, []⟩, by decide, by decide, by decide⟩
  let poll : SerialFrame := ⟨⟨4, 0, 6, 0, []⟩, by decide, by decide, by decide⟩
  let commandReply : SerialFrame := ⟨⟨254, 0, 7, 2, [0, 4]⟩, by decide, by decide, by decide⟩
  let fs : List SerialFrame := [noop, poll, commandReply]
  let line := (fs.flatMap fun f => f.encode External.vscp.crc8).dropLast
  let input := ReadChar.noData :: line.map ReadChar.byte
  have hsized : Sized fs := by
    intro f hf
    simp only [fs, List.mem_cons, List.not_mem_nil, or_false] at hf
    rcases hf with rfl | rfl | rfl <;> rfl
  have hline : bytesOf input <+: fs.flatMap fun f => f.encode External.vscp.crc8 := by
    decide +kernel
  have hreplied := frames_replied hsized .new ⟨.inl rfl, Nat.zero_le _⟩ ⟨rfl, rfl⟩ .new 4 hline
  exact ⟨_, by decide +kernel, _, hreplied, by decide +kernel, by decide +kernel⟩

end Can4vscp
