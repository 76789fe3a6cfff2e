import Can4vscp.AckTransmit
import Can4vscp.Branches
import Can4vscp.FrameReplies
import Can4vscp.Loopback

/-!
# Can4vscp.AckLoopback

The driver with ACK on one end of a serial line, the adapter emulator on the other, byte by
byte: the writers, the transmit thread, the emulator, the receive thread and a reader take
their steps in any order, the waits for an answer may expire and the port may refuse frames.

`AckTransmit` assumes that the adapter answers frames it has received.  Here the answers are
what the receive thread makes of the bytes on the line: an ACK that it reads is for the
oldest frame that has not been answered (`Inv.receive`).  So no message is removed before
the emulator has heard it, and every message comes back, in order, and more than once only
if it has been sent more than once (`at_least_once`).

As in `Loopback` no command is sent meanwhile, and a send that fails writes nothing.
-/

namespace Can4vscp

open Memory ReadProgram Pipeline

/-! ## the receiver within a frame -/

/-- A receiver that has read some first part of a frame. -/
def RxState.Within (part : List UInt8) (rx : RxState) : Prop :=
  ∃ rx₀ : RxState, rx₀.Live ∧ rx₀.Idle ∧ feed 0 rx₀ part = (rx, [])

variable {x : External} {rx : RxState} {part rest more : List UInt8} {c : UInt8}

/-- A whole frame is reported, and the receiver holds it. -/
theorem feed_whole (h : rx.Live) (hidle : rx.Idle) (f : SerialFrame) :
    ∃ rx', feed 0 rx (f.encode x.crc8) = (rx', [⟨(f.encode x.crc8).length, rx'⟩]) ∧
      rx'.Within [] ∧ rx'.Holds x f.toFrame := by
  obtain ⟨r, hframe, hconsumed, hintact, hrIdle⟩ := feed_frame x.crc8 0 rx f h hidle.sub
  have hlive : r.rx.Live := by
    have hall := (feed_live 0 rx (f.encode x.crc8) h).1
    rwa [hframe] at hall
  have hlen : r.rx.lengthMsgRcv = 6 + f.payload.length := by
    rw [← length_slice r.rx.bufferMsgRcv 0 r.rx.lengthMsgRcv, ← Frame.length_content x.crc8]
    exact congrArg List.length hintact.content
  have hfits := f.fits
  simp only [bufferMsgRcvSize] at hfits
  refine ⟨r.rx, ?_, ⟨r.rx, hlive, hrIdle, rfl⟩,
    RxState.holds_of_content hlen (by omega) hintact.content⟩
  rw [hframe, ← Nat.zero_add (f.encode x.crc8).length, ← hconsumed]

theorem RxState.Within.not_whole (h : rx.Within part) (f : SerialFrame) :
    ¬ f.encode x.crc8 <+: part := by
  rintro ⟨tail, rfl⟩
  obtain ⟨rx₀, hlive, hidle, hpart⟩ := h
  obtain ⟨rx', hwhole, -, -⟩ := feed_whole (x := x) hlive hidle f
  rw [feed_append, hwhole] at hpart
  simp at hpart

/-- One byte of a frame: the last one completes it. -/
theorem RxState.Within.byte (h : rx.Within part) (f : SerialFrame)
    (hline : part ++ c :: rest = f.encode x.crc8 ++ more) :
    ((rxByte rx c).2 = false ∧ (rxByte rx c).1.Within (part ++ [c])) ∨
      ((rxByte rx c).2 = true ∧ rest = more ∧ (rxByte rx c).1.Within [] ∧
        (rxByte rx c).1.Holds x f.toFrame) := by
  obtain ⟨rx₀, hlive, hidle, hpart⟩ := id h
  obtain ⟨rx', hwhole, hwithin, hholds⟩ := feed_whole (x := x) hlive hidle f
  have hbyte : feed 0 rx₀ (part ++ [c]) = ((rxByte rx c).1,
      if (rxByte rx c).2 then [⟨part.length + 1, (rxByte rx c).1⟩] else []) := by
    rw [feed_append, hpart]
    simp [feed]
  have hsplit : part ++ [c] ++ rest = f.encode x.crc8 ++ more := by rw [← hline]; simp
  by_cases hle : (f.encode x.crc8).length ≤ (part ++ [c]).length
  · obtain ⟨tail, htail⟩ : f.encode x.crc8 <+: part ++ [c] :=
      List.prefix_of_prefix_length_le ⟨_, hsplit.symm⟩ (List.prefix_append _ _) hle
    -- the frame does not end before this byte
    have hnil : tail = [] := by
      by_contra hne
      refine h.not_whole f (List.prefix_of_prefix_length_le ⟨tail, htail⟩ (List.prefix_append part [c]) ?_)
      have hlen := congrArg List.length htail
      have hpos := List.length_pos_of_ne_nil hne
      simp only [List.length_append, List.length_singleton] at hlen
      omega
    rw [hnil, List.append_nil] at htail
    rw [← htail, hwhole] at hbyte
    obtain ⟨hrx, hreport⟩ := Prod.mk.inj hbyte
    have hdone : (rxByte rx c).2 = true := by
      by_contra hno
      simp [hno] at hreport
    rw [← htail, List.append_cancel_left_eq] at hsplit
    exact .inr ⟨hdone, hsplit, hrx ▸ hwithin, hrx ▸ hholds⟩
  · obtain ⟨tail, htail⟩ : part ++ [c] <+: f.encode x.crc8 :=
      List.prefix_of_prefix_length_le ⟨_, hsplit⟩ (List.prefix_append _ _) (by omega)
    have hne : tail ≠ [] := by
      rintro rfl
      rw [List.append_nil] at htail
      exact hle (by rw [htail])
    have hnone := feed_part f hlive hidle htail.symm hne
    rw [hbyte] at hnone
    have hno : (rxByte rx c).2 = false := by
      by_contra hyes
      simp [hyes] at hnone
    refine .inl ⟨hno, rx₀, hlive, hidle, ?_⟩
    rw [hbyte, hno]
    rfl

namespace AckLoopback

open Transmit (TxFrame AckSession Start)

variable {ι : Type} (x : External) (garbage : Mem UInt8)

/-! ## the machine -/

/-- The last field is history: what `readMsg` has returned. -/
structure State (ι : Type) extends Loopback.State ι where
  delivered : List CanalMsg

/-- The receive side, with the response info and the semaphore it shares with the transmit
side. -/
def State.shared (s : State ι) : Driver :=
  { s.driver with
    msgResponseInfo := s.tx.msgResponseInfo
    transmitAckNackSem := s.tx.transmitAckNackSem.length }

/-- The receiver has got an ACK. -/
def isAck (rx : RxState) : Bool :=
  (checkCRC x.crc8 (UInt16.ofNat rx.lengthMsgRcv)).run rx.bufferMsgRcv &&
    rx.bufferMsgRcv 0 == x.code .ack

/-- The next byte completes an ACK. -/
def State.completesAck (s : State ι) (c : UInt8) : Bool :=
  (rxByte s.pipe.second.1 c).2 && isAck x (rxByte s.pipe.second.1 c).1

/-- The receive thread reads a byte, and acts on the frame if it completes one.  In the
history an ACK is for the oldest frame that has not been answered. -/
def State.receives (s : State ι) (c : UInt8) (rest : List UInt8) : State ι :=
  let r := driverByte x (s.pipe.second.1, s.shared) c
  let posted := r.2.transmitAckNackSem - s.tx.transmitAckNackSem.length
  { s with
    tx := { s.tx with
      msgResponseInfo := r.2.msgResponseInfo
      transmitAckNackSem := s.tx.transmitAckNackSem ++ List.replicate posted (.answer s.tx.armed)
      acked := s.tx.acked ++ if s.completesAck x c then s.tx.sent[s.tx.acked.length]?.toList else [] }
    pipe := { s.pipe with
      line₁ := s.pipe.line₁ ++ (r.2.com.drop s.driver.com.length).flatten
      second := r
      line₂ := rest } }

def receiveNext (s : State ι) : Option (State ι) :=
  match s.pipe.line₂ with
  | [] => none
  | c :: rest => some (s.receives x c rest)

/-- One call of `readMsg`. -/
def readNext (s : State ι) : State ι :=
  let r := s.driver.readMsg s.tx.bOpen
  { s with
    pipe := { s.pipe with second := (s.pipe.second.1, r.1) }
    delivered := s.delivered ++ r.2.2.toList }

/-- Who moves. -/
inductive Act (ι : Type) where
  | transmit (o : Transmit.Outcome)
  | writer (w : ι) (a : Transmit.WriterAct)
  | emulate
  | receive
  | read
  deriving DecidableEq

/-- The transmit thread has taken a step, and written what it has written. -/
def State.writes (s : State ι) (o : Transmit.Outcome) (tx : Transmit.State ι) : State ι :=
  { s with
    tx
    pipe := { s.pipe with
      line₁ := s.pipe.line₁ ++ ((Loopback.written o s.tx).map (Loopback.lineBytes x garbage)).getD [] } }

/-- The driver and the emulator, from an initial state. -/
def machine [DecidableEq ι] (s₀ : State ι) : Machine (State ι) (Act ι) where
  init := (· = s₀)
  next
    | .transmit o, s => (Transmit.txNext o s.tx).map (s.writes x garbage o)
    | .writer w a, s => (Transmit.writerNext w a s.tx).map fun tx => { s with tx }
    | .emulate, s => (Loopback.emulateNext x garbage s.toState).map fun t => { s with toState := t }
    | .receive, s => receiveNext x s
    | .read, s => some (readNext s)

/-- An open driver at the start of a session with ACK, with mask 0 and its receive queue
empty, and nothing on the line. -/
structure Init (s : State ι) : Prop where
  tx : Start s.tx
  waitForAck : s.tx.waitForAck = true
  pc : s.tx.pc = .start
  seq : s.tx.seq = 0
  bTransmissionInProgress : s.tx.bTransmissionInProgress = false
  bOpen : s.tx.bOpen = true
  initFlag : s.driver.initFlag &&& CAN4VSCP_FLAG_ENABLE_WAIT_FOR_ACK ≠ 0
  emulator : s.pipe.first.Idle
  live : s.pipe.second.1.Live
  idle : s.pipe.second.1.Idle
  mask : s.driver.mask = 0
  receiveList : s.driver.receiveList = []
  cntOverruns : s.driver.stat.cntOverruns = 0
  line₁ : s.pipe.line₁ = []
  line₂ : s.pipe.line₂ = []
  delivered : s.delivered = []

/-- No ACK is read once 256 later attempts have begun. -/
def Prompt : Act ι → State ι → Prop
  | .receive, s => ∀ c ∈ s.pipe.line₂.head?, s.completesAck x c = true →
    ∀ f ∈ s.tx.sent[s.tx.acked.length]?, s.tx.attempts ≤ f.index + 256
  | _, _ => True

instance : (a : Act ι) → (s : State ι) → Decidable (Prompt x a s)
  | .receive, _ => inferInstanceAs (Decidable (∀ _, _ → _))
  | .transmit _, _ | .writer _ _, _ | .emulate, _ | .read, _ => .isTrue trivial

/-! ## what is on the line -/

/-- The sub-frame of a message. -/
def sub (msg : CanalMsg) (h : msg.Extended) : SubFrame :=
  ⟨msg.id, msg.canData, h.id, h.length_canData.symm ▸ h.sizeData_toNat⟩

theorem sub_dlc {msg : CanalMsg} (h : msg.Extended) : (sub msg h).dlc = msg.sizeData := by
  rw [SubFrame.dlc, sub, h.length_canData, UInt8.ofNat_toNat]

/-- A frame of the emulator: the ACK of a frame, or a message looped back. -/
inductive Reply where
  | ack (f : TxFrame)
  | back (seq : UInt8) (msg : CanalMsg) (h : msg.Extended)

theorem sub_fits {msg : CanalMsg} (h : msg.Extended) : SubFrame.Fits [sub msg h] := by
  have hdata := (sub msg h).length_le
  simp only [SubFrame.Fits, SubFrame.encode, SubFrame.bytes, List.flatMap_cons, List.flatMap_nil,
    List.append_nil, List.length_append, length_idBytes, List.length_singleton, bufferMsgRcvSize]
  omega

def Reply.frame : Reply → SerialFrame
  | .ack f => ⟨⟨x.code .ack, 0, f.seq, 0, []⟩, code_ne_DLE x x.ack (by decide), by simp [DLE],
      by simp [bufferMsgRcvSize]⟩
  | .back seq msg h => ⟨SubFrame.frame x .canal 0 seq [sub msg h], code_ne_DLE x x.canal (by decide),
      by simp [SubFrame.frame, DLE], by
        rw [Nat.add_comm]
        exact sub_fits h⟩

/-- The frame that is answered. -/
def Reply.acks : Reply → Option TxFrame
  | .ack f => some f
  | .back _ _ _ => none

/-- The message that comes back. -/
def Reply.loops : Reply → Option CanalMsg
  | .ack _ => none
  | .back _ msg _ => some msg

/-- The frame the emulator sends a message back in. -/
theorem frame_back (seq : UInt8) {msg : CanalMsg} (h : msg.Extended) :
    SubFrame.frame x .canal 0 seq [sub msg h] =
      ⟨x.code .canal, 0, seq, UInt16.ofNat (4 + 1 + msg.sizeData.toNat),
        idBytes msg.id ++ [msg.sizeData] ++ msg.canData⟩ := by
  have hbytes : SubFrame.encode [sub msg h] = idBytes msg.id ++ [msg.sizeData] ++ msg.canData := by
    rw [SubFrame.encode_cons, SubFrame.encode_nil, List.append_nil, SubFrame.bytes, sub_dlc]
    rfl
  have hlen : (idBytes msg.id ++ [msg.sizeData] ++ msg.canData).length = 4 + 1 + msg.sizeData.toNat := by
    rw [List.length_append, List.length_append, length_idBytes, h.length_canData, List.length_singleton]
  rw [SubFrame.frame, hbytes, hlen]

variable {x} {garbage} {s₀ s t : State ι} {c : UInt8} {rest part : List UInt8}

variable (x) (garbage) in
/-- What the emulator makes of the frame of a message. -/
theorem transduce_written {e : Emulator} (he : e.Idle) (f : TxFrame) (h : f.msg.Extended) :
    (transduce (Emulator.feed x.crc8 garbage) e (Loopback.lineBytes x garbage f)).1.Idle ∧
      ∃ seq, (transduce (Emulator.feed x.crc8 garbage) e (Loopback.lineBytes x garbage f)).2 =
        ([.ack f, .back seq f.msg h] : List Reply).flatMap fun r => (r.frame x).encode x.crc8 := by
  rw [Loopback.lineBytes, Loopback.transduce_transmitFrame he h]
  refine ⟨⟨rfl, rfl⟩, e.txseq, ?_⟩
  simp [Reply.frame, frame_back x e.txseq h]

/-! ## what comes back -/

/-- Of the messages that came back those in `rs` were received, and the others dropped. -/
def Got (x : External) (overruns : Nat) (back rs : List CanalMsg) : Prop :=
  ∃ kept : List CanalMsg, kept.Sublist back ∧ List.Forall₂ (Loopback.Looped x) kept rs ∧
    kept.length + overruns = back.length

section
variable {overruns : Nat} {back rs : List CanalMsg} {msg r : CanalMsg}

theorem Got.receive (h : Got x overruns back rs) (hr : Loopback.Looped x msg r) :
    Got x overruns (back ++ [msg]) (rs ++ [r]) := by
  obtain ⟨kept, hsub, hlooped, hlen⟩ := h
  refine ⟨kept ++ [msg], hsub.append_right _, List.rel_append hlooped (.cons hr .nil), ?_⟩
  simp only [List.length_append, List.length_singleton]
  omega

theorem Got.overrun (h : Got x overruns back rs) : Got x (overruns + 1) (back ++ [msg]) rs := by
  obtain ⟨kept, hsub, hlooped, hlen⟩ := h
  refine ⟨kept, hsub.trans (List.sublist_append_left _ _), hlooped, ?_⟩
  simp only [List.length_append, List.length_singleton]
  omega

/-- Without an overrun all of them were received. -/
theorem Got.all (h : Got x 0 back rs) : List.Forall₂ (Loopback.Looped x) back rs := by
  obtain ⟨kept, hsub, hlooped, hlen⟩ := h
  rw [hsub.eq_of_length (by simpa using hlen)] at hlooped
  exact hlooped

end

/-! ## one frame -/

/-- **An ACK is an answer**: the receive thread leaves the transmit side as
`Transmit.answerNext` does. -/
theorem settle_eq_answerNext {u : Transmit.State ι} {f : TxFrame} {info : MsgResponseInfo} {sem : Nat}
    {initFlag : UInt32} (hwait : u.waitForAck = true)
    (hflag : initFlag &&& CAN4VSCP_FLAG_ENABLE_WAIT_FOR_ACK ≠ 0)
    (hsettle : (info, sem) = ((Reply.ack f).frame x).settle x initFlag
      (u.msgResponseInfo, u.transmitAckNackSem.length)) :
    { u with
      msgResponseInfo := info
      transmitAckNackSem := u.transmitAckNackSem ++
        List.replicate (sem - u.transmitAckNackSem.length) (.answer u.armed)
      acked := u.acked ++ [f] } = Transmit.answerNext ⟨true, 0, f.seq, some f⟩ u := by
  by_cases hmatch : u.Matches ⟨true, 0, f.seq, some f⟩
  · obtain ⟨-, hwaiting, hchannel, hseq⟩ := hmatch
    rw [Frame.settle, if_pos ⟨hflag, hwaiting, hchannel, hseq⟩] at hsettle
    simp only [Reply.frame, if_pos, Prod.mk.injEq] at hsettle
    obtain ⟨rfl, rfl⟩ := hsettle
    rw [Transmit.answerNext, if_pos ⟨hwait, hwaiting, hchannel, hseq⟩]
    simp [Transmit.State.record, Transmit.State.nacks]
  · have hno : ¬ (initFlag &&& CAN4VSCP_FLAG_ENABLE_WAIT_FOR_ACK ≠ 0 ∧
        u.msgResponseInfo.bWaitingForAckNack ∧ u.msgResponseInfo.channel = 0 ∧
        u.msgResponseInfo.seq = f.seq) := fun h => hmatch ⟨hwait, h.2⟩
    have hsame : ((Reply.ack f).frame x).settle x initFlag
        (u.msgResponseInfo, u.transmitAckNackSem.length) =
        (u.msgResponseInfo, u.transmitAckNackSem.length) := by
      rw [Frame.settle]
      exact if_neg hno
    rw [hsame, Prod.mk.injEq] at hsettle
    obtain ⟨rfl, rfl⟩ := hsettle
    rw [Transmit.answerNext, if_neg hmatch]
    simp [Transmit.State.record, Transmit.State.nacks]

theorem answerNext_ack (u : Transmit.State ι) (f : TxFrame) :
    (Transmit.answerNext ⟨true, 0, f.seq, some f⟩ u).acked = u.acked ++ [f] ∧
      (Transmit.answerNext ⟨true, 0, f.seq, some f⟩ u).sent = u.sent ∧
      (Transmit.answerNext ⟨true, 0, f.seq, some f⟩ u).bOpen = u.bOpen := by
  unfold Transmit.answerNext
  split <;> exact ⟨rfl, rfl, rfl⟩

/-- What the receive thread does with a frame it has got. -/
theorem replied_actOnReceived {rx : RxState} (d : Driver) (r : Reply)
    (h : rx.Holds x (r.frame x).toFrame) :
    Replied x [(r.frame x).toFrame] d (actOnReceived x d rx) := by
  rw [h.actOnReceived]
  refine replied_dispatch d h.read ?_
  cases r with
  | ack f => rfl
  | back seq msg hmsg =>
      have hfits := sub_fits hmsg
      simp only [SubFrame.Fits, bufferMsgRcvSize] at hfits
      exact UInt16.toNat_ofNat_of_lt' (by simp only [UInt16.size]; omega)

/-- An ACK leaves the receive queue as it is. -/
theorem received_ack {rx : RxState} (d : Driver) (f : TxFrame)
    (h : rx.Holds x ((Reply.ack f).frame x).toFrame) : d.Received (actOnReceived x d rx) [] 0 := by
  have hdispatch : dispatch x ((Reply.ack f).frame x).frameType d = addToResponseQueue x (d.touch x) :=
    dispatch_response x d (t := .ack) rfl
  rw [h.actOnReceived, hdispatch, run_addToResponseQueue (d.touch x) h.read rfl]
  cases run_answerFrame x (d.touch x) rx.bufferMsgRcv with
  | inl hsame =>
      rw [hsame]
      constructor <;> simp [Driver.addResponse, Driver.touch]
  | inr hanswer =>
      obtain ⟨bAck, hanswer⟩ := hanswer
      rw [hanswer]
      constructor <;> simp [Driver.addResponse, Driver.answer, Driver.touch]

/-- A message that comes back is queued, or counted as an overrun. -/
theorem received_back {rx : RxState} (d : Driver) (hmask : d.mask = 0) {seq : UInt8} {msg : CanalMsg}
    {hmsg : msg.Extended} (h : rx.Holds x ((Reply.back seq msg hmsg).frame x).toFrame) :
    (∃ r, Loopback.Looped x msg r ∧ d.Received (actOnReceived x d rx) [r] 0) ∨
      d.Received (actOnReceived x d rx) [] 1 := by
  obtain ⟨ms, hshows, hreceived⟩ := received_canal (sub_fits hmsg) h d
  have haccepts : ∀ f ∈ [sub msg hmsg].take d.room,
      SubFrame.accepted x d.filter d.mask (fun _ => firstId [sub msg hmsg]) f = true := by
    intro f _
    rw [SubFrame.accepted, hmask, doFilter_mask_zero]
  rw [scan_eq_take haccepts] at hshows hreceived
  cases hroom : d.room with
  | zero =>
      rw [hroom] at hshows hreceived
      cases hshows
      exact .inr hreceived
  | succ room =>
      rw [hroom] at hshows hreceived
      simp only [List.take_succ_cons, List.take_nil] at hshows
      obtain ⟨r, rs, ⟨timestamp, rfl⟩, hrs, rfl⟩ := List.forall₂_cons_right_iff.mp hshows
      cases hrs
      have hlooped : Loopback.Looped x msg
          (SubFrame.msg x (sub msg hmsg) (firstId [sub msg hmsg]) timestamp) :=
        ⟨rfl, rfl, sub_dlc hmsg, rfl⟩
      exact .inl ⟨_, hlooped, by simpa using hreceived⟩

/-- The driver sends nothing in return. -/
theorem Reply.reply_eq_none (r : Reply) : (r.frame x).reply x = none := by
  cases r with
  | ack f =>
      have hkind : x.kind ((Reply.ack f).frame x).frameType = some .ack := x.kind_code .ack
      simp [Frame.reply, hkind, FrameType.refused]
  | back seq msg h =>
      have hkind : x.kind ((Reply.back seq msg h).frame x).frameType = some .canal := x.kind_code .canal
      simp [Frame.reply, hkind, FrameType.refused]

/-- So nothing is written to the port. -/
theorem com_actOnReceived {rx : RxState} (d : Driver) (r : Reply)
    (h : rx.Holds x (r.frame x).toFrame) : (actOnReceived x d rx).com = d.com := by
  rw [(replied_actOnReceived d r h).com, List.filterMap_cons_none r.reply_eq_none, List.filterMap_nil,
    List.append_nil]

/-! ## one byte -/

section
variable (s : State ι)

@[simp] theorem shared_msgResponseInfo : s.shared.msgResponseInfo = s.tx.msgResponseInfo := rfl

@[simp] theorem shared_transmitAckNackSem :
    s.shared.transmitAckNackSem = s.tx.transmitAckNackSem.length := rfl

@[simp] theorem shared_com : s.shared.com = s.driver.com := rfl

end

theorem driverByte_inside {p : RxState × Driver} (h : (rxByte p.1 c).2 = false) :
    driverByte x p c = ((rxByte p.1 c).1, p.2) := by
  unfold driverByte
  split <;> simp_all

theorem driverByte_completes {p : RxState × Driver} (h : (rxByte p.1 c).2 = true) :
    driverByte x p c = ((rxByte p.1 c).1, actOnReceived x p.2 (rxByte p.1 c).1) := by
  unfold driverByte
  split <;> simp_all

/-- A byte within a frame changes nothing but the receiver. -/
theorem receives_inside (h : (rxByte s.pipe.second.1 c).2 = false) :
    s.receives x c rest = { s with
      pipe := { s.pipe with second := ((rxByte s.pipe.second.1 c).1, s.shared), line₂ := rest } } := by
  have hbyte := driverByte_inside (x := x) (p := (s.pipe.second.1, s.shared)) h
  simp [State.receives, hbyte, State.completesAck, h]

variable (rest) in
/-- The last byte of an ACK. -/
theorem receives_ack (hdone : (rxByte s.pipe.second.1 c).2 = true) {f : TxFrame}
    (hholds : (rxByte s.pipe.second.1 c).1.Holds x ((Reply.ack f).frame x).toFrame)
    (hsent : s.tx.sent[s.tx.acked.length]? = some f) (hwait : s.tx.waitForAck = true)
    (hflag : s.driver.initFlag &&& CAN4VSCP_FLAG_ENABLE_WAIT_FOR_ACK ≠ 0) :
    s.completesAck x c = true ∧ s.receives x c rest = { s with
      tx := Transmit.answerNext ⟨true, 0, f.seq, some f⟩ s.tx
      pipe := { s.pipe with
        second := ((rxByte s.pipe.second.1 c).1, actOnReceived x s.shared (rxByte s.pipe.second.1 c).1)
        line₂ := rest } } := by
  have hbyte := driverByte_completes (x := x) (p := (s.pipe.second.1, s.shared)) hdone
  have hack : s.completesAck x c = true := by
    simp [State.completesAck, hdone, isAck, hholds.crc, hholds.read.frameType, Reply.frame]
  have hcom := com_actOnReceived s.shared (.ack f) hholds
  have hreplied := replied_actOnReceived s.shared (.ack f) hholds
  have htx := settle_eq_answerNext hwait hflag hreplied.settled
  refine ⟨hack, ?_⟩
  rw [← htx]
  simp [State.receives, hbyte, hack, hsent, hcom]

/-- The last byte of a message that comes back. -/
theorem receives_back (hdone : (rxByte s.pipe.second.1 c).2 = true) {seq : UInt8} {msg : CanalMsg}
    {hmsg : msg.Extended}
    (hholds : (rxByte s.pipe.second.1 c).1.Holds x ((Reply.back seq msg hmsg).frame x).toFrame) :
    s.receives x c rest = { s with
      pipe := { s.pipe with
        second := ((rxByte s.pipe.second.1 c).1, actOnReceived x s.shared (rxByte s.pipe.second.1 c).1)
        line₂ := rest } } := by
  have hbyte := driverByte_completes (x := x) (p := (s.pipe.second.1, s.shared)) hdone
  have hno : s.completesAck x c = false := by
    simp [State.completesAck, hdone, isAck, hholds.read.frameType, Reply.frame, SubFrame.frame,
      x.code_injective.eq_iff]
  have hcom := com_actOnReceived s.shared (.back seq msg hmsg) hholds
  have hsettled := (replied_actOnReceived s.shared (.back seq msg hmsg) hholds).settled
  rw [List.foldl_cons, List.foldl_nil,
    Frame.settle_of_ne (x := x) (t := .canal) rfl (by simp) (by simp)] at hsettled
  obtain ⟨hinfo, hsem⟩ := Prod.mk.inj hsettled
  simp [State.receives, hbyte, hno, hinfo, hsem, hcom]

/-! ## every run -/

variable (x) (garbage) in
/-- The frames of the emulator on their way to the driver, which has read some first part of
them: every frame sent is acknowledged and comes back, in order. -/
structure Lines (s : State ι) (part : List UInt8) (replies : List Reply) (back : List CanalMsg) :
    Prop where
  within : s.pipe.second.1.Within part
  line : part ++ ahead (Emulator.feed x.crc8 garbage) s.pipe =
    replies.flatMap fun r => (r.frame x).encode x.crc8
  acked : s.tx.acked ++ replies.filterMap Reply.acks = s.tx.sent
  looped : back ++ replies.filterMap Reply.loops = s.tx.sent.map (·.msg)
  got : Got x s.driver.stat.cntOverruns back (s.delivered ++ s.driver.receiveList)

variable (x) (garbage) in
/-- What every run keeps, as long as the messages fit. -/
structure Inv (s₀ s : State ι) [DecidableEq ι] : Prop where
  tx : (Transmit.machine s₀.tx).ReachableWhen AckSession s.tx
  bOpen : s.tx.bOpen = true
  initFlag : s.driver.initFlag &&& CAN4VSCP_FLAG_ENABLE_WAIT_FOR_ACK ≠ 0
  mask : s.driver.mask = 0
  emulator : (transduce (Emulator.feed x.crc8 garbage) s.pipe.first s.pipe.line₁).1.Idle
  lines : ∃ part replies back, Lines x garbage s part replies back

section
variable [DecidableEq ι]

/-- What the transmit side knows in these runs. -/
theorem Init.ackInv (h₀ : Init s₀) {u : Transmit.State ι}
    (hu : (Transmit.machine s₀.tx).ReachableWhen AckSession u) : Transmit.AckInv u :=
  Transmit.ackInv_of_reachable h₀.tx h₀.waitForAck h₀.pc h₀.seq h₀.bTransmissionInProgress hu

theorem inv_init (h₀ : Init s₀) : Inv x garbage s₀ s₀ where
  tx := .init rfl
  bOpen := h₀.bOpen
  initFlag := h₀.initFlag
  mask := h₀.mask
  emulator := by
    rw [h₀.line₁]
    exact h₀.emulator
  lines := by
    refine ⟨[], [], [], ⟨_, h₀.live, h₀.idle, rfl⟩, ?_, ?_, ?_, ?_⟩
    · simp [ahead, h₀.line₁, h₀.line₂, transduce]
    · simp [h₀.tx.acked, h₀.tx.sent]
    · simp [h₀.tx.sent]
    · rw [h₀.delivered, h₀.receiveList, h₀.cntOverruns]
      exact ⟨[], .slnil, .nil, rfl⟩

/-- The emulator reads a byte. -/
theorem Inv.emulate (h : Inv x garbage s₀ s) {u : Loopback.State ι}
    (hnext : Loopback.emulateNext x garbage s.toState = some u) :
    Inv x garbage s₀ { s with toState := u } := by
  obtain ⟨part, replies, back, hlines⟩ := h.lines
  unfold Loopback.emulateNext at hnext
  split at hnext
  · cases hnext
  · next c rest hline =>
      cases hnext
      have hahead := ahead_first (f := Emulator.feed x.crc8 garbage) s.pipe hline
      exact {
        tx := h.tx
        bOpen := h.bOpen
        initFlag := h.initFlag
        mask := h.mask
        emulator := by
          have hidle := h.emulator
          rw [hline] at hidle
          exact hidle
        lines := ⟨part, replies, back, { hlines with line := hahead ▸ hlines.line }⟩ }

/-- A writer puts messages into the transmit queue. -/
theorem Inv.writer (h : Inv x garbage s₀ s) {w : ι} {a : Transmit.WriterAct} {u : Transmit.State ι}
    (hnext : Transmit.writerNext w a s.tx = some u) : Inv x garbage s₀ { s with tx := u } := by
  have htx : (Transmit.machine s₀.tx).ReachableWhen AckSession u :=
    .step (.writer w a) h.tx trivial hnext
  obtain ⟨part, replies, back, hlines⟩ := h.lines
  obtain ⟨ms, getSem, putSem, writer, rfl⟩ := Transmit.writerNext_effect hnext
  exact { h with tx := htx, lines := ⟨part, replies, back, { hlines with }⟩ }

/-- The transmit thread takes a step; a frame that it writes is answered and comes back. -/
theorem Inv.transmit (h₀ : Init s₀) (h : Inv x garbage s₀ s) {o : Transmit.Outcome}
    {u : Transmit.State ι} (hnext : Transmit.txNext o s.tx = some u)
    (hmsgs : ∀ m ∈ u.accepted, m.Extended) : Inv x garbage s₀ (s.writes x garbage o u) := by
  have htx : (Transmit.machine s₀.tx).ReachableWhen AckSession u :=
    .step (.transmit o) h.tx trivial hnext
  obtain ⟨part, replies, back, hlines⟩ := h.lines
  have hkeep : u.acked = s.tx.acked ∧ u.bOpen = s.tx.bOpen := by
    cases Transmit.txNext_step hnext <;> exact ⟨rfl, rfl⟩
  have hsent := Loopback.txNext_written hnext
  have hpush := ahead_push (f := Emulator.feed x.crc8 garbage) s.pipe
    (((Loopback.written o s.tx).map (Loopback.lineBytes x garbage)).getD [])
  cases hw : Loopback.written o s.tx with
  | none =>
      rw [hw, Option.toList_none, List.append_nil] at hsent
      have hsame : s.writes x garbage o u = { s with tx := u } := by
        simp [State.writes, hw]
      rw [hsame]
      exact { h with
        tx := htx
        bOpen := hkeep.2.trans h.bOpen
        lines := ⟨part, replies, back, { hlines with
          acked := by rw [hkeep.1, hsent, hlines.acked]
          looped := by rw [hsent, hlines.looped] }⟩ }
  | some f =>
      rw [hw, Option.toList_some] at hsent
      have hmem : f ∈ u.sent := hsent ▸ List.mem_append_right _ List.mem_cons_self
      have hmsg : f.msg.Extended := hmsgs f.msg (List.mem_of_getElem? ((h₀.ackInv htx).sent f hmem).msg)
      obtain ⟨hidle, seq, hout⟩ := transduce_written x garbage h.emulator f hmsg
      rw [hw, Option.map_some, Option.getD_some, hout] at hpush
      refine ⟨htx, hkeep.2.trans h.bOpen, h.initFlag, h.mask, ?_, part,
        replies ++ [.ack f, .back seq f.msg hmsg], back, hlines.within, ?_, ?_, ?_, hlines.got⟩
      · simp only [State.writes, hw, Option.map_some, Option.getD_some, transduce_append]
        exact hidle
      · simp only [State.writes, hw, Option.map_some, Option.getD_some]
        rw [hpush, ← List.append_assoc, hlines.line, List.flatMap_append]
      · simp only [State.writes]
        rw [hkeep.1, hsent, List.filterMap_append, ← List.append_assoc, hlines.acked]
        rfl
      · simp only [State.writes]
        rw [hsent, List.filterMap_append, ← List.append_assoc, hlines.looped, List.map_append]
        rfl

/-- An ACK is read: it is for the oldest frame that has not been answered. -/
theorem Inv.ack (h₀ : Init s₀) (h : Inv x garbage s₀ s) {f : TxFrame} {replies : List Reply}
    {back : List CanalMsg} (hlines : Lines x garbage s part (.ack f :: replies) back)
    (hline : s.pipe.line₂ = c :: rest) (hdone : (rxByte s.pipe.second.1 c).2 = true)
    (hwithin : (rxByte s.pipe.second.1 c).1.Within [])
    (hholds : (rxByte s.pipe.second.1 c).1.Holds x ((Reply.ack f).frame x).toFrame)
    (hrest : rest ++ (transduce (Emulator.feed x.crc8 garbage) s.pipe.first s.pipe.line₁).2 =
      replies.flatMap fun r => (r.frame x).encode x.crc8)
    (hprompt : Prompt x .receive s) : Inv x garbage s₀ (s.receives x c rest) := by
  have hacked : s.tx.acked ++ f :: replies.filterMap Reply.acks = s.tx.sent := hlines.acked
  have hsent : s.tx.sent[s.tx.acked.length]? = some f := by
    rw [← hacked, List.getElem?_append_right (Nat.le_refl _)]
    simp
  obtain ⟨hack, heq⟩ := receives_ack rest hdone hholds hsent (h₀.ackInv h.tx).flag h.initFlag
  have hwindow := hprompt c (by simp [hline]) hack f hsent
  have htx : (Transmit.machine s₀.tx).ReachableWhen AckSession
      (Transmit.answerNext ⟨true, 0, f.seq, some f⟩ s.tx) :=
    .step (.answer ⟨true, 0, f.seq, some f⟩) h.tx
      ⟨f, List.mem_of_getElem? hsent, rfl, rfl, rfl, hwindow⟩ rfl
  have hreceived := received_ack s.shared f hholds
  have hreplied := replied_actOnReceived s.shared (.ack f) hholds
  have hgot : Got x (actOnReceived x s.shared (rxByte s.pipe.second.1 c).1).stat.cntOverruns back
      (s.delivered ++ (actOnReceived x s.shared (rxByte s.pipe.second.1 c).1).receiveList) := by
    rw [hreceived.cntOverruns, hreceived.receiveList, List.append_nil]
    exact hlines.got
  have hflag : (actOnReceived x s.shared (rxByte s.pipe.second.1 c).1).initFlag &&&
      CAN4VSCP_FLAG_ENABLE_WAIT_FOR_ACK ≠ 0 := by
    rw [hreplied.initFlag]
    exact h.initFlag
  obtain ⟨hacked', hsent', hopen⟩ := answerNext_ack s.tx f
  rw [heq]
  refine ⟨htx, hopen.trans h.bOpen, hflag, hreceived.mask.trans h.mask, h.emulator, [], replies, back,
    hwithin, hrest, ?_, ?_, hgot⟩
  · simp only [hacked', hsent', List.append_assoc]
    exact hacked
  · simp only [hsent']
    exact hlines.looped

/-- A message that comes back is read. -/
theorem Inv.back (h : Inv x garbage s₀ s) {seq : UInt8} {msg : CanalMsg} {hmsg : msg.Extended}
    {replies : List Reply} {back : List CanalMsg}
    (hlines : Lines x garbage s part (.back seq msg hmsg :: replies) back)
    (hdone : (rxByte s.pipe.second.1 c).2 = true)
    (hwithin : (rxByte s.pipe.second.1 c).1.Within [])
    (hholds : (rxByte s.pipe.second.1 c).1.Holds x ((Reply.back seq msg hmsg).frame x).toFrame)
    (hrest : rest ++ (transduce (Emulator.feed x.crc8 garbage) s.pipe.first s.pipe.line₁).2 =
      replies.flatMap fun r => (r.frame x).encode x.crc8) :
    Inv x garbage s₀ (s.receives x c rest) := by
  have hreplied := replied_actOnReceived s.shared (.back seq msg hmsg) hholds
  have hkeep : (actOnReceived x s.shared (rxByte s.pipe.second.1 c).1).mask = s.driver.mask ∧
      Got x (actOnReceived x s.shared (rxByte s.pipe.second.1 c).1).stat.cntOverruns (back ++ [msg])
        (s.delivered ++ (actOnReceived x s.shared (rxByte s.pipe.second.1 c).1).receiveList) := by
    obtain ⟨r, hr, hreceived⟩ | hreceived := received_back s.shared h.mask hholds
    · rw [hreceived.cntOverruns, hreceived.receiveList, ← List.append_assoc]
      exact ⟨hreceived.mask, hlines.got.receive hr⟩
    · rw [hreceived.cntOverruns, hreceived.receiveList, List.append_nil]
      exact ⟨hreceived.mask, hlines.got.overrun⟩
  have hflag : (actOnReceived x s.shared (rxByte s.pipe.second.1 c).1).initFlag &&&
      CAN4VSCP_FLAG_ENABLE_WAIT_FOR_ACK ≠ 0 := by
    rw [hreplied.initFlag]
    exact h.initFlag
  rw [receives_back hdone hholds]
  refine ⟨h.tx, h.bOpen, hflag, hkeep.1.trans h.mask, h.emulator, [], replies, back ++ [msg], hwithin, hrest,
    hlines.acked, ?_, hkeep.2⟩
  rw [List.append_assoc]
  exact hlines.looped

/-- The receive thread reads a byte. -/
theorem Inv.receive (h₀ : Init s₀) (h : Inv x garbage s₀ s) (hline : s.pipe.line₂ = c :: rest)
    (hprompt : Prompt x .receive s) : Inv x garbage s₀ (s.receives x c rest) := by
  obtain ⟨part, replies, back, hlines⟩ := h.lines
  have hstream : part ++ c ::
      (rest ++ (transduce (Emulator.feed x.crc8 garbage) s.pipe.first s.pipe.line₁).2) =
      replies.flatMap fun r => (r.frame x).encode x.crc8 := by
    rw [← hlines.line, ahead, hline]
    rfl
  cases replies with
  | nil => simp at hstream
  | cons r replies =>
      rw [List.flatMap_cons] at hstream
      obtain ⟨hinside, hwithin⟩ | ⟨hdone, hrest, hwithin, hholds⟩ := hlines.within.byte (r.frame x) hstream
      · rw [receives_inside hinside]
        refine ⟨h.tx, h.bOpen, h.initFlag, h.mask, h.emulator, part ++ [c], r :: replies, back, hwithin, ?_,
          hlines.acked, hlines.looped, hlines.got⟩
        rw [List.flatMap_cons, ← hstream]
        simp [ahead]
      · cases r with
        | ack f => exact h.ack h₀ hlines hline hdone hwithin hholds hrest hprompt
        | back seq msg hmsg => exact h.back hlines hdone hwithin hholds hrest

/-- A reader takes the first message. -/
theorem Inv.read (h : Inv x garbage s₀ s) : Inv x garbage s₀ (readNext s) := by
  obtain ⟨part, replies, back, hlines⟩ := h.lines
  have hgot := hlines.got
  unfold readNext Driver.readMsg
  rw [if_pos h.bOpen]
  cases hlist : s.driver.receiveList with
  | nil =>
      rw [hlist] at hgot
      refine ⟨h.tx, h.bOpen, h.initFlag, h.mask, h.emulator, part, replies, back, hlines.within, hlines.line,
        hlines.acked, hlines.looped, ?_⟩
      have hempty : s.pipe.second.2.receiveList = [] := hlist
      simpa [Loopback.State.driver, hempty] using hgot
  | cons m rest =>
      rw [hlist] at hgot
      refine ⟨h.tx, h.bOpen, h.initFlag, h.mask, h.emulator, part, replies, back, hlines.within, hlines.line,
        hlines.acked, hlines.looped, ?_⟩
      simpa [Loopback.State.driver, Driver.takeFirst] using hgot

/-- Messages are only added to what has been accepted. -/
theorem accepted_grows {a : Act ι} (hnext : (machine x garbage s₀).next a s = some t) :
    s.tx.accepted <+: t.tx.accepted := by
  cases a with
  | transmit o =>
      obtain ⟨u, hu, rfl⟩ := Option.map_eq_some_iff.mp hnext
      have hkeep : u.accepted = s.tx.accepted := by
        cases Transmit.txNext_step hu <;> rfl
      exact hkeep ▸ List.prefix_refl _
  | writer w a =>
      obtain ⟨u, hu, rfl⟩ := Option.map_eq_some_iff.mp hnext
      obtain ⟨ms, getSem, putSem, writer, rfl⟩ := Transmit.writerNext_effect hu
      exact List.prefix_append _ _
  | emulate =>
      obtain ⟨u, hu, rfl⟩ := Option.map_eq_some_iff.mp hnext
      unfold Loopback.emulateNext at hu
      split at hu <;> cases hu
      exact List.prefix_refl _
  | receive =>
      change receiveNext x s = some t at hnext
      unfold receiveNext at hnext
      split at hnext <;> cases hnext
      exact List.prefix_refl _
  | read =>
      cases hnext
      exact List.prefix_refl _

/-- Every run keeps the invariant, as long as the messages fit. -/
theorem inv_of_reachable (h₀ : Init s₀) (hs : (machine x garbage s₀).ReachableWhen (Prompt x) s)
    (hmsgs : ∀ m ∈ s.tx.accepted, m.Extended) : Inv x garbage s₀ s := by
  revert hmsgs
  refine hs.invariant (P := fun s => (∀ m ∈ s.tx.accepted, m.Extended) → Inv x garbage s₀ s) ?_ ?_
  · rintro s rfl -
    exact inv_init h₀
  intro s t a hI hc hnext hmsgs
  have h := hI fun m hm => hmsgs m ((accepted_grows hnext).mem hm)
  cases a with
  | transmit o =>
      obtain ⟨u, hu, rfl⟩ := Option.map_eq_some_iff.mp hnext
      exact h.transmit h₀ hu hmsgs
  | writer w a =>
      obtain ⟨u, hu, rfl⟩ := Option.map_eq_some_iff.mp hnext
      exact h.writer hu
  | emulate =>
      obtain ⟨u, hu, rfl⟩ := Option.map_eq_some_iff.mp hnext
      exact h.emulate hu
  | receive =>
      change receiveNext x s = some t at hnext
      unfold receiveNext at hnext
      split at hnext
      · cases hnext
      · next c rest hline =>
          cases hnext
          exact h.receive h₀ hline hc
  | read =>
      cases hnext
      exact h.read

/-- What is to be seen of the driver and the emulator. -/
structure AtLeastOnce (x : External) (s : State ι) : Prop where
  conserved : s.tx.removed ++ s.tx.transmitList = s.tx.accepted
  -- what has been removed was answered by the emulator, which answers every frame in order
  answered : ∀ i m, s.tx.removed[i]? = some m → ∃ f ∈ s.tx.acked, f.pos = i ∧ f.msg = m
  acked : s.tx.acked <+: s.tx.sent
  -- what comes back is what has been sent, in order; what is missing has been counted
  back : ∃ back, back <+: s.tx.sent.map (·.msg) ∧
    Got x s.driver.stat.cntOverruns back (s.delivered ++ s.driver.receiveList)
  -- when all is sent and read, every accepted message has come back, in order
  complete : s.tx.transmitList = [] → s.pipe.line₁ = [] → s.pipe.line₂ = [] →
    s.driver.stat.cntOverruns = 0 → ∃ ps : List Nat,
      (∀ i < s.tx.accepted.length, i ∈ ps) ∧ ps.Pairwise (· ≤ ·) ∧
      List.Forall₂ (fun p r => ∃ m, s.tx.accepted[p]? = some m ∧ Loopback.Looped x m r) ps
        (s.delivered ++ s.driver.receiveList)

/-- **At least once, in order**: with the emulator as the adapter, whatever waits expire and
whatever sends fail, every message is answered before it is removed, and all messages come
back in the order they were accepted. -/
theorem at_least_once (h₀ : Init s₀) (hs : (machine x garbage s₀).ReachableWhen (Prompt x) s)
    (hmsgs : ∀ m ∈ s.tx.accepted, m.Extended) : AtLeastOnce x s := by
  have h := inv_of_reachable h₀ hs hmsgs
  have hack := h₀.ackInv h.tx
  have hconserved := (Transmit.ledger_of_reachable h₀.tx h.tx).conserved
  obtain ⟨part, replies, back, hlines⟩ := h.lines
  refine ⟨hconserved, hack.removed, ⟨_, hlines.acked⟩, ⟨back, ⟨_, hlines.looped⟩, hlines.got⟩, ?_⟩
  intro hlist hline₁ hline₂ hoverruns
  -- nothing is on its way any more
  have hstream := hlines.line
  rw [ahead, hline₁, hline₂, transduce, List.append_nil, List.append_nil] at hstream
  have hreplies : replies = [] := by
    cases replies with
    | nil => rfl
    | cons r replies =>
        rw [List.flatMap_cons] at hstream
        exact absurd ⟨_, hstream.symm⟩ (hlines.within.not_whole (r.frame x))
  have hgot := hlines.got
  have hback := hlines.looped
  rw [hreplies, List.filterMap_nil, List.append_nil] at hback
  rw [hoverruns, hback] at hgot
  rw [hlist, List.append_nil] at hconserved
  refine ⟨s.tx.sent.map (·.pos), fun i hi => hack.order.covers (hconserved ▸ hi), hack.order.pairwise, ?_⟩
  have hlooped := hgot.all
  rw [List.forall₂_map_left_iff] at hlooped ⊢
  have hboth := (List.forall₂_and_left _ _).mpr ⟨fun f hf => (hack.sent f hf).msg, hlooped⟩
  exact hboth.imp fun f r hfr => ⟨f.msg, hfr.1, hfr.2⟩

end

/-- The wait for the answer to the first frame expires before the emulator has read it: the
message is sent once more, and comes back twice. -/
theorem at_least_once_expired :
    let m : CanalMsg := ⟨0, 0, 0x10, 2, [DLE, 7], 0⟩
    ∃ s : State Unit, s.tx.removed = [m] ∧ s.delivered.length = 2 ∧ AtLeastOnce External.vscp s := by
  intro m
  let s₀ : State Unit :=
    { tx := { Transmit.State.new with bRun := true, bOpen := true, waitForAck := true, pc := .start, api := .opened }
      pipe := ⟨Emulator.new, [], (RxState.new, { Driver.new with initFlag := CAN4VSCP_FLAG_ENABLE_WAIT_FOR_ACK }), []⟩
      delivered := [] }
  let steps (n : Nat) : List (Act Unit) := List.replicate n (.transmit .ok)
  let run : List (Act Unit) :=
    [.writer () (.call true m), .writer () .go, .writer () .go, .writer () .go] ++ steps 9 ++
      [.transmit .expired] ++ steps 5 ++ List.replicate 36 .emulate ++ List.replicate 58 .receive ++
      steps 4 ++ [.read, .read]
  have h₀ : Init s₀ := {
    tx := ⟨rfl, rfl, rfl, rfl, rfl, rfl, rfl, rfl, rfl, rfl, .inl rfl, by simp [s₀]⟩
    waitForAck := rfl, pc := rfl, seq := rfl, bTransmissionInProgress := rfl, bOpen := rfl
    initFlag := by decide, emulator := ⟨rfl, rfl⟩, live := ⟨.inl rfl, Nat.zero_le _⟩, idle := ⟨rfl, rfl⟩
    mask := rfl, receiveList := rfl, cntOverruns := rfl, line₁ := rfl, line₂ := rfl, delivered := rfl }
  obtain ⟨s, hs, hp⟩ := (machine External.vscp (fun _ => 0) s₀).exists_reachableWhen
    (c := Prompt External.vscp) run (fun s => s.tx.accepted == [m] && s.tx.removed == [m] &&
      s.delivered.length == 2) rfl (by decide +kernel)
  simp only [Bool.and_eq_true, beq_iff_eq] at hp
  obtain ⟨⟨hacc, hremoved⟩, hdelivered⟩ := hp
  exact ⟨s, hremoved, hdelivered, at_least_once h₀ hs (by
    rw [hacc]
    simpa using ⟨by decide, by decide, by decide⟩)⟩

end AckLoopback

end Can4vscp
