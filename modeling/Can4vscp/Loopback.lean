import Can4vscp.Emulator
import Can4vscp.PlainTransmit
import Can4vscp.ReceiveThread
import Mathlib.Data.List.Forall2

/-!
# Can4vscp.Loopback

The driver without ACK on one end of a serial line that loses nothing, the
adapter emulator on the other: the writers, the transmit thread, the emulator
and the receive thread take their steps in any order.

No command is sent meanwhile: nobody calls `sendCommand` and
`CAN4VSCP_FLAG_ENABLE_REOPEN` is clear.  A send that fails writes nothing.  The
transmit thread does not look at the answers, and the receive thread has none to
give: the emulator only sends it ACKs and messages (`Inv.receive`).

Where the bytes on the line have got to is left out of account by `settle`: what
the emulator and the receiver make of them is fixed once they are written.  So
only the write of a frame changes what will have been received
(`Settled.write`), and it adds the message of the frame.
-/

namespace Can4vscp.Loopback

open Memory Pipeline

variable {ι : Type} (x : External) (garbage : Mem UInt8)

/-! ## the machine -/

structure State (ι : Type) where
  tx : Transmit.State ι
  pipe : Pipe Emulator (RxState × Driver) UInt8 UInt8

/-- The receive side of the driver. -/
def State.driver (s : State ι) : Driver := s.pipe.second.2

/-- The frame a step of the transmit thread hands to the serial port. -/
def written (o : Transmit.Outcome) (s : Transmit.State ι) : Option Transmit.TxFrame :=
  match s.pc, o with
  | .send _ f, .ok => some f
  | _, _ => none

/-- The line bytes of a frame of the transmit thread. -/
def lineBytes (f : Transmit.TxFrame) : List UInt8 :=
  (transmitFrame x garbage f.msg f.seq).encode x.crc8

/-- Who moves.  A receive step is one call of `readSerialData`, with the results
of its `readChar` calls. -/
inductive Act (ι : Type) where
  | transmit (o : Transmit.Outcome)
  | writer (w : ι) (a : Transmit.WriterAct)
  | emulate
  | receive (input : List ReadChar)
  deriving DecidableEq

/-- One byte goes through the emulator. -/
def emulateNext (s : State ι) : Option (State ι) :=
  match s.pipe.line₁ with
  | [] => none
  | c :: rest =>
    some { s with pipe := { s.pipe with
      first := (s.pipe.first.feed x.crc8 garbage c).1
      line₁ := rest
      line₂ := s.pipe.line₂ ++ (s.pipe.first.feed x.crc8 garbage c).2 } }

/-- One call of `readSerialData`: what it has not read stays on its line, and what
it sends goes to the emulator. -/
def receiveNext (input : List ReadChar) (s : State ι) : Option (State ι) :=
  if bytesOf input <+: s.pipe.line₂ then
    let r := readSerialData x s.pipe.second.1 s.pipe.second.2 input
    some { s with pipe := { s.pipe with
      line₁ := s.pipe.line₁ ++ (r.2.1.com.drop s.driver.com.length).flatten
      second := (r.1, r.2.1)
      line₂ := bytesOf r.2.2 ++ s.pipe.line₂.drop (bytesOf input).length } }
  else none

/-- The driver and the emulator, from an initial state. -/
def machine [DecidableEq ι] (s₀ : State ι) : Machine (State ι) (Act ι) where
  init := (· = s₀)
  next
    | .transmit o, s => (Transmit.txNext o s.tx).map fun tx =>
      { tx, pipe := { s.pipe with
          line₁ := s.pipe.line₁ ++ ((written o s.tx).map (lineBytes x garbage)).getD [] } }
    | .writer w a, s => (Transmit.writerNext w a s.tx).map fun tx => { s with tx }
    | .emulate, s => emulateNext x garbage s
    | .receive input, s => receiveNext x input s

/-- An open driver without ACK and with mask 0, its receive queue empty, and
nothing on the line. -/
structure Init (s : State ι) : Prop where
  tx : Transmit.Start s.tx
  waitForAck : s.tx.waitForAck = false
  bOpen : s.tx.bOpen = true
  emulator : s.pipe.first.Idle
  live : s.pipe.second.1.Live
  idle : s.pipe.second.1.Idle
  mask : s.driver.mask = 0
  receiveList : s.driver.receiveList = []
  line₁ : s.pipe.line₁ = []
  line₂ : s.pipe.line₂ = []

/-! ## what the adapter and the receiver make of a frame -/

/-- A message as it comes back: extended, with the id, the size and the data it
was sent with. -/
structure Looped (m r : CanalMsg) : Prop where
  flags : r.flags = x.CANAL_IDFLAG_EXTENDED
  id : r.id = m.id
  sizeData : r.sizeData = m.sizeData
  data : r.data = m.canData

/-- When everything on the line is read, the messages sent are in the receive
queue, and the receive thread has sent nothing but what it had sent before. -/
structure Settled (com : List (List UInt8)) (sent : List CanalMsg)
    (t : Emulator × RxState × Driver) : Prop where
  emulator : t.1.Idle
  live : t.2.1.Live
  idle : t.2.1.Idle
  mask : t.2.2.mask = 0
  com : t.2.2.com = com
  received : List.Forall₂ (Looped x) sent t.2.2.receiveList

variable {x} {garbage} {com : List (List UInt8)} {sent : List CanalMsg} {t : Emulator × RxState × Driver} {msg : CanalMsg}

/-- The emulator answers the frame of a message with an ACK and the message. -/
theorem transduce_transmitFrame {e : Emulator} (h : e.Idle) (hmsg : msg.Extended) (seq : UInt8) :
    transduce (Emulator.feed x.crc8 garbage) e ((transmitFrame x garbage msg seq).encode x.crc8) =
      ({ e with
          frame := (transmitFrame x garbage msg seq).content x.crc8
          bInFrame := false
          bPendingDLE := false
          bLastWasDLE := false
          txseq := e.txseq + 1 },
        Frame.encode x.crc8 ⟨x.code .ack, 0, seq, 0, []⟩ ++
          Frame.encode x.crc8 ⟨x.code .canal, 0, e.txseq, UInt16.ofNat (4 + 1 + msg.sizeData.toNat),
            idBytes msg.id ++ [msg.sizeData] ++ msg.canData⟩) := by
  have hpayload := hmsg.transmitPayload_eq garbage
  have hlen : (transmitFrame x garbage msg seq).payload.length ≤ 12 := by
    have := hmsg.length_canData
    have := hmsg.sizeData_toNat
    simp only [transmitFrame, hpayload, List.length_append, length_idBytes]
    omega
  have hchannel : (transmitFrame x garbage msg seq).channel ≠ DLE := by simp [transmitFrame, DLE]
  rw [Emulator.transduce_frame x.crc8 garbage e h _ (code_ne_DLE x x.canal (by decide)) hchannel (by omega)]
  rw [Emulator.handleFrame_canal x.crc8 garbage _ (transmitFrame x garbage msg seq) rfl x.canal
    (length_idBytes msg.id) hmsg.length_canData hmsg.sizeData_toNat hpayload rfl, x.ack, x.canal]
  rfl

/-- **A frame is written**: its message will have been received. -/
theorem Settled.write (h : Settled x com sent t) (hmsg : msg.Extended)
    (hroom : sent.length < CAN4VSCP_MAX_RCVMSG) (seq : UInt8) :
    Settled x com (sent ++ [msg])
      (let r := transduce (Emulator.feed x.crc8 garbage) t.1
        ((transmitFrame x garbage msg seq).encode x.crc8)
      (r.1, r.2.foldl (driverByte x) t.2)) := by
  obtain ⟨e, s, d⟩ := t
  obtain ⟨rx₁, d₁, hack, hlive₁, hidle₁, hsame⟩ := foldl_ack x d seq h.live h.idle
  have hroom₁ : d₁.receiveList.length < CAN4VSCP_MAX_RCVMSG := by
    rw [hsame.receiveList, ← h.received.length_eq]
    exact hroom
  have hmask₁ : d₁.mask = 0 := hsame.mask.trans h.mask
  obtain ⟨rx₂, d₂, timestamp, hcanal, hlive₂, hidle₂, hmask₂, hcom₂, hlist₂⟩ := foldl_canal x e.txseq
    hlive₁ hidle₁ hmsg.id hmsg.sizeData hmsg.length_canData hroom₁ hmask₁
  rw [transduce_transmitFrame h.emulator hmsg seq]
  dsimp only
  rw [List.foldl_append, hack, hcanal]
  refine ⟨⟨rfl, rfl⟩, hlive₂, hidle₂, hmask₂, (hcom₂.trans hsame.com).trans h.com, ?_⟩
  rw [hlist₂, hsame.receiveList]
  exact List.rel_append h.received (.cons ⟨rfl, rfl, rfl, rfl⟩ .nil)

/-! ## the transmit side -/

section
variable {o : Transmit.Outcome} {f : Transmit.TxFrame} {u v : Transmit.State ι}

/-- What has been sent grows by the frame written. -/
theorem txNext_written (h : Transmit.txNext o u = some v) :
    v.sent = u.sent ++ (written o u).toList := by
  cases hpc : u.pc with
  | send again f =>
      cases o with
      | ok =>
          simp only [Transmit.txNext, hpc] at h
          split at h
          · cases h
            simp [written, hpc]
          · split at h
            · cases h
              simp [written, hpc]
            · cases h
              simp [written, hpc]
      | sendFails =>
          simp only [Transmit.txNext, hpc] at h
          cases h
          simp [written, hpc]
      | expired => simp [Transmit.txNext, hpc] at h
      | interrupted => simp [Transmit.txNext, hpc] at h
  | _ =>
      have hnone : written o u = none := by simp [written, hpc]
      rw [hnone, (Transmit.txNext_step h).sent_eq (by simp [hpc])]
      simp

/-- The frame written holds an accepted message, and there are fewer frames than
messages before it. -/
theorem written_accepted (hI : Transmit.PlainInv u)
    (hL : Transmit.Ledger u) (hw : written o u = some f) :
    f.msg ∈ u.accepted ∧ u.sent.length < u.accepted.length := by
  unfold written at hw
  split at hw
  · next again f' hpc =>
      cases hw
      cases again with
      | true => simp [Transmit.PlainInv, hpc] at hI
      | false =>
          simp only [Transmit.PlainInv, hpc] at hI
          obtain ⟨hsent, hhead⟩ := hI
          obtain ⟨rest, hlist⟩ := List.head?_eq_some_iff.mp hhead
          have hlen : u.sent.length = u.removed.length := by rw [← hsent, List.length_map]
          rw [← hL.conserved, hlist, hlen]
          simp
  · cases hw

/-- With an empty queue every accepted message has been sent. -/
theorem sent_of_drained (hI : Transmit.PlainInv u)
    (hL : Transmit.Ledger u) (hlist : u.transmitList = []) :
    u.sent.map (·.msg) = u.accepted := by
  have hpc : u.pc ≠ .popPlain := by
    intro hpc
    simp [Transmit.PlainInv, hpc, hlist] at hI
  rw [hI.sent_removed hpc, ← hL.conserved, hlist, List.append_nil]

end

/-! ## every run -/

variable (x) (garbage) in
/-- What every run keeps: the driver stays open, and as long as the messages fit
and there is room for them, the messages sent will have been received. -/
structure Inv (s : State ι) : Prop where
  bOpen : s.tx.bOpen = true
  settled : (∀ m ∈ s.tx.accepted, m.Extended) → s.tx.accepted.length ≤ CAN4VSCP_MAX_RCVMSG →
    Settled x s.driver.com (s.tx.sent.map (·.msg)) (settle (Emulator.feed x.crc8 garbage) (driverByte x) s.pipe)

variable {s₀ s t : State ι}

theorem inv_init (h : Init s₀) : Inv x garbage s₀ where
  bOpen := h.bOpen
  settled := fun _ _ => by
    rw [settle_empty s₀.pipe h.line₁ h.line₂, h.tx.sent]
    refine ⟨h.emulator, h.live, h.idle, h.mask, rfl, ?_⟩
    have hlist := h.receiveList
    rw [State.driver] at hlist
    rw [hlist]
    exact .nil

/-- The emulator reads a byte. -/
theorem Inv.emulate (h : Inv x garbage s) (hnext : emulateNext x garbage s = some t) :
    Inv x garbage t := by
  unfold emulateNext at hnext
  split at hnext
  · cases hnext
  · next c rest hline =>
      cases hnext
      refine ⟨h.bOpen, fun hmsgs hroom => ?_⟩
      rw [settle_first s.pipe hline]
      exact h.settled hmsgs hroom

/-- The receive thread reads what has arrived, and sends nothing. -/
theorem Inv.receive (h : Inv x garbage s) {input : List ReadChar}
    (hnext : receiveNext x input s = some t) : Inv x garbage t := by
  obtain ⟨used, hused, hfold⟩ := readSerialData_spec x s.pipe.second.1 s.pipe.second.2 input
  unfold receiveNext at hnext
  split at hnext
  · next hprefix =>
      obtain ⟨later, hline⟩ := hprefix
      generalize readSerialData x s.pipe.second.1 s.pipe.second.2 input = r at *
      have hsplit : s.pipe.line₂ = used ++ (bytesOf r.2.2 ++ later) := by
        rw [← List.append_assoc, ← hused, hline]
      have hdrop : s.pipe.line₂.drop (bytesOf input).length = later := by
        rw [← hline, List.drop_left]
      cases hnext
      refine ⟨h.bOpen, fun hmsgs hroom => ?_⟩
      have hsettle := settle_second (f := Emulator.feed x.crc8 garbage) (g := driverByte x)
        s.pipe hsplit
      rw [hfold] at hsettle
      have hsettled := h.settled hmsgs hroom
      rw [← hsettle] at hsettled
      -- the bytes read and those still to be read both only add to what is sent
      have hcom : r.2.1.com = s.driver.com := by
        have hread := foldl_com (x := x) s.pipe.second used
        rw [hfold] at hread
        have hleft : r.2.1.com <+: s.driver.com := by
          rw [← hsettled.com]
          exact foldl_com (r.1, r.2.1) _
        exact hleft.eq_of_length_le hread.length_le
      have hnone : s.pipe.line₁ ++ (r.2.1.com.drop s.driver.com.length).flatten = s.pipe.line₁ := by
        rw [hcom, List.drop_length, List.flatten_nil, List.append_nil]
      dsimp only [State.driver] at hnone ⊢
      rw [hnone, hdrop]
      exact hcom ▸ hsettled
  · cases hnext

/-- The transmit thread takes a step; if it writes a frame, the message of the
frame will have been received. -/
theorem Inv.transmit (h : Inv x garbage s) {u : Transmit.State ι} {o : Transmit.Outcome}
    (hI : Transmit.PlainInv s.tx) (hL : Transmit.Ledger s.tx)
    (hnext : Transmit.txNext o s.tx = some u) :
    Inv x garbage { tx := u, pipe := { s.pipe with
      line₁ := s.pipe.line₁ ++ ((written o s.tx).map (lineBytes x garbage)).getD [] } } := by
  have hkeep : u.accepted = s.tx.accepted ∧ u.bOpen = s.tx.bOpen := by
    cases Transmit.txNext_step hnext <;> exact ⟨rfl, rfl⟩
  have hsent := txNext_written hnext
  refine ⟨hkeep.2.trans h.bOpen, fun hmsgs hroom => ?_⟩
  dsimp only at hmsgs hroom ⊢
  rw [hkeep.1] at hmsgs hroom
  have hsettled := h.settled hmsgs hroom
  rw [settle_push, hsent, List.map_append]
  cases hw : written o s.tx with
  | none => simpa [transduce, State.driver] using hsettled
  | some f =>
      obtain ⟨hmem, hlt⟩ := written_accepted hI hL hw
      have hlen : (s.tx.sent.map (·.msg)).length < CAN4VSCP_MAX_RCVMSG := by
        rw [List.length_map]
        omega
      simp only [Option.map_some, Option.getD_some, Option.toList_some, List.map_cons, List.map_nil,
        lineBytes]
      exact hsettled.write (hmsgs f.msg hmem) hlen f.seq

/-- A writer puts messages into the transmit queue. -/
theorem Inv.writers (h : Inv x garbage s) (ms : List CanalMsg) (getSem putSem : Nat)
    (writer : ι → Transmit.WriterPc) :
    Inv x garbage { s with tx := s.tx.withWriters ms getSem putSem writer } := by
  refine ⟨h.bOpen, fun hmsgs hroom => h.settled (fun m hm => hmsgs m ?_) ?_⟩
  · exact List.mem_append_left ms hm
  · have hlen : (s.tx.withWriters ms getSem putSem writer).accepted.length =
        s.tx.accepted.length + ms.length := List.length_append
    dsimp only at hroom
    omega

variable [DecidableEq ι]

/-- The transmit side takes part in these runs as it does alone. -/
theorem tx_reachable (hs : (machine x garbage s₀).Reachable s) :
    (Transmit.machine s₀.tx).ReachableWhen Transmit.PlainSession s.tx := by
  refine hs.invariant
    (P := fun s => (Transmit.machine s₀.tx).ReachableWhen Transmit.PlainSession s.tx) ?_ ?_
  · rintro s rfl
    exact .init rfl
  · intro s t a hI _ hnext
    cases a with
    | transmit o =>
        obtain ⟨u, hu, rfl⟩ := Option.map_eq_some_iff.mp hnext
        exact .step (.transmit o) hI trivial hu
    | writer w a =>
        obtain ⟨u, hu, rfl⟩ := Option.map_eq_some_iff.mp hnext
        exact .step (.writer w a) hI trivial hu
    | emulate =>
        have htx : t.tx = s.tx := by
          change emulateNext x garbage s = some t at hnext
          unfold emulateNext at hnext
          split at hnext <;> cases hnext
          rfl
        rw [htx]
        exact hI
    | receive input =>
        have htx : t.tx = s.tx := by
          change receiveNext x input s = some t at hnext
          unfold receiveNext at hnext
          split at hnext <;> cases hnext
          rfl
        rw [htx]
        exact hI

/-- Every run keeps the invariant. -/
theorem inv_of_reachable (h₀ : Init s₀) (hs : (machine x garbage s₀).Reachable s) :
    Inv x garbage s := by
  refine hs.invariant_of (P := fun s => Transmit.PlainInv s.tx ∧ Transmit.Ledger s.tx)
    (fun s hs => ?_) (fun s h => h ▸ inv_init h₀) ?_
  · have htx := tx_reachable hs
    exact ⟨Transmit.plainInv_of_reachable h₀.tx h₀.waitForAck htx,
      Transmit.ledger_of_reachable h₀.tx htx⟩
  · rintro s t a ⟨hI, hL⟩ h _ hnext
    cases a with
    | transmit o =>
        obtain ⟨u, hu, rfl⟩ := Option.map_eq_some_iff.mp hnext
        exact h.transmit hI hL hu
    | writer w a =>
        obtain ⟨u, hu, rfl⟩ := Option.map_eq_some_iff.mp hnext
        obtain ⟨ms, getSem, putSem, writer, rfl⟩ := Transmit.writerNext_effect hu
        exact h.writers ms getSem putSem writer
    | emulate => exact h.emulate hnext
    | receive input => exact h.receive hnext

/-- **Loopback**: once the accepted messages have been transmitted, looped back
and received, successive `readMsg` calls return them in order, and then that the
queue is empty. -/
theorem loopback (x : External) (garbage : Mem UInt8) (s₀ s : State ι) (h₀ : Init s₀)
    (hs : (machine x garbage s₀).Reachable s) (hmsgs : ∀ m ∈ s.tx.accepted, m.Extended)
    (hroom : s.tx.accepted.length ≤ CAN4VSCP_MAX_RCVMSG) (hlist : s.tx.transmitList = [])
    (hline₁ : s.pipe.line₁ = []) (hline₂ : s.pipe.line₂ = []) :
    ∃ rs, List.Forall₂ (Looped x) s.tx.accepted rs ∧ ∀ k,
      Driver.readMsgs s.tx.bOpen (rs.length + k) s.driver =
        (rs.map fun r => (.success, some r)) ++ List.replicate k (.fifoEmpty, none) := by
  have htx := tx_reachable hs
  have hInv := inv_of_reachable h₀ hs
  have hsettled := hInv.settled hmsgs hroom
  rw [settle_empty s.pipe hline₁ hline₂, sent_of_drained
    (Transmit.plainInv_of_reachable h₀.tx h₀.waitForAck htx)
    (Transmit.ledger_of_reachable h₀.tx htx) hlist] at hsettled
  refine ⟨s.driver.receiveList, hsettled.received, fun k => ?_⟩
  rw [hInv.bOpen]
  exact Driver.readMsgs_eq s.driver k

/-- A message with DLEs in its id and its data goes out and comes back, its
answers read in two calls. -/
theorem loopback_dle :
    let m : CanalMsg := ⟨0, 0, 0x10, 2, [DLE, 7], 0⟩
    ∃ (s : State Unit) (rs : List CanalMsg), s.tx.accepted = [m] ∧
      List.Forall₂ (Looped External.vscp) [m] rs ∧
      Driver.readMsgs s.tx.bOpen (rs.length + 1) s.driver =
        (rs.map fun r => (.success, some r)) ++ [(.fifoEmpty, none)] := by
  intro m
  let s₀ : State Unit :=
    { tx := { Transmit.State.new with bRun := true, bOpen := true, pc := .start, api := .opened }
      pipe := ⟨Emulator.new, [], (RxState.new, Driver.new), []⟩ }
  let ack : List UInt8 := Frame.encode crc8Update ⟨251, 0, 0, 0, []⟩
  let back : List UInt8 := Frame.encode crc8Update ⟨2, 0, 0, 7, idBytes m.id ++ [2, DLE, 7]⟩
  let run : List (Act Unit) :=
    [.writer () (.call true m), .writer () .go, .writer () .go, .writer () .go] ++
      List.replicate 9 (.transmit .ok) ++ List.replicate 18 .emulate ++
      [.receive ((ack ++ back).map .byte), .receive (.noData :: []), .receive (back.map .byte)]
  have h₀ : Init s₀ :=
    ⟨⟨rfl, rfl, rfl, rfl, rfl, rfl, rfl, rfl, rfl, rfl, .inl rfl, by simp [s₀]⟩, rfl, rfl, ⟨rfl, rfl⟩,
      ⟨.inl rfl, Nat.zero_le _⟩, ⟨rfl, rfl⟩, rfl, rfl, rfl, rfl⟩
  obtain ⟨s, hs, hp⟩ := (machine External.vscp (fun _ => 0) s₀).exists_reachableWhen
    (c := fun _ _ => True) run (fun s => s.tx.accepted == [m] && s.tx.transmitList == [] &&
      s.pipe.line₁ == [] && s.pipe.line₂ == []) rfl (by decide +kernel)
  simp only [Bool.and_eq_true, beq_iff_eq] at hp
  obtain ⟨⟨⟨hacc, hlist⟩, hline₁⟩, hline₂⟩ := hp
  obtain ⟨rs, hlooped, hread⟩ := loopback External.vscp (fun _ => 0) s₀ s h₀ hs
    (by rw [hacc]; simpa using ⟨by decide, by decide, by decide⟩) (by rw [hacc]; decide)
    hlist hline₁ hline₂
  exact ⟨s, rs, hacc, hacc ▸ hlooped, hread 1⟩

end Can4vscp.Loopback
