import Can4vscp.Driver
import Can4vscp.Lib.Pipeline

/-!
# Can4vscp.Emulator

The adapter of the tests (`AdapterEmulator` in `test-can4vscpobj.cpp`): a second
frame parser, written independently of the driver's, and the answers to the
frames it gets.

`garbage` is what memory holds that nobody has written; the emulator copies some
of it when a CANAL frame has more than 8 data bytes.
-/

namespace Can4vscp

open Memory ByteStuffing ReadProgram Pipeline

/-- The parser state and the sequence number of the frames sent to the driver. -/
structure Emulator where
  frame : List UInt8
  bInFrame : Bool
  bPendingDLE : Bool
  bLastWasDLE : Bool
  txseq : UInt8
  deriving DecidableEq, Repr

namespace Emulator

/-- The emulator as it is constructed. -/
def new : Emulator := ⟨[], false, false, false, 0⟩

variable (crc8 : UInt8 → UInt8 → UInt8) (garbage : Mem UInt8)

/-- `sendFrame`: the bytes written to the serial line. -/
def sendFrame (frameType channel seq : UInt8) (declaredSizePayload : UInt16)
    (payload : List UInt8) : List UInt8 :=
  Frame.encode crc8 ⟨frameType, channel, seq, declaredSizePayload, payload⟩

/-- `handleFrame`: a complete destuffed frame is in `frame`. -/
def handleFrame (e : Emulator) : Emulator × List UInt8 :=
  let data := storeAll garbage 0 e.frame
  if e.frame.length < 6 then (e, []) -- Runt frame
  else if (checkCRC crc8 (UInt16.ofNat e.frame.length)).run data = false then (e, [])
  else
    let channel := data 1
    let seq := data 2
    let sizePayload := (data 3).toNat * 256 + (data 4).toNat
    if data 0 = 255 then
      (e, sendFrame crc8 254 channel seq 2 [0, data 5])
    else if data 0 = 8 then
      (e, sendFrame crc8 9 channel seq 4 [0, 2, 0, 10])
    else if data 0 = 3 then
      (e, sendFrame crc8 251 channel seq 2 [0, data 5])
    else if data 0 = 2 then
      if sizePayload < 4 then (e, [])
      else
        let dlc := UInt8.ofNat (sizePayload - 4)
        let loop := slice data 5 4 ++ [dlc] ++ slice data 9 (min dlc.toNat 8) ++
          slice garbage 0 (dlc.toNat - 8)
        ({ e with txseq := e.txseq + 1 },
          -- ACK the transmission, and loop the frame back
          sendFrame crc8 251 channel seq 0 [] ++
            sendFrame crc8 2 0 e.txseq (UInt16.ofNat (4 + 1 + dlc.toNat)) loop)
    else (e, [])

/-- `feed`: one byte from the driver. -/
def feed (e : Emulator) (c : UInt8) : Emulator × List UInt8 :=
  if e.bInFrame = false then
    let e' := if e.bLastWasDLE = true ∧ STX = c then { e with bInFrame := true, frame := [] } else e
    ({ e' with bLastWasDLE := DLE == c }, [])
  else if e.bPendingDLE = true then
    let e' := { e with bPendingDLE := false }
    if DLE = c then ({ e' with frame := e.frame ++ [DLE] }, []) -- Stuffed data byte
    else if ETX = c then
      handleFrame crc8 garbage { e' with bInFrame := false, bLastWasDLE := false }
    else if STX = c then ({ e' with frame := [] }, []) -- Frame restart
    else ({ e' with bInFrame := false, bLastWasDLE := false }, []) -- Protocol error
  else if DLE = c then ({ e with bPendingDLE := true }, [])
  else ({ e with frame := e.frame ++ [c] }, [])

/-! ## one frame -/

/-- Between frames. -/
structure Idle (e : Emulator) : Prop where
  bInFrame : e.bInFrame = false
  bPendingDLE : e.bPendingDLE = false

/-- DLE STX begins a frame. -/
theorem transduce_dle_stx (e : Emulator) (h : e.Idle) :
    transduce (feed crc8 garbage) e [DLE, STX] =
      ({ e with bInFrame := true, frame := [], bLastWasDLE := false }, []) := by
  simp [transduce, feed, h.bInFrame, STX_ne_DLE, Ne.symm STX_ne_DLE]

/-- One stuffed byte inside a frame is one byte of the frame. -/
theorem transduce_stuff1 (e : Emulator) (c : UInt8) (hin : e.bInFrame = true)
    (hno : e.bPendingDLE = false) :
    transduce (feed crc8 garbage) e (stuff1 DLE c) = ({ e with frame := e.frame ++ [c] }, []) := by
  by_cases hc : c = DLE
  · subst hc
    simp [transduce, feed, hin, hno]
  · simp [stuff1_of_ne hc, transduce, feed, hin, hno, Ne.symm hc]

/-- A stuffed body inside a frame is collected. -/
theorem transduce_stuff (e : Emulator) (cs : List UInt8) (hin : e.bInFrame = true)
    (hno : e.bPendingDLE = false) :
    transduce (feed crc8 garbage) e (stuff DLE cs) = ({ e with frame := e.frame ++ cs }, []) := by
  induction cs generalizing e with
  | nil => simp [transduce]
  | cons c cs ih =>
      rw [stuff_cons, transduce_append, transduce_stuff1 crc8 garbage e c hin hno]
      have hrest := ih { e with frame := e.frame ++ [c] } hin hno
      simp [hrest]

/-- DLE ETX inside a frame completes it. -/
theorem transduce_dle_etx (e : Emulator) (hin : e.bInFrame = true) (hno : e.bPendingDLE = false) :
    transduce (feed crc8 garbage) e [DLE, ETX] =
      handleFrame crc8 garbage { e with bInFrame := false, bPendingDLE := false, bLastWasDLE := false } := by
  simp [transduce, feed, hin, hno, Ne.symm ETX_ne_DLE]

/-- **A frame is received**: the emulator handles the content of a frame whose
type and channel are not taken for a delimiter. -/
theorem transduce_frame (e : Emulator) (h : e.Idle) (f : Frame) (ht : f.frameType ≠ DLE)
    (hc : f.channel ≠ DLE) (hlen : 2 * (7 + f.payload.length) ≤ 65535) :
    transduce (feed crc8 garbage) e (f.encode crc8) = handleFrame crc8 garbage
      { e with frame := f.content crc8, bInFrame := false, bPendingDLE := false, bLastWasDLE := false } := by
  let begun : Emulator := { e with bInFrame := true, frame := [], bLastWasDLE := false }
  have hbody := transduce_stuff crc8 garbage begun (f.content crc8) rfl
    h.bPendingDLE
  have hend := transduce_dle_etx crc8 garbage
    { begun with frame := begun.frame ++ f.content crc8 } rfl h.bPendingDLE
  rw [Frame.encode_eq crc8 f hlen, Frame.bytes_eq_stuff crc8 f ht hc, transduce_append,
    transduce_append, transduce_dle_stx crc8 garbage e h, hbody, hend]
  simp [begun]

/-! ## the answers -/

/-- The emulator's own buffer holds the content of a frame it has received. -/
theorem readFrom_frame (e : Emulator) (f : Frame) (hframe : e.frame = f.content crc8)
    (hlen : 6 + f.payload.length < 65536) :
    f.ReadFrom (storeAll garbage 0 e.frame) ∧
      (checkCRC crc8 (UInt16.ofNat e.frame.length)).run (storeAll garbage 0 e.frame) = true := by
  have hn : e.frame.length = 6 + f.payload.length := by rw [hframe, Frame.length_content]
  have hslice : slice (storeAll garbage 0 e.frame) 0 (6 + f.payload.length) = f.content crc8 := by
    rw [← hn, slice_storeAll, hframe]
  exact ⟨Frame.readFrom_content crc8 hslice, hn ▸ checkCRC_content crc8 _ f hlen hslice⟩

/-- **A command is answered** with its code. -/
theorem handleFrame_command (e : Emulator) (f : Frame) (hframe : e.frame = f.content crc8)
    (htype : f.frameType = 255) {cmdcode : UInt8} {param : List UInt8}
    (hpayload : f.payload = cmdcode :: param) (hlen : 6 + f.payload.length < 65536) :
    handleFrame crc8 garbage e = (e, sendFrame crc8 254 f.channel f.seq 2 [0, cmdcode]) := by
  obtain ⟨hread, hcrc⟩ := readFrom_frame crc8 garbage e f hframe hlen
  have hn : e.frame.length = 6 + f.payload.length := by rw [hframe, Frame.length_content]
  have hcode : storeAll garbage 0 e.frame 5 = cmdcode := by
    have hread' := hread.payload
    rw [hpayload, List.length_cons, slice] at hread'
    exact (List.cons.inj hread').1
  unfold handleFrame
  dsimp only
  rw [if_neg (by omega), if_neg (by rw [hcrc]; simp), hread.frameType, hread.channel, hread.seq,
    htype, if_pos rfl, hcode]

/-- **A request for the capabilities is answered.** -/
theorem handleFrame_capsRequest (e : Emulator) (f : Frame) (hframe : e.frame = f.content crc8)
    (htype : f.frameType = 8) (hlen : 6 + f.payload.length < 65536) :
    handleFrame crc8 garbage e = (e, sendFrame crc8 9 f.channel f.seq 4 [0, 2, 0, 10]) := by
  obtain ⟨hread, hcrc⟩ := readFrom_frame crc8 garbage e f hframe hlen
  have hn : e.frame.length = 6 + f.payload.length := by rw [hframe, Frame.length_content]
  unfold handleFrame
  dsimp only
  rw [if_neg (by omega), if_neg (by rw [hcrc]; simp), hread.frameType, hread.channel, hread.seq,
    htype, if_neg (by decide), if_pos rfl]

/-- **A CANAL frame is answered** with an ACK, and looped back with its dlc. -/
theorem handleFrame_canal (e : Emulator) (f : Frame) (hframe : e.frame = f.content crc8)
    (htype : f.frameType = 2) {head data : List UInt8} {dlc : UInt8} (hhead : head.length = 4)
    (hdata : data.length = dlc.toNat) (hdlc : dlc.toNat ≤ 8) (hpayload : f.payload = head ++ data)
    (hsize : f.declaredSizePayload = UInt16.ofNat (4 + dlc.toNat)) :
    handleFrame crc8 garbage e =
      ({ e with txseq := e.txseq + 1 },
        sendFrame crc8 251 f.channel f.seq 0 [] ++
          sendFrame crc8 2 0 e.txseq (UInt16.ofNat (4 + 1 + dlc.toNat)) (head ++ [dlc] ++ data)) := by
  have hlen : f.payload.length = head.length + data.length := by rw [hpayload, List.length_append]
  obtain ⟨hread, hcrc⟩ := readFrom_frame crc8 garbage e f hframe (by omega)
  have hn : e.frame.length = 6 + f.payload.length := by rw [hframe, Frame.length_content]
  have hdeclared : (UInt16.ofNat (4 + dlc.toNat)).toNat = 4 + dlc.toNat :=
    UInt16.toNat_ofNat_of_lt' (by simp only [UInt16.size]; omega)
  -- the payload as the emulator copies it
  have hparts : slice (storeAll garbage 0 e.frame) 5 (head.length + data.length) = head ++ data := by
    rw [← hlen, hread.payload, hpayload]
  obtain ⟨hid, hbytes⟩ := slice_eq_append _ 5 hparts
  rw [hhead] at hid hbytes
  rw [hdata] at hbytes
  have hmin : min dlc.toNat 8 = dlc.toNat := Nat.min_eq_left hdlc
  have hbehind : dlc.toNat - 8 = 0 := by omega
  unfold handleFrame
  dsimp only
  rw [if_neg (by omega), if_neg (by rw [hcrc]; simp), hread.frameType, hread.channel, hread.seq,
    hread.size, htype, hsize, hdeclared]
  rw [if_neg (by decide), if_neg (by decide), if_neg (by decide), if_pos rfl, if_neg (by omega),
    Nat.add_sub_cancel_left, UInt8.ofNat_toNat, hid, hmin, hbytes, hbehind]
  simp [slice]

end Emulator

end Can4vscp
