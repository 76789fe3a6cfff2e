import Can4vscp.Commands
import Can4vscp.Emulator
import Can4vscp.ReceiveThread
import Can4vscp.Transmit

/-!
# Can4vscp.RequestReply

Requests and replies on the line.

A reply is one step where callers are looked at (`Commands`).  Here it is what
becomes of the bytes: the adapter emulator reads the frame of a command, and what
it writes makes the receive thread put the reply to that command into the
response queue, the one the caller waits for (`command_answered`).

An answer to the transmit thread is one step as well (`Transmit.answerNext`); it is
what the receive thread does with an ACK or NACK frame (`answerFrame_eq_answerNext`).
-/

namespace Can4vscp.Commands

open Memory Pipeline

variable {x : External} {garbage : Mem UInt8}

/-- What comes back for a request: the emulator reads it and is between frames
again, and its answer makes the driver put a response into the queue. -/
structure Answered (x : External) (garbage : Mem UInt8) (e : Emulator) (s : RxState) (d : Driver)
    (request : Frame) (response : CmdResponseMsg) : Prop where
  emulator : (transduce (Emulator.feed x.crc8 garbage) e (request.encode x.crc8)).1.Idle
  driver : ∃ rx d', (transduce (Emulator.feed x.crc8 garbage) e (request.encode x.crc8)).2.foldl
      (driverByte x) (s, d) = (rx, d') ∧ rx.Live ∧ rx.Idle ∧
    d'.responseList = pushResponse d.responseList response ∧ d.SameReceive d'

/-- A request that the emulator answers with a frame, which is a response. -/
theorem answered_of_handleFrame {e : Emulator} {s : RxState} (d : Driver) (he : e.Idle)
    (hs : s.Live) (hidle : s.Idle) {request : Frame} (htype : request.frameType ≠ DLE)
    (hchannel : request.channel ≠ DLE) (hlen : 2 * (7 + request.payload.length) ≤ 65535)
    (f : SerialFrame) {t : FrameType} (ht : t.response = true) (hf : f.frameType = x.code t)
    (hsize : f.declaredSizePayload.toNat = f.payload.length) (hshort : f.payload.length ≤ 512)
    (hhandle : ∀ e : Emulator, e.frame = request.content x.crc8 →
      e.handleFrame x.crc8 garbage = (e, f.encode x.crc8)) :
    Answered x garbage e s d request
      ⟨f.frameType, f.seq, f.channel, f.declaredSizePayload, f.payload⟩ := by
  have hfeed := Emulator.transduce_frame x.crc8 garbage e he request htype hchannel hlen
  rw [hhandle _ rfl] at hfeed
  obtain ⟨rx, d', hfold, hlive, hrxIdle, hqueue, hsame⟩ :=
    foldl_response x d f hs hidle ht hf hsize hshort
  refine ⟨?_, rx, d', ?_, hlive, hrxIdle, hqueue, hsame⟩
  · rw [hfeed]
    exact ⟨rfl, rfl⟩
  · rw [hfeed]
    exact hfold

/-- **A command is answered**: its reply is put into the response queue. -/
theorem command_answered {e : Emulator} {s : RxState} (d : Driver) (he : e.Idle) (hs : s.Live)
    (hidle : s.Idle) (cmdcode : UInt8) (param : List UInt8) (hparam : param.length ≤ 255)
    (seq : UInt8) :
    Answered x garbage e s d (commandFrame x cmdcode param seq)
      (commandReply x (commandFrame x cmdcode param seq) 0) := by
  have htype : x.code .command ≠ DLE := code_ne_DLE x x.command (by decide)
  have hreply : x.code .commandReply ≠ DLE := code_ne_DLE x x.commandReply (by decide)
  have hzero : (0 : UInt8) ≠ DLE := by decide
  have hlen : (commandFrame x cmdcode param seq).payload.length = param.length + 1 := rfl
  let f : SerialFrame := ⟨⟨x.code .commandReply, 0, seq, 2, [0, cmdcode]⟩, hreply, hzero,
    by simp [bufferMsgRcvSize]⟩
  refine answered_of_handleFrame d he hs hidle htype hzero (by omega) f (t := .commandReply)
    rfl rfl rfl (by simp [f]) fun e hframe => ?_
  rw [Emulator.handleFrame_command x.crc8 garbage e _ hframe x.command rfl (by omega)]
  simp [f, Emulator.sendFrame, x.commandReply, commandFrame]

/-- **The request for the capabilities is answered**, with no reply to a command. -/
theorem caps_answered {e : Emulator} {s : RxState} (d : Driver) (he : e.Idle) (hs : s.Live)
    (hidle : s.Idle) (seq : UInt8) :
    Answered x garbage e s d (capsRequestFrame x seq)
      ⟨x.code .capsResponse, seq, 0, 4, [0, 2, 0, 10]⟩ := by
  have htype : x.code .capsRequest ≠ DLE := code_ne_DLE x x.capsRequest (by decide)
  have hreply : x.code .capsResponse ≠ DLE := code_ne_DLE x x.capsResponse (by decide)
  have hzero : (0 : UInt8) ≠ DLE := by decide
  have hlen : (capsRequestFrame x seq).payload.length = 2 := rfl
  let f : SerialFrame := ⟨⟨x.code .capsResponse, 0, seq, 4, [0, 2, 0, 10]⟩, hreply, hzero,
    by simp [bufferMsgRcvSize]⟩
  refine answered_of_handleFrame d he hs hidle htype hzero (by omega) f (t := .capsResponse)
    rfl rfl rfl (by simp [f]) fun e hframe => ?_
  rw [Emulator.handleFrame_capsRequest x.crc8 garbage e _ hframe x.capsRequest (by omega)]
  simp [f, Emulator.sendFrame, x.capsResponse, capsRequestFrame]

end Can4vscp.Commands

namespace Can4vscp.Transmit

open Memory ReadProgram

variable {ι : Type} (x : External)

/-- **An ACK or NACK frame is an answer**: the receive thread, which has the
response info, the flag and the number of tokens of the transmit side, leaves
them as the answer step does. -/
theorem answerFrame_eq_answerNext (s : State ι) (d : Driver)
    (hflag : s.waitForAck = true ↔ d.initFlag &&& CAN4VSCP_FLAG_ENABLE_WAIT_FOR_ACK ≠ 0)
    (hinfo : s.msgResponseInfo = d.msgResponseInfo)
    (hsem : s.transmitAckNackSem.length = d.transmitAckNackSem) {m : Mem UInt8} {f : Frame}
    (hread : f.ReadFrom m) {a : Answer} (hchannel : a.channel = f.channel) (hseq : a.seq = f.seq)
    (htype : f.frameType = x.code (if a.ack then .ack else .nack)) :
    ((answerFrame x d).run m).msgResponseInfo = (answerNext a s).msgResponseInfo ∧
      ((answerFrame x d).run m).transmitAckNackSem = (answerNext a s).transmitAckNackSem.length := by
  by_cases hmatch : s.Matches a
  · obtain ⟨hwait, hwaiting, hch, hs⟩ := hmatch
    have hrun : (answerFrame x d).run m = d.answer a.ack := by
      rw [hinfo] at hwaiting hch hs
      rw [answerFrame, if_pos ⟨hflag.mp hwait, hwaiting⟩]
      simp only [run_bind, run_get, hread.channel]
      rw [if_pos (hch.trans hchannel)]
      simp only [run_bind, run_get, hread.seq]
      rw [if_pos (hs.trans hseq)]
      simp only [run_bind, run_get, hread.frameType, htype]
      cases a.ack <;> simp [x.code_injective.eq_iff]
    rw [hrun, answerNext, if_pos ⟨hwait, hwaiting, hch, hs⟩]
    exact ⟨by simp [Driver.answer, hinfo], by simp [Driver.answer, hsem]⟩
  · have hrun : (answerFrame x d).run m = d := by
      unfold answerFrame
      split
      · next hflags =>
          simp only [run_bind, run_get, hread.channel]
          split
          · next hch =>
              simp only [run_bind, run_get, hread.seq]
              split
              · next hs =>
                  refine absurd ⟨hflag.mpr hflags.1, ?_, ?_, ?_⟩ hmatch
                  · rw [hinfo]
                    exact hflags.2
                  · rw [hinfo, hchannel]
                    exact hch
                  · rw [hinfo, hseq]
                    exact hs
              · rfl
          · rfl
      · rfl
    rw [hrun, answerNext, if_neg hmatch]
    exact ⟨hinfo.symm, hsem.symm⟩

end Can4vscp.Transmit
