import Can4vscp.FrameGrammar
import Can4vscp.EncodeSafety
import Can4vscp.Commands

/-!
# Can4vscp.Senders

The frames of all senders of the driver.

`sendCommand` and `sendConfig` copy the code and up to 255 parameter bytes into a
payload buffer of 257 bytes and build the frame in a buffer of 512 bytes.
`requestFits_iff` says when the stuffed frame stays inside.

Each sender hands the size for the header and the length of the payload to
`can4vscp_buildFrame` on its own.  `selfConsistent_iff` says for which calls a frame is
sent in which the two are the same: the frame has to fit its buffer, `sendConfig` leaves
its code out of the size, and `sendCommand` cuts the size to eight bits.
-/

namespace Can4vscp

open Memory ByteStuffing ReadProgram

variable (x : External)

/-! ## requests -/

/-- `sendCommand` and `sendConfig`, up to the bytes handed to `sendMsg`: the two buffers
and the number of bytes to send.  `pParam` is the memory the program reads. -/
def encodeRequest (t : FrameType) (declared : UInt16) (code size seq : UInt8)
    (payload sendData : Mem UInt8) : ReadProgram UInt8 (Mem UInt8 × Mem UInt8 × UInt16) := do
  -- Code + parameters
  let payload := store payload 0 code
  let param ← getSlice 0 size.toNat
  let payload := storeAll payload 1 param
  let lenPayload : UInt16 := 1 + size.toUInt16
  let (sendData, len) := buildFrame x.crc8 sendData (x.code t) 0 seq declared
    (slice payload 0 lenPayload.toNat)
  pure (payload, sendData, len)

/-- `sendCommand` -/
def encodeCommand (cmdcode size seq : UInt8) (payload sendData : Mem UInt8) :
    ReadProgram UInt8 (Mem UInt8 × Mem UInt8 × UInt16) :=
  encodeRequest x .command ((size.toUInt16 + 1) &&& 0xff) cmdcode size seq payload sendData

/-- `sendConfig` -/
def encodeConfig (codeConfig size seq : UInt8) (payload sendData : Mem UInt8) :
    ReadProgram UInt8 (Mem UInt8 × Mem UInt8 × UInt16) :=
  encodeRequest x .configure (size.toUInt16 &&& 0xff) codeConfig size seq payload sendData

/-- The frame of a request. -/
def requestFrame (t : FrameType) (declared : UInt16) (code : UInt8) (param : List UInt8)
    (seq : UInt8) : Frame :=
  ⟨x.code t, 0, seq, declared, code :: param⟩

/-- The frame `sendCommand` builds of `size` bytes at `pParam`. -/
def commandRequest (cmdcode size seq : UInt8) (pParam : Mem UInt8) : Frame :=
  requestFrame x .command ((size.toUInt16 + 1) &&& 0xff) cmdcode (slice pParam 0 size.toNat) seq

/-- The frame `sendConfig` builds. -/
def configRequest (codeConfig size seq : UInt8) (pParam : Mem UInt8) : Frame :=
  requestFrame x .configure (size.toUInt16 &&& 0xff) codeConfig (slice pParam 0 size.toNat) seq

/-- Only the 257 bytes of `payload` and the 512 bytes of `sendData` are written, whatever
they hold. -/
structure RequestFits (pParam : Mem UInt8)
    (request : Mem UInt8 → Mem UInt8 → ReadProgram UInt8 (Mem UInt8 × Mem UInt8 × UInt16)) :
    Prop where
  payload : ∀ payload sendData : Mem UInt8, ∀ i, 257 ≤ i →
    ((request payload sendData).run pParam).1 i = payload i
  sendData : ∀ payload sendData : Mem UInt8, ∀ i, 512 ≤ i →
    ((request payload sendData).run pParam).2.1 i = sendData i

/-! ## what is written -/

variable {x} {t : FrameType} {declared : UInt16} {code size seq : UInt8} {pParam : Mem UInt8}

/-- The buffers and the length of a request. -/
theorem run_encodeRequest (payload sendData : Mem UInt8) :
    (encodeRequest x t declared code size seq payload sendData).run pParam =
      (storeAll payload 0 (code :: slice pParam 0 size.toNat),
        (requestFrame x t declared code (slice pParam 0 size.toNat) seq).build x.crc8
          sendData) := by
  have hsize := size.toNat_lt
  have hn : ((1 : UInt16) + size.toUInt16).toNat =
      (code :: slice pParam 0 size.toNat).length := by
    simp [UInt16.toNat_add]
    omega
  have hpayload : storeAll (store payload 0 code) 1 (slice pParam 0 size.toNat) =
      storeAll payload 0 (code :: slice pParam 0 size.toNat) := rfl
  simp only [encodeRequest, run_bind, run_getSlice, run_pure, hpayload, hn, slice_storeAll]
  rfl

/-- The frame of a command is the one the callers of `Commands` exchange. -/
theorem commandRequest_eq (cmdcode : UInt8) :
    commandRequest x cmdcode size seq pParam =
      Commands.commandFrame x cmdcode (slice pParam 0 size.toNat) seq := by
  have hand : ∀ k : Nat, k &&& 255 = k % 256 := fun k => Nat.and_two_pow_sub_one_eq_mod k 8
  have hdeclared : (size.toUInt16 + 1) &&& 0xff = UInt16.ofNat ((size.toNat + 1) % 256) := by
    have hsize := size.toNat_lt
    apply UInt16.toNat_inj.mp
    simp [UInt16.toNat_add, hand]
    omega
  rw [commandRequest, hdeclared, Commands.commandFrame, length_slice]
  rfl

theorem length_request (param : List UInt8) :
    (requestFrame x t declared code param seq).payload.length = 1 + param.length :=
  Nat.add_comm param.length 1

/-- A request stays inside its buffers if and only if its frame, with every DLE doubled,
has at most 512 bytes. -/
theorem encodeRequest_fits_iff :
    RequestFits pParam (encodeRequest x t declared code size seq) ↔
      11 + size.toNat + ((requestFrame x t declared code (slice pParam 0 size.toNat) seq).escaped
        x.crc8).count DLE ≤ 512 := by
  have hsize := size.toNat_lt
  generalize hf : requestFrame x t declared code (slice pParam 0 size.toNat) seq = f
  have hpayload : f.payload.length = 1 + size.toNat := by
    rw [← hf, length_request, length_slice]
  have hlen := f.length_bytes x.crc8
  have hbuild : ∀ sendData, (f.build x.crc8 sendData).1 = storeAll sendData 0 (f.bytes x.crc8) := by
    intro sendData
    rw [Frame.build, buildFrame_eq x.crc8 sendData f (by omega)]
  constructor
  · intro h
    have hle : (f.bytes x.crc8).length ≤ 512 := by
      refine length_le_of_untouched (a := 0) (b := 1) (by decide) fun sendData => ?_
      have hkept := h.sendData (fun _ => 0) sendData 512 (Nat.le_refl 512)
      rwa [run_encodeRequest, hf, hbuild] at hkept
    omega
  · intro hsmall
    constructor
    · intro payload sendData i hi
      rw [run_encodeRequest]
      refine storeAll_of_ge _ _ ?_
      rw [List.length_cons, length_slice]
      omega
    · intro payload sendData i hi
      rw [run_encodeRequest, hf, hbuild]
      exact storeAll_of_ge _ _ (by omega)

variable (x)

/-- **The buffers are large enough exactly then**: both senders stay inside their buffers
if and only if the payload and the bytes equal to DLE among sequence number, size, code,
parameters and CRC, which are doubled, leave room for the rest of the frame. -/
theorem requestFits_iff (code size seq : UInt8) (pParam : Mem UInt8) :
    (RequestFits pParam (encodeCommand x code size seq) ↔
      11 + size.toNat + ((commandRequest x code size seq pParam).escaped x.crc8).count DLE ≤ 512) ∧
    (RequestFits pParam (encodeConfig x code size seq) ↔
      11 + size.toNat + ((configRequest x code size seq pParam).escaped x.crc8).count DLE ≤ 512) :=
  ⟨encodeRequest_fits_iff, encodeRequest_fits_iff⟩

/-- A size of eight bits has no high byte. -/
theorem sizeMsb_and (n : UInt16) : sizeMsb (n &&& 0xff) = 0 := by
  have hand : ∀ k : Nat, k &&& 255 = k % 256 := fun k => Nat.and_two_pow_sub_one_eq_mod k 8
  have hshift : (n.toNat % 256) >>> 8 = 0 := by
    rw [Nat.shiftRight_eq_div_pow]
    omega
  apply UInt8.toNat_inj.mp
  simp [sizeMsb, hand, hshift]

/-- All bytes that are stuffed may be DLE, apart from a high byte of the size that is
zero. -/
theorem Frame.count_escaped_le (crc8 : UInt8 → UInt8 → UInt8) (f : Frame)
    (hmsb : sizeMsb f.declaredSizePayload = 0) :
    (f.escaped crc8).count DLE ≤ 3 + f.payload.length := by
  have hpayload : f.payload.count DLE ≤ f.payload.length := List.count_le_length
  have hone : ∀ c : UInt8, [c].count DLE ≤ 1 := fun c => List.count_le_length
  have hseq := hone f.seq
  have hlsb := hone (sizeLsb f.declaredSizePayload)
  have hcrc := hone (f.body.foldl crc8 0)
  have hsplit : f.escaped crc8 = [f.seq] ++ ([0] ++ ([sizeLsb f.declaredSizePayload] ++
      (f.payload ++ [f.body.foldl crc8 0]))) := by
    simp [escaped, hmsb]
  have hzero : [(0 : UInt8)].count DLE = 0 := rfl
  simp only [hsplit, List.count_append, hzero]
  omega

/-- Up to 248 parameter bytes, both senders stay inside their buffers. -/
theorem request_fits_of_le {code size seq : UInt8} {pParam : Mem UInt8} (hsize : size ≤ 248) :
    RequestFits pParam (encodeCommand x code size seq) ∧
      RequestFits pParam (encodeConfig x code size seq) := by
  have hle : size.toNat ≤ 248 := UInt8.le_iff_toNat_le.mp hsize
  have hcount : ∀ {t : FrameType} (n : UInt16),
      ((requestFrame x t (n &&& 0xff) code (slice pParam 0 size.toNat) seq).escaped
        x.crc8).count DLE ≤ 3 + (1 + size.toNat) := by
    intro t n
    have hescaped := Frame.count_escaped_le x.crc8
      (requestFrame x t (n &&& 0xff) code (slice pParam 0 size.toNat) seq) (sizeMsb_and n)
    rwa [length_request, length_slice] at hescaped
  have hcommand := hcount (t := .command) (size.toUInt16 + 1)
  have hconfig := hcount (t := .configure) size.toUInt16
  exact ⟨encodeRequest_fits_iff.mpr (by omega), encodeRequest_fits_iff.mpr (by omega)⟩

/-- 255 parameter bytes, all of them DLE: both senders write behind `sendData`. -/
theorem request_overflows :
    ¬ RequestFits (fun _ => DLE) (encodeCommand External.vscp DLE 255 0) ∧
      ¬ RequestFits (fun _ => DLE) (encodeConfig External.vscp DLE 255 0) := by
  constructor
  · intro h
    exact absurd (encodeRequest_fits_iff.mp h) (by decide +kernel)
  · intro h
    exact absurd (encodeRequest_fits_iff.mp h) (by decide +kernel)

/-! ## what is declared -/

/-- A call that sends a frame. -/
inductive Sender where
  | sendCommand (cmdcode size : UInt8) (pParam : Mem UInt8)
  | sendConfig (codeConfig size : UInt8) (pParam : Mem UInt8)
  | getDeviceCapabilities
  | sendACK
  | sendNACK
  | sendNoopFrame
  | transmitMessage (msg : CanalMsg) (garbage : Mem UInt8) (hsize : msg.sizeData ≤ 8)

/-- What is handed to `sendMsg` of a frame built in a buffer of some size: its first `len`
bytes, or nothing that is known if the buffer has been overrun. -/
def handed (size : Nat) (sendData : Mem UInt8) (len : UInt16) : Option (List UInt8) :=
  if len.toNat ≤ size then some (slice sendData 0 len.toNat) else none

namespace Sender

/-- The size of `sendData`. -/
def bufferSize : Sender → Nat
  | .sendCommand _ _ _ | .sendConfig _ _ _ | .getDeviceCapabilities => 512
  | .sendACK | .sendNACK | .sendNoopFrame => 16
  | .transmitMessage _ _ _ => 128

/-- `sendData` as a call fills it, and the length of the frame. -/
def builds (seq : UInt8) (payload sendData : Mem UInt8) : Sender → Mem UInt8 × UInt16
  | .sendCommand cmdcode size pParam =>
    ((encodeCommand x cmdcode size seq payload sendData).run pParam).2
  | .sendConfig codeConfig size pParam =>
    ((encodeConfig x codeConfig size seq payload sendData).run pParam).2
  | .getDeviceCapabilities => buildFrame x.crc8 sendData (x.code .capsRequest) 0 seq 2 [1, 10]
  | .sendACK => buildFrame x.crc8 sendData (x.code .ack) 0 seq 0 []
  | .sendNACK => buildFrame x.crc8 sendData (x.code .nack) 0 seq 0 []
  | .sendNoopFrame => buildFrame x.crc8 sendData (x.code .noop) 0 seq 0 []
  | .transmitMessage msg garbage _ =>
    ((encodeMessage x msg seq payload sendData).run (storeAll garbage 0 msg.data)).2

/-- The bytes handed to `sendMsg`. -/
def sends (seq : UInt8) (payload sendData : Mem UInt8) (s : Sender) : Option (List UInt8) :=
  handed s.bufferSize (s.builds x seq payload sendData).1 (s.builds x seq payload sendData).2

/-- The frame a call sends. -/
def frame (seq : UInt8) : Sender → Frame
  | .sendCommand cmdcode size pParam => commandRequest x cmdcode size seq pParam
  | .sendConfig codeConfig size pParam => configRequest x codeConfig size seq pParam
  | .getDeviceCapabilities => Commands.capsRequestFrame x seq
  | .sendACK => ⟨x.code .ack, 0, seq, 0, []⟩
  | .sendNACK => ⟨x.code .nack, 0, seq, 0, []⟩
  | .sendNoopFrame => ⟨x.code .noop, 0, seq, 0, []⟩
  | .transmitMessage msg garbage _ => transmitFrame x garbage msg seq

/-- The calls whose size fits the header as they write it. -/
def Declares : Sender → Prop
  | .sendCommand _ size _ => size ≠ 255
  | .sendConfig _ _ _ => False
  | _ => True

/-- The calls whose frame fits the buffer it is built in. -/
def Fits (seq : UInt8) : Sender → Prop
  | .sendCommand cmdcode size pParam => RequestFits pParam (encodeCommand x cmdcode size seq)
  | .sendConfig codeConfig size pParam => RequestFits pParam (encodeConfig x codeConfig size seq)
  | _ => True

end Sender

/-- The frame says how many payload bytes stand between its header and its CRC, once the
pairs are collapsed. -/
def SelfConsistent (bytes : List UInt8) : Prop :=
  ∃ body payload : List UInt8, ∃ frameType channel seq msb lsb crc : UInt8,
    bytes = [DLE, STX] ++ body ++ [DLE, ETX] ∧
    unstuff DLE body = some ([frameType, channel, seq, msb, lsb] ++ payload ++ [crc]) ∧
    msb.toNat * 256 + lsb.toNat = payload.length

/-- A frame of some other type and channel than DLE is as consistent as its fields. -/
theorem Frame.selfConsistent_bytes_iff {crc8 : UInt8 → UInt8 → UInt8} {f : Frame}
    (ht : f.frameType ≠ DLE) (hc : f.channel ≠ DLE) :
    SelfConsistent (f.bytes crc8) ↔ f.declaredSizePayload.toNat = f.payload.length := by
  have hunstuff := (f.unstuff_escaped_iff crc8).mpr ⟨ht, hc⟩
  constructor
  · rintro ⟨body, payload, frameType, channel, seq, msb, lsb, crc, hbytes, hbody, hsize⟩
    rw [bytes_eq, List.append_cancel_right_eq, List.append_cancel_left_eq] at hbytes
    rw [← hbytes, hunstuff, Option.some.injEq, content, Frame.body, header] at hbody
    obtain ⟨hfields, -⟩ := List.append_inj' hbody rfl
    obtain ⟨hheader, hpayload⟩ := List.append_inj hfields rfl
    simp only [List.cons.injEq, and_true] at hheader
    obtain ⟨-, -, -, hmsb, hlsb⟩ := hheader
    rw [← hpayload, ← hmsb, ← hlsb, size_bytes] at hsize
    exact hsize
  · intro hsize
    exact ⟨_, f.payload, f.frameType, f.channel, f.seq, _, _, f.body.foldl crc8 0, f.bytes_eq crc8,
      hunstuff, (size_bytes _).trans hsize⟩

variable {x}

/-- What a call builds is its frame. -/
theorem Sender.builds_eq (s : Sender) (seq : UInt8) (payload sendData : Mem UInt8) :
    (s.builds x seq payload sendData).2.toNat = ((s.frame x seq).bytes x.crc8).length ∧
      slice (s.builds x seq payload sendData).1 0 (s.builds x seq payload sendData).2.toNat =
        (s.frame x seq).bytes x.crc8 := by
  have hbuild : ∀ f : Frame, f.payload.length ≤ 259 →
      (f.build x.crc8 sendData).2.toNat = (f.bytes x.crc8).length ∧
        slice (f.build x.crc8 sendData).1 0 (f.build x.crc8 sendData).2.toNat = f.bytes x.crc8 :=
    fun f hf => f.build_output x.crc8 sendData (by omega)
  cases s with
  | sendCommand cmdcode size pParam =>
      have hsize := size.toNat_lt
      have h := hbuild (commandRequest x cmdcode size seq pParam)
        (by rw [commandRequest, length_request, length_slice]; omega)
      simp only [builds, encodeCommand, run_encodeRequest]
      exact h
  | sendConfig codeConfig size pParam =>
      have hsize := size.toNat_lt
      have h := hbuild (configRequest x codeConfig size seq pParam)
        (by rw [configRequest, length_request, length_slice]; omega)
      simp only [builds, encodeConfig, run_encodeRequest]
      exact h
  | getDeviceCapabilities => exact hbuild (Commands.capsRequestFrame x seq) (by simp [Commands.capsRequestFrame])
  | sendACK => exact hbuild ⟨x.code .ack, 0, seq, 0, []⟩ (Nat.zero_le 259)
  | sendNACK => exact hbuild ⟨x.code .nack, 0, seq, 0, []⟩ (Nat.zero_le 259)
  | sendNoopFrame => exact hbuild ⟨x.code .noop, 0, seq, 0, []⟩ (Nat.zero_le 259)
  | transmitMessage msg garbage hsize =>
      have hle : msg.sizeData.toNat ≤ 8 := UInt8.le_iff_toNat_le.mp hsize
      have hpayload : (transmitFrame x garbage msg seq).payload.length = 4 + msg.sizeData.toNat := by
        simp [transmitFrame, transmitPayload]
      have hbytes := (transmitFrame x garbage msg seq).length_bytes_le x.crc8
      have hn : (UInt16.ofNat ((transmitFrame x garbage msg seq).bytes x.crc8).length).toNat =
          ((transmitFrame x garbage msg seq).bytes x.crc8).length :=
        UInt16.toNat_ofNat_of_lt' (by simp only [UInt16.size]; omega)
      simp only [builds, run_encodeMessage, hn]
      exact ⟨rfl, slice_storeAll _ _ _⟩

/-- A frame is as long as its buffer at most if and only if the call stays inside it; all
but the requests do. -/
theorem Sender.fits_iff (s : Sender) (seq : UInt8) :
    ((s.frame x seq).bytes x.crc8).length ≤ s.bufferSize ↔ s.Fits x seq := by
  have hlen := (s.frame x seq).length_bytes x.crc8
  have hmax := (s.frame x seq).length_bytes_le x.crc8
  cases s with
  | sendCommand cmdcode size pParam =>
      have hpayload : (commandRequest x cmdcode size seq pParam).payload.length = 1 + size.toNat := by
        rw [commandRequest, length_request, length_slice]
      simp only [frame, bufferSize, Fits, (requestFits_iff x cmdcode size seq pParam).1] at hlen ⊢
      omega
  | sendConfig codeConfig size pParam =>
      have hpayload : (configRequest x codeConfig size seq pParam).payload.length = 1 + size.toNat := by
        rw [configRequest, length_request, length_slice]
      simp only [frame, bufferSize, Fits, (requestFits_iff x codeConfig size seq pParam).2] at hlen ⊢
      omega
  | transmitMessage msg garbage hsize =>
      have hle : msg.sizeData.toNat ≤ 8 := UInt8.le_iff_toNat_le.mp hsize
      have hpayload : (transmitFrame x garbage msg seq).payload.length = 4 + msg.sizeData.toNat := by
        simp [transmitFrame, transmitPayload]
      refine iff_of_true ?_ trivial
      simp only [frame, bufferSize] at hmax ⊢
      omega
  | getDeviceCapabilities => exact iff_of_true (hmax.trans (by decide : 18 ≤ 512)) trivial
  | sendACK | sendNACK | sendNoopFrame => exact iff_of_true (hmax.trans (by decide : 14 ≤ 16)) trivial

/-- **What a call sends** is its frame, if that fits. -/
theorem Sender.sends_eq_some_iff (s : Sender) (seq : UInt8) (payload sendData : Mem UInt8)
    (bytes : List UInt8) : s.sends x seq payload sendData = some bytes ↔
      s.Fits x seq ∧ (s.frame x seq).bytes x.crc8 = bytes := by
  obtain ⟨hlen, hslice⟩ := s.builds_eq seq payload sendData
  rw [sends, handed, hslice, hlen, ← s.fits_iff seq]
  simp

/-- The size `sendCommand` declares is its payload's, but for 255 parameter bytes. -/
theorem commandRequest_declared (cmdcode size seq : UInt8) (pParam : Mem UInt8) :
    (commandRequest x cmdcode size seq pParam).declaredSizePayload.toNat =
      (commandRequest x cmdcode size seq pParam).payload.length ↔ size ≠ 255 := by
  have hsize := size.toNat_lt
  have hand : ∀ k : Nat, k &&& 255 = k % 256 := fun k => Nat.and_two_pow_sub_one_eq_mod k 8
  have hne : size ≠ 255 ↔ size.toNat ≠ 255 := by rw [Ne, ← UInt8.toNat_inj]; rfl
  rw [hne]
  simp [commandRequest, requestFrame, UInt16.toNat_add, hand]
  omega

/-- The size `sendConfig` declares leaves out the code. -/
theorem configRequest_declared (codeConfig size seq : UInt8) (pParam : Mem UInt8) :
    (configRequest x codeConfig size seq pParam).declaredSizePayload.toNat ≠
      (configRequest x codeConfig size seq pParam).payload.length := by
  have hand : ∀ k : Nat, k &&& 255 = k % 256 := fun k => Nat.and_two_pow_sub_one_eq_mod k 8
  simp [configRequest, requestFrame, hand]

/-- The declared size is the number of payload bytes for the calls that declare it. -/
theorem Sender.declared_iff (s : Sender) (seq : UInt8) :
    (s.frame x seq).declaredSizePayload.toNat = (s.frame x seq).payload.length ↔ s.Declares := by
  cases s with
  | sendCommand cmdcode size pParam => exact commandRequest_declared cmdcode size seq pParam
  | sendConfig codeConfig size pParam =>
      exact iff_false_intro (configRequest_declared codeConfig size seq pParam)
  | transmitMessage msg garbage hsize =>
      have hle : msg.sizeData.toNat ≤ 8 := UInt8.le_iff_toNat_le.mp hsize
      have hn : (UInt16.ofNat (4 + msg.sizeData.toNat)).toNat = 4 + msg.sizeData.toNat :=
        UInt16.toNat_ofNat_of_lt' (by simp only [UInt16.size]; omega)
      refine iff_of_true ?_ trivial
      simp only [frame, transmitFrame, hn]
      simp [transmitPayload]
  | _ => exact iff_of_true rfl trivial

variable (x)

/-- **Emitted frames are self-consistent exactly then**: whatever its arguments and
whatever its buffers hold, a call sends a frame that declares the payload it carries if
and only if the frame fits its buffer, and the call is not `sendConfig`, nor
`sendCommand` with 255 parameter bytes. -/
theorem selfConsistent_iff (hnoop : x.code .noop ≠ DLE) (hnack : x.code .nack ≠ DLE) (s : Sender)
    (seq : UInt8) (payload sendData : Mem UInt8) :
    (∃ bytes, s.sends x seq payload sendData = some bytes ∧ SelfConsistent bytes) ↔
      s.Fits x seq ∧ s.Declares := by
  have htype : (s.frame x seq).frameType ≠ DLE := by
    cases s with
    | sendCommand cmdcode size pParam => exact code_ne_DLE x x.command (by decide)
    | sendConfig codeConfig size pParam => exact code_ne_DLE x x.configure (by decide)
    | getDeviceCapabilities => exact code_ne_DLE x x.capsRequest (by decide)
    | sendACK => exact code_ne_DLE x x.ack (by decide)
    | sendNACK => exact hnack
    | sendNoopFrame => exact hnoop
    | transmitMessage msg garbage hsize => exact code_ne_DLE x x.canal (by decide)
  have hchannel : (s.frame x seq).channel ≠ DLE := by
    cases s <;> exact (by decide : (0 : UInt8) ≠ DLE)
  have hconsistent : SelfConsistent ((s.frame x seq).bytes x.crc8) ↔ s.Declares := by
    rw [Frame.selfConsistent_bytes_iff htype hchannel, s.declared_iff]
  constructor
  · rintro ⟨bytes, hsends, hbytes⟩
    obtain ⟨hfits, rfl⟩ := (s.sends_eq_some_iff seq payload sendData bytes).mp hsends
    exact ⟨hfits, hconsistent.mp hbytes⟩
  · rintro ⟨hfits, hdeclares⟩
    exact ⟨_, (s.sends_eq_some_iff seq payload sendData _).mpr ⟨hfits, rfl⟩,
      hconsistent.mpr hdeclares⟩

/-- A command with 248 parameter bytes, all of them DLE. -/
theorem selfConsistent_iff_longest :
    ∃ bytes, (Sender.sendCommand 5 248 fun _ => DLE).sends External.vscp 0 (fun _ => 0)
      (fun _ => 0) = some bytes ∧ SelfConsistent bytes :=
  (selfConsistent_iff External.vscp (by decide) (by decide) _ 0 _ _).mpr
    ⟨(request_fits_of_le External.vscp (by decide)).1, (by decide : (248 : UInt8) ≠ 255)⟩

/-- The configuration of time stamps: the frame declares one byte and carries two. -/
theorem sendConfig_not_consistent :
    ∃ bytes, (Sender.sendConfig 2 1 fun _ => 1).sends External.vscp 0 (fun _ => 0)
      (fun _ => 0) = some bytes ∧ ¬ SelfConsistent bytes := by
  refine ⟨_, (Sender.sends_eq_some_iff _ 0 _ _ _).mpr
    ⟨(request_fits_of_le External.vscp (by decide)).2, rfl⟩, ?_⟩
  rw [Frame.selfConsistent_bytes_iff (by decide) (by decide)]
  exact configRequest_declared 2 1 0 fun _ => 1

end Can4vscp
