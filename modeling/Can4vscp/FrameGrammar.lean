import Can4vscp.Protocol

/-!
# Can4vscp.FrameGrammar

What `can4vscp_buildFrame` writes, for all arguments.

Sequence number, size, payload and CRC are stuffed, frame type and channel are
written as they are.  So the output is a stuffed body between delimiters, of which
the content of the frame is left when the pairs are collapsed, if and only if
neither frame type nor channel is a DLE (`outputGrammar_iff`).
-/

namespace Can4vscp

open Memory ByteStuffing

variable (crc8 : UInt8 → UInt8 → UInt8)

namespace Frame

/-- The call of `can4vscp_buildFrame` with the frame's fields. -/
def build (pbuf : Mem UInt8) (f : Frame) : Mem UInt8 × UInt16 :=
  buildFrame crc8 pbuf f.frameType f.channel f.seq f.declaredSizePayload f.payload

/-- What is stuffed of a frame. -/
def escaped (f : Frame) : List UInt8 :=
  [f.seq, sizeMsb f.declaredSizePayload, sizeLsb f.declaredSizePayload] ++ f.payload ++
    [f.body.foldl crc8 0]

/-- The output is a delimited body with every DLE doubled, and of the length
announced. -/
structure OutputGrammar (pbuf : Mem UInt8) (f : Frame) : Prop where
  output : ∃ body, slice (f.build crc8 pbuf).1 0 (f.build crc8 pbuf).2.toNat =
      [DLE, STX] ++ body ++ [DLE, ETX] ∧ unstuff DLE body = some (f.content crc8)
  length : (f.build crc8 pbuf).2.toNat = 10 + f.payload.length + (f.content crc8).count DLE
  bound : (f.build crc8 pbuf).2.toNat ≤ 2 * (7 + f.payload.length)

theorem content_eq (f : Frame) : f.content crc8 = [f.frameType, f.channel] ++ f.escaped crc8 := rfl

theorem bytes_eq (f : Frame) : f.bytes crc8 =
    [DLE, STX] ++ ([f.frameType, f.channel] ++ stuff DLE (f.escaped crc8)) ++ [DLE, ETX] := rfl

theorem length_bytes (f : Frame) :
    (f.bytes crc8).length = 10 + f.payload.length + (f.escaped crc8).count DLE := by
  have hstuff := length_stuff DLE (f.escaped crc8)
  have hlen : (f.escaped crc8).length = 4 + f.payload.length := by
    simp [escaped]
    omega
  rw [bytes_eq, List.length_append, List.length_append, List.length_append, hstuff, hlen]
  simp
  omega

/-- The output of the encoder, read back. -/
theorem build_output (f : Frame) (pbuf : Mem UInt8) (h : 2 * (7 + f.payload.length) ≤ 65535) :
    (f.build crc8 pbuf).2.toNat = (f.bytes crc8).length ∧
      slice (f.build crc8 pbuf).1 0 (f.build crc8 pbuf).2.toNat = f.bytes crc8 := by
  have hmax := f.length_bytes_le crc8
  have hn : (UInt16.ofNat (f.bytes crc8).length).toNat = (f.bytes crc8).length :=
    UInt16.toNat_ofNat_of_lt' (by simp only [UInt16.size]; omega)
  rw [build, buildFrame_eq crc8 pbuf f h]
  exact ⟨hn, by rw [hn]; exact slice_storeAll _ _ _⟩

/-- Frame type and channel stand for themselves in the stuffed body if neither is a
DLE. -/
theorem unstuff_escaped_iff (f : Frame) :
    unstuff DLE ([f.frameType, f.channel] ++ stuff DLE (f.escaped crc8)) =
        some (f.content crc8) ↔ f.frameType ≠ DLE ∧ f.channel ≠ DLE := by
  rw [unstuff_eq_some_iff, content_eq, stuff_append, List.append_cancel_right_eq, stuff_cons,
    stuff_cons, stuff_nil, List.append_nil]
  constructor
  · intro h
    have hlen := congrArg List.length h
    by_cases ht : f.frameType = DLE
    · by_cases hc : f.channel = DLE
      · simp [ht, hc] at hlen
      · simp [ht, stuff1_of_ne hc] at hlen
    · by_cases hc : f.channel = DLE
      · simp [stuff1_of_ne ht, hc] at hlen
      · exact ⟨ht, hc⟩
  · rintro ⟨ht, hc⟩
    rw [stuff1_of_ne ht, stuff1_of_ne hc]
    rfl

/-- **The grammar of the output, exactly**: for all arguments in the range of the
16-bit position, the output is the delimited stuffed form of type, channel, sequence
number, size, payload and CRC if and only if neither frame type nor channel is a
DLE. -/
theorem outputGrammar_iff (pbuf : Mem UInt8) (f : Frame)
    (h : 2 * (7 + f.payload.length) ≤ 65535) :
    OutputGrammar crc8 pbuf f ↔ f.frameType ≠ DLE ∧ f.channel ≠ DLE := by
  obtain ⟨hlen, hslice⟩ := f.build_output crc8 pbuf h
  constructor
  · intro hg
    obtain ⟨body, hbody, hunstuff⟩ := hg.output
    rw [hslice, bytes_eq, List.append_cancel_right_eq, List.append_cancel_left_eq] at hbody
    rw [← hbody] at hunstuff
    exact (f.unstuff_escaped_iff crc8).mp hunstuff
  · rintro ⟨ht, hc⟩
    have hcount : (f.content crc8).count DLE = (f.escaped crc8).count DLE := by
      simp [content_eq, ht, hc]
    exact {
      output := ⟨_, hslice.trans (f.bytes_eq crc8), (f.unstuff_escaped_iff crc8).mpr ⟨ht, hc⟩⟩
      length := by rw [hlen, length_bytes, hcount]
      bound := hlen ▸ f.length_bytes_le crc8 }

theorem outputGrammar_iff_dles :
    OutputGrammar crc8Update (fun _ => 0) ⟨2, 0, DLE, 0x1010, [DLE, 1, DLE]⟩ ↔
      (2 : UInt8) ≠ DLE ∧ (0 : UInt8) ≠ DLE :=
  outputGrammar_iff crc8Update (fun _ => 0) ⟨2, 0, DLE, 0x1010, [DLE, 1, DLE]⟩ (by decide)

/-- A frame of type DLE: the output starts with DLE STX DLE and the channel, and the
DLE is not doubled. -/
theorem output_dle_type : ¬ OutputGrammar crc8Update (fun _ => 0) ⟨DLE, 0, 0, 0, []⟩ := by
  rintro ⟨⟨body, hbody, hunstuff⟩, -, -⟩
  rw [(build_output crc8Update _ (fun _ => 0) (by decide)).2, bytes_eq, List.append_cancel_right_eq,
    List.append_cancel_left_eq] at hbody
  rw [← hbody] at hunstuff
  revert hunstuff
  decide

end Frame

end Can4vscp
