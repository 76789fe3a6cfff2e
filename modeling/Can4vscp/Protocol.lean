import Can4vscp.Lib.ByteStuffing
import Can4vscp.Lib.ReadProgram

/-!
# Can4vscp.Protocol

The pure protocol layer (`can4vscp-protocol.h`, `can4vscp-protocol.cpp`): byte
stuffing, frame construction and the CRC check.

`crc8` is the byte update of `crc8.c`, which is outside the repository; it is a
parameter, and nothing here uses more of it than that it is a function.

The encoder writes through a pointer with a 16-bit position, as the source
does.  `buildFrame_eq` replaces it by its closed form: for every frame whose
worst case fits 16 bits the bytes written are `Frame.bytes`, from index 0 on,
and nothing else is touched.
-/

namespace Can4vscp

open Memory ByteStuffing ReadProgram

/-! ## constants -/

def DLE : UInt8 := 0x10
def STX : UInt8 := 0x02
def ETX : UInt8 := 0x03

theorem STX_ne_DLE : STX ≠ DLE := by decide

theorem ETX_ne_DLE : ETX ≠ DLE := by decide

theorem ETX_ne_STX : ETX ≠ STX := by decide

/-- One bit of a CRC-8 with the generator x^8 + x^2 + x + 1. -/
def crc8Bit (v : UInt8) : UInt8 := (v <<< 1) ^^^ (if v &&& 0x80 = 0 then 0 else 0x07)

/-- A byte update to run the protocol with; no result depends on it. -/
def crc8Update (crc c : UInt8) : UInt8 :=
  crc8Bit (crc8Bit (crc8Bit (crc8Bit (crc8Bit (crc8Bit (crc8Bit (crc8Bit (crc ^^^ c))))))))

section
variable (crc8 : UInt8 → UInt8 → UInt8)

/-! ## the encoder -/

/-- `can4vscp_addWithEscape`: write `c` at `p`, doubled if it is a DLE, and
update the CRC if there is one (the doubled DLE counts once).  The result is
the buffer, the CRC and the number of bytes written. -/
def addWithEscape (pbuf : Mem UInt8) (p : Nat) (c : UInt8) (pcrc : Option UInt8) :
    Mem UInt8 × Option UInt8 × UInt8 :=
  if DLE == c then
    (store (store pbuf p DLE) (p + 1) DLE, pcrc.map (crc8 · DLE), 2)
  else
    (store pbuf p c, pcrc.map (crc8 · c), 1)

/-- The local state of `can4vscp_buildFrame`. -/
structure Build where
  pbuf : Mem UInt8
  crc : UInt8
  pos : UInt16

/-- `pbuf[pos++] = c`. -/
def Build.put (b : Build) (c : UInt8) : Build :=
  { b with pbuf := store b.pbuf b.pos.toNat c, pos := b.pos + 1 }

/-- `crc8(&crc, c)`. -/
def Build.updateCrc (b : Build) (c : UInt8) : Build := { b with crc := crc8 b.crc c }

/-- `pos += can4vscp_addWithEscape(pbuf + pos, c, &crc)`. -/
def Build.escape (b : Build) (c : UInt8) : Build :=
  match addWithEscape crc8 b.pbuf b.pos.toNat c (some b.crc) with
  | (pbuf, crc, n) => { pbuf, crc := crc.getD b.crc, pos := b.pos + n.toUInt16 }

/-- `pos += can4vscp_addWithEscape(pbuf + pos, crc, NULL)`. -/
def Build.escapeCrc (b : Build) : Build :=
  match addWithEscape crc8 b.pbuf b.pos.toNat b.crc none with
  | (pbuf, _, n) => { b with pbuf, pos := b.pos + n.toUInt16 }

/-- The two bytes of the payload size in the frame header. -/
def sizeMsb (n : UInt16) : UInt8 := ((n >>> 8) &&& 0xff).toUInt8

def sizeLsb (n : UInt16) : UInt8 := (n &&& 0xff).toUInt8

/-- `can4vscp_buildFrame`: the buffer after the call and the returned length.
`payload` are the `lenPayload` bytes at `pPayload`. -/
def buildFrame (pbuf : Mem UInt8) (frameType channel seq : UInt8) (declaredSizePayload : UInt16)
    (payload : List UInt8) : Mem UInt8 × UInt16 :=
  let b : Build := { pbuf, crc := 0, pos := 0 }
  -- Start of frame
  let b := (b.put DLE).put STX
  -- Frame type and channel are not escaped
  let b := (b.put frameType).updateCrc crc8 frameType
  let b := (b.put channel).updateCrc crc8 channel
  -- Sequency number and size of payload
  let b := b.escape crc8 seq
  let b := b.escape crc8 (sizeMsb declaredSizePayload)
  let b := b.escape crc8 (sizeLsb declaredSizePayload)
  -- Payload
  let b := payload.foldl (Build.escape crc8) b
  -- Checksum
  let b := b.escapeCrc crc8
  -- End of frame
  let b := (b.put DLE).put ETX
  (b.pbuf, b.pos)

/-- `can4vscp_checkCRC` on the frame content at the buffer's base. -/
def checkCRC (len : UInt16) : ReadProgram UInt8 Bool :=
  if len = 0 then pure false
  else do
    let body ← getSlice 0 (len.toNat - 1)
    let last ← get (len.toNat - 1)
    pure (body.foldl crc8 0 == last)

/-! ## frames -/

/-- The arguments of `can4vscp_buildFrame`. -/
structure Frame where
  frameType : UInt8
  channel : UInt8
  seq : UInt8
  declaredSizePayload : UInt16
  payload : List UInt8
  deriving DecidableEq, Repr

namespace Frame

/-- The header bytes, as they stand in a received frame. -/
def header (f : Frame) : List UInt8 :=
  [f.frameType, f.channel, f.seq, sizeMsb f.declaredSizePayload, sizeLsb f.declaredSizePayload]

/-- The bytes the CRC is computed over. -/
def body (f : Frame) : List UInt8 := f.header ++ f.payload

/-- The frame content: what is between the delimiters once destuffed. -/
def content (f : Frame) : List UInt8 := f.body ++ [f.body.foldl crc8 0]

/-- The bytes of a frame on the serial line. -/
def bytes (f : Frame) : List UInt8 :=
  [DLE, STX, f.frameType, f.channel] ++
    stuff DLE ([f.seq, sizeMsb f.declaredSizePayload, sizeLsb f.declaredSizePayload] ++
      f.payload ++ [f.body.foldl crc8 0]) ++ [DLE, ETX]

/-- A frame as the encoder emits it: the first `len` bytes of its buffer. -/
def encode (f : Frame) : List UInt8 :=
  let r := buildFrame crc8 (fun _ => 0) f.frameType f.channel f.seq f.declaredSizePayload f.payload
  slice r.1 0 r.2.toNat

@[simp] theorem length_header (f : Frame) : f.header.length = 5 := rfl

@[simp] theorem length_content (f : Frame) : (f.content crc8).length = 6 + f.payload.length := by
  simp [content, body]
  omega

/-- Frame type and channel are sent raw, so a frame whose type and channel are
not DLE is the stuffed content between its delimiters. -/
theorem bytes_eq_stuff (f : Frame) (ht : f.frameType ≠ DLE) (hc : f.channel ≠ DLE) :
    f.bytes crc8 = [DLE, STX] ++ stuff DLE (f.content crc8) ++ [DLE, ETX] := by
  simp [bytes, content, body, header, stuff1_of_ne ht, stuff1_of_ne hc]

theorem length_bytes_le (f : Frame) : (f.bytes crc8).length ≤ 2 * (7 + f.payload.length) := by
  have h := length_stuff_le DLE ([f.seq, sizeMsb f.declaredSizePayload,
    sizeLsb f.declaredSizePayload] ++ f.payload ++ [f.body.foldl crc8 0])
  simp only [bytes, List.length_append, List.length_cons, List.length_nil] at h ⊢
  omega

end Frame

/-! ## the closed form of the encoder -/

/-- The build state stands for the bytes written so far. -/
structure Build.Holds (b : Build) (pbuf : Mem UInt8) (bs : List UInt8) (crc : UInt8) : Prop where
  pbuf : b.pbuf = storeAll pbuf 0 bs
  pos : b.pos.toNat = bs.length
  crc : b.crc = crc

variable {b : Build} {pbuf : Mem UInt8} {bs : List UInt8} {crc : UInt8}

theorem Build.Holds.put (h : b.Holds pbuf bs crc) (c : UInt8) (hlen : bs.length < 65535) :
    (b.put c).Holds pbuf (bs ++ [c]) crc := by
  refine ⟨?_, ?_, h.crc⟩
  · rw [storeAll_concat, Build.put, h.pbuf, h.pos, Nat.zero_add]
  · simp [Build.put, UInt16.toNat_add, h.pos]
    omega

theorem Build.Holds.updateCrc (h : b.Holds pbuf bs crc) (c : UInt8) :
    (b.updateCrc crc8 c).Holds pbuf bs (crc8 crc c) :=
  ⟨h.pbuf, h.pos, by rw [Build.updateCrc, h.crc]⟩

/-- The bytes one escaped byte adds to the buffer, and their number. -/
theorem addWithEscape_eq (pbuf : Mem UInt8) (bs : List UInt8) (c : UInt8) (pcrc : Option UInt8) :
    addWithEscape crc8 (storeAll pbuf 0 bs) bs.length c pcrc =
      (storeAll pbuf 0 (bs ++ stuff1 DLE c), pcrc.map (crc8 · c),
        UInt8.ofNat (stuff1 DLE c).length) := by
  by_cases hc : c = DLE
  · subst hc
    simp [addWithEscape, storeAll_append, storeAll]
  · have hne : (DLE == c) = false := by simpa using Ne.symm hc
    simp [addWithEscape, hne, stuff1_of_ne hc, storeAll_append, storeAll]

theorem length_stuff1_le (c : UInt8) : (stuff1 DLE c).length ≤ 2 := by
  unfold stuff1
  split <;> simp

theorem Build.Holds.pos_add (h : b.Holds pbuf bs crc) (c : UInt8)
    (hlen : bs.length + (stuff1 DLE c).length ≤ 65535) :
    (b.pos + (UInt8.ofNat (stuff1 DLE c).length).toUInt16).toNat =
      (bs ++ stuff1 DLE c).length := by
  have h2 := length_stuff1_le c
  simp [UInt16.toNat_add, h.pos]
  omega

theorem Build.Holds.escape (h : b.Holds pbuf bs crc) (c : UInt8)
    (hlen : bs.length + (stuff1 DLE c).length ≤ 65535) :
    (b.escape crc8 c).Holds pbuf (bs ++ stuff1 DLE c) (crc8 crc c) := by
  have he : b.escape crc8 c =
      { pbuf := storeAll pbuf 0 (bs ++ stuff1 DLE c), crc := crc8 b.crc c,
        pos := b.pos + (UInt8.ofNat (stuff1 DLE c).length).toUInt16 } := by
    rw [Build.escape, h.pbuf, h.pos, addWithEscape_eq crc8]
    rfl
  rw [he]
  exact ⟨rfl, h.pos_add c hlen, by rw [h.crc]⟩

theorem Build.Holds.escapeCrc (h : b.Holds pbuf bs crc)
    (hlen : bs.length + (stuff1 DLE crc).length ≤ 65535) :
    (b.escapeCrc crc8).Holds pbuf (bs ++ stuff1 DLE crc) crc := by
  have he : b.escapeCrc crc8 =
      { pbuf := storeAll pbuf 0 (bs ++ stuff1 DLE crc), crc := crc,
        pos := b.pos + (UInt8.ofNat (stuff1 DLE crc).length).toUInt16 } := by
    rw [Build.escapeCrc, h.pbuf, h.pos, h.crc, addWithEscape_eq]
  rw [he]
  exact ⟨rfl, h.pos_add crc hlen, rfl⟩

/-- The payload loop. -/
theorem Build.Holds.escapeAll (h : b.Holds pbuf bs crc) (cs : List UInt8)
    (hlen : bs.length + (stuff DLE cs).length ≤ 65535) :
    (cs.foldl (Build.escape crc8) b).Holds pbuf (bs ++ stuff DLE cs) (cs.foldl crc8 crc) := by
  induction cs generalizing b bs crc with
  | nil => simpa using h
  | cons c cs ih =>
      rw [stuff_cons, List.length_append] at hlen
      have hc := h.escape crc8 c (by omega)
      have := ih hc (by rw [List.length_append]; omega)
      simpa using this

/-- **The encoder's closed form**: a frame whose worst case stays below the
range of the 16-bit position is written from index 0 on, byte for byte, and
the returned length is its length. -/
theorem buildFrame_eq (pbuf : Mem UInt8) (f : Frame) (h : 2 * (7 + f.payload.length) ≤ 65535) :
    buildFrame crc8 pbuf f.frameType f.channel f.seq f.declaredSizePayload f.payload =
      (storeAll pbuf 0 (f.bytes crc8), UInt16.ofNat (f.bytes crc8).length) := by
  have hmax := f.length_bytes_le crc8
  have hlen : (f.bytes crc8).length = 6 + (stuff1 DLE f.seq).length +
      (stuff1 DLE (sizeMsb f.declaredSizePayload)).length +
      (stuff1 DLE (sizeLsb f.declaredSizePayload)).length + (stuff DLE f.payload).length +
      (stuff1 DLE (f.body.foldl crc8 0)).length := by
    simp [Frame.bytes]
    omega
  have h0 : Build.Holds { pbuf, crc := 0, pos := 0 } pbuf [] 0 := ⟨rfl, rfl, rfl⟩
  have h1 := (h0.put DLE (by simp)).put STX (by simp)
  have h2 := (h1.put f.frameType (by simp)).updateCrc crc8 f.frameType
  have h3 := (h2.put f.channel (by simp)).updateCrc crc8 f.channel
  have h4 := h3.escape crc8 f.seq (by simp; omega)
  have h5 := h4.escape crc8 (sizeMsb f.declaredSizePayload) (by simp; omega)
  have h6 := h5.escape crc8 (sizeLsb f.declaredSizePayload) (by simp; omega)
  have h7 := h6.escapeAll crc8 f.payload (by simp; omega)
  have hcrc : f.payload.foldl crc8 (crc8 (crc8 (crc8 (crc8 (crc8 0 f.frameType) f.channel) f.seq)
      (sizeMsb f.declaredSizePayload)) (sizeLsb f.declaredSizePayload)) =
      f.body.foldl crc8 0 := by
    simp [Frame.body, Frame.header]
  rw [hcrc] at h7
  have h8 := h7.escapeCrc crc8 (by simp; omega)
  have h9 := (h8.put DLE (by simp; omega)).put ETX (by simp; omega)
  have hbytes : (([] : List UInt8) ++ [DLE] ++ [STX] ++ [f.frameType] ++ [f.channel] ++
      stuff1 DLE f.seq ++ stuff1 DLE (sizeMsb f.declaredSizePayload) ++
      stuff1 DLE (sizeLsb f.declaredSizePayload) ++ stuff DLE f.payload ++
      stuff1 DLE (f.body.foldl crc8 0) ++ [DLE] ++ [ETX]) = f.bytes crc8 := by
    simp [Frame.bytes]
  rw [hbytes] at h9
  have hn : (UInt16.ofNat (f.bytes crc8).length).toNat = (f.bytes crc8).length :=
    UInt16.toNat_ofNat_of_lt' (by simp only [UInt16.size]; omega)
  exact Prod.ext h9.pbuf (UInt16.toNat_inj.mp (h9.pos.trans hn.symm))

/-- What goes out on the serial line is the frame's bytes. -/
theorem Frame.encode_eq (f : Frame) (h : 2 * (7 + f.payload.length) ≤ 65535) :
    f.encode crc8 = f.bytes crc8 := by
  have hmax := f.length_bytes_le crc8
  have hn : (UInt16.ofNat (f.bytes crc8).length).toNat = (f.bytes crc8).length :=
    UInt16.toNat_ofNat_of_lt' (by simp only [UInt16.size]; omega)
  simp only [Frame.encode, buildFrame_eq crc8 _ f h, hn]
  exact slice_storeAll _ _ _

/-! ## reading a frame -/

/-- What a memory has at the places of a frame's fields. -/
structure Frame.ReadFrom (f : Frame) (m : Mem UInt8) : Prop where
  frameType : m 0 = f.frameType
  channel : m 1 = f.channel
  seq : m 2 = f.seq
  size : (m 3).toNat * 256 + (m 4).toNat = f.declaredSizePayload.toNat
  payload : slice m 5 f.payload.length = f.payload

/-- The two bytes of the payload size. -/
theorem size_bytes (n : UInt16) : (sizeMsb n).toNat * 256 + (sizeLsb n).toNat = n.toNat := by
  have hand : ∀ k : Nat, k &&& 255 = k % 256 := fun k => Nat.and_two_pow_sub_one_eq_mod k 8
  have hlt := n.toNat_lt
  have hshift : n.toNat >>> 8 = n.toNat / 256 := Nat.shiftRight_eq_div_pow n.toNat 8
  simp [sizeMsb, sizeLsb, hand, hshift]
  omega

/-- A memory that holds the content of a frame holds its body and its CRC. -/
theorem Frame.slice_content {m : Mem UInt8} {f : Frame}
    (hm : slice m 0 (6 + f.payload.length) = f.content crc8) :
    slice m 0 f.body.length = f.body ∧ m f.body.length = f.body.foldl crc8 0 := by
  have hlen : 6 + f.payload.length = f.body.length + [f.body.foldl crc8 0].length := by
    rw [body, List.length_append, length_header, List.length_singleton]
    omega
  rw [hlen] at hm
  obtain ⟨hbody, hlast⟩ := slice_eq_append m 0 hm
  exact ⟨hbody, by simpa [slice] using hlast⟩

/-- The fields of a frame are read where its content is. -/
theorem Frame.readFrom_content {m : Mem UInt8} {f : Frame}
    (hm : slice m 0 (6 + f.payload.length) = f.content crc8) : f.ReadFrom m := by
  obtain ⟨hbody, -⟩ := slice_content crc8 hm
  rw [body, List.length_append] at hbody
  obtain ⟨hheader, hpayload⟩ := slice_eq_append m 0 hbody
  rw [length_header] at hheader
  simp only [slice, header, List.cons.injEq, and_true] at hheader
  obtain ⟨h0, h1, h2, h3, h4⟩ := hheader
  exact ⟨h0, h1, h2, by rw [h3, h4, size_bytes], hpayload⟩

/-- A received frame content passes the CRC check. -/
theorem checkCRC_content (m : Mem UInt8) (f : Frame) (h : 6 + f.payload.length < 65536)
    (hm : slice m 0 (6 + f.payload.length) = f.content crc8) :
    (checkCRC crc8 (UInt16.ofNat (6 + f.payload.length))).run m = true := by
  have hn : (UInt16.ofNat (6 + f.payload.length)).toNat = 6 + f.payload.length :=
    UInt16.toNat_ofNat_of_lt' h
  have hne : UInt16.ofNat (6 + f.payload.length) ≠ 0 := by
    intro h0
    rw [h0, UInt16.toNat_zero] at hn
    omega
  have hbl : 6 + f.payload.length - 1 = f.body.length := by
    rw [Frame.body, List.length_append, Frame.length_header]
    omega
  obtain ⟨hbody, hlast⟩ := Frame.slice_content crc8 hm
  simp only [checkCRC, if_neg hne, run_bind, run_getSlice, run_get, run_pure, hn, hbl]
  rw [hbody, hlast, beq_self_eq_true]

end

end Can4vscp
