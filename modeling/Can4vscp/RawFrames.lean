import Mathlib.Data.List.Forall2
import Can4vscp.Filter
import Can4vscp.RawSubFrames

/-!
# Can4vscp.RawFrames

Payloads of arbitrary bytes, received without a filter.

Both loops of `readSerialData` take the complete sub-frames at the front of a payload one
by one, each with one message if there is room (`Passes.encode`), and come to the tail with
what they have left (`multiLoop_tail`, `guardedLoop_tail`).  `guardedLoop_payload` and
`multiLoop_payload` put the two together.
-/

namespace Can4vscp

open Memory ReadProgram Records

variable (x : External)

/-! ## what a decode path does with a sub-frame -/

/-- A message comes in that no filter stops. -/
theorem Receives.received {x : External} {m : Mem UInt8} {decode : Driver → ReadProgram UInt8 Driver}
    (h : Receives x m decode) {d : Driver} (hmask : d.mask = 0) :
    ∃ msg, d.Received ((decode d).run m) [msg] 0 := by
  obtain ⟨clocked, msg, hdecode⟩ := h
  refine ⟨msg d.ticks, ?_⟩
  rw [hdecode]
  cases clocked <;> constructor <;> simp [Driver.receive, Driver.tick, hmask, doFilter_mask_zero]

section
variable {x} {m : Mem UInt8} {k : Nat}

/-- A decode path makes of every sub-frame one message, related to it. -/
def Decodes (m : Mem UInt8) (R : CanalMsg → RawSubFrame k → Prop)
    (decode : Nat → UInt8 → Driver → ReadProgram UInt8 Driver) : Prop :=
  ∀ (pos : Nat) (f : RawSubFrame k) (d : Driver), slice m pos f.bytes.length = f.bytes →
    d.mask = 0 → ∃ msg, R msg f ∧ d.Received ((decode pos f.dlc d).run m) [msg] 0

/-- An unfiltered message is queued, also when the clock is read for it. -/
theorem Driver.received_unmasked {d : Driver} (hmask : d.mask = 0) (msg : CanalMsg) :
    d.Received (d.receive x msg) [msg] 0 ∧ d.Received (d.tick.receive x msg) [msg] 0 := by
  constructor <;> constructor <;>
    simp [Driver.receive, Driver.tick, hmask, doFilter_mask_zero]

/-- The CANAL branch gives every message the id at the start of the payload. -/
theorem decodes_canal :
    Decodes m (fun msg (f : RawSubFrame 4) => ∃ ts, msg = f.msg x ((word29 5).run m) ts)
      (canalDecode x) := by
  intro pos f d hm hmask
  obtain ⟨-, -, hdata⟩ := RawSubFrame.read_bytes hm
  refine ⟨_, ⟨x.getClockMicroSeconds d.ticks, rfl⟩, ?_⟩
  simp only [canalDecode, run_bind, run_getSlice, run_pure, hdata]
  exact (Driver.received_unmasked hmask _).2

theorem decodes_multi :
    Decodes m (fun msg (f : RawSubFrame 4) => ∃ ts, msg = f.msg x f.id ts)
      (fun pos _ => multiDecode x pos) := by
  intro pos f d hm hmask
  obtain ⟨hheader, hdlc, hdata⟩ := RawSubFrame.read_bytes hm
  have hle : ¬ f.dlc > 8 := UInt8.not_lt.mpr f.dlc_le
  have hid := f.run_id hheader
  refine ⟨_, ⟨x.getClockMicroSeconds d.ticks, rfl⟩, ?_⟩
  simp only [multiDecode, run_bind, run_get, run_getSlice, run_pure, hdlc, clamp8, if_neg hle,
    hdata, hid, UInt32.zero_or]
  exact (Driver.received_unmasked hmask _).2

/-- The time stamp is cut like an id. -/
theorem decodes_multiTimestamp :
    Decodes m (fun msg (f : RawSubFrame 8) => msg = f.msg x f.id (f.timestamp &&& 0x1fffffff))
      (multiTimestampDecode x) := by
  intro pos f d hm hmask
  obtain ⟨hheader, -, hdata⟩ := RawSubFrame.read_bytes hm
  obtain ⟨hid, htimestamp⟩ := RawSubFrame.run_words hheader
  refine ⟨_, rfl, ?_⟩
  simp only [multiTimestampDecode, run_bind, run_getSlice, run_pure, hid, htimestamp, hdata,
    UInt32.zero_or]
  exact (Driver.received_unmasked hmask _).1

/-- The time stamped CANAL branch takes the sub-frame at the start of the payload. -/
theorem run_canalTimestampFrame {f : RawSubFrame 8} {d : Driver}
    (hm : slice m 5 f.bytes.length = f.bytes) (hroom : 0 < d.room) :
    (canalTimestampFrame x d).run m = d.receive x (f.msg x f.id (f.timestamp &&& 0x1fffffff)) := by
  obtain ⟨hheader, hdlc, hdata⟩ := RawSubFrame.read_bytes hm
  obtain ⟨hid, htimestamp⟩ := RawSubFrame.run_words hheader
  have hle : ¬ f.dlc > 8 := UInt8.not_lt.mpr f.dlc_le
  rw [canalTimestampFrame, ifRoom, if_pos (d.hasRoom_iff.mpr hroom)]
  simp only [run_bind, run_get, run_getSlice, run_pure, hid, htimestamp, hdlc, clamp8, if_neg hle,
    hdata, UInt32.zero_or]
  rfl

/-! ## the loops -/

/-- A pass of a loop takes a complete sub-frame, with one message related to it. -/
def Passes (m : Mem UInt8) (R : CanalMsg → RawSubFrame k → Prop)
    (loop : Nat → Nat → Nat → Driver → ReadProgram UInt8 Driver) : Prop :=
  ∀ (fuel pos left : Nat) (f : RawSubFrame k) (d : Driver),
    slice m pos f.bytes.length = f.bytes → 0 < d.room → d.mask = 0 →
    ∃ msg d', R msg f ∧ d.Received d' [msg] 0 ∧
      (loop (fuel + 1) pos (f.bytes.length + left) d).run m =
        (loop fuel (pos + f.bytes.length) left d').run m

variable {R : CanalMsg → RawSubFrame k → Prop}

/-- **A loop takes the complete sub-frames** at the front of a payload, each with its
message, and goes on with the rest. -/
theorem Passes.encode {loop : Nat → Nat → Nat → Driver → ReadProgram UInt8 Driver}
    (h : Passes m R loop) {L : List (RawSubFrame k)} {pos : Nat} {d : Driver} (fuel left : Nat)
    (hm : slice m pos (RawSubFrame.encode L).length = RawSubFrame.encode L)
    (hroom : L.length ≤ d.room) (hmask : d.mask = 0) :
    ∃ ms d', List.Forall₂ R ms L ∧ d.Received d' ms 0 ∧
      (loop (L.length + fuel) pos ((RawSubFrame.encode L).length + left) d).run m =
        (loop fuel (pos + (RawSubFrame.encode L).length) left d').run m := by
  induction L generalizing pos d with
  | nil => exact ⟨[], d, .nil, Driver.Received.refl d, by simp⟩
  | cons f L ih =>
      rw [List.length_cons] at hroom
      obtain ⟨hf, hL⟩ := RawSubFrame.read_cons hm
      rw [← RawSubFrame.length_bytes] at hL
      obtain ⟨msg, d₁, hR, h₁, hrun₁⟩ := h (L.length + fuel) pos
        ((RawSubFrame.encode L).length + left) f d hf (by omega) hmask
      obtain ⟨ms, d₂, hRs, h₂, hrun₂⟩ := ih hL (by rw [h₁.room, List.length_singleton]; omega)
        (h₁.mask.trans hmask)
      refine ⟨msg :: ms, d₂, .cons hR hRs, h₁.trans h₂, ?_⟩
      rw [RawSubFrame.encode_cons, List.length_append, List.length_cons,
        Nat.add_right_comm, Nat.add_assoc f.bytes.length, hrun₁, hrun₂, Nat.add_assoc]

theorem passes_guardedLoop {decode : Nat → UInt8 → Driver → ReadProgram UInt8 Driver}
    (h : Decodes m R decode) : Passes m R (guardedLoop (k + 1) decode) := by
  intro fuel pos left f d hm hroom hmask
  obtain ⟨msg, hR, hreceived⟩ := h pos f d hm hmask
  refine ⟨msg, (decode pos f.dlc d).run m, hR, hreceived, ?_⟩
  rw [run_guardedLoop_step hm, ifRoom, if_pos (d.hasRoom_iff.mpr hroom)]

theorem passes_multiLoop {R : CanalMsg → RawSubFrame 4 → Prop}
    (h : Decodes m R fun pos _ => multiDecode x pos) : Passes m R (multiLoop x) := by
  intro fuel pos left f d hm hroom hmask
  obtain ⟨msg, hR, hreceived⟩ := h pos f d hm hmask
  refine ⟨msg, (multiDecode x pos d).run m, hR, hreceived, ?_⟩
  rw [run_multiLoop_step hm, ifRoom, if_pos (d.hasRoom_iff.mpr hroom)]

/-! ## the tail -/

variable {d d' d'' : Driver}

/-- From `d` to `d'` messages are added, and none to a full queue. -/
def OnlyAdds (d d' : Driver) : Prop :=
  ∃ ms overruns, d.Received d' ms overruns ∧ (d.room = 0 → ms = [])

/-- From `d` to `d'` at least one message is added, unless the queue is full. -/
def TakesIfRoom (d d' : Driver) : Prop :=
  ∃ ms overruns, d.Received d' ms overruns ∧ (ms = [] ↔ d.room = 0)

theorem OnlyAdds.refl (d : Driver) : OnlyAdds d d :=
  ⟨[], 0, Driver.Received.refl d, fun _ => rfl⟩

theorem onlyAdds_overrun (d : Driver) : OnlyAdds d d.overrun :=
  ⟨[], 1, Driver.received_overrun d, fun _ => rfl⟩

theorem OnlyAdds.mask (h : OnlyAdds d d') : d'.mask = d.mask := by
  obtain ⟨_, _, h, -⟩ := h
  exact h.mask

theorem OnlyAdds.trans (h : OnlyAdds d d') (h' : OnlyAdds d' d'') : OnlyAdds d d'' := by
  obtain ⟨ms, _, hms, hfull⟩ := h
  obtain ⟨ms', _, hms', hfull'⟩ := h'
  refine ⟨_, _, hms.trans hms', fun hroom => ?_⟩
  rw [hfull hroom, hfull' (by rw [hms.room, hroom, Nat.zero_sub]), List.append_nil]

theorem TakesIfRoom.onlyAdds (h : TakesIfRoom d d') : OnlyAdds d d' := by
  obtain ⟨ms, overruns, hms, hfull⟩ := h
  exact ⟨ms, overruns, hms, hfull.mpr⟩

theorem TakesIfRoom.trans (h : TakesIfRoom d d') (h' : OnlyAdds d' d'') : TakesIfRoom d d'' := by
  obtain ⟨ms, _, hms, hfull⟩ := h
  obtain ⟨ms', _, hms', hfull'⟩ := h'
  refine ⟨_, _, hms.trans hms', ?_⟩
  rw [List.append_eq_nil_iff, hfull]
  constructor
  · exact fun h => h.1
  · exact fun hroom => ⟨hroom, hfull' (by rw [hms.room, hroom, Nat.zero_sub])⟩

/-- A decode path is given a message if there is room for one. -/
theorem takesIfRoom_ifRoom {decode : Driver → ReadProgram UInt8 Driver} (h : Receives x m decode)
    (hmask : d.mask = 0) : TakesIfRoom d ((ifRoom d (decode d)).run m) := by
  unfold ifRoom
  by_cases hroom : 0 < d.room
  · obtain ⟨msg, hreceived⟩ := h.received hmask
    rw [if_pos (d.hasRoom_iff.mpr hroom)]
    exact ⟨[msg], 0, hreceived, by simp [Nat.pos_iff_ne_zero.mp hroom]⟩
  · rw [if_neg (mt d.hasRoom_iff.mp hroom)]
    exact ⟨[], 1, Driver.received_overrun d, by simpa using hroom⟩

/-- Whatever is left of the payload, the multi-frame loop only adds messages. -/
theorem onlyAdds_multiLoop (fuel pos left : Nat) (hmask : d.mask = 0) :
    OnlyAdds d ((multiLoop x fuel pos left d).run m) := by
  induction fuel generalizing pos left d with
  | zero => exact .refl d
  | succ fuel ih =>
      rw [multiLoop]
      split
      · exact .refl d
      · simp only [run_bind, run_get]
        have hfirst :=
          (takesIfRoom_ifRoom (m := m) (receives_multi (x := x) pos) hmask).onlyAdds
        exact hfirst.trans (ih _ _ (hfirst.mask.trans hmask))

/-- So does the guarded loop. -/
theorem onlyAdds_guardedLoop (head : Nat)
    {decode : Nat → UInt8 → Driver → ReadProgram UInt8 Driver}
    (hdecode : ∀ pos dataLen, Receives x m (decode pos dataLen)) (fuel pos left : Nat)
    (hmask : d.mask = 0) : OnlyAdds d ((guardedLoop head decode fuel pos left d).run m) := by
  induction fuel generalizing pos left d with
  | zero => exact .refl d
  | succ fuel ih =>
      rw [guardedLoop]
      split
      · exact .refl d
      · simp only [run_bind, run_get]
        split
        · exact onlyAdds_overrun d
        · simp only [run_bind]
          have hfirst := (takesIfRoom_ifRoom (hdecode pos (m (pos + (head - 1)))) hmask).onlyAdds
          exact hfirst.trans (ih _ _ (hfirst.mask.trans hmask))

/-- What the multi-frame loop makes of a tail: at least one message, if there is room. -/
theorem multiLoop_tail {fuel left : Nat} (pos : Nat) (hfuel : left ≤ fuel) (hmask : d.mask = 0) :
    ∃ ms overruns, d.Received ((multiLoop x fuel pos left d).run m) ms overruns ∧
      (ms = [] ↔ left = 0 ∨ d.room = 0) := by
  cases fuel with
  | zero => exact ⟨[], 0, Driver.Received.refl d, by simp [Nat.le_zero.mp hfuel]⟩
  | succ fuel =>
      rw [multiLoop]
      split
      next hleft => exact ⟨[], 0, Driver.Received.refl d, by simp [hleft]⟩
      next hleft =>
        simp only [run_bind, run_get]
        have hfirst := takesIfRoom_ifRoom (m := m) (receives_multi (x := x) pos) hmask
        have hrest := onlyAdds_multiLoop (x := x) (m := m) fuel (pos + (5 + (m (pos + 4)).toNat))
          (left - (5 + (m (pos + 4)).toNat)) (hfirst.onlyAdds.mask.trans hmask)
        obtain ⟨ms, overruns, hms, hfull⟩ := hfirst.trans hrest
        exact ⟨ms, overruns, hms, hfull.trans (or_iff_right hleft).symm⟩

/-- What the guarded loop makes of a tail: nothing if the byte where the dlc would be is
above 8, and else at least one message, if there is room. -/
theorem guardedLoop_tail (head : Nat) {decode : Nat → UInt8 → Driver → ReadProgram UInt8 Driver}
    (hdecode : ∀ pos dataLen, Receives x m (decode pos dataLen)) {fuel left : Nat} (pos : Nat)
    (hfuel : left ≤ fuel) (hmask : d.mask = 0) :
    ∃ ms overruns, d.Received ((guardedLoop head decode fuel pos left d).run m) ms overruns ∧
      (ms = [] ↔ left = 0 ∨ 8 < m (pos + (head - 1)) ∨ d.room = 0) := by
  cases fuel with
  | zero => exact ⟨[], 0, Driver.Received.refl d, by simp [Nat.le_zero.mp hfuel]⟩
  | succ fuel =>
      rw [guardedLoop]
      split
      next hleft => exact ⟨[], 0, Driver.Received.refl d, by simp [hleft]⟩
      next hleft =>
        simp only [run_bind, run_get]
        split
        next hdlc => exact ⟨[], 1, Driver.received_overrun d, by simp [hdlc]⟩
        next hdlc =>
          simp only [run_bind]
          have hfirst := takesIfRoom_ifRoom (hdecode pos (m (pos + (head - 1)))) hmask
          have hrest := onlyAdds_guardedLoop head hdecode fuel
            (pos + (head + (m (pos + (head - 1))).toNat))
            (left - (head + (m (pos + (head - 1))).toNat)) (hfirst.onlyAdds.mask.trans hmask)
          obtain ⟨ms, overruns, hms, hfull⟩ := hfirst.trans hrest
          refine ⟨ms, overruns, hms, hfull.trans ?_⟩
          rw [or_iff_right hleft, or_iff_right hdlc]

/-! ## a whole payload -/

/-- Where the sub-frames `L` are at the front of a payload, the byte where the dlc of the
next one would be. -/
def nextDlc (m : Mem UInt8) (L : List (RawSubFrame k)) : UInt8 :=
  m (5 + (RawSubFrame.encode L).length + k)

/-- **A loop on a payload**: the complete sub-frames, each with its message, and then
what the loop makes of the tail. -/
theorem Passes.payload {R : CanalMsg → RawSubFrame k → Prop}
    {loop : Nat → Nat → Nat → Driver → ReadProgram UInt8 Driver} (h : Passes m R loop)
    {p tail : List UInt8} {L : List (RawSubFrame k)} (hsplit : Splits RawSubFrame.bytes p L tail)
    (hm : slice m 5 p.length = p) (hroom : L.length ≤ d.room) (hmask : d.mask = 0) {Quiet : Prop}
    (htail : ∀ (fuel : Nat) (d' : Driver), tail.length ≤ fuel → d'.mask = 0 →
      d'.room = d.room - L.length → ∃ ms overruns,
      d'.Received ((loop fuel (5 + (RawSubFrame.encode L).length) tail.length d').run m)
        ms overruns ∧ (ms = [] ↔ Quiet)) :
    ∃ ms extra overruns, List.Forall₂ R ms L ∧
      d.Received ((loop p.length 5 p.length d).run m) (ms ++ extra) overruns ∧
      (extra = [] ↔ Quiet) := by
  have hp : p = RawSubFrame.encode L ++ tail := hsplit.eq
  have hlen : p.length = (RawSubFrame.encode L).length + tail.length := by
    rw [hp, List.length_append]
  have hfuel := RawSubFrame.length_le_encode L
  have hpayload : slice m 5 (RawSubFrame.encode L).length = RawSubFrame.encode L := by
    rw [hp, List.length_append] at hm
    exact (slice_eq_append m 5 hm).1
  obtain ⟨ms, d₁, hR, h₁, hrun⟩ := h.encode (d := d) (p.length - L.length) tail.length hpayload
    hroom hmask
  rw [Nat.add_sub_cancel' (by omega), ← hlen] at hrun
  obtain ⟨extra, overruns, h₂, hquiet⟩ := htail (p.length - L.length) d₁ (by omega)
    (h₁.mask.trans hmask) (by rw [h₁.room, hR.length_eq])
  rw [← hrun] at h₂
  exact ⟨ms, extra, _, hR, h₁.trans h₂, hquiet⟩

/-- The guarded loop on a payload. -/
theorem guardedLoop_payload {R : CanalMsg → RawSubFrame k → Prop}
    {decode : Nat → UInt8 → Driver → ReadProgram UInt8 Driver}
    (hdecodes : Decodes m R decode) (hreceives : ∀ pos dataLen, Receives x m (decode pos dataLen))
    {p tail : List UInt8} {L : List (RawSubFrame k)} (hsplit : Splits RawSubFrame.bytes p L tail)
    (hm : slice m 5 p.length = p) (hroom : L.length ≤ d.room) (hmask : d.mask = 0) :
    ∃ ms extra overruns, List.Forall₂ R ms L ∧
      d.Received ((guardedLoop (k + 1) decode p.length 5 p.length d).run m) (ms ++ extra) overruns ∧
      (extra = [] ↔ tail = [] ∨ 8 < nextDlc m L ∨ d.room = L.length) := by
  refine (passes_guardedLoop hdecodes).payload hsplit hm hroom hmask ?_
  intro fuel d' hfuel hmask' hroom'
  obtain ⟨ms, overruns, h, hquiet⟩ := guardedLoop_tail (k + 1) hreceives
    (5 + (RawSubFrame.encode L).length) hfuel hmask'
  refine ⟨ms, overruns, h, hquiet.trans ?_⟩
  have hfull : d'.room = 0 ↔ d.room = L.length := by omega
  rw [List.length_eq_zero_iff, hfull]
  rfl

/-- The multi-frame loop on a payload. -/
theorem multiLoop_payload {R : CanalMsg → RawSubFrame 4 → Prop}
    (hdecodes : Decodes m R fun pos _ => multiDecode x pos)
    {p tail : List UInt8} {L : List (RawSubFrame 4)} (hsplit : Splits RawSubFrame.bytes p L tail)
    (hm : slice m 5 p.length = p) (hroom : L.length ≤ d.room) (hmask : d.mask = 0) :
    ∃ ms extra overruns, List.Forall₂ R ms L ∧
      d.Received ((multiLoop x p.length 5 p.length d).run m) (ms ++ extra) overruns ∧
      (extra = [] ↔ tail = [] ∨ d.room = L.length) := by
  refine (passes_multiLoop hdecodes).payload hsplit hm hroom hmask ?_
  intro fuel d' hfuel hmask' hroom'
  obtain ⟨ms, overruns, h, hquiet⟩ := multiLoop_tail (x := x) (m := m)
    (5 + (RawSubFrame.encode L).length) hfuel hmask'
  refine ⟨ms, overruns, h, hquiet.trans ?_⟩
  have hfull : d'.room = 0 ↔ d.room = L.length := by omega
  rw [List.length_eq_zero_iff, hfull]

end

end Can4vscp
