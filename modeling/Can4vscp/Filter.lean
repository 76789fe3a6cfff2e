import Can4vscp.Branches
import Can4vscp.Lib.MaskedMatch

/-!
# Can4vscp.Filter

The filter for received messages (`setFilter`, `setMask`, `doFilter`).

A message should be matched by its id with two bits of its flags (`canId`).  The
driver tests the flags with an or, so it takes every message for an extended RTR
message, and it sets the two bits by decimal constants, which are other bits
(`doFilter_iff`).  `doFilter_law_iff` says for which messages the verdict is right
all the same.

For whole frames, `received_filter` says that the driver queues what its filter
accepts of what it would queue without one.
-/

namespace Can4vscp

open Memory ReadProgram MaskedMatch

/-! ## the law -/

/-- The bits of a register. -/
def bit (a : UInt32) (n : Fin 32) : Bool := a.toBitVec.getLsbD n

section
variable (a b : UInt32) (n : Fin 32)

@[simp] theorem bit_and : bit (a &&& b) n = (bit a n && bit b n) := by simp [bit]

@[simp] theorem bit_or : bit (a ||| b) n = (bit a n || bit b n) := by simp [bit]

@[simp] theorem bit_xor : bit (a ^^^ b) n = (bit a n ^^ bit b n) := by simp [bit]

@[simp] theorem bit_zero : bit 0 n = false := by simp [bit]

theorem bit_ext {a b : UInt32} (h : ∀ n, bit a n = bit b n) : a = b :=
  UInt32.eq_of_toBitVec_eq (BitVec.eq_of_getLsbD_eq fun i hi => h ⟨i, hi⟩)

end

/-- `setFilter` -/
def Driver.setFilter (d : Driver) (filter : UInt32) : Driver := { d with filter }

/-- `setMask` -/
def Driver.setMask (d : Driver) (mask : UInt32) : Driver := { d with mask }

variable (x : External)

def CanalMsg.isExtended (msg : CanalMsg) : Bool := msg.flags &&& x.CANAL_IDFLAG_EXTENDED ≠ 0

def CanalMsg.isRtr (msg : CanalMsg) : Bool := msg.flags &&& x.CANAL_IDFLAG_RTR ≠ 0

/-- The id of a message, with bit 31 for an extended message and bit 30 for an RTR. -/
def canId (msg : CanalMsg) : UInt32 :=
  (if msg.isExtended x then (msg.id &&& 0x1fffffff) ||| 0x80000000 else msg.id &&& 0x000007ff) |||
    (if msg.isRtr x then 0x40000000 else 0)

/-- In the bits that the mask selects, the id of the message has the bits of the
filter. -/
def FilterLaw (filter mask : UInt32) (msg : CanalMsg) : Prop :=
  Matches (bit filter) (bit mask) (bit (canId x msg))

instance (filter mask : UInt32) (msg : CanalMsg) : Decidable (FilterLaw x filter mask msg) :=
  inferInstanceAs (Decidable (∀ _, _ → _))

/-- The id cut to 29 bits, with the bits of the decimal numbers 80000000 and
40000000. -/
def decimalId (id : UInt32) : UInt32 := (id &&& 0x1fffffff) ||| 0x06e6fe00

/-- Whether the bits of the decimal numbers make no difference. -/
def FilterIndifferent (filter mask : UInt32) (msg : CanalMsg) : Prop :=
  Indifferent (bit filter) (bit mask) (bit (canId x msg)) (bit (decimalId msg.id))

/-! ## the verdict -/

/-- A masked difference is zero if and only if there is a match. -/
theorem masked_eq_zero_iff (filter mask v : UInt32) :
    (filter ^^^ v) &&& mask = 0 ↔ Matches (bit filter) (bit mask) (bit v) := by
  constructor
  · intro h n hn
    have hbit : bit ((filter ^^^ v) &&& mask) n = bit 0 n := by rw [h]
    rw [bit_and, bit_xor, bit_zero, hn, Bool.and_true] at hbit
    simpa using hbit
  · intro h
    refine bit_ext fun n => ?_
    rw [bit_and, bit_xor, bit_zero]
    cases hmask : bit mask n with
    | false => rw [Bool.and_false]
    | true => rw [h n hmask, Bool.xor_self, Bool.false_and]

theorem or_ne_zero {a b : UInt32} (h : b ≠ 0) : a ||| b ≠ 0 := by
  intro h0
  refine h (bit_ext fun n => ?_)
  have hbit : bit (a ||| b) n = bit 0 n := by rw [h0]
  rw [bit_or, bit_zero, Bool.or_eq_false_iff] at hbit
  exact hbit.2.trans (bit_zero n).symm

variable {x}

/-- What the driver matches. -/
theorem doFilter_iff (hext : x.CANAL_IDFLAG_EXTENDED ≠ 0) (hrtr : x.CANAL_IDFLAG_RTR ≠ 0)
    (filter mask : UInt32) (msg : CanalMsg) :
    doFilter x filter mask msg = true ↔ Matches (bit filter) (bit mask) (bit (decimalId msg.id)) := by
  have hid : (((msg.id &&& 0x1fffffff) &&& 0x1fffffff) ||| 80000000) ||| 40000000 =
      decimalId msg.id := by
    rw [decimalId, UInt32.and_assoc, UInt32.or_assoc]
    rfl
  rw [← masked_eq_zero_iff]
  unfold doFilter
  split
  · next hmask => simp [hmask]
  · simp only [if_pos (or_ne_zero hext), if_pos (or_ne_zero hrtr), hid, decide_eq_true_eq]

/-- The verdict is right exactly for the messages for which the bits of the decimal
numbers make no difference. -/
theorem doFilter_law_iff (hext : x.CANAL_IDFLAG_EXTENDED ≠ 0) (hrtr : x.CANAL_IDFLAG_RTR ≠ 0)
    (filter mask : UInt32) (msg : CanalMsg) :
    (doFilter x filter mask msg = true ↔ FilterLaw x filter mask msg) ↔
      FilterIndifferent x filter mask msg := by
  rw [doFilter_iff hext hrtr]
  exact matches_iff_matches

/-! ## a driver and an unfiltered one -/

section
variable (x)

/-- `d` has queued, behind `base`, what its filter accepts of the queue of `e`, and
`e` accepts everything. -/
structure Follows (base : List CanalMsg) (filter mask : UInt32) (d e : Driver) : Prop where
  ticks : d.ticks = e.ticks
  hasFilter : d.filter = filter
  hasMask : d.mask = mask
  unfiltered : e.mask = 0
  receiveList : d.receiveList = base ++ e.receiveList.filter (doFilter x filter mask)

/-- More messages are queued than there is room for behind `base`, or `e` may have
dropped some. -/
def Over (base : List CanalMsg) (e : Driver) : Prop :=
  CAN4VSCP_MAX_RCVMSG ≤ e.receiveList.length ∨
    CAN4VSCP_MAX_RCVMSG < base.length + e.receiveList.length

/-- What two drivers that get the same frames keep. -/
def Tracks (base : List CanalMsg) (filter mask : UInt32) (d e : Driver) : Prop :=
  Over base e ∨ Follows x base filter mask d e

/-- The parts of a driver the filter works on. -/
structure Driver.SameQueue (d d' : Driver) : Prop where
  receiveList : d'.receiveList = d.receiveList
  ticks : d'.ticks = d.ticks
  filter : d'.filter = d.filter
  mask : d'.mask = d.mask

/-- A decode path queues one message, if the filter accepts it. -/
def Receives (m : Mem UInt8) (decode : Driver → ReadProgram UInt8 Driver) : Prop :=
  ∃ (clocked : Bool) (msg : Nat → CanalMsg), ∀ d : Driver,
    (decode d).run m = (if clocked then d.tick else d).receive x (msg d.ticks)

variable {base : List CanalMsg} {filter mask : UInt32} {d d' e e' : Driver} {m : Mem UInt8}

theorem Over.mono (h : Over base e) (hle : e.receiveList.length ≤ e'.receiveList.length) :
    Over base e' := by
  unfold Over at h ⊢
  omega

variable {x}

theorem receives_canal (pos : Nat) (dataLen : UInt8) : Receives x m (canalDecode x pos dataLen) := by
  refine ⟨true, fun ticks => ⟨x.CANAL_IDFLAG_EXTENDED, 0, (word29 5).run m, dataLen,
    slice m (pos + 5) dataLen.toNat, x.getClockMicroSeconds ticks⟩, fun d => ?_⟩
  simp [canalDecode]

theorem receives_multiTimestamp (pos : Nat) (dataLen : UInt8) :
    Receives x m (multiTimestampDecode x pos dataLen) := by
  refine ⟨false, fun _ => ⟨0 ||| x.CANAL_IDFLAG_EXTENDED, 0, (word29 pos).run m, dataLen,
    slice m (pos + 9) dataLen.toNat, (word29 (pos + 4)).run m⟩, fun d => ?_⟩
  simp [multiTimestampDecode]

theorem receives_multi (pos : Nat) : Receives x m (multiDecode x pos) := by
  refine ⟨true, fun ticks => ⟨0 ||| x.CANAL_IDFLAG_EXTENDED, 0, (word29 pos).run m,
    clamp8 (m (pos + 4)), slice m (pos + 5) (clamp8 (m (pos + 4))).toNat,
    x.getClockMicroSeconds ticks⟩, fun d => ?_⟩
  simp [multiDecode]

theorem receives_canalTimestamp :
    ∃ decode, Receives x m decode ∧ ∀ d, canalTimestampFrame x d = ifRoom d (decode d) := by
  refine ⟨_, ⟨false, fun _ => ⟨0 ||| x.CANAL_IDFLAG_EXTENDED, 0, (word29 5).run m, clamp8 (m 13),
    slice m 14 (clamp8 (m 13)).toNat, (word29 9).run m⟩, fun d => ?_⟩, fun d => rfl⟩
  simp

theorem Follows.tick (h : Follows x base filter mask d e) :
    Follows x base filter mask d.tick e.tick :=
  { h with ticks := congrArg (· + 1) h.ticks }

/-- One message comes in. -/
theorem Follows.receive (h : Follows x base filter mask d e) (msg : CanalMsg) :
    Follows x base filter mask (d.receive x msg) (e.receive x msg) := by
  have hopen : e.receive x msg = { e with
      receiveList := e.receiveList ++ [msg]
      receiveDataSem := e.receiveDataSem + 1
      stat := { e.stat with
        cntReceiveData := e.stat.cntReceiveData + msg.sizeData.toNat
        cntReceiveFrames := e.stat.cntReceiveFrames + 1 } } := by
    rw [Driver.receive, h.unfiltered, doFilter_mask_zero, if_pos rfl]
  have hsame : doFilter x d.filter d.mask msg = doFilter x filter mask msg := by
    rw [h.hasFilter, h.hasMask]
  rw [hopen, Driver.receive, hsame]
  cases hverdict : doFilter x filter mask msg with
  | true =>
      rw [if_pos rfl]
      exact { h with receiveList := by simp [h.receiveList, hverdict] }
  | false =>
      rw [if_neg (by simp)]
      exact { h with receiveList := by simp [h.receiveList, hverdict] }

theorem Follows.length_le (h : Follows x base filter mask d e) :
    d.receiveList.length ≤ base.length + e.receiveList.length := by
  rw [h.receiveList, List.length_append]
  have := List.length_filter_le (doFilter x filter mask) e.receiveList
  omega

theorem length_receive_le (d : Driver) (msg : CanalMsg) :
    d.receiveList.length ≤ (d.receive x msg).receiveList.length := by
  unfold Driver.receive
  split
  · simp
  · exact Nat.le_refl _

theorem length_receive_unfiltered (h : e.mask = 0) (msg : CanalMsg) :
    (e.receive x msg).receiveList.length = e.receiveList.length + 1 := by
  simp [Driver.receive, h, doFilter_mask_zero]

/-- Both drivers get a message if they have room for it. -/
theorem Tracks.take (h : Tracks x base filter mask d e)
    {decode : Driver → ReadProgram UInt8 Driver} (hdecode : Receives x m decode) :
    Tracks x base filter mask ((ifRoom d (decode d)).run m) ((ifRoom e (decode e)).run m) := by
  obtain ⟨clocked, msg, hrun⟩ := hdecode
  have hgrow : e.receiveList.length ≤ ((ifRoom e (decode e)).run m).receiveList.length := by
    unfold ifRoom
    split
    · rw [hrun]
      refine Nat.le_trans ?_ (length_receive_le _ _)
      cases clocked <;> exact Nat.le_refl _
    · exact Nat.le_refl _
  rcases h with h | h
  · exact .inl (h.mono hgrow)
  · cases hroom : e.hasRoom with
    | false => exact .inl (.inl (Nat.le_trans (by simpa [Driver.hasRoom] using hroom) hgrow))
    | true =>
        have hclocked : Follows x base filter mask (if clocked then d.tick else d)
            (if clocked then e.tick else e) := by
          cases clocked
          · exact h
          · exact h.tick
        have he : (ifRoom e (decode e)).run m =
            (if clocked then e.tick else e).receive x (msg e.ticks) := by
          rw [ifRoom, if_pos hroom, hrun]
        cases hroom' : d.hasRoom with
        | true =>
            rw [he, ifRoom, if_pos hroom', hrun, h.ticks]
            exact .inr (hclocked.receive _)
        | false =>
            -- the queue behind `base` is full, and one more message has come
            have hlen := h.length_le
            have hfull : CAN4VSCP_MAX_RCVMSG ≤ d.receiveList.length := by
              simpa [Driver.hasRoom] using hroom'
            have hone : ((if clocked then e.tick else e).receive x (msg e.ticks)).receiveList.length =
                e.receiveList.length + 1 := by
              rw [length_receive_unfiltered hclocked.unfiltered]
              cases clocked <;> rfl
            rw [he]
            exact .inl (.inr (by omega))

/-- Both drivers keep their queue. -/
theorem Tracks.same (h : Tracks x base filter mask d e) (hd : d.SameQueue d') (he : e.SameQueue e') :
    Tracks x base filter mask d' e' := by
  rcases h with h | h
  · exact .inl (h.mono (by rw [he.receiveList]))
  · exact .inr {
      ticks := by rw [hd.ticks, he.ticks, h.ticks]
      hasFilter := hd.filter.trans h.hasFilter
      hasMask := hd.mask.trans h.hasMask
      unfiltered := he.mask.trans h.unfiltered
      receiveList := by rw [hd.receiveList, he.receiveList, h.receiveList] }

theorem Tracks.touch (h : Tracks x base filter mask d e) :
    Tracks x base filter mask (d.touch x) (e.touch x) := by
  rcases h with h | h
  · exact .inl h
  · exact .inr { h with ticks := congrArg (· + 1) h.ticks }

theorem Tracks.overrun (h : Tracks x base filter mask d e) :
    Tracks x base filter mask d.overrun e.overrun :=
  h.same ⟨rfl, rfl, rfl, rfl⟩ ⟨rfl, rfl, rfl, rfl⟩

theorem Tracks.guardedLoop {head : Nat}
    {decode : Nat → UInt8 → Driver → ReadProgram UInt8 Driver}
    (hdecode : ∀ pos dataLen, Receives x m (decode pos dataLen)) (fuel pos left : Nat)
    (h : Tracks x base filter mask d e) :
    Tracks x base filter mask ((guardedLoop head decode fuel pos left d).run m)
      ((guardedLoop head decode fuel pos left e).run m) := by
  induction fuel generalizing pos left d e with
  | zero => exact h
  | succ fuel ih =>
      unfold Can4vscp.guardedLoop
      split
      · exact h
      · simp only [run_bind, run_get]
        split
        · exact h.overrun
        · simp only [run_bind]
          exact ih _ _ (h.take (hdecode pos _))

theorem Tracks.multiLoop (fuel pos left : Nat) (h : Tracks x base filter mask d e) :
    Tracks x base filter mask ((multiLoop x fuel pos left d).run m)
      ((multiLoop x fuel pos left e).run m) := by
  induction fuel generalizing pos left d e with
  | zero => exact h
  | succ fuel ih =>
      unfold Can4vscp.multiLoop
      split
      · exact h
      · simp only [run_bind, run_get]
        exact ih _ _ (h.take (receives_multi pos))

theorem Tracks.canalTimestampFrame (h : Tracks x base filter mask d e) :
    Tracks x base filter mask ((canalTimestampFrame x d).run m) ((canalTimestampFrame x e).run m) := by
  obtain ⟨decode, hdecode, heq⟩ := receives_canalTimestamp (x := x) (m := m)
  rw [heq, heq]
  exact h.take hdecode

theorem sameQueue_addToResponseQueue (d : Driver) :
    d.SameQueue ((addToResponseQueue x d).run m) := by
  simp only [addToResponseQueue, run_bind, run_pure]
  cases run_answerFrame x d m with
  | inl hsame =>
      rw [hsame]
      exact ⟨rfl, rfl, rfl, rfl⟩
  | inr hanswer =>
      obtain ⟨bAck, hanswer⟩ := hanswer
      rw [hanswer]
      exact ⟨rfl, rfl, rfl, rfl⟩

/-- Both drivers act on the same frame. -/
theorem Tracks.dispatch (op : UInt8) (h : Tracks x base filter mask d e) :
    Tracks x base filter mask ((dispatch x op d).run m) ((dispatch x op e).run m) := by
  refine dispatch_rel (R := fun p q => Tracks x base filter mask (p.run m) (q.run m)) op
    ?_ ?_ ?_ ?_ h.touch.canalTimestampFrame ?_ ?_ h
  · exact h.touch.same ⟨rfl, rfl, rfl, rfl⟩ ⟨rfl, rfl, rfl, rfl⟩
  · exact h.touch.same ⟨rfl, rfl, rfl, rfl⟩ ⟨rfl, rfl, rfl, rfl⟩
  · exact h.touch.same (sameQueue_addToResponseQueue _) (sameQueue_addToResponseQueue _)
  · exact h.touch.guardedLoop receives_canal _ _ _
  · exact h.touch.multiLoop _ _ _
  · exact h.touch.guardedLoop receives_multiTimestamp _ _ _

theorem Tracks.actOnReceived (rx : RxState) (h : Tracks x base filter mask d e) :
    Tracks x base filter mask (actOnReceived x d rx) (actOnReceived x e rx) := by
  simp only [Can4vscp.actOnReceived, actOnFrame, run_bind]
  split
  · simp only [run_bind]
    exact h.dispatch _
  · simp only [run_bind, run_pure]
    exact h

end

/-! ## frames -/

variable (x)

/-- What the driver would queue of a frame, without a filter and with an empty queue. -/
def unfilteredMsgs (d : Driver) (rx : RxState) : List CanalMsg :=
  (actOnReceived x { d with receiveList := [], mask := 0 } rx).receiveList

/-- The queue has room for some messages, and they are not as many as an empty
queue holds. -/
structure RoomFor (d : Driver) (ms : List CanalMsg) : Prop where
  few : ms.length < CAN4VSCP_MAX_RCVMSG
  room : d.receiveList.length + ms.length ≤ CAN4VSCP_MAX_RCVMSG

variable {x} {d : Driver} {rx : RxState}

/-- **The filter filters**: what it accepts of these messages is queued, in order. -/
theorem received_filter (hroom : RoomFor d (unfilteredMsgs x d rx)) :
    (actOnReceived x d rx).receiveList =
      d.receiveList ++ (unfilteredMsgs x d rx).filter (doFilter x d.filter d.mask) := by
  have hstart : Tracks x d.receiveList d.filter d.mask d { d with receiveList := [], mask := 0 } :=
    .inr ⟨rfl, rfl, rfl, rfl, by simp⟩
  rcases hstart.actOnReceived rx with hover | hfollows
  · have hfew := hroom.few
    have hfits := hroom.room
    unfold unfilteredMsgs at hfew hfits
    unfold Over at hover
    omega
  · exact hfollows.receiveList

end Can4vscp
