import Can4vscp.ReceiveThread
import Can4vscp.SubFrames
import Can4vscp.Lib.Machine

/-!
# Can4vscp.ReceiveAccounts

What comes out of the receive queue, and what the statistics say of it.

Four branches of `readSerialData` make messages, from bytes anybody may have sent, and each
counts what it queues.  Whatever is on the line, a message that is handed out is one the
driver could send again, with all of its data, and the counters are the number and the size
of the messages that have been handed out or wait in the queue (`receive_accounts`).

`Grows` is what a step of the receive thread does to the queue and to the counters; it is
kept by the loops, so each branch only has to be looked at for one message.
-/

namespace Can4vscp

open Memory ReadProgram

variable (x : External)

/-! ## one message -/

/-- A message as the receive thread makes it. -/
structure CanalMsg.FromLine (msg : CanalMsg) : Prop extends msg.Extended where
  length_data : msg.data.length = msg.sizeData.toNat
  flags : msg.flags = x.CANAL_IDFLAG_EXTENDED
  obid : msg.obid = 0

theorem joinBytes_lt (b0 b1 b2 b3 : UInt8) : joinBytes b0 b1 b2 b3 < 0x20000000 := by
  rw [← and_eq_self_iff, joinBytes_eq, UInt32.and_assoc, UInt32.and_self]

theorem clamp8_le (n : UInt8) : clamp8 n ≤ 8 := by
  unfold clamp8
  split
  · exact UInt8.le_refl 8
  · next h => exact UInt8.not_lt.mp h

/-- The fields every branch fills in. -/
theorem fromLine_mk {b0 b1 b2 b3 sizeData : UInt8} {data : List UInt8} (timestamp : UInt32)
    (hsize : sizeData ≤ 8) (hdata : data.length = sizeData.toNat) :
    CanalMsg.FromLine x ⟨x.CANAL_IDFLAG_EXTENDED, 0, joinBytes b0 b1 b2 b3, sizeData, data, timestamp⟩ where
  id := joinBytes_lt b0 b1 b2 b3
  sizeData := hsize
  data := Nat.le_of_eq hdata.symm
  length_data := hdata
  flags := rfl
  obid := rfl

/-! ## what a step does -/

/-- Messages of the line have been queued and counted, as long as there was room. -/
def Driver.Grows (d e : Driver) : Prop :=
  ∃ ms k, d.Received e ms k ∧ (∀ m ∈ ms, m.FromLine x) ∧
    (ms = [] ∨ e.receiveList.length ≤ CAN4VSCP_MAX_RCVMSG)

section
variable {x} {d e f : Driver} {m : Mem UInt8}

theorem Driver.Received.grows {k : Nat} (h : d.Received e [] k) : d.Grows x e :=
  ⟨[], k, h, by simp, .inl rfl⟩

theorem Driver.Grows.trans (h : d.Grows x e) (h' : e.Grows x f) : d.Grows x f := by
  obtain ⟨ms, k, hrec, hms, hroom⟩ := h
  obtain ⟨ms', k', hrec', hms', hroom'⟩ := h'
  refine ⟨ms ++ ms', k + k', hrec.trans hrec', fun m hm => ?_, ?_⟩
  · cases List.mem_append.mp hm with
    | inl hm => exact hms m hm
    | inr hm => exact hms' m hm
  · by_cases hnil : ms' = []
    · subst hnil
      rw [hrec'.receiveList, List.append_nil, List.append_nil]
      exact hroom
    · exact .inr (hroom'.resolve_left hnil)

/-- A message is decoded. -/
theorem Driver.grows_receive {msg : CanalMsg} (hroom : d.hasRoom = true) (hmsg : msg.FromLine x) :
    d.Grows x (d.receive x msg) := by
  have hlt : d.receiveList.length < CAN4VSCP_MAX_RCVMSG := by simpa [Driver.hasRoom] using hroom
  by_cases haccepts : doFilter x d.filter d.mask msg = true
  · refine ⟨[msg], 0, ?_, by simpa using hmsg, .inr ?_⟩
    · rw [Driver.receive, if_pos haccepts]
      constructor <;> simp
    · rw [Driver.receive, if_pos haccepts]
      simpa using Nat.succ_le_of_lt hlt
  · rw [Driver.receive, if_neg haccepts]
    exact (Driver.Received.refl d).grows

theorem Driver.grows_tick_receive {msg : CanalMsg} (hroom : d.hasRoom = true) (hmsg : msg.FromLine x) :
    d.Grows x (d.tick.receive x msg) := by
  have htick : d.Received d.tick [] 0 := by constructor <;> simp [Driver.tick]
  exact htick.grows.trans (Driver.grows_receive hroom hmsg)

/-! ## the branches -/

theorem grows_ifRoom {p : ReadProgram UInt8 Driver} (h : d.hasRoom = true → d.Grows x (p.run m)) :
    d.Grows x ((ifRoom d p).run m) := by
  unfold ifRoom
  by_cases hroom : d.hasRoom = true
  · rw [if_pos hroom]
    exact h hroom
  · rw [if_neg hroom]
    exact (Driver.received_overrun d).grows

/-- A decode path makes messages of the line. -/
def Makes (x : External) (m : Mem UInt8)
    (decode : Nat → UInt8 → Driver → ReadProgram UInt8 Driver) : Prop :=
  ∀ (pos : Nat) (dataLen : UInt8) (d : Driver), dataLen ≤ 8 → d.hasRoom = true →
    d.Grows x ((decode pos dataLen d).run m)

theorem makes_canal : Makes x m (canalDecode x) := by
  intro pos dataLen d hsize hroom
  simp only [canalDecode, word29, run_bind, run_get, run_getSlice, run_pure]
  exact Driver.grows_tick_receive hroom (fromLine_mk x _ hsize (length_slice _ _ _))

theorem makes_multiTimestamp : Makes x m (multiTimestampDecode x) := by
  intro pos dataLen d hsize hroom
  simp only [multiTimestampDecode, word29, run_bind, run_get, run_getSlice, run_pure, UInt32.zero_or]
  exact Driver.grows_receive hroom (fromLine_mk x _ hsize (length_slice _ _ _))

theorem grows_guardedLoop {head : Nat} {decode : Nat → UInt8 → Driver → ReadProgram UInt8 Driver}
    (hdecode : Makes x m decode) (fuel pos left : Nat) (d : Driver) :
    d.Grows x ((guardedLoop head decode fuel pos left d).run m) := by
  induction fuel generalizing pos left d with
  | zero => exact (Driver.Received.refl d).grows
  | succ fuel ih =>
      unfold guardedLoop
      by_cases hleft : left = 0
      · rw [if_pos hleft]
        exact (Driver.Received.refl d).grows
      · simp only [if_neg hleft, run_bind, run_get]
        by_cases hbig : m (pos + (head - 1)) > 8
        · rw [if_pos hbig]
          exact (Driver.received_overrun d).grows
        · rw [if_neg hbig, run_bind]
          exact (grows_ifRoom (hdecode pos _ d (UInt8.not_lt.mp hbig))).trans (ih _ _ _)

theorem grows_multiLoop (fuel pos left : Nat) (d : Driver) :
    d.Grows x ((multiLoop x fuel pos left d).run m) := by
  induction fuel generalizing pos left d with
  | zero => exact (Driver.Received.refl d).grows
  | succ fuel ih =>
      unfold multiLoop
      by_cases hleft : left = 0
      · rw [if_pos hleft]
        exact (Driver.Received.refl d).grows
      · simp only [if_neg hleft, run_bind, run_get]
        refine (grows_ifRoom fun hroom => ?_).trans (ih _ _ _)
        simp only [multiDecode, word29, run_bind, run_get, run_getSlice, run_pure, UInt32.zero_or]
        exact Driver.grows_tick_receive hroom (fromLine_mk x _ (clamp8_le _) (length_slice _ _ _))

theorem grows_canalTimestampFrame (d : Driver) : d.Grows x ((canalTimestampFrame x d).run m) := by
  refine grows_ifRoom fun hroom => ?_
  simp only [word29, run_bind, run_get, run_getSlice, run_pure, UInt32.zero_or]
  exact Driver.grows_receive hroom (fromLine_mk x _ (clamp8_le _) (length_slice _ _ _))

theorem grows_addToResponseQueue (d : Driver) : d.Grows x ((addToResponseQueue x d).run m) := by
  refine Driver.Received.grows (k := 0) ?_
  simp only [addToResponseQueue, run_bind, run_pure]
  cases run_answerFrame x d m with
  | inl hsame =>
      rw [hsame]
      constructor <;> simp [Driver.addResponse]
  | inr hanswer =>
      obtain ⟨bAck, hanswer⟩ := hanswer
      rw [hanswer]
      constructor <;> simp [Driver.addResponse, Driver.answer]

/-! ## the receive thread -/

theorem grows_dispatch (op : UInt8) (d : Driver) : d.Grows x ((dispatch x op d).run m) := by
  have htouch : d.Grows x (d.touch x) := (Driver.received_touch d).grows
  have hsent : ∀ {p : ReadProgram UInt8 Driver}, (d.touch x).Grows x (p.run m) → d.Grows x (p.run m) :=
    fun h => htouch.trans h
  refine dispatch_rel (R := fun p _ => d.Grows x (p.run m)) (e := d) op
    (hsent ?_) (hsent ?_) (hsent (grows_addToResponseQueue _)) (hsent (grows_guardedLoop makes_canal _ _ _ _))
    (hsent (grows_canalTimestampFrame _)) (hsent (grows_multiLoop _ _ _ _))
    (hsent (grows_guardedLoop makes_multiTimestamp _ _ _ _)) (Driver.Received.refl d).grows
  · refine Driver.Received.grows (k := 0) ?_
    constructor <;> simp [ackFrame, Driver.sendACK, Driver.sendMsg]
  · refine Driver.Received.grows (k := 0) ?_
    constructor <;> simp [nackFrame, Driver.sendNACK, Driver.sendMsg]

theorem grows_driverByte (s : RxState × Driver) (c : UInt8) :
    s.2.Grows x (driverByte x s c).2 := by
  unfold driverByte
  split
  · simp only [actOnReceived, actOnFrame, run_bind]
    split
    · rw [run_bind]
      exact grows_dispatch _ _
    · rw [run_bind]
      exact (Driver.Received.refl s.2).grows
  · exact (Driver.Received.refl s.2).grows

/-- One call of `readSerialData`, whatever it reads. -/
theorem grows_readSerialData (rx : RxState) (d : Driver) (input : List ReadChar) :
    d.Grows x (readSerialData x rx d input).2.1 := by
  obtain ⟨used, -, hfold⟩ := readSerialData_spec x rx d input
  have hgrows : ∀ (cs : List UInt8) (s : RxState × Driver),
      s.2.Grows x (cs.foldl (driverByte x) s).2 := by
    intro cs
    induction cs with
    | nil => exact fun s => (Driver.Received.refl s.2).grows
    | cons c cs ih => exact fun s => (grows_driverByte s c).trans (ih _)
  have hused := hgrows used (rx, d)
  rwa [hfold] at hused

end

/-! ## runs -/

namespace ReceiveAccounts

/-- The receive machine and the driver; `handedOut` is history. -/
structure State where
  rx : RxState
  driver : Driver
  handedOut : List CanalMsg

/-- A call of the receive thread or of a client. -/
inductive Act where
  -- readSerialData, with what readChar returns
  | readSerialData (input : List ReadChar)
  | readMsg
  | setFilter (filter : UInt32)
  | setMask (mask : UInt32)

/-- `open` has cleared the counters, and nothing has been received. -/
structure Init (s : State) : Prop where
  receiveList : s.driver.receiveList = []
  cntReceiveFrames : s.driver.stat.cntReceiveFrames = 0
  cntReceiveData : s.driver.stat.cntReceiveData = 0
  handedOut : s.handedOut = []

def next (a : Act) (s : State) : State :=
  match a with
  | .readSerialData input =>
    let (rx, driver, _) := readSerialData x s.rx s.driver input
    { s with rx, driver }
  | .readMsg =>
    let (driver, _, msg) := s.driver.readMsg true
    { s with driver, handedOut := s.handedOut ++ msg.toList }
  | .setFilter filter => { s with driver := { s.driver with filter } }
  | .setMask mask => { s with driver := { s.driver with mask } }

def machine : Machine State Act where
  init := Init
  next a s := some (next x a s)

/-- What a client can rely on. -/
structure Accounts (s : State) : Prop where
  frames : s.driver.stat.cntReceiveFrames = (s.handedOut ++ s.driver.receiveList).length
  data : s.driver.stat.cntReceiveData =
    ((s.handedOut ++ s.driver.receiveList).map fun m => m.sizeData.toNat).sum
  bounded : s.driver.receiveList.length ≤ CAN4VSCP_MAX_RCVMSG
  fromLine : ∀ m ∈ s.handedOut ++ s.driver.receiveList, m.FromLine x

variable {x} {s : State}

theorem Init.accounts (h : Init s) : Accounts x s where
  frames := by simp [h.cntReceiveFrames, h.handedOut, h.receiveList]
  data := by simp [h.cntReceiveData, h.handedOut, h.receiveList]
  bounded := by simp [h.receiveList]
  fromLine := by simp [h.handedOut, h.receiveList]

/-- The receive thread moves. -/
theorem Accounts.grows (h : Accounts x s) {rx : RxState} {e : Driver} (hgrows : s.driver.Grows x e) :
    Accounts x { s with rx, driver := e } := by
  obtain ⟨ms, k, hrec, hms, hroom⟩ := hgrows
  have hlist : s.handedOut ++ e.receiveList = s.handedOut ++ s.driver.receiveList ++ ms := by
    rw [hrec.receiveList, List.append_assoc]
  exact {
    frames := by
      rw [hrec.cntReceiveFrames, h.frames, hlist]
      exact List.length_append.symm
    data := by
      rw [hrec.cntReceiveData, h.data, hlist]
      simp only [List.map_append, List.sum_append]
    bounded := by
      cases hroom with
      | inl hnil =>
          rw [hrec.receiveList, hnil, List.append_nil]
          exact h.bounded
      | inr hle => exact hle
    fromLine := fun m hm => by
      rw [hlist] at hm
      cases List.mem_append.mp hm with
      | inl hm => exact h.fromLine m hm
      | inr hm => exact hms m hm }

/-- A message is handed out. -/
theorem Accounts.readMsg (h : Accounts x s) : Accounts x (next x .readMsg s) := by
  cases hlist : s.driver.receiveList with
  | nil =>
      have hread : s.driver.readMsg true = (s.driver, .fifoEmpty, none) := by
        simp [Driver.readMsg, hlist]
      simpa [next, hread] using h
  | cons m rest =>
      have hread : s.driver.readMsg true = (s.driver.takeFirst rest, .success, some m) := by
        simp [Driver.readMsg, hlist]
      have hmoved : s.handedOut ++ [m] ++ rest = s.handedOut ++ s.driver.receiveList := by
        rw [hlist, List.append_assoc, List.singleton_append]
      simp only [next, hread, Option.toList_some]
      exact {
        frames := by
          rw [Driver.takeFirst_receiveList, hmoved]
          exact h.frames
        data := by
          rw [Driver.takeFirst_receiveList, hmoved]
          exact h.data
        bounded := by
          have hbounded := h.bounded
          rw [hlist, List.length_cons] at hbounded
          rw [Driver.takeFirst_receiveList]
          omega
        fromLine := by
          rw [Driver.takeFirst_receiveList, hmoved]
          exact h.fromLine }

/-- **Nothing but whole messages, and all of them counted**: whatever is on the serial line
and however it is cut into calls, and whenever the client reads or changes the filter. -/
theorem receive_accounts (hs : (machine x).Reachable s) : Accounts x s := by
  refine hs.invariant (fun s (h : Init s) => h.accounts) fun s t a h _ hnext => ?_
  obtain rfl := Option.some.inj hnext
  cases a with
  | readSerialData input => exact h.grows (grows_readSerialData s.rx s.driver input)
  | readMsg => exact h.readMsg
  | setFilter filter => exact ⟨h.frames, h.data, h.bounded, h.fromLine⟩
  | setMask mask => exact ⟨h.frames, h.data, h.bounded, h.fromLine⟩

/-- The dlc of the first sub-frame announces more than eight bytes: a message with eight
bytes is made, and handed out. -/
theorem receive_accounts_clamped : ∃ s, Accounts .vscp s ∧
    s.handedOut.map (fun m => m.sizeData) = [8] ∧ s.driver.stat.cntReceiveData = 8 := by
  let payload : List UInt8 := [0, 0, 0, 1, 9, 1, 2, 3, 4, 5, 6, 7, 8, 9]
  let frame : Frame := ⟨7, 0, 0, 14, payload⟩
  let start : State := ⟨.new, .new, []⟩
  obtain ⟨s, hs, hp⟩ := Machine.exists_reachableWhen (M := machine .vscp) (c := fun _ _ => True)
    [.readSerialData ((frame.encode External.vscp.crc8).map ReadChar.byte), .readMsg]
    (fun s => s.handedOut.map (fun m => m.sizeData) == [8] && s.driver.stat.cntReceiveData == 8)
    (s := start) ⟨rfl, rfl, rfl, rfl⟩ (by decide +kernel)
  simp only [Bool.and_eq_true, beq_iff_eq] at hp
  exact ⟨s, receive_accounts hs, hp⟩

end ReceiveAccounts

end Can4vscp
