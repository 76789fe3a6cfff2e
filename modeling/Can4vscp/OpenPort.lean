import Can4vscp.Handshake
import Can4vscp.Lib.CString

/-!
# Can4vscp.OpenPort

The serial port that is opened (`CCan4VSCPObj::open`, `nextConfigToken`,
`CCan4VSCPObj::OpenSerialInterface`).

`open` takes the configured port from its copy of the configuration string, and
`OpenSerialInterface` opens a port of its own.  `port_opened_iff` says for which strings
that is the same.
-/

namespace Can4vscp.OpenPort

open CString Memory

/-! ## the configuration string -/

def PATH_MAX : Nat := 4096

/-- `MAX_PATH`, which is `PATH_MAX` on Windows. -/
def MAX_PATH : Nat := 260

/-- `';'` -/
def semicolon : UInt8 := 59

/-- The token at the cursor, the buffer with its separator cut, and the next cursor. -/
def nextConfigToken (limit : Nat) (m : Mem UInt8) :
    Option Nat → Option Nat × Mem UInt8 × Option Nat
  | none => (none, m, none)
  | some pToken =>
    match (strchr semicolon (limit - pToken) pToken).run m with
    | some pSep => (some pToken, store m pSep 0, some (pSep + 1))
    | none => (some pToken, m, none)

/-- The fields of a configuration string, as `open` finds them; a missing one is empty. -/
structure Tokens where
  port : List UInt8
  baud : List UInt8
  udp : List UInt8
  syslog : List UInt8
  deriving DecidableEq, Repr

/-- The tokens of the buffer `szDrvParams`; none of them is changed after it has been
returned. -/
def tokens (limit : Nat) (m : Mem UInt8) : Tokens :=
  let (port, m, pCursor) := nextConfigToken limit m (some 0)
  let port := port.elim [] (stringAt limit m)
  let (baud, m, pCursor) := nextConfigToken limit m pCursor
  let baud := baud.elim [] (stringAt limit m)
  let (udp, m, pCursor) := nextConfigToken limit m pCursor
  let udp := udp.elim [] (stringAt limit m)
  let (syslog, m, _) := nextConfigToken limit m pCursor
  ⟨port, baud, udp, syslog.elim [] (stringAt limit m)⟩

/-! ## the serial port -/

def CAN4VSCP_FLAG_ENABLE_HARDWARE_HANDSHAKE : UInt32 := 0x00000020

/-- The calls on `m_com`. -/
inductive ComCall where
  | open (device : List UInt8)
  | setParam (hardware : Bool)
  | init (port : Int) (hardware : Bool)
  deriving DecidableEq, Repr

/-- The members of `CCan4VSCPObj` the port is opened with; `fd` is `m_com.getFD()`. -/
structure Obj where
  bRun : Bool
  initFlag : UInt32
  nBaud : UInt8
  pdeviceName : List UInt8
  fd : Nat
  deriving DecidableEq, Repr

def defaultDevice : List UInt8 := ascii "/dev/ttyUSB0"

/-- The constructor. -/
def Obj.new : Obj := ⟨false, 0, Handshake.SET_BAUDRATE_115200, defaultDevice, 0⟩

def Obj.hardware (o : Obj) : Bool := o.initFlag &&& CAN4VSCP_FLAG_ENABLE_HARDWARE_HANDSHAKE ≠ 0

/-- `OpenSerialInterface` on POSIX; `opens` is what `m_com.open` returns. -/
def OpenSerialInterface (opens : Bool) (o : Obj) : CanalError × List ComCall :=
  let szDrvParams := ascii "/dev/ttyUSB0"
  if o.fd ≠ 0 then (.success, [])
  else if opens then (.success, [.open szDrvParams, .setParam o.hardware])
  else (.initFail, [.open szDrvParams])

/-- `OpenSerialInterface` on Windows; `inits` is what `m_com.init` returns. -/
def OpenSerialInterfaceWindows (inits : Bool) (o : Obj) : CanalError × List ComCall :=
  let nComPort : Int := 1
  if inits then (.success, [.init nComPort o.hardware])
  else (.initFail, [.init nComPort o.hardware])

/-! ## opening -/

/-- What `open` sets before it looks whether the driver is running. -/
def Obj.begin (o : Obj) (flags : UInt32) : Obj :=
  { o with nBaud := Handshake.SET_BAUDRATE_115200, initFlag := flags }

/-- The baud rate code of the second field. -/
def baudField (field : List UInt8) : UInt8 :=
  Handshake.baudCode (if field = [] then none else some (atoi field))

variable (stack : Mem UInt8) (limit : Nat)

/-- `szDrvParams`, on a stack with any contents. -/
def szDrvParams (size : Nat) (config : List UInt8) : Mem UInt8 :=
  strncpy (storeAll stack 0 (List.replicate size 0)) config size

/-- `open` on POSIX, up to the end of `OpenSerialInterface`. -/
def openPosix (opens : Bool) (pConfig : Option (List UInt8)) (flags : UInt32) (o : Obj) :
    Obj × CanalError × List ComCall :=
  let o := o.begin flags
  if o.bRun then (o, .success, [])
  else
    let t := tokens limit (szDrvParams stack PATH_MAX (pConfig.getD (ascii "/dev/ttyUSB0;0")))
    let o := { o with
      pdeviceName := if t.port = [] then o.pdeviceName else t.port
      nBaud := baudField t.baud }
    (o, OpenSerialInterface opens o)

/-- The local `nComPort` of `open` on Windows. -/
def nComPort (port : List UInt8) : Int :=
  match strstr (ascii "COM") port with
  | some p => atoi (p.drop 3)
  | none => 1

/-- `open` on Windows, up to the end of `OpenSerialInterface`, with its local
`nComPort`. -/
def openWindows (inits : Bool) (pConfig : Option (List UInt8)) (flags : UInt32) (o : Obj) :
    Int × Obj × CanalError × List ComCall :=
  let o := o.begin flags
  if o.bRun then (1, o, .success, [])
  else
    let t := tokens limit
      (strupr limit (szDrvParams stack MAX_PATH (pConfig.getD (ascii "COM1;0"))) 0)
    let o := { o with nBaud := baudField t.baud }
    (nComPort t.port, o, OpenSerialInterfaceWindows inits o)

/-! ## the first field -/

/-- The first field of a configuration string. -/
def firstField (s : List UInt8) : List UInt8 := s.takeWhile (· ≠ semicolon)

variable {stack} {limit} {s : List UInt8}

/-! ## the configured port -/

/-- The device a configuration string names. -/
def configuredDevice (s : List UInt8) : List UInt8 :=
  if firstField s = [] then defaultDevice else firstField s

/-- The number after COM in the first field of a configuration string. -/
def comNumber (s : List UInt8) : Option Int :=
  (strstr (ascii "COM") (firstField (s.map toupper))).bind fun p => number? (p.drop 3)

/-! ## the port that is opened -/

/-- The devices passed to `m_com.open`. -/
def devices (calls : List ComCall) : List (List UInt8) :=
  calls.filterMap fun
    | .open device => some device
    | _ => none

/-- The ports passed to `m_com.init`. -/
def ports (calls : List ComCall) : List Int :=
  calls.filterMap fun
    | .init port _ => some port
    | _ => none

/-- A driver that is not running, with the serial channel closed. -/
def Obj.Closed (o : Obj) : Prop := o.bRun = false ∧ o.fd = 0

instance (o : Obj) : Decidable o.Closed := inferInstanceAs (Decidable (_ ∧ _))

theorem devices_openPosix {o : Obj} (h : o.Closed) (opens : Bool) (pConfig : Option (List UInt8))
    (flags : UInt32) :
    devices (openPosix stack limit opens pConfig flags o).2.2 = [defaultDevice] := by
  obtain ⟨hrun, hfd⟩ := h
  cases opens <;>
    simp [openPosix, Obj.begin, hrun, OpenSerialInterface, hfd, devices, defaultDevice]

theorem ports_openWindows {o : Obj} (hrun : o.bRun = false) (inits : Bool)
    (pConfig : Option (List UInt8)) (flags : UInt32) :
    ports (openWindows stack limit inits pConfig flags o).2.2.2 = [1] := by
  cases inits <;> simp [openWindows, Obj.begin, hrun, OpenSerialInterfaceWindows, ports]

theorem configuredDevice_eq_iff :
    defaultDevice = configuredDevice s ↔ firstField s = [] ∨ firstField s = defaultDevice := by
  unfold configuredDevice
  split
  next hempty => simp [hempty]
  next hfield => simp [hfield, eq_comm]

/-- **The port that is opened is the configured one** only if that is the default: on POSIX
exactly if the first field is empty or names /dev/ttyUSB0, on Windows exactly if it has no
number after COM, or has 1 there.  And two objects with different first fields open the
same device. -/
theorem port_opened_iff (o o' : Obj) (ho : o.Closed) (ho' : o'.Closed) (stack stack' : Mem UInt8)
    (limit limit' : Nat) (opens opens' : Bool) (flags flags' : UInt32) :
    (∀ s, devices (openPosix stack limit opens (some s) flags o).2.2 = [configuredDevice s] ↔
      firstField s = [] ∨ firstField s = defaultDevice) ∧
    (∀ s, ports (openWindows stack limit opens (some s) flags o).2.2.2 = [(comNumber s).getD 1] ↔
      ∀ n, comNumber s = some n → n = 1) ∧
    ∀ s s', firstField s ≠ [] → firstField s' ≠ [] →
      ((firstField s ≠ firstField s' →
          devices (openPosix stack limit opens (some s) flags o).2.2 ≠
            devices (openPosix stack' limit' opens' (some s') flags' o').2.2) ↔
        firstField s = firstField s') := by
  refine ⟨fun s => ?_, fun s => ?_, fun s s' _ _ => ?_⟩
  · rw [devices_openPosix ho, List.singleton_inj, configuredDevice_eq_iff]
  · rw [ports_openWindows ho.1, List.singleton_inj]
    cases comNumber s <;> simp [eq_comm]
  · rw [devices_openPosix ho, devices_openPosix ho']
    simp

/-- Two serial ports. -/
def twoPorts : List UInt8 × List UInt8 := (ascii "/dev/ttyUSB0;0", ascii "/dev/ttyS1;0")

theorem port_opened_iff_twoPorts :
    (devices (openPosix (fun _ => 0) PATH_MAX true (some twoPorts.1) 0 Obj.new).2.2 =
        [configuredDevice twoPorts.1] ↔
      firstField twoPorts.1 = [] ∨ firstField twoPorts.1 = defaultDevice) ∧
    ((firstField twoPorts.1 ≠ firstField twoPorts.2 →
        devices (openPosix (fun _ => 0) PATH_MAX true (some twoPorts.1) 0 Obj.new).2.2 ≠
          devices (openPosix (fun _ => 0) PATH_MAX true (some twoPorts.2) 0 Obj.new).2.2) ↔
      firstField twoPorts.1 = firstField twoPorts.2) :=
  have h := port_opened_iff Obj.new Obj.new (by decide) (by decide) (fun _ => 0) (fun _ => 0)
    PATH_MAX PATH_MAX true true 0 0
  ⟨h.1 twoPorts.1, h.2.2 twoPorts.1 twoPorts.2 (by decide) (by decide)⟩

/-- The object that is to open /dev/ttyS1 opens /dev/ttyUSB0, like the one that is to. -/
theorem other_port_opened :
    Obj.new.Closed ∧ configuredDevice twoPorts.2 = ascii "/dev/ttyS1" ∧
      devices (openPosix (fun _ => 0) PATH_MAX true (some twoPorts.2) 0 Obj.new).2.2 =
        [ascii "/dev/ttyUSB0"] ∧
      devices (openPosix (fun _ => 0) PATH_MAX true (some twoPorts.1) 0 Obj.new).2.2 =
        [ascii "/dev/ttyUSB0"] :=
  ⟨by decide, by decide, devices_openPosix (by decide) _ _ _, devices_openPosix (by decide) _ _ _⟩

end Can4vscp.OpenPort
