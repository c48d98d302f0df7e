import Likwid.Lib.Prog
import Likwid.Registers

/-!
# The access daemon

One daemon serves one connection: it reads a record, makes the access and writes
the record back (`serve`). What the kernel does with a device file is `DeviceFiles`.
A descriptor is known by the place in its table it is stored at, whose file it
was opened on (`Fd`); the accesses that reached a register are kept in a ghost
trace, `touched`.
-/

namespace Likwid

/-! ## Device files -/

abbrev maxNumThreads : ℕ := 263
abbrev maxNumNodes : ℕ := 64

/-- `/dev/cpu/<cpu>/msr` (or `/dev/msr<cpu>`), and a file below `/proc/bus/pci/`. -/
inductive DeviceFile where
  | msr (cpu : ℕ)
  | pci (path : String)
deriving DecidableEq, Repr

/-- What the kernel answers: `open(file, O_RDWR)`, `pread` and `pwrite` of `w` bits
at an offset, and the `rdpmc` instruction on a CPU. `uninit` is what an
uninitialised variable holds. -/
structure DeviceFiles where
  opens : DeviceFile → Bool
  pread : (w : ℕ) → DeviceFile → ℕ → Option (BitVec w)
  pwrite : (w : ℕ) → DeviceFile → ℕ → BitVec w → Bool
  rdpmc : ℕ → ℕ → Word
  uninit : BitVec 32

/-- An entry of a descriptor table: `-2`, negative after a failed `open`, `0` for
a device file not opened yet, and open. -/
inductive Fd where
  | absent
  | failed
  | unopened
  | opened
deriving DecidableEq, Repr

/-- An access that reached a register of a device file. -/
inductive Touch where
  | read (file : DeviceFile) (reg : ℕ) (data : Word)
  | write (file : DeviceFile) (reg : ℕ) (data : Word)
deriving DecidableEq, Repr

/-! ## Records -/

/-- A client may send a value that the enumeration does not name. -/
inductive AccessType where
  | daemonRead
  | daemonWrite
  | daemonCheck
  | daemonExit
  | other (code : ℕ)
deriving DecidableEq, Repr

inductive AccessErrorType where
  | noError
  | unknown
  | restReg
  | openFail
  | rwFail
  | daemonBusy
  | noDev
deriving DecidableEq, Repr

/-- The client leaves `errorcode` unset, the daemon sets it. -/
structure AccessDataRecord where
  cpu : ℕ
  reg : ℕ := 0
  data : Word := 0
  device : PciDeviceIndex
  type : AccessType
  errorcode : AccessErrorType := .noError
deriving DecidableEq, Repr

/-! ## The daemon -/

inductive PciDeviceType where
  | noDevType
  | r3Qpi
  | r2Pcie
  | imc
  | ha
  | qpi
  | irp
deriving DecidableEq, Repr

structure PciDevice where
  type : PciDeviceType
  path : Option String
deriving DecidableEq, Repr

/-- What the daemon determines when it starts. -/
structure DaemonSetup where
  allowed : ℕ → Bool
  allowedPci : Option (PciDeviceType → ℕ → Bool)
  socketBus : ℕ → Option String
  pciDevicesDaemon : Option (PciDeviceIndex → PciDevice)

structure Daemon where
  fdMsr : ℕ → Fd
  fdPci : ℕ → PciDeviceIndex → Fd
  touched : List Touch := []

/-- Keep an access in the trace. -/
def Daemon.touch (d : Daemon) (t : Touch) : Daemon := { d with touched := t :: d.touched }

/-- `FD_PCI[socketId][device] = fd` -/
def Daemon.setFdPci (d : Daemon) (socketId : ℕ) (device : PciDeviceIndex) (fd : Fd) : Daemon :=
  { d with fdPci := fun i j => if i = socketId ∧ j = device then fd else d.fdPci i j }

abbrev DaemonProg (α : Type) : Type := Prog AccessDataRecord Daemon α

section Daemon

variable (files : DeviceFiles) (setup : DaemonSetup)

/-- The function pointer `allowed` is set for every processor supported. -/
def msrRead (dRecord : AccessDataRecord) : DaemonProg Unit := do
  let cpu := dRecord.cpu
  let reg := dRecord.reg
  let d ← Prog.get
  Prog.when (maxNumThreads ≤ cpu) (Prog.halt .outOfBounds)
  Prog.when (d.fdMsr cpu ≠ .opened) (Prog.ret { dRecord with errorcode := .noDev, data := 0 })
  Prog.when (!setup.allowed reg) (Prog.ret { dRecord with errorcode := .restReg, data := 0 })
  match files.pread 64 (.msr cpu) reg with
  | none => Prog.ret { dRecord with errorcode := .rwFail, data := 0 }
  | some data =>
      Prog.modify (·.touch (.read (.msr cpu) reg data))
      Prog.ret { dRecord with errorcode := .noError, data := data }

def msrWrite (dRecord : AccessDataRecord) : DaemonProg Unit := do
  let cpu := dRecord.cpu
  let reg := dRecord.reg
  let data := dRecord.data
  let d ← Prog.get
  Prog.when (maxNumThreads ≤ cpu) (Prog.halt .outOfBounds)
  Prog.when (d.fdMsr cpu ≠ .opened) (Prog.ret { dRecord with errorcode := .noDev })
  Prog.when (!setup.allowed reg) (Prog.ret { dRecord with errorcode := .restReg })
  Prog.when (!files.pwrite 64 (.msr cpu) reg data) (Prog.ret { dRecord with errorcode := .rwFail })
  Prog.modify (·.touch (.write (.msr cpu) reg data))
  Prog.ret { dRecord with errorcode := .noError }

/-- Here `0` passes, as `-1` does not. -/
def msrCheck (dRecord : AccessDataRecord) : DaemonProg Unit := do
  let cpu := dRecord.cpu
  let d ← Prog.get
  Prog.when (maxNumThreads ≤ cpu) (Prog.halt .outOfBounds)
  Prog.when (d.fdMsr cpu = .absent ∨ d.fdMsr cpu = .failed)
    (Prog.ret { dRecord with errorcode := .noDev })
  Prog.ret { dRecord with errorcode := .noError }

/-- `PCI_ROOT_PATH` -/
def pciRootPath : String := "/proc/bus/pci/"

/-- The device file of a PCI device of a socket; the daemon dereferences the bus
name, the device table and the path. -/
def DaemonSetup.pciFilepath (socketId : ℕ) (device : PciDeviceIndex) : Option DeviceFile := do
  let bus ← setup.socketBus socketId
  let devices ← setup.pciDevicesDaemon
  let path ← (devices device).path
  return .pci (pciRootPath ++ bus ++ path)

/-- The allow list is consulted where there is one. -/
def checkAllowedPci (dRecord : AccessDataRecord) : DaemonProg Unit :=
  match setup.allowedPci with
  | some allowedPci => do
      let devices ← Prog.orUndefined setup.pciDevicesDaemon
      Prog.when (!allowedPci (devices dRecord.device).type dRecord.reg)
        (Prog.ret { dRecord with errorcode := .restReg })
  | none => pure ()

/-- What `pci_read` and `pci_write` do before the access: look the device and the
register up and open the device file on first use. `dRecord` is the record of
an early reply. -/
def pciOpen (dRecord : AccessDataRecord) : DaemonProg Unit := do
  let socketId := dRecord.cpu
  let device := dRecord.device
  let d ← Prog.get
  Prog.when (maxNumNodes ≤ socketId ∨ maxNumPciDevices ≤ device) (Prog.halt .outOfBounds)
  Prog.when (d.fdPci socketId device = .absent) (Prog.ret { dRecord with errorcode := .noDev })
  checkAllowedPci setup dRecord
  Prog.when (d.fdPci socketId device = .unopened) (do
    let file ← Prog.orUndefined (setup.pciFilepath socketId device)
    Prog.when (!files.opens file) (do
      Prog.modify (·.setFdPci socketId device .failed)
      Prog.ret { dRecord with errorcode := .openFail })
    Prog.modify (·.setFdPci socketId device .opened))

/-- Where the descriptor is negative after a failed `open`, the reply carries an
uninitialised variable and no error. -/
def pciRead (dRecord : AccessDataRecord) : DaemonProg Unit := do
  let socketId := dRecord.cpu
  let reg := dRecord.reg
  let device := dRecord.device
  pciOpen files setup { dRecord with data := 0 }
  let d ← Prog.get
  Prog.when (d.fdPci socketId device ≠ .opened)
    (Prog.ret { dRecord with errorcode := .noError, data := files.uninit.setWidth 64 })
  let file ← Prog.orUndefined (setup.pciFilepath socketId device)
  match files.pread 32 file reg with
  | none => Prog.ret { dRecord with errorcode := .rwFail, data := 0 }
  | some data =>
      Prog.modify (·.touch (.read file reg (data.setWidth 64)))
      Prog.ret { dRecord with errorcode := .noError, data := data.setWidth 64 }

/-- Where the descriptor is negative after a failed `open`, nothing is written
and no error reported. -/
def pciWrite (dRecord : AccessDataRecord) : DaemonProg Unit := do
  let socketId := dRecord.cpu
  let reg := dRecord.reg
  let device := dRecord.device
  let data : BitVec 32 := dRecord.data.setWidth 32
  pciOpen files setup dRecord
  let d ← Prog.get
  Prog.when (d.fdPci socketId device ≠ .opened) (Prog.ret { dRecord with errorcode := .noError })
  let file ← Prog.orUndefined (setup.pciFilepath socketId device)
  Prog.when (!files.pwrite 32 file reg data) (Prog.ret { dRecord with errorcode := .rwFail })
  Prog.modify (·.touch (.write file reg (data.setWidth 64)))
  Prog.ret { dRecord with errorcode := .noError }

def pciCheck (dRecord : AccessDataRecord) : DaemonProg Unit := do
  let socketId := dRecord.cpu
  let device := dRecord.device
  let d ← Prog.get
  Prog.when (maxNumNodes ≤ socketId ∨ maxNumPciDevices ≤ device) (Prog.halt .outOfBounds)
  Prog.when (d.fdPci socketId device = .absent) (Prog.ret { dRecord with errorcode := .noDev })
  Prog.ret { dRecord with errorcode := .noError }

/-- The body of the request loop in `main`: the reply to a record. -/
def serve (dRecord : AccessDataRecord) : DaemonProg AccessDataRecord :=
  match dRecord.type with
  | .daemonRead =>
      if dRecord.device = msrDev then Prog.call dRecord (msrRead files setup dRecord)
      else Prog.call dRecord (pciRead files setup dRecord)
  | .daemonWrite => do
      let reply ← if dRecord.device = msrDev then Prog.call dRecord (msrWrite files setup dRecord)
        else Prog.call dRecord (pciWrite files setup dRecord)
      return { reply with data := 0 }
  | .daemonCheck =>
      if dRecord.device = msrDev then Prog.call dRecord (msrCheck dRecord)
      else Prog.call dRecord (pciCheck dRecord)
  | .daemonExit => Prog.halt .exited
  | .other _ => return { dRecord with errorcode := .unknown }

end Daemon

/-! ## The start of the daemon -/

/-- The allow list and the device table of a CPU model for which `isPCIUncore` is
set. -/
structure PciSupport where
  allowedPci : PciDeviceType → ℕ → Bool
  pciDevices : PciDeviceIndex → PciDevice

/-- What `main` finds out about the machine; `buses` is what `getBusFromSocket`
answers, socket by socket. The tables are large enough for both. -/
structure DaemonHost where
  numHWThreads : ℕ
  numHWThreads_le : numHWThreads ≤ maxNumThreads
  allowed : ℕ → Bool
  pci : Option PciSupport
  buses : List String
  buses_le : buses.length ≤ maxNumNodes

/-- Without PCI uncore support the bus names stay `NULL`. -/
def DaemonHost.setup (host : DaemonHost) : DaemonSetup where
  allowed := host.allowed
  allowedPci := host.pci.map (·.allowedPci)
  socketBus := fun socket =>
    if host.pci.isSome ∧ socket < maxNumNodes then some (host.buses[socket]?.getD "N-A") else none
  pciDevicesDaemon := host.pci.map (·.pciDevices)

/-- The descriptor tables before the first request. Without PCI uncore support
`FD_PCI` keeps the zeros it starts with. -/
def DaemonHost.start (host : DaemonHost) (files : DeviceFiles) : Daemon where
  fdMsr := fun i =>
    if i < host.numHWThreads then if files.opens (.msr i) then .opened else .failed
    else .unopened
  fdPci := fun socket device =>
    if host.pci.isNone then .unopened
    else if socket < host.buses.length ∧ 1 ≤ device ∧ device < maxNumPciDevices ∧
        (host.setup.pciFilepath socket device).any files.opens then .unopened
    else .absent

end Likwid
