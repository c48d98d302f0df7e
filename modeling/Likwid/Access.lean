import Likwid.Lib.Prog
import Likwid.PerfmonTypes

/-!
# The machine and its register access layer

`Machine` is everything the library reads and never writes: the
architecture tables, the topology and what the hardware answers. Each
register access has a number (its position in the trace), and the machine
says for each number whether the access fails, which value a read delivers
and what `errno` is afterwards. Nothing is assumed of these answers, so a
result about every machine is a result about every pattern of failing
accesses.

`Core` is the state the backends share: the registers, `currentConfig`, the
CPUs registered with the access layer, the socket and tile locks, and the
trace of all accesses made, which no routine looks into.

Doubles are exact rationals rounded by `Machine.fl` after each operation.
-/

namespace Likwid

/-! ## Error codes -/

abbrev einval : Int := 22
abbrev enoent : Int := 2
abbrev eio : Int := 5
abbrev efault : Int := 14
abbrev enodev : Int := 19
abbrev erange : Int := 34

/-! ## Machine -/

structure Machine extends Tables where
  /-- `lock_check`: no other user has locked the counters. -/
  lockCheck : Bool
  family : ℕ
  eventHash : List PerfmonEvent
  /-- `cpuid_info.model` -/
  model : ℕ
  perfNumFixedCtr : ℕ
  numHWThreads : ℕ
  core2node : ℕ → ℕ
  thread2tile : ℕ → ℕ
  hasRAPL : Bool
  /-- `power_info.domains[i].supportFlags & POWER_DOMAIN_SUPPORT_STATUS` -/
  powerStatus : ℕ → Bool
  energyUnit : ℕ → ℚ
  /-- `thermal_info.activationT - thermal_info.offset` -/
  activationT : BitVec 32
  baseline : Word
  cpuClock : Word
  /-- The error code of a register read, by access number, device, CPU and
  register, and (given what the register holds) the value delivered. -/
  accessRead : ℕ → PciDeviceIndex → ℕ → ℕ → Int
  accessData : ℕ → PciDeviceIndex → ℕ → ℕ → Word → Word
  accessWrite : ℕ → PciDeviceIndex → ℕ → ℕ → Word → Int
  accessInit : ℕ → Int
  accessCheck : PciDeviceIndex → ℕ → Int
  errno : ℕ → ℕ
  /-- What `malloc` leaves in the entry of an event and in the state and timer of
  a group. -/
  mallocIndex : ℕ → ℕ → RegisterIndex
  mallocEvent : ℕ → ℕ → PerfmonEvent
  mallocGroup : ℕ → GroupState × TimerData
  /-- The `n`-th reading of the time stamp counter. -/
  tsc : ℕ → Word
  /-- Rounding to a `double`. -/
  fl : ℚ → ℚ

/-! ## Shared state -/

inductive AccessKind where
  | read
  | write
deriving DecidableEq, Repr

/-- A register access as the caller of `HPMread` or `HPMwrite` sees it: the
value read or written and the error code. -/
structure Access where
  kind : AccessKind
  cpu : ℕ
  dev : PciDeviceIndex
  reg : ℕ
  data : Word
  err : Int
deriving DecidableEq, Repr

/-- What the function pointer `haswell_cbox_setup` may hold. -/
inductive CboxSetup where
  | has
  | hasep
deriving DecidableEq, Repr

structure Core where
  /-- By owner (a CPU for `MSR_DEV`, a socket else), device and number. -/
  regs : ℕ → PciDeviceIndex → ℕ → Word
  currentConfig : ℕ → RegisterIndex → Word
  registeredCpuList : ℕ → Bool
  socketLock : ℕ → Int
  tileLock : ℕ → Int
  haswellCboxSetup : Option CboxSetup
  /-- All accesses so far, the last one first. -/
  trace : List Access

def Core.setReg (c : Core) (owner : ℕ) (dev : PciDeviceIndex) (reg : ℕ) (v : Word) : Core :=
  { c with regs := fun owner' dev' reg' =>
      if owner' = owner ∧ dev' = dev ∧ reg' = reg then v else c.regs owner' dev' reg' }

def Core.setConfig (c : Core) (cpu : ℕ) (index : RegisterIndex) (v : Word) : Core :=
  { c with currentConfig := fun cpu' index' =>
      if cpu' = cpu ∧ index' = index then v else c.currentConfig cpu' index' }

def Core.log (c : Core) (a : Access) : Core := { c with trace := a :: c.trace }

section CoreLemmas

variable (c : Core) (cpu : ℕ) (dev : PciDeviceIndex) (reg : ℕ) (v : Word) (a : Access)
  (index : RegisterIndex)

@[simp] theorem Core.setReg_regs : (c.setReg cpu dev reg v).regs = fun owner' dev' reg' =>
    if owner' = cpu ∧ dev' = dev ∧ reg' = reg then v else c.regs owner' dev' reg' := rfl

@[simp] theorem Core.setReg_currentConfig :
    (c.setReg cpu dev reg v).currentConfig = c.currentConfig := rfl

@[simp] theorem Core.setReg_trace : (c.setReg cpu dev reg v).trace = c.trace := rfl

@[simp] theorem Core.setConfig_regs : (c.setConfig cpu index v).regs = c.regs := rfl

@[simp] theorem Core.setConfig_currentConfig :
    (c.setConfig cpu index v).currentConfig = fun cpu' index' =>
      if cpu' = cpu ∧ index' = index then v else c.currentConfig cpu' index' := rfl

@[simp] theorem Core.setConfig_trace : (c.setConfig cpu index v).trace = c.trace := rfl

@[simp] theorem Core.log_regs : (c.log a).regs = c.regs := rfl

@[simp] theorem Core.log_currentConfig : (c.log a).currentConfig = c.currentConfig := rfl

@[simp] theorem Core.log_trace : (c.log a).trace = a :: c.trace := rfl

end CoreLemmas

/-- What a register of device `dev` holds after `data` was written to it: PCI
configuration registers take the low 32 bits. -/
def stored (dev : PciDeviceIndex) (data : Word) : Word :=
  if dev = msrDev then data else (data.setWidth 32).setWidth 64

/-! ## `access.c` -/

variable (M : Machine)

/-- Whose registers an access reaches: those of the CPU, or the PCI devices of
its socket. -/
def regOwner (cpu : ℕ) (dev : PciDeviceIndex) : ℕ :=
  if dev = msrDev then cpu else M.core2node cpu

/-- What `HPMread` answers: the error code and `*data`. -/
def readAnswer (c : Core) (cpu : ℕ) (dev : PciDeviceIndex) (reg : ℕ) : Int × Word :=
  if maxNumPciDevices ≤ dev then (-efault, 0)
  else if M.numHWThreads ≤ cpu then (-erange, 0)
  else if c.registeredCpuList cpu = false then (-enodev, 0)
  else (M.accessRead c.trace.length dev cpu reg,
    M.accessData c.trace.length dev cpu reg (c.regs (regOwner M cpu dev) dev reg))

def hpmRead {ρ : Type} (cpu : ℕ) (dev : PciDeviceIndex) (reg : ℕ) :
    Prog ρ Core (Int × Word) := fun c =>
  let answer := readAnswer M c cpu dev reg
  .done answer (c.log ⟨.read, cpu, dev, reg, answer.2, answer.1⟩)

/-- What `HPMwrite` returns. -/
def writeError (c : Core) (cpu : ℕ) (dev : PciDeviceIndex) (reg : ℕ) (data : Word) : Int :=
  if maxNumPciDevices ≤ dev then -efault
  else if M.numHWThreads ≤ cpu then -erange
  else if c.registeredCpuList cpu = false then -enodev
  else M.accessWrite c.trace.length dev cpu reg data

/-- `HPMwrite`: a write that returns 0 has changed the register. -/
def hpmWrite {ρ : Type} (cpu : ℕ) (dev : PciDeviceIndex) (reg : ℕ) (data : Word) :
    Prog ρ Core Int := fun c =>
  let err := writeError M c cpu dev reg data
  .done err ((if err = 0 then c.setReg (regOwner M cpu dev) dev reg (stored dev data) else c).log
    ⟨.write, cpu, dev, reg, data, err⟩)

/-- `HPMcheck`; callers take any non-zero value as "present". -/
def hpmCheck (c : Core) (dev : PciDeviceIndex) (cpu : ℕ) : Int :=
  if c.registeredCpuList cpu = false then -enodev else M.accessCheck dev cpu

/-! ## `error.h` -/

/-- `CHECK_AND_RETURN_ERROR`: leave the routine with `errno` when `err < 0`. -/
def checkAndReturnError (err : Int) : Prog Int Core Unit := do
  let c ← Prog.get
  Prog.when (err < 0) (Prog.ret (M.errno c.trace.length : Int))

/-- `CHECK_MSR_READ_ERROR(HPMread(…))` and `CHECK_PCI_READ_ERROR(HPMread(…))` -/
def checkRead (cpu : ℕ) (dev : PciDeviceIndex) (reg : ℕ) : Prog Int Core Word := do
  let (err, data) ← hpmRead M cpu dev reg
  checkAndReturnError M err
  pure data

/-- `CHECK_MSR_WRITE_ERROR(HPMwrite(…))` and `CHECK_PCI_WRITE_ERROR(HPMwrite(…))` -/
def checkWrite (cpu : ℕ) (dev : PciDeviceIndex) (reg : ℕ) (data : Word) :
    Prog Int Core Unit := do
  let err ← hpmWrite M cpu dev reg data
  checkAndReturnError M err

/-- `currentConfig[cpu_id][index] = flags` -/
def saveConfig {ρ : Type} (cpu : ℕ) (index : RegisterIndex) (flags : Word) :
    Prog ρ Core Unit :=
  Prog.modify fun c => c.setConfig cpu index flags

/-- `socket_lock[affinity_core2node_lookup[cpu_id]] == cpu_id` -/
def haveLock (c : Core) (cpu : ℕ) : Bool := c.socketLock (M.core2node cpu) = cpu

/-! ## `power.h` and `thermal.h` -/

/-- `power_regs` -/
def powerRegs : List ℕ :=
  [msrPkgEnergyStatus, msrPp0EnergyStatus, msrPp1EnergyStatus, msrDramEnergyStatus]

/-- `power_read`: returns 0 with the low 32 bits of the register in `*data`,
`errno` when the register read fails, or a negative error code. An unknown
register reads `power_info.domains[-1]`. -/
def powerRead {ρ : Type} (cpu : ℕ) (reg : ℕ) : Prog ρ Core (Int × Word) :=
  if M.hasRAPL then
    match powerRegs.findIdx? (· = reg) with
    | some type =>
        if M.powerStatus type then do
          let (err, result) ← hpmRead M cpu msrDev reg
          let c ← Prog.get
          if err < 0 then pure ((M.errno c.trace.length : Int), 0)
          else pure (0, field64 result 0 32)
        else pure (-efault, 0)
    | none => Prog.halt .undefined
  else pure (-eio, 0)

/-- `thermal_read` -/
def thermalRead {ρ : Type} (cpu : ℕ) : Prog ρ Core (Int × Word) := do
  let (err, result) ← hpmRead M cpu msrDev ia32ThermStatus
  if err ≠ 0 then pure (-eio, 0)
  else
    let readout := extractBitField (result.setWidth 32) 7 16
    pure (0, ((if readout = 0 then M.activationT else M.activationT - readout).setWidth 64))

end Likwid
