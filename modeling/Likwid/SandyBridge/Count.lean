import Likwid.IvyBridge

/-!
# Sandy Bridge: starting, reading and stopping

`perfmon_startCountersThread_sandybridge`, `perfmon_readCountersThread_sandybridge` and
`perfmon_stopCountersThread_sandybridge`. The macros that freeze and unfreeze a box are written as
data, a condition and a register write, and the routines expand them in four lists. The read and the
stop have a switch each.
-/

namespace Likwid

abbrev sandybridge : ℕ := 0x2A
abbrev sandybridgeEP : ℕ := 0x2D
abbrev pciImcDevice0Ch0 : PciDeviceIndex := 5
abbrev pciImcDevice0Ch1 : PciDeviceIndex := 6
abbrev pciImcDevice0Ch2 : PciDeviceIndex := 7
abbrev pciImcDevice0Ch3 : PciDeviceIndex := 8
abbrev pciUncMcPmonFixedCtl : ℕ := 0xF0
abbrev msrUncPcuPmonBoxFilter : ℕ := 0xC34

/-- The `case` labels of the Sandy Bridge switches -/
inductive SandyBridgeUnit where
  | pmc | fixed | power | thermal
  | mbox | mboxfix | sbox0 | sbox1 | sboxfix
  | cbox | ubox | uboxfix | bbox0 | wbox | wboxfix
  | rbox | pbox
  | other
deriving DecidableEq, Repr

def sandyBridgeUnit : RegisterType → SandyBridgeUnit
  | .pmc => .pmc
  | .fixed => .fixed
  | .power => .power
  | .thermal => .thermal
  | .mbox0 | .mbox1 | .mbox2 | .mbox3 => .mbox
  | .mbox0fix | .mbox1fix | .mbox2fix | .mbox3fix => .mboxfix
  | .sbox0 => .sbox0
  | .sbox1 => .sbox1
  | .sbox0fix | .sbox1fix => .sboxfix
  | .cbox0 | .cbox1 | .cbox2 | .cbox3 | .cbox4 | .cbox5 | .cbox6 | .cbox7 => .cbox
  | .ubox => .ubox
  | .uboxfix => .uboxfix
  | .bbox0 => .bbox0
  | .wbox => .wbox
  | .wbox0fix | .wbox1fix => .wboxfix
  | .rbox0 | .rbox1 => .rbox
  | .pbox => .pbox
  | _ => .other

variable (M : Machine)

/-! ## Freezing and unfreezing the boxes -/

/-- What a macro asks of the answer of `HPMcheck` -/
inductive DeviceCheck where
  | unchecked
  | absent
  | present
deriving DecidableEq, Repr

def DeviceCheck.Passes (check : DeviceCheck) (answer : Int) : Prop :=
  match check with
  | .unchecked => True
  | .absent => answer = 0
  | .present => answer ≠ 0

instance (check : DeviceCheck) (answer : Int) : Decidable (check.Passes answer) :=
  match check with
  | .unchecked => inferInstanceAs (Decidable True)
  | .absent => inferInstanceAs (Decidable (answer = 0))
  | .present => inferInstanceAs (Decidable (answer ≠ 0))

/-- The expansion of a macro: the unit the event set must use, the test of its device, and the
write -/
structure BoxWrite where
  unit : RegisterType
  check : DeviceCheck
  device : PciDeviceIndex
  register : ℕ
  value : Word

namespace BoxWrite

def run (cpu : ℕ) (mask : BitVec 128) (lock : Bool) (b : BoxWrite) : Prog Int Core Unit := do
  let c ← Prog.get
  Prog.when (lock = true ∧ hasType mask b.unit ∧ b.check.Passes (hpmCheck M c b.device cpu))
    (checkWrite M cpu b.device b.register b.value)

/-- A write to the control register of a box among the model specific registers -/
def msr (id : RegisterType) (value : Word) : BoxWrite :=
  ⟨id, .unchecked, msrDev, (M.boxMap id).ctrlRegister, value⟩

def pci (check : DeviceCheck) (id : RegisterType) (value : Word) : BoxWrite :=
  ⟨id, check, (M.boxMap id).device, (M.boxMap id).ctrlRegister, value⟩

/-- A write to the control register of the fixed counter of a memory channel -/
def mboxfix (id : RegisterType) (channel : PciDeviceIndex) (value : Word) : BoxWrite :=
  ⟨id, .present, channel, pciUncMcPmonFixedCtl, value⟩

end BoxWrite

/-- `SNB_FREEZE_BOX` -/
def snbFreezeBox (id : RegisterType) : BoxWrite := .msr M id 0x10100

/-- `SNB_FREEZE_AND_RESET_CTL_BOX` -/
def snbFreezeAndResetCtlBox (id : RegisterType) : BoxWrite := .msr M id 0x10101

/-- `SNB_FREEZE_PCI_BOX`, which asks for `HPMcheck(…) == 0` -/
def snbFreezePciBox (id : RegisterType) : BoxWrite := .pci M .absent id 0x10100

/-- `SNB_FREEZE_AND_RESET_CTL_PCI_BOX`, with the same test -/
def snbFreezeAndResetCtlPciBox (id : RegisterType) : BoxWrite := .pci M .absent id 0x10101

/-- `SNB_FREEZE_MBOXFIX` -/
def snbFreezeMboxfix : RegisterType → PciDeviceIndex → BoxWrite := fun id channel =>
  .mboxfix id channel 0

/-- `SNB_UNFREEZE_BOX` -/
def snbUnfreezeBox (id : RegisterType) : BoxWrite := .msr M id 0

/-- `SNB_UNFREEZE_AND_RESET_CTR_BOX` -/
def snbUnfreezeAndResetCtrBox (id : RegisterType) : BoxWrite := .msr M id 0x2

/-- `SNB_UNFREEZE_PCI_BOX` -/
def snbUnfreezePciBox (id : RegisterType) : BoxWrite := .pci M .present id 0

/-- `SNB_UNFREEZE_AND_RESET_CTR_PCI_BOX` -/
def snbUnfreezeAndResetCtrPciBox (id : RegisterType) : BoxWrite := .pci M .present id 0x2

/-- `SNB_UNFREEZE_MBOXFIX` -/
def snbUnfreezeMboxfix : RegisterType → PciDeviceIndex → BoxWrite := fun id channel =>
  .mboxfix id channel (bit 22)

/-- `SNB_UNFREEZE_AND_RESET_CTR_MBOXFIX` -/
def snbUnfreezeAndResetCtrMboxfix : RegisterType → PciDeviceIndex → BoxWrite := fun id channel =>
  .mboxfix id channel (bit 22 ||| bit 19)

/-- The macros of the set-up, and of a read, in front of the loop -/
def snbFreezeList : List BoxWrite :=
  [snbFreezeBox M .cbox0, snbFreezeBox M .cbox1, snbFreezeBox M .cbox2, snbFreezeBox M .cbox3,
   snbFreezeBox M .cbox4, snbFreezeBox M .cbox5, snbFreezeBox M .cbox6, snbFreezeBox M .cbox7,
   snbFreezePciBox M .mbox0, snbFreezePciBox M .mbox1,
   snbFreezePciBox M .mbox2, snbFreezePciBox M .mbox3,
   snbFreezeMboxfix .mbox0fix pciImcDevice0Ch0, snbFreezeMboxfix .mbox1fix pciImcDevice0Ch1,
   snbFreezeMboxfix .mbox2fix pciImcDevice0Ch2, snbFreezeMboxfix .mbox3fix pciImcDevice0Ch3,
   snbFreezePciBox M .sbox0, snbFreezePciBox M .sbox1,
   snbFreezePciBox M .rbox0, snbFreezePciBox M .rbox1,
   snbFreezePciBox M .pbox, snbFreezePciBox M .bbox0, snbFreezeBox M .wbox]

/-- The macros of a stop in front of the loop, which leave the fixed counters of the memory channels
out -/
def snbStopList : List BoxWrite :=
  [snbFreezeBox M .cbox0, snbFreezeBox M .cbox1, snbFreezeBox M .cbox2, snbFreezeBox M .cbox3,
   snbFreezeBox M .cbox4, snbFreezeBox M .cbox5, snbFreezeBox M .cbox6, snbFreezeBox M .cbox7,
   snbFreezePciBox M .mbox0, snbFreezePciBox M .mbox1,
   snbFreezePciBox M .mbox2, snbFreezePciBox M .mbox3,
   snbFreezeAndResetCtlPciBox M .sbox0, snbFreezeAndResetCtlPciBox M .sbox1,
   snbFreezeAndResetCtlPciBox M .rbox0, snbFreezeAndResetCtlPciBox M .rbox1,
   snbFreezeAndResetCtlPciBox M .pbox, snbFreezePciBox M .bbox0,
   snbFreezeAndResetCtlBox M .wbox]

/-- The macros of a start after the loop -/
def snbStartList : List BoxWrite :=
  [snbUnfreezeAndResetCtrBox M .cbox0, snbUnfreezeAndResetCtrBox M .cbox1,
   snbUnfreezeAndResetCtrBox M .cbox2, snbUnfreezeAndResetCtrBox M .cbox3,
   snbUnfreezeAndResetCtrBox M .cbox4, snbUnfreezeAndResetCtrBox M .cbox5,
   snbUnfreezeAndResetCtrBox M .cbox6, snbUnfreezeAndResetCtrBox M .cbox7,
   snbUnfreezeAndResetCtrPciBox M .sbox0, snbUnfreezeAndResetCtrPciBox M .sbox1,
   snbUnfreezePciBox M .mbox0, snbUnfreezePciBox M .mbox1,
   snbUnfreezePciBox M .mbox2, snbUnfreezePciBox M .mbox3,
   snbUnfreezeAndResetCtrMboxfix .mbox0fix pciImcDevice0Ch0,
   snbUnfreezeAndResetCtrMboxfix .mbox1fix pciImcDevice0Ch1,
   snbUnfreezeAndResetCtrMboxfix .mbox2fix pciImcDevice0Ch2,
   snbUnfreezeAndResetCtrMboxfix .mbox3fix pciImcDevice0Ch3,
   snbUnfreezePciBox M .bbox0, snbUnfreezeAndResetCtrBox M .wbox,
   snbUnfreezeAndResetCtrPciBox M .rbox0, snbUnfreezeAndResetCtrPciBox M .rbox1,
   snbUnfreezeAndResetCtrPciBox M .pbox]

/-- The macros of a read after the loop -/
def snbUnfreezeList : List BoxWrite :=
  [snbUnfreezeBox M .cbox0, snbUnfreezeBox M .cbox1, snbUnfreezeBox M .cbox2,
   snbUnfreezeBox M .cbox3, snbUnfreezeBox M .cbox4, snbUnfreezeBox M .cbox5,
   snbUnfreezeBox M .cbox6, snbUnfreezeBox M .cbox7,
   snbUnfreezePciBox M .mbox0, snbUnfreezePciBox M .mbox1,
   snbUnfreezePciBox M .mbox2, snbUnfreezePciBox M .mbox3,
   snbUnfreezeMboxfix .mbox0fix pciImcDevice0Ch0, snbUnfreezeMboxfix .mbox1fix pciImcDevice0Ch1,
   snbUnfreezeMboxfix .mbox2fix pciImcDevice0Ch2, snbUnfreezeMboxfix .mbox3fix pciImcDevice0Ch3,
   snbUnfreezePciBox M .sbox0, snbUnfreezePciBox M .sbox1,
   snbUnfreezePciBox M .rbox0, snbUnfreezePciBox M .rbox1,
   snbUnfreezePciBox M .pbox, snbUnfreezePciBox M .bbox0, snbUnfreezeBox M .wbox]

/-- A list of macros on the server part, and one write to a global register, by whatever thread, on
the client -/
def snbBoxes (cpu : ℕ) (mask : BitVec 128) (lock : Bool) (boxes : List BoxWrite)
    (clientRegister : ℕ) (clientValue : Word) : Prog Int Core Unit :=
  if M.model = sandybridgeEP then boxes.foldlM (fun _ b => b.run M cpu mask lock) ()
  else checkWrite M cpu msrDev clientRegister clientValue

/-! ## Start -/

/-- The switch of the start routine, with the bit it adds to the enable flags -/
def sandyBridgeStartCase (thread cpu : ℕ) (mask : BitVec 128) (lock : Bool)
    (e : PerfmonEventSetEntry) (row : RegisterMap) : SandyBridgeUnit → EventProg Word
  | .pmc => do
      Prog.onFst (checkWrite M cpu msrDev row.counterRegister 0)
      pure (intBit32 (e.index - M.perfNumFixedCtr))
  | .fixed => do
      Prog.onFst (checkWrite M cpu msrDev row.counterRegister 0)
      pure (bit (e.index + 32))
  | .power => do
      Prog.when (lock = true) do
        let (err, tmp) ← Prog.onFst (powerRead M cpu row.counterRegister)
        Prog.onFst (checkAndReturnError M err)
        Prog.onSnd (Prog.modify (·.setStart thread tmp))
      pure 0
  | .mbox | .bbox0 => do
      let p ← Prog.get
      Prog.onFst (Prog.when (lock = true ∧ hpmCheck M p.1 row.device cpu ≠ 0) do
        checkWrite M cpu row.device row.counterRegister 0
        checkWrite M cpu row.device row.counterRegister2 0)
      pure 0
  | .sbox0 | .sbox1 | .sboxfix | .cbox => do
      Prog.onFst (Prog.when (lock = true ∧ M.model = sandybridge)
        (checkWrite M cpu msrDev row.counterRegister 0))
      pure 0
  | .ubox => do
      Prog.onFst (Prog.when (lock = true) do
        let tmp ← checkRead M cpu msrDev row.configRegister
        checkWrite M cpu msrDev row.configRegister (tmp ||| (bit 22 ||| bit 17)))
      pure 0
  | .uboxfix => do
      Prog.onFst (checkWrite M cpu msrDev row.counterRegister 0)
      Prog.onFst (Prog.when (lock = true ∧ hasType mask .uboxfix) do
        let tmp ← checkRead M cpu msrDev row.configRegister
        checkWrite M cpu msrDev row.configRegister (tmp ||| bit 22))
      pure 0
  | .wbox => do
      Prog.onFst (Prog.when (lock = true) (checkWrite M cpu msrDev msrUncPcuPmonBoxFilter 0))
      pure 0
  | .wboxfix => do
      Prog.when (lock = true) do
        let tmp ← Prog.onFst (checkRead M cpu msrDev row.counterRegister)
        Prog.onSnd (Prog.modify
          (·.setStart thread (field64 tmp 0 (M.boxMap .wbox0fix).regWidth)))
      pure 0
  | .thermal | .mboxfix | .rbox | .pbox | .other => pure 0

def sandyBridgeStartEvent (thread cpu : ℕ) (mask : BitVec 128) (lock : Bool) (flags : Word) :
    EventProg Word := do
  let p ← Prog.get
  let e := p.2
  if (e.threadCounter thread).init = true ∧ hasType mask e.type then do
    let row ← counterMap M e.index
    Prog.onSnd (Prog.modify (·.clearData thread))
    let flag ← sandyBridgeStartCase M thread cpu mask lock e row (sandyBridgeUnit e.type)
    pure (flags ||| flag)
  else pure flags

def perfmonStartCountersThreadSandybridge (thread cpu : ℕ) (mask : BitVec 128)
    (numberOfEvents : ℕ) : Prog Int (Core × List Slot) Unit := do
  let p ← Prog.get
  let lock := haveLock M p.1 cpu
  let flags ← Prog.forCells (sandyBridgeStartEvent M thread cpu mask lock) numberOfEvents 0
  Prog.onFst (Prog.when (hasCore mask) do
    checkWrite M cpu msrDev msrPerfGlobalOvfCtrl 0
    checkWrite M cpu msrDev msrPerfGlobalCtrl flags)
  Prog.onFst (snbBoxes M cpu mask lock (snbStartList M) msrUncUPmonGlobalCtl (bit 29))

/-! ## Read and stop -/

/-- `SNB_READ_BOX`; `counter_result` stays as it is where the macro reads nothing. -/
def snbReadBox (cpu : ℕ) (mask : BitVec 128) (lock : Bool) (id : RegisterType) (reg : ℕ)
    (result : Word) : Prog Int Core Word :=
  if lock = true ∧ hasType mask id then checkRead M cpu msrDev reg else pure result

/-- `SNB_READ_PCI_BOX` -/
def snbReadPciBox (cpu : ℕ) (mask : BitVec 128) (lock : Bool) (id : RegisterType)
    (dev : PciDeviceIndex) (reg1 reg2 : ℕ) (result : Word) : Prog Int Core Word := do
  let c ← Prog.get
  if lock = true ∧ hasType mask id ∧ hpmCheck M c dev cpu ≠ 0 then do
    let high ← checkRead M cpu dev reg1
    let low ← checkRead M cpu dev reg2
    pure ((high <<< 32) + low)
  else pure result

/-- `SNB_CHECK_OVERFLOW` -/
def snbCheckOverflow (thread : ℕ) (result : Word) : EventProg Unit := do
  let p ← Prog.get
  Prog.when (result < (p.2.threadCounter thread).counterData)
    (Prog.onSnd (Prog.modify (·.addOverflow thread)))

/-- A core counter that shows less than before is counted, and its bit acknowledged, if the bit is
set in the status register. -/
def snbCoreCounter (thread cpu reg offset : ℕ) : EventProg Word := do
  let result ← Prog.onFst (checkRead M cpu msrDev reg)
  let p ← Prog.get
  Prog.when (result < (p.2.threadCounter thread).counterData) do
    let ovf ← Prog.onFst (checkRead M cpu msrDev msrPerfGlobalStatus)
    Prog.when (ovf &&& bit offset ≠ 0) do
      Prog.onSnd (Prog.modify (·.addOverflow thread))
      Prog.onFst (checkWrite M cpu msrDev msrPerfGlobalOvfCtrl (bit offset))
  pure result

/-- The energy counters, in both switches -/
def snbPower (thread cpu : ℕ) (lock : Bool) (reg : ℕ) : EventProg Word :=
  if lock = true then do
    let (err, result) ← Prog.onFst (powerRead M cpu reg)
    Prog.onFst (checkAndReturnError M err)
    snbCheckOverflow thread result
    pure result
  else pure 0

def snbThermal (cpu : ℕ) : EventProg Word := do
  let (err, result) ← Prog.onFst (thermalRead M cpu)
  Prog.onFst (checkAndReturnError M err)
  pure result

/-- What the rate register of a link is taken for -/
def snbLinkRate (event : PerfmonEvent) (status : Word) : Word :=
  if event.eventId = 0 then qpiRate status
  else if event.eventId = 1 then (extractBitField (status.setWidth 32) 1 4).setWidth 64
  else status

/-- The switch of the stop routine, with `counter_result` -/
def sandyBridgeStopCase (thread cpu : ℕ) (mask : BitVec 128) (lock : Bool)
    (e : PerfmonEventSetEntry) (row : RegisterMap) : SandyBridgeUnit → EventProg Word
  | .pmc => snbCoreCounter M thread cpu row.counterRegister (e.index - M.perfNumFixedCtr)
  | .fixed => snbCoreCounter M thread cpu row.counterRegister (e.index + 32)
  | .power => snbPower M thread cpu lock row.counterRegister
  | .thermal => snbThermal M cpu
  | .mbox | .mboxfix | .sbox0 | .sbox1 | .bbox0 | .rbox | .pbox => do
      let result ← Prog.onFst (snbReadPciBox M cpu mask lock e.type row.device
        row.counterRegister row.counterRegister2 0)
      snbCheckOverflow thread result
      pure result
  | .sboxfix => do
      let p ← Prog.get
      if lock = true ∧ hpmCheck M p.1 row.device cpu ≠ 0 then do
        let (_, status) ← Prog.onFst (hpmRead M cpu row.device row.counterRegister)
        pure (snbLinkRate e.event status)
      else pure 0
  | .cbox | .wbox | .wboxfix => do
      let result ← Prog.onFst (snbReadBox M cpu mask lock e.type row.counterRegister 0)
      snbCheckOverflow thread result
      pure result
  | .ubox | .uboxfix => do
      let result ← Prog.onFst (checkRead M cpu msrDev row.counterRegister)
      snbCheckOverflow thread result
      pure result
  | .other => pure 0

/-- The switch of the read routine, with `counter_result`. The case of `UBOX` and `UBOXFIX` has no
`break` and runs on into the one of `CBOX0`. -/
def sandyBridgeReadCase (thread cpu : ℕ) (mask : BitVec 128) (lock : Bool)
    (e : PerfmonEventSetEntry) (row : RegisterMap) : SandyBridgeUnit → EventProg Word
  | .pmc => snbCoreCounter M thread cpu row.counterRegister (e.index - M.perfNumFixedCtr)
  | .fixed => snbCoreCounter M thread cpu row.counterRegister (e.index + 32)
  | .thermal => snbThermal M cpu
  | .power => snbPower M thread cpu lock row.counterRegister
  | .mbox | .mboxfix | .bbox0 | .sbox0 | .sbox1 | .rbox | .pbox => do
      let result ← Prog.onFst (snbReadPciBox M cpu mask lock e.type row.device
        row.counterRegister row.counterRegister2 0)
      snbCheckOverflow thread result
      pure result
  | .ubox | .uboxfix => do
      let result ←
        if lock = true then do
          let result ← Prog.onFst (checkRead M cpu msrDev row.counterRegister)
          snbCheckOverflow thread result
          pure result
        else pure 0
      let result ← Prog.onFst (snbReadBox M cpu mask lock .cbox0 row.counterRegister result)
      snbCheckOverflow thread result
      pure result
  | .cbox | .wbox | .wboxfix => do
      let result ← Prog.onFst (snbReadBox M cpu mask lock e.type row.counterRegister 0)
      snbCheckOverflow thread result
      pure result
  | .sboxfix => do
      let (_, status) ← Prog.onFst (hpmRead M cpu row.device row.counterRegister)
      Prog.onSnd (Prog.modify (·.setStart thread 0))
      pure (snbLinkRate e.event status)
  | .other => pure 0

/-- One round of the read, or of the stop, with its switch. Neither takes the `init` flag away. -/
def sandyBridgeCountEvent (thread : ℕ) (mask : BitVec 128)
    (switch : PerfmonEventSetEntry → RegisterMap → SandyBridgeUnit → EventProg Word) (_ : Unit) :
    EventProg Unit := do
  let p ← Prog.get
  let e := p.2
  Prog.when ((e.threadCounter thread).init = true ∧ hasType mask e.type) do
    let row ← counterMap M e.index
    let result ← switch e row (sandyBridgeUnit e.type)
    Prog.onSnd (Prog.modify
      (·.setCounter thread (field64 result 0 (M.boxMap e.type).regWidth)))

def perfmonStopCountersThreadSandybridge (thread cpu : ℕ) (mask : BitVec 128)
    (numberOfEvents : ℕ) : Prog Int (Core × List Slot) Unit := do
  let p ← Prog.get
  let lock := haveLock M p.1 cpu
  Prog.onFst do
    Prog.when (hasCore mask) (checkWrite M cpu msrDev msrPerfGlobalCtrl 0)
    snbBoxes M cpu mask lock (snbStopList M) msrUncorePerfGlobalCtrl (bit 31)
  Prog.forCells (sandyBridgeCountEvent M thread mask
    (sandyBridgeStopCase M thread cpu mask lock)) numberOfEvents ()

def perfmonReadCountersThreadSandybridge (thread cpu : ℕ) (mask : BitVec 128)
    (numberOfEvents : ℕ) : Prog Int (Core × List Slot) Unit := do
  let p ← Prog.get
  let lock := haveLock M p.1 cpu
  let flags ← Prog.onFst do
    let flags ← pauseCore M cpu mask
    snbBoxes M cpu mask lock (snbFreezeList M) msrUncorePerfGlobalCtrl (bit 31)
    pure flags
  Prog.forCells (sandyBridgeCountEvent M thread mask
    (sandyBridgeReadCase M thread cpu mask lock)) numberOfEvents ()
  Prog.onFst do
    snbBoxes M cpu mask lock (snbUnfreezeList M) msrUncorePerfGlobalCtrl (bit 29)
    Prog.when (hasCore mask) (checkWrite M cpu msrDev msrPerfGlobalCtrl flags)

end Likwid
