import Likwid.Nehalem

/-!
# Ivy Bridge: starting, reading and stopping

`perfmon_startCountersThread_ivybridge`, `perfmon_readCountersThread_ivybridge` and
`perfmon_stopCountersThread_ivybridge`, with the helpers for the uncore. The read and the stop are
two copies of one switch. The copy in the stop clears the uncore counters, takes the device of a
core counter from the table and takes the `init` flag away, and the one in the read resets
`startData` of a link's rate.
-/

namespace Likwid

abbrev ivybridgeEP : ℕ := 0x3E
abbrev msrUncUPmonGlobalCtl : ℕ := 0xC00
abbrev msrUncUPmonGlobalStatus : ℕ := 0xC01

/-- The `case` labels of the Ivy Bridge switches -/
inductive IvyBridgeUnit where
  | pmc | fixed | power | thermal
  | sboxfix | mbox | mboxfix | ibox1 | uncore
  | other
deriving DecidableEq, Repr

def ivyBridgeUnit : RegisterType → IvyBridgeUnit
  | .pmc => .pmc
  | .fixed => .fixed
  | .power => .power
  | .thermal => .thermal
  | .sbox0fix | .sbox1fix | .sbox2fix => .sboxfix
  | .mbox0 | .mbox1 | .mbox2 | .mbox3 | .mbox4 | .mbox5 | .mbox6 | .mbox7 => .mbox
  | .mbox0fix | .mbox1fix | .mbox2fix | .mbox3fix | .mbox4fix | .mbox5fix
  | .mbox6fix | .mbox7fix => .mboxfix
  | .ibox1 => .ibox1
  | .sbox0 | .sbox1 | .sbox2
  | .cbox0 | .cbox1 | .cbox2 | .cbox3 | .cbox4 | .cbox5 | .cbox6 | .cbox7 | .cbox8
  | .cbox9 | .cbox10 | .cbox11 | .cbox12 | .cbox13 | .cbox14
  | .ubox | .uboxfix | .bbox0 | .bbox1 | .wbox | .pbox
  | .rbox0 | .rbox1 | .rbox2 | .ibox0 => .uncore
  | _ => .other

/-- `FREEZE_FLAG_ONLYFREEZE`, `FREEZE_FLAG_CLEAR_CTR` and `FREEZE_FLAG_CLEAR_CTL` -/
inductive FreezeFlag where
  | onlyFreeze
  | clearCtr
  | clearCtl
deriving DecidableEq, Repr

def FreezeFlag.word : FreezeFlag → Word
  | .onlyFreeze => 0
  | .clearCtr => bit 1
  | .clearCtl => bit 0

/-- The units from `UNCORE` to before `NUM_UNITS` -/
def uncoreUnits : List RegisterType :=
  [.uncore, .mbox0, .mbox1, .mbox2, .mbox3, .mbox4, .mbox5, .mbox6, .mbox7,
   .mbox0fix, .mbox1fix, .mbox2fix, .mbox3fix, .mbox4fix, .mbox5fix, .mbox6fix, .mbox7fix,
   .bbox0, .bbox1, .rbox0, .rbox1, .rbox2, .wbox, .wbox0fix, .wbox1fix,
   .sbox0, .sbox1, .sbox2, .sbox3, .sbox0fix, .sbox1fix, .sbox2fix, .sbox3fix,
   .cbox0, .cbox1, .cbox2, .cbox3, .cbox4, .cbox5, .cbox6, .cbox7, .cbox8, .cbox9, .cbox10,
   .cbox11, .cbox12, .cbox13, .cbox14, .cbox15, .cbox16, .cbox17, .pbox, .ubox, .uboxfix,
   .ibox0, .ibox1, .qbox0, .qbox1, .qbox0fix, .qbox1fix]

variable (M : Machine)

/-! ## The uncore -/

/-- `freeze_reg`, and `unfreeze_reg` -/
def ivbFreezeReg : ℕ :=
  if M.model = ivybridgeEP then msrUncUPmonGlobalCtl else msrUncorePerfGlobalCtrl

def ivbOvfReg : ℕ :=
  if M.model = ivybridgeEP then msrUncUPmonGlobalStatus else msrUncorePerfGlobalOvfCtrl

/-- The loop over the units, which writes the flags to the control registers of their boxes -/
def ivbClearBoxes (cpu : ℕ) (mask : BitVec 128) (flags : FreezeFlag) : Prog Int Core Unit :=
  uncoreUnits.foldlM (fun _ unit =>
    let box := M.boxMap unit
    Prog.when (hasType mask unit ∧ box.ctrlRegister ≠ 0)
      (checkWrite M cpu (if box.isPci = true then box.device else msrDev) box.ctrlRegister
        flags.word)) ()

def ivbUncoreFreeze (cpu : ℕ) (mask : BitVec 128) (flags : FreezeFlag) : Prog Int Core Unit := do
  requireLock M cpu
  Prog.when (hasUncoreNehalem mask) (checkWrite M cpu msrDev (ivbFreezeReg M) (bit 31))
  Prog.when (flags ≠ .onlyFreeze ∧ hasUncoreNehalem mask) (ivbClearBoxes M cpu mask flags)

def ivbUncoreUnfreeze (cpu : ℕ) (mask : BitVec 128) (flags : FreezeFlag) :
    Prog Int Core Unit := do
  requireLock M cpu
  Prog.when (flags ≠ .onlyFreeze ∧ hasUncoreNehalem mask) (ivbClearBoxes M cpu mask flags)
  Prog.when (hasUncoreNehalem mask) do
    checkWrite M cpu msrDev (ivbOvfReg M) 0
    checkWrite M cpu msrDev (ivbFreezeReg M) (bit 29)

/-- A call whose error code is dropped -/
def ignoring {ρ σ : Type} (m : Prog Int σ Unit) : Prog ρ σ Unit := do
  let _ ← Prog.call (0 : Int) m
  pure ()

/-- `ivb_uncore_read`, with the value it returns and the codes it leaves with -/
def ivbUncoreRead (cpu : ℕ) (index : RegisterIndex) (clear : Bool) : Prog Int Core Word := do
  let row ← counterMap M index
  requireLock M cpu
  let c ← Prog.get
  Prog.when ((M.boxMap row.type).isPci = true ∧ hpmCheck M c row.device cpu = 0) (Prog.ret 0)
  let tmp ← checkRead M cpu row.device row.counterRegister
  Prog.when (clear = true) (checkWrite M cpu row.device row.counterRegister 0)
  if row.counterRegister2 ≠ 0 then do
    let low ← checkRead M cpu row.device row.counterRegister2
    Prog.when (clear = true) (checkWrite M cpu row.device row.counterRegister2 0)
    pure ((tmp <<< 32) + (low &&& 0xFFFFFFFF))
  else pure tmp

/-- The routine returns an error code where it returns a count. -/
def countOrCode {ρ : Type} (m : Prog Int Core Word) : Prog ρ Core Word := fun c =>
  match m c with
  | .done result c' => .done result c'
  | .ret code c' => .done (BitVec.ofInt 64 code) c'
  | .halt k => .halt k

/-- `ivybridge_box_map[type].isPci`: this is the client's table, in which no unit is a PCI device,
on the server part too. -/
def ivybridgeIsPci (_ : RegisterType) : Bool := false

/-- `test_local` -/
def ivbTestLocal (cpu : ℕ) (globalOffset : Int) : Prog Int Core Bool :=
  if globalOffset ≠ -1 then do
    let ovf ← checkRead M cpu msrDev msrUncUPmonGlobalStatus
    if ovf &&& intBit32 globalOffset.toNat ≠ 0 then do
      checkWrite M cpu msrDev msrUncUPmonGlobalStatus (intBit32 globalOffset.toNat)
      pure true
    else pure false
  else pure true

def ivbUncoreOverflow (thread cpu : ℕ) (index : RegisterIndex) (result curResult : Word)
    (globalOffset : Int) (boxOffset : ℕ) : EventProg Unit := do
  let row ← counterMap M index
  let dev := if ivybridgeIsPci row.type = true then row.device else msrDev
  let status := (M.boxMap row.type).statusRegister
  Prog.when (result < curResult) do
    let testLocal ← Prog.onFst (ivbTestLocal M cpu globalOffset)
    Prog.when (testLocal = true) do
      let ovf ← Prog.onFst (checkRead M cpu dev status)
      Prog.when (ovf &&& intBit32 boxOffset ≠ 0) do
        Prog.onSnd (Prog.modify (·.addOverflow thread))
        Prog.onFst (checkWrite M cpu dev status (intBit32 boxOffset))

/-! ## Start -/

/-- The switch of the start routine, with the bit it adds to the enable flags -/
def ivyBridgeStartCase (thread cpu : ℕ) (lock : Bool) (e : PerfmonEventSetEntry)
    (row : RegisterMap) : IvyBridgeUnit → EventProg Word
  | .pmc => do
      Prog.onFst (checkWrite M cpu msrDev row.counterRegister 0)
      pure (bit (e.index - M.perfNumFixedCtr))
  | .fixed => do
      Prog.onFst (checkWrite M cpu msrDev row.counterRegister 0)
      pure (bit (e.index + 32))
  | .power => do
      Prog.when (lock = true) do
        let (err, tmp) ← Prog.onFst (powerRead M cpu row.counterRegister)
        Prog.onFst (checkAndReturnError M err)
        Prog.onSnd (Prog.modify
          (·.setStart thread (field64 tmp 0 (M.boxMap e.type).regWidth)))
      pure 0
  | _ => pure 0

def ivyBridgeStartEvent (thread cpu : ℕ) (mask : BitVec 128) (lock : Bool) (flags : Word) :
    EventProg Word := do
  let p ← Prog.get
  let e := p.2
  if (e.threadCounter thread).init = true ∧ hasType mask e.type then do
    let row ← counterMap M e.index
    Prog.onSnd (Prog.modify (·.clearData thread))
    let flag ← ivyBridgeStartCase M thread cpu lock e row (ivyBridgeUnit e.type)
    pure (flags ||| flag)
  else pure flags

def perfmonStartCountersThreadIvybridge (thread cpu : ℕ) (mask : BitVec 128)
    (numberOfEvents : ℕ) : Prog Int (Core × List Slot) Unit := do
  let p ← Prog.get
  let lock := haveLock M p.1 cpu
  let flags ← Prog.forCells (ivyBridgeStartEvent M thread cpu mask lock) numberOfEvents 0
  Prog.onFst do
    ignoring (ivbUncoreUnfreeze M cpu mask .clearCtr)
    Prog.when (hasCore mask) do
      checkWrite M cpu msrDev msrPerfGlobalCtrl flags
      checkWrite M cpu msrDev msrPerfGlobalOvfCtrl ((bit 63 ||| bit 62) ||| flags)

/-! ## Read and stop -/

/-- A core counter that shows less than before is counted if bit `offset` of the status register is
set. -/
def ivbCoreCounter (thread cpu : ℕ) (dev : PciDeviceIndex) (reg offset : ℕ) : EventProg Word := do
  let result ← Prog.onFst (checkRead M cpu dev reg)
  let p ← Prog.get
  Prog.when (result < (p.2.threadCounter thread).counterData) do
    let ovf ← Prog.onFst (checkRead M cpu dev msrPerfGlobalStatus)
    Prog.when (ovf &&& intBit32 offset ≠ 0) (Prog.onSnd (Prog.modify (·.addOverflow thread)))
  pure result

/-- The switch of the read routine (`stop` off) and of the stop routine (`stop` on), with
`counter_result` -/
def ivyBridgeCountCase (thread cpu : ℕ) (mask : BitVec 128) (lock stop : Bool)
    (e : PerfmonEventSetEntry) (row : RegisterMap) : IvyBridgeUnit → EventProg Word
  | .pmc =>
      ivbCoreCounter M thread cpu (if stop = true then row.device else msrDev)
        row.counterRegister (e.index - M.perfNumFixedCtr)
  | .fixed =>
      ivbCoreCounter M thread cpu (if stop = true then row.device else msrDev)
        row.counterRegister (e.index + 32)
  | .power =>
      if lock = true ∧ hasType mask .power then do
        let (err, result) ← Prog.onFst (powerRead M cpu row.counterRegister)
        Prog.onFst (checkAndReturnError M err)
        let p ← Prog.get
        Prog.when (result < (p.2.threadCounter thread).counterData)
          (Prog.onSnd (Prog.modify (·.addOverflow thread)))
        pure result
      else pure 0
  | .thermal => do
      let (err, result) ← Prog.onFst (thermalRead M cpu)
      Prog.onFst (checkAndReturnError M err)
      pure result
  | .sboxfix => do
      let p ← Prog.get
      if lock = true ∧ hpmCheck M p.1 row.device cpu ≠ 0 then do
        let status ← Prog.onFst (checkRead M cpu row.device row.counterRegister)
        Prog.when (stop = false) (Prog.onSnd (Prog.modify (·.setStart thread 0)))
        pure (qpiRate status)
      else pure 0
  | .mbox => uncore (M.boxMap e.type).ovflOffset (getCounterTypeOffset M e.index + 1)
  | .mboxfix => uncore (M.boxMap e.type).ovflOffset 0
  | .ibox1 => uncore (-1) (getCounterTypeOffset M e.index + 2)
  | .uncore => uncore (M.boxMap e.type).ovflOffset (getCounterTypeOffset M e.index)
  | .other => pure 0
where
  /-- `ivb_uncore_read`, and `ivb_uncore_overflow`, whose return value the switch drops -/
  uncore (globalOffset : Int) (boxOffset : ℕ) : EventProg Word := do
    let result ← Prog.onFst (countOrCode (ivbUncoreRead M cpu e.index stop))
    let p ← Prog.get
    ignoring (ivbUncoreOverflow M thread cpu e.index result
      (p.2.threadCounter thread).counterData globalOffset boxOffset)
    pure result

/-- One round of the loop. The `continue` for a type outside the mask skips the line of the stop
routine that clears `init`. -/
def ivyBridgeCountEvent (thread cpu : ℕ) (mask : BitVec 128) (lock stop : Bool) (_ : Unit) :
    EventProg Unit := do
  let p ← Prog.get
  let e := p.2
  Prog.when ((e.threadCounter thread).init = true ∧ hasType mask e.type) do
    let row ← counterMap M e.index
    let result ← ivyBridgeCountCase M thread cpu mask lock stop e row (ivyBridgeUnit e.type)
    Prog.onSnd (Prog.modify
      (·.setCounter thread (field64 result 0 (M.boxMap e.type).regWidth)))
  Prog.when (stop = true ∧ ¬((e.threadCounter thread).init = true ∧ ¬hasType mask e.type))
    (Prog.onSnd (Prog.modify (·.setInit thread false)))

def perfmonStopCountersThreadIvybridge (thread cpu : ℕ) (mask : BitVec 128)
    (numberOfEvents : ℕ) : Prog Int (Core × List Slot) Unit := do
  let p ← Prog.get
  let lock := haveLock M p.1 cpu
  Prog.onFst do
    Prog.when (hasCore mask) (checkWrite M cpu msrDev msrPerfGlobalCtrl 0)
    ignoring (ivbUncoreFreeze M cpu mask .clearCtl)
  Prog.forCells (ivyBridgeCountEvent M thread cpu mask lock true) numberOfEvents ()

def perfmonReadCountersThreadIvybridge (thread cpu : ℕ) (mask : BitVec 128)
    (numberOfEvents : ℕ) : Prog Int (Core × List Slot) Unit := do
  let p ← Prog.get
  let lock := haveLock M p.1 cpu
  let flags ← Prog.onFst do
    let flags ← pauseCore M cpu mask
    ignoring (ivbUncoreFreeze M cpu mask .onlyFreeze)
    pure flags
  Prog.forCells (ivyBridgeCountEvent M thread cpu mask lock false) numberOfEvents ()
  Prog.onFst do
    ignoring (ivbUncoreUnfreeze M cpu mask .onlyFreeze)
    Prog.when (hasCore mask) (checkWrite M cpu msrDev msrPerfGlobalCtrl flags)

end Likwid
