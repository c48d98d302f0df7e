import Likwid.Haswell.Setup

/-!
# Haswell: starting, reading and stopping

`perfmon_startCountersThread_haswell`, `perfmon_readCountersThread_haswell`,
`perfmon_stopCountersThread_haswell`, `perfmon_finalizeCountersThread_haswell`
and `perfmon_init_haswell`. Reading and stopping share one switch; a stop also
clears the uncore counters it reads and takes the `init` flag away.
-/

namespace Likwid

variable (M : Machine)

/-- A routine on one event: the shared state and the event's entry. -/
abbrev EventProg (α : Type) : Type := Prog Int (Core × PerfmonEventSetEntry) α

/-! ## Start -/

/-- The switch of the start routine, with the bit it adds to the enable flags. -/
def haswellStartCase (thread cpu : ℕ) (lock : Bool) (e : PerfmonEventSetEntry)
    (row : RegisterMap) : HaswellUnit → EventProg Word
  | .pmc => do
      Prog.onFst (checkWrite M cpu row.device row.counterRegister 0)
      pure (bit (e.index - M.perfNumFixedCtr))
  | .fixed => do
      Prog.onFst (checkWrite M cpu row.device row.counterRegister 0)
      pure (bit (e.index + 32))
  | .power => do
      Prog.when (lock = true) do
        let (err, tmp) ← Prog.onFst (powerRead M cpu row.counterRegister)
        Prog.onFst (checkAndReturnError M err)
        Prog.onSnd (Prog.modify
          (·.setStart thread (field64 tmp 0 (M.boxMap e.type).regWidth)))
      pure 0
  | .wbox0fix => do
      Prog.when (lock = true) do
        let tmp ← Prog.onFst (checkRead M cpu row.device row.counterRegister)
        Prog.onSnd (Prog.modify
          (·.setStart thread (field64 tmp 0 (M.boxMap e.type).regWidth)))
      pure 0
  | .qboxfix => do
      let p ← Prog.get
      Prog.when (lock = true ∧ hpmCheck M p.1 row.device cpu ≠ 0 ∧ e.event.eventId ≠ 0) do
        let tmp ← Prog.onFst (checkRead M cpu row.device row.counterRegister)
        Prog.onSnd (Prog.modify
          (·.setStart thread (field64 tmp 0 (M.boxMap e.type).regWidth)))
      pure 0
  | _ => pure 0

/-- One round of the event loop; the loop variable is the enable flags. -/
def haswellStartEvent (thread cpu : ℕ) (mask : BitVec 128) (lock : Bool) (flags : Word) :
    EventProg Word := do
  let p ← Prog.get
  let e := p.2
  if (e.threadCounter thread).init = true ∧ hasType mask e.type then do
    let row ← counterMap M e.index
    Prog.onSnd (Prog.modify (·.clearData thread))
    let flag ← haswellStartCase M thread cpu lock e row (haswellUnit e.type)
    pure (flags ||| flag)
  else pure flags

/-- `eventSet->events[index].type = NOTYPE`, with the index of a register where
that of an event is meant. -/
def markNotype (index : RegisterIndex) : Prog Int (Core × List Slot) Unit := fun p =>
  if index < p.2.length then
    .done () (p.1, p.2.modify index (Option.map fun e => { e with type := .notype }))
  else .halt .outOfBounds

/-- The body of the loop in `HASEP_UNFREEZE_UNCORE_AND_RESET_CTR`. -/
def hasepResetCtr (cpu : ℕ) (i : ℕ) : Prog Int (Core × List Slot) Unit := do
  let p ← Prog.get
  let e ← Prog.orOutOfBounds p.2[i]?.join
  let row ← counterMap M e.index
  Prog.when (RegisterType.uncore.toNat ≤ row.type.toNat ∧ row.type ≠ .wbox0fix ∧
      hpmCheck M p.1 row.device cpu ≠ 0) do
    let err ← Prog.onFst (hpmWrite M cpu row.device row.counterRegister 0)
    if err ≠ 0 then markNotype e.index
    else Prog.when (row.counterRegister2 ≠ 0) do
      let err ← Prog.onFst (hpmWrite M cpu row.device row.counterRegister2 0)
      Prog.when (err ≠ 0) (markNotype e.index)

/-- `HASEP_UNFREEZE_UNCORE_AND_RESET_CTR` -/
def hasepUnfreezeUncoreAndResetCtr (cpu : ℕ) (mask : BitVec 128) (numberOfEvents : ℕ)
    (lock : Bool) : Prog Int (Core × List Slot) Unit :=
  Prog.when (lock = true ∧ hasUncore mask) do
    (List.range numberOfEvents).foldlM (fun _ i => hasepResetCtr M cpu i) ()
    Prog.onFst (hasepUnfreezeUncore M cpu mask lock)

def perfmonStartCountersThreadHaswell (thread cpu : ℕ) (mask : BitVec 128)
    (numberOfEvents : ℕ) : Prog Int (Core × List Slot) Unit := do
  let p ← Prog.get
  let lock := haveLock M p.1 cpu
  let flags ← Prog.forCells (haswellStartEvent M thread cpu mask lock) numberOfEvents 0
  hasepUnfreezeUncoreAndResetCtr M cpu mask numberOfEvents lock
  Prog.when (hasCore mask) do
    Prog.onFst (checkWrite M cpu msrDev msrPerfGlobalOvfCtrl ((bit 63 ||| bit 62) ||| flags))
    Prog.onFst (checkWrite M cpu msrDev msrPerfGlobalCtrl flags)

/-! ## Read and stop -/

/-- `HASEP_CHECK_CORE_OVERFLOW` -/
def hasepCheckCoreOverflow (thread cpu offset : ℕ) (result : Word) : EventProg Unit := do
  let p ← Prog.get
  Prog.when (result < (p.2.threadCounter thread).counterData) do
    let ovf ← Prog.onFst (checkRead M cpu msrDev msrPerfGlobalStatus)
    Prog.when (ovf &&& bit offset ≠ 0) (Prog.onSnd (Prog.modify (·.addOverflow thread)))
    Prog.onFst (checkWrite M cpu msrDev msrPerfGlobalOvfCtrl (bit offset))

/-- The counter of an uncore unit, in one register or in two halves. -/
def uncoreCounter (cpu : ℕ) (row : RegisterMap) (clear : Bool) : Prog Int Core Word := do
  let result ← checkRead M cpu row.device row.counterRegister
  Prog.when (clear = true) (checkWrite M cpu row.device row.counterRegister 0)
  if row.counterRegister2 ≠ 0 then do
    let tmp ← checkRead M cpu row.device row.counterRegister2
    Prog.when (clear = true) (checkWrite M cpu row.device row.counterRegister2 0)
    pure ((result <<< 32) + tmp)
  else pure result

/-- Whether the box's own status register is to be looked at. -/
def uncoreGlobalOverflow (cpu : ℕ) (type : RegisterType) : Prog Int Core Bool :=
  let offset := (M.boxMap type).ovflOffset
  if offset ≠ -1 then do
    let ovf ← checkRead M cpu msrDev msrUncV3UPmonGlobalStatus
    if ovf &&& intBit offset.toNat ≠ 0 then do
      checkWrite M cpu msrDev msrUncV3UPmonGlobalStatus (intBit offset.toNat)
      pure true
    else pure false
  else pure true

def hasUncoreRead (thread cpu : ℕ) (index : RegisterIndex) (clear : Bool) (boxOffset : ℕ) :
    EventProg Unit := do
  let row ← counterMap M index
  Prog.onFst (requireLock M cpu)
  let counter ← Prog.onFst (uncoreCounter M cpu row clear)
  let result := field64 counter 0 (M.boxMap row.type).regWidth
  let p ← Prog.get
  Prog.when (result < (p.2.threadCounter thread).counterData) do
    let testLocal ← Prog.onFst (uncoreGlobalOverflow M cpu row.type)
    Prog.when (testLocal = true) do
      let status := (M.boxMap row.type).statusRegister
      let ovf ← Prog.onFst (checkRead M cpu row.device status)
      Prog.when (ovf &&& intBit boxOffset ≠ 0) do
        Prog.onSnd (Prog.modify (·.addOverflow thread))
        Prog.onFst (checkWrite M cpu row.device status (intBit boxOffset))
  Prog.onSnd (Prog.modify (·.setCounter thread result))

/-- The rate a QPI link reports, in transfers per second. -/
def qpiRate (status : Word) : Word :=
  match (extractBitField (status.setWidth 32) 3 0).toNat with
  | 2 => 5600000000
  | 3 => 6400000000
  | 4 => 7200000000
  | 5 => 8000000000
  | 6 => 8800000000
  | 7 => 9600000000
  | _ => 0

/-- The sample of a counter that wraps unseen by the hardware: a value below
the previous one is an overflow. -/
def sampleCounter (thread : ℕ) (result stored : Word) : EventProg Unit := do
  let p ← Prog.get
  Prog.when (result < (p.2.threadCounter thread).counterData)
    (Prog.onSnd (Prog.modify (·.addOverflow thread)))
  Prog.onSnd (Prog.modify (·.setCounter thread stored))

/-- The switch of the read routine (`clear` off) and of the stop routine
(`clear` on). -/
def haswellCountCase (thread cpu : ℕ) (mask : BitVec 128) (lock clear : Bool)
    (e : PerfmonEventSetEntry) (row : RegisterMap) : HaswellUnit → EventProg Unit
  | .pmc => do
      let result ← Prog.onFst (checkRead M cpu msrDev row.counterRegister)
      hasepCheckCoreOverflow M thread cpu (e.index - M.perfNumFixedCtr) result
      Prog.onSnd (Prog.modify
        (·.setCounter thread (field64 result 0 (M.boxMap e.type).regWidth)))
  | .fixed => do
      let result ← Prog.onFst (checkRead M cpu msrDev row.counterRegister)
      hasepCheckCoreOverflow M thread cpu (e.index + 32) result
      Prog.onSnd (Prog.modify
        (·.setCounter thread (field64 result 0 (M.boxMap e.type).regWidth)))
  | .power =>
      Prog.when (lock = true ∧ hasType mask .power) do
        let (err, result) ← Prog.onFst (powerRead M cpu row.counterRegister)
        Prog.onFst (checkAndReturnError M err)
        sampleCounter thread result (field64 result 0 (M.boxMap e.type).regWidth)
  | .thermal => do
      let (err, result) ← Prog.onFst (thermalRead M cpu)
      Prog.onFst (checkAndReturnError M err)
      Prog.onSnd (Prog.modify
        (·.setCounter thread (field64 result 0 (M.boxMap e.type).regWidth)))
  | .wbox0fix =>
      Prog.when (lock = true) do
        let result ← Prog.onFst (checkRead M cpu msrDev row.counterRegister)
        sampleCounter thread result result
  | .mbox => uncore (getCounterTypeOffset M e.index + 1)
  | .mboxfix => uncore 0
  | .ibox1 => uncore (getCounterTypeOffset M e.index + 2)
  | .pbox | .ibox0 | .rbox | .qbox0 | .qbox1 | .wbox | .sbox | .ubox | .uboxfix | .cbox
  | .bbox => uncore (getCounterTypeOffset M e.index)
  | .qboxfix => do
      let result ←
        if e.event.eventId = 0 then do
          let (_, status) ← Prog.onFst (hpmRead M cpu row.device row.counterRegister)
          pure (qpiRate status)
        else if e.event.eventId = 1 ∨ e.event.eventId = 2 then do
          let (_, status) ← Prog.onFst (hpmRead M cpu row.device row.counterRegister)
          pure (field64 status 0 (M.boxMap e.type).regWidth)
        else pure 0
      Prog.onSnd (Prog.modify (·.setCounter thread result))
  | .other => pure ()
where
  /-- `has_uncore_read`, whose return value the switch drops. -/
  uncore (boxOffset : ℕ) : EventProg Unit := do
    let _ ← Prog.call (0 : Int) (hasUncoreRead M thread cpu e.index clear boxOffset)
    pure ()

def haswellReadEvent (thread cpu : ℕ) (mask : BitVec 128) (lock : Bool) (_ : Unit) :
    EventProg Unit := do
  let p ← Prog.get
  let e := p.2
  Prog.when ((e.threadCounter thread).init = true ∧ hasType mask e.type) do
    let row ← counterMap M e.index
    haswellCountCase M thread cpu mask lock false e row (haswellUnit e.type)

/-- One round of the stop loop. The `continue` for a type outside the mask
skips the line that clears `init`. -/
def haswellStopEvent (thread cpu : ℕ) (mask : BitVec 128) (lock : Bool) (_ : Unit) :
    EventProg Unit := do
  let p ← Prog.get
  let e := p.2
  Prog.when ((e.threadCounter thread).init = true ∧ hasType mask e.type) do
    let row ← counterMap M e.index
    haswellCountCase M thread cpu mask lock true e row (haswellUnit e.type)
  Prog.when (¬((e.threadCounter thread).init = true ∧ ¬hasType mask e.type))
    (Prog.onSnd (Prog.modify (·.setInit thread false)))

def perfmonStopCountersThreadHaswell (thread cpu : ℕ) (mask : BitVec 128)
    (numberOfEvents : ℕ) : Prog Int (Core × List Slot) Unit := do
  let p ← Prog.get
  let lock := haveLock M p.1 cpu
  Prog.when (hasCore mask) (Prog.onFst (checkWrite M cpu msrDev msrPerfGlobalCtrl 0))
  Prog.onFst (hasepFreezeUncore M cpu mask lock)
  Prog.forCells (haswellStopEvent M thread cpu mask lock) numberOfEvents ()

/-- Save and clear the enable flags of the core counters around a read. -/
def pauseCore (cpu : ℕ) (mask : BitVec 128) : Prog Int Core Word :=
  if hasCore mask then do
    let flags ← checkRead M cpu msrDev msrPerfGlobalCtrl
    checkWrite M cpu msrDev msrPerfGlobalCtrl 0
    pure flags
  else pure 0

def perfmonReadCountersThreadHaswell (thread cpu : ℕ) (mask : BitVec 128)
    (numberOfEvents : ℕ) : Prog Int (Core × List Slot) Unit := do
  let p ← Prog.get
  let lock := haveLock M p.1 cpu
  let flags ← Prog.onFst (pauseCore M cpu mask)
  Prog.onFst (hasepFreezeUncore M cpu mask lock)
  Prog.forCells (haswellReadEvent M thread cpu mask lock) numberOfEvents ()
  Prog.onFst (hasepUnfreezeUncore M cpu mask lock)
  Prog.when (hasCore mask) (Prog.onFst (checkWrite M cpu msrDev msrPerfGlobalCtrl flags))

/-! ## Finalize and init -/

/-- The clearing of an event's control and filter registers. -/
def haswellClearEvent (cpu : ℕ) (lock : Bool) (type : RegisterType) (row : RegisterMap) :
    Prog Int Core Unit :=
  Prog.when (row.configRegister ≠ 0 ∧ (type = .pmc ∨ type = .fixed ∨
      (RegisterType.uncore.toNat ≤ type.toNat ∧ lock = true))) do
    checkWrite M cpu row.device row.configRegister 0
    Prog.when (RegisterType.sbox0.toNat ≤ type.toNat ∧ type.toNat ≤ RegisterType.sbox3.toNat)
      (checkWrite M cpu row.device row.configRegister 0)
    Prog.when ((M.boxMap type).filterRegister1 ≠ 0) do
      let _ ← hpmWrite M cpu row.device (M.boxMap type).filterRegister1 0
    Prog.when ((M.boxMap type).filterRegister2 ≠ 0) do
      let _ ← hpmWrite M cpu row.device (M.boxMap type).filterRegister2 0

/-- Clear the offcore response register an event of the tile owner used. -/
def haswellClearOffcore (cpu : ℕ) (tile : Bool) (event : PerfmonEvent) : Prog Int Core Unit :=
  if tile = true ∧ event.eventId = 0xB7 then checkWrite M cpu msrDev msrOffcoreResp0 0
  else Prog.when (tile = true ∧ event.eventId = 0xBB)
    (checkWrite M cpu msrDev msrOffcoreResp1 0)

/-- One round of the finalize loop; the loop variable is `ovf_values_core`. -/
def haswellFinalizeEvent (thread cpu : ℕ) (lock tile : Bool) (ovf : Word) :
    EventProg Word := do
  let p ← Prog.get
  let e := p.2
  let row ← counterMap M e.index
  if e.type = .notype then pure ovf
  else do
    let bits ← match e.type with
      | .pmc => do
          Prog.onFst (haswellClearOffcore M cpu tile e.event)
          pure (bit (e.index - M.perfNumFixedCtr))
      | .fixed => pure (bit (e.index + 32))
      | _ => pure 0
    Prog.onFst (haswellClearEvent M cpu lock e.type row)
    Prog.onSnd (Prog.modify (·.setInit thread false))
    pure (ovf ||| bits)

def perfmonFinalizeCountersThreadHaswell (thread cpu : ℕ) (mask : BitVec 128)
    (numberOfEvents : ℕ) : Prog Int (Core × List Slot) Unit := do
  let p ← Prog.get
  let lock := haveLock M p.1 cpu
  let tile : Bool := p.1.tileLock (M.thread2tile cpu) = cpu
  let ovf ← Prog.forCells (haswellFinalizeEvent M thread cpu lock tile) numberOfEvents
    (bit 63 ||| bit 62)
  Prog.onFst (Prog.when (lock = true ∧ hasUncore mask) do
    checkWrite M cpu msrDev msrUncV3UPmonGlobalStatus 0
    checkWrite M cpu msrDev msrUncV3UPmonGlobalCtl 0)
  Prog.onFst (Prog.when (hasCore mask) do
    checkWrite M cpu msrDev msrPerfGlobalOvfCtrl ovf
    checkWrite M cpu msrDev msrPerfGlobalCtrl 0)

/-- `lock_acquire` on the tile lock and the socket lock of a CPU. -/
def acquireLocks {ρ : Type} (cpu : ℕ) : Prog ρ Core Unit :=
  Prog.modify fun c =>
    { c with
      tileLock := fun t =>
        if t = M.thread2tile cpu ∧ c.tileLock t = -1 then cpu else c.tileLock t
      socketLock := fun n =>
        if n = M.core2node cpu ∧ c.socketLock n = -1 then cpu else c.socketLock n }

def setCboxSetup {ρ : Type} (f : CboxSetup) : Prog ρ Core Unit :=
  Prog.modify fun c => { c with haswellCboxSetup := some f }

def perfmonInitHaswell (cpu : ℕ) : Prog Int Core Unit := do
  acquireLocks M cpu
  checkWrite M cpu msrDev msrPebsEnable 0
  let ret ← hpmWrite M cpu msrDev msrUncCbo0Perfevtsel0 0
  let (err1, _) ← hpmRead M cpu msrDev msrUncorePerfGlobalCtrl
  let err2 ← hpmWrite M cpu msrDev msrUncorePerfGlobalCtrl 0
  let (err3, data) ← hpmRead M cpu msrDev msrUncCbo0Perfevtsel0
  if M.model = haswellEP then setCboxSetup .hasep
  else Prog.when (ret + err1 + err2 + err3 = 0 ∧ data = 0) (setCboxSetup .has)

end Likwid
