import Likwid.NehalemEX.Setup
import Likwid.Nehalem

/-!
# Nehalem EX: starting the counters of a thread

`perfmon_startCountersThread_nehalemEX`. `MSR_U_PMON_GLOBAL_CTRL` is the control register of the
UBOX and that of the whole uncore: the routine resets it, writes the enable bits of the boxes, the
one of the UBOX among them, and then adds the bit that lets the uncore count.
-/

namespace Likwid

/-- The units in the order of their numbers -/
def nexUnits : List RegisterType :=
  (List.range RegisterType.numUnits.toNat).map RegisterType.ofNat

/-- `core_ctrl_flags` and `uflags` -/
structure NexStart where
  coreCtrlFlags : Word
  uflags : RegisterType → BitVec 32

/-- `uflags[type] |= bits` -/
def NexStart.addUnit (st : NexStart) (type : RegisterType) (bits : BitVec 32) : NexStart :=
  { st with uflags := fun t => if t = type then st.uflags t ||| bits else st.uflags t }

variable (M : Machine)

/-- `NEX_RESET_ALL_UNCORE_COUNTERS` -/
def nexResetAllUncoreCounters (cpu : ℕ) (mask : BitVec 128) (lock : Bool) :
    Prog Int Core Unit :=
  Prog.when (lock = true ∧ hasUncoreNehalem mask) do
    let tmp ← checkRead M cpu msrDev msrUPmonGlobalCtrl
    checkWrite M cpu msrDev msrUPmonGlobalCtrl (tmp ||| bit 29)
    checkWrite M cpu msrDev msrUPmonGlobalCtrl 0

/-- `NEX_UNFREEZE_UNCORE` -/
def nexUnfreezeUncore (cpu : ℕ) (mask : BitVec 128) (lock : Bool) : Prog Int Core Unit :=
  Prog.when (lock = true ∧ hasUncoreNehalem mask) do
    let tmp ← checkRead M cpu msrDev msrUPmonGlobalCtrl
    checkWrite M cpu msrDev msrUPmonGlobalCtrl (tmp ||| bit 28)

/-- `NEX_UNFREEZE_BOX` -/
def nexUnfreezeBox (cpu : ℕ) (mask : BitVec 128) (lock : Bool) (id : RegisterType)
    (flags : BitVec 32) : Prog Int Core Unit :=
  Prog.when (lock = true ∧ hasType mask id) do
    checkWrite M cpu msrDev (M.boxMap id).ctrlRegister (flags.setWidth 64)
    checkWrite M cpu msrDev (M.boxMap id).ovflRegister (flags.setWidth 64)

/-- The switch of the loop: a counter of the core is cleared, and one of a box gets its bit among
the flags of the box. -/
def nexStartCase (cpu : ℕ) (mask : BitVec 128) (lock : Bool) (index : RegisterIndex)
    (row : RegisterMap) (st : NexStart) : RegisterType → Prog Int Core NexStart
  | .pmc => do
      checkWrite M cpu msrDev row.counterRegister 0
      pure { st with coreCtrlFlags := st.coreCtrlFlags ||| bit (index - M.perfNumFixedCtr) }
  | .fixed => do
      checkWrite M cpu msrDev row.counterRegister 0
      pure { st with coreCtrlFlags := st.coreCtrlFlags ||| bit (index + 32) }
  | .wbox0fix =>
      pure (if lock = true ∧ hasType mask .wbox0fix then
        st.addUnit .wbox ((bit 31).setWidth 32) else st)
  | _ =>
      pure (if lock = true ∧ hasType mask row.type then
        st.addUnit row.type (shiftLeft32 1 (getCounterTypeOffset M index)) else st)

def nexStartEvent (thread cpu : ℕ) (mask : BitVec 128) (lock : Bool) (st : NexStart) :
    EventProg NexStart := do
  let p ← Prog.get
  let e := p.2
  if (e.threadCounter thread).init = true ∧ hasType mask e.type then do
    let row ← counterMap M e.index
    Prog.onSnd (Prog.modify (·.clearData thread))
    Prog.onFst (nexStartCase M cpu mask lock e.index row st e.type)
  else pure st

/-- What comes after the loop: the boxes, the uncore and the core -/
def nexStartEnable (cpu : ℕ) (mask : BitVec 128) (lock : Bool) (st : NexStart) :
    Prog Int Core Unit := do
  Prog.when (lock = true) (nexUnits.foldlM
    (fun _ id => Prog.when (st.uflags id ≠ 0) (nexUnfreezeBox M cpu mask lock id (st.uflags id)))
    ())
  nexUnfreezeUncore M cpu mask lock
  Prog.when (hasCore mask) do
    checkWrite M cpu msrDev msrPerfGlobalCtrl st.coreCtrlFlags
    checkWrite M cpu msrDev msrPerfGlobalOvfCtrl ((bit 63 ||| bit 62) ||| st.coreCtrlFlags)

def perfmonStartCountersThreadNehalemEX (thread cpu : ℕ) (mask : BitVec 128)
    (numberOfEvents : ℕ) : Prog Int (Core × List Slot) Unit := do
  let p ← Prog.get
  let lock := haveLock M p.1 cpu
  Prog.onFst (nexResetAllUncoreCounters M cpu mask lock)
  let st ← Prog.forCells (nexStartEvent M thread cpu mask lock) numberOfEvents ⟨0, fun _ => 0⟩
  Prog.onFst (nexStartEnable M cpu mask lock st)

end Likwid
