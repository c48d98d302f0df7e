import Likwid.Haswell.Count

/-!
# Interlagos: starting, reading and stopping

`perfmon_startCountersThread_interlagos`, `perfmon_readCountersThread_interlagos` and
`perfmon_stopCountersThread_interlagos`. Each counter is enabled by a bit of its own configuration
register, so there is no box to freeze, and the routines count no overflows.
-/

namespace Likwid

/-- The `case` labels of the Interlagos switches -/
inductive InterlagosUnit where
  | pmc
  | uncore
  | other
deriving DecidableEq, Repr

def interlagosUnit : RegisterType → InterlagosUnit
  | .pmc => .pmc
  | .uncore => .uncore
  | _ => .other

variable (M : Machine)

/-! ## Start -/

def interlagosStartEvent (thread cpu : ℕ) (mask : BitVec 128) (lock : Bool) (_ : Unit) :
    EventProg Unit := do
  let p ← Prog.get
  let e := p.2
  Prog.when ((e.threadCounter thread).init = true ∧ hasType mask e.type) do
    let row ← counterMap M e.index
    Prog.onSnd (Prog.modify (·.clearData thread))
    Prog.onFst (Prog.when (e.type = .pmc ∨ (e.type = .uncore ∧ lock = true)) do
      checkWrite M cpu msrDev row.counterRegister 0
      let flags ← checkRead M cpu msrDev row.configRegister
      checkWrite M cpu msrDev row.configRegister (flags ||| bit 22))

def perfmonStartCountersThreadInterlagos (thread cpu : ℕ) (mask : BitVec 128)
    (numberOfEvents : ℕ) : Prog Int (Core × List Slot) Unit := do
  let p ← Prog.get
  let lock := haveLock M p.1 cpu
  Prog.forCells (interlagosStartEvent M thread cpu mask lock) numberOfEvents ()

/-! ## Read and stop -/

/-- The counter is disabled and read. -/
def interlagosStopCounter (cpu : ℕ) (row : RegisterMap) : Prog Int Core Word := do
  let flags ← checkRead M cpu msrDev row.configRegister
  checkWrite M cpu msrDev row.configRegister (flags &&& ~~~bit 22)
  checkRead M cpu msrDev row.counterRegister

/-- The switch of the stop routine, with `tmp` -/
def interlagosStopCase (cpu : ℕ) (lock : Bool) (row : RegisterMap) :
    InterlagosUnit → Prog Int Core Word
  | .pmc => interlagosStopCounter M cpu row
  | .uncore => if lock = true then interlagosStopCounter M cpu row else pure 0
  | .other => pure 0

/-- The switch of the read routine, which does not ask for the lock -/
def interlagosReadCase (cpu : ℕ) (row : RegisterMap) : InterlagosUnit → Prog Int Core Word
  | .pmc | .uncore => checkRead M cpu msrDev row.counterRegister
  | .other => pure 0

/-- One round of the read, or of the stop, with its switch -/
def interlagosCountEvent (thread : ℕ) (mask : BitVec 128)
    (switch : RegisterMap → InterlagosUnit → Prog Int Core Word) (_ : Unit) :
    EventProg Unit := do
  let p ← Prog.get
  let e := p.2
  Prog.when ((e.threadCounter thread).init = true ∧ hasType mask e.type) do
    let row ← counterMap M e.index
    let tmp ← Prog.onFst (switch row (interlagosUnit e.type))
    Prog.onSnd (Prog.modify (·.setCounter thread (field64 tmp 0 (M.boxMap e.type).regWidth)))

def perfmonStopCountersThreadInterlagos (thread cpu : ℕ) (mask : BitVec 128)
    (numberOfEvents : ℕ) : Prog Int (Core × List Slot) Unit := do
  let p ← Prog.get
  let lock := haveLock M p.1 cpu
  Prog.forCells (interlagosCountEvent M thread mask (interlagosStopCase M cpu lock))
    numberOfEvents ()

/-- The routine looks up whether it has the lock, and does not use it. -/
def perfmonReadCountersThreadInterlagos (thread cpu : ℕ) (mask : BitVec 128)
    (numberOfEvents : ℕ) : Prog Int (Core × List Slot) Unit :=
  Prog.forCells (interlagosCountEvent M thread mask (interlagosReadCase M cpu))
    numberOfEvents ()

end Likwid
