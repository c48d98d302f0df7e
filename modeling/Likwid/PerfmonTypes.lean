import Mathlib.Data.Rat.Defs
import Likwid.Registers

/-!
# Events, groups and counter records (`perfmon_types.h`)

The arrays of the source are lists where their length matters and functions
where it does not: a counter record exists for every thread number, and only
the first `numberOfThreads` are used. A slot of an event array is `none`
until `perfmon_addEventSet` has initialised it.
-/

namespace Likwid

/-! ## Events -/

/-- `EventOptionType` -/
inductive EventOptionType where
  | none | opcode
  | match0 | match1 | match2 | match3
  | mask0 | mask1 | mask2 | mask3
  | nid | tid | state | edge | threshold | invert
  | countKernel | anythread
  | occupancy | occupancyFilter | occupancyEdge | occupancyInvert
  | inTrans | inTransAbort
deriving DecidableEq, Repr

structure PerfmonEventOption where
  type : EventOptionType
  value : Word
deriving DecidableEq, Repr

/-- `PerfmonEvent`. `options` is the source's array of `NUM_EVENT_OPTIONS`
entries, the first `numberOfOptions` of which are set. -/
structure PerfmonEvent where
  name : String
  limit : String
  eventId : BitVec 16
  umask : BitVec 8
  cfgBits : BitVec 8 := 0
  cmask : Word := 0
  numberOfOptions : ℕ := 0
  optionMask : Word := 0
  options : List PerfmonEventOption := []
deriving Repr

/-- The options a `for (j = 0; j < numberOfOptions; j++)` loop visits. -/
def PerfmonEvent.optionList (e : PerfmonEvent) : List PerfmonEventOption :=
  e.options.take e.numberOfOptions

/-! ## Counter records -/

structure PerfmonCounter where
  init : Bool
  overflows : Int
  startData : Word
  counterData : Word
  fullData : ℚ
deriving Repr

/-- The record `perfmon_addEventSet` gives every thread. -/
def PerfmonCounter.fresh : PerfmonCounter where
  init := false
  overflows := 0
  startData := 0
  counterData := 0
  fullData := 0

structure PerfmonEventSetEntry where
  event : PerfmonEvent
  index : RegisterIndex
  type : RegisterType
  threadCounter : ℕ → PerfmonCounter

/-- Change the record of one thread. -/
def PerfmonEventSetEntry.onCounter (e : PerfmonEventSetEntry) (thread : ℕ)
    (f : PerfmonCounter → PerfmonCounter) : PerfmonEventSetEntry :=
  { e with threadCounter := fun t => if t = thread then f (e.threadCounter t)
      else e.threadCounter t }

section OnCounter

variable (e : PerfmonEventSetEntry) (thread : ℕ) (f : PerfmonCounter → PerfmonCounter)

@[simp] theorem PerfmonEventSetEntry.onCounter_event :
    (e.onCounter thread f).event = e.event := rfl

@[simp] theorem PerfmonEventSetEntry.onCounter_index :
    (e.onCounter thread f).index = e.index := rfl

@[simp] theorem PerfmonEventSetEntry.onCounter_type :
    (e.onCounter thread f).type = e.type := rfl

@[simp] theorem PerfmonEventSetEntry.onCounter_self :
    (e.onCounter thread f).threadCounter thread = f (e.threadCounter thread) := by
  simp [onCounter]

theorem PerfmonEventSetEntry.onCounter_of_ne {t : ℕ} (h : t ≠ thread) :
    (e.onCounter thread f).threadCounter t = e.threadCounter t := by
  simp [onCounter, h]

end OnCounter

/-! The assignments the thread routines make to a record. -/

/-- `threadCounter[thread_id].init = b` -/
def PerfmonEventSetEntry.setInit (e : PerfmonEventSetEntry) (thread : ℕ) (b : Bool) :
    PerfmonEventSetEntry :=
  e.onCounter thread fun r => { r with init := b }

def PerfmonEventSetEntry.setStart (e : PerfmonEventSetEntry) (thread : ℕ) (v : Word) :
    PerfmonEventSetEntry :=
  e.onCounter thread fun r => { r with startData := v }

def PerfmonEventSetEntry.setCounter (e : PerfmonEventSetEntry) (thread : ℕ) (v : Word) :
    PerfmonEventSetEntry :=
  e.onCounter thread fun r => { r with counterData := v }

/-- `overflows++` -/
def PerfmonEventSetEntry.addOverflow (e : PerfmonEventSetEntry) (thread : ℕ) :
    PerfmonEventSetEntry :=
  e.onCounter thread fun r => { r with overflows := r.overflows + 1 }

/-- The three resets at the top of a start routine. -/
def PerfmonEventSetEntry.clearData (e : PerfmonEventSetEntry) (thread : ℕ) :
    PerfmonEventSetEntry :=
  e.onCounter thread fun r => { r with startData := 0, counterData := 0, fullData := 0 }

abbrev Slot := Option PerfmonEventSetEntry

/-! ## Groups -/

inductive GroupState where
  | none
  | setup
  | start
deriving DecidableEq, Repr

structure TimerData where
  start : Word
  stop : Word
deriving DecidableEq, Repr

structure PerfmonEventSet where
  numberOfEvents : ℕ
  events : List Slot
  timer : TimerData
  rdtscTime : ℚ
  runTime : ℚ
  regTypeMask : BitVec 128
  state : GroupState

/-- `thread_id` and `processorId` -/
structure PerfmonThread where
  threadId : ℕ
  processorId : ℕ
deriving DecidableEq, Repr

structure PerfmonGroupSet where
  numberOfGroups : ℕ
  numberOfActiveGroups : ℕ
  activeGroup : Int
  groups : List PerfmonEventSet
  threads : List PerfmonThread

/-- `numberOfThreads` is the length of `threads`. -/
def PerfmonGroupSet.numberOfThreads (gs : PerfmonGroupSet) : ℕ := gs.threads.length

end Likwid
