import Likwid.CounterResult
import Likwid.EventString
import Likwid.Nehalem

/-!
# The measurement state machine (`perfmon.c`)

The exported functions that add event sets, set them up, start, read, stop and
switch them. They are parametrised by the thread routines of an architecture,
as the source is by its function pointers.

`Perfmon.intervals` is a history variable: `__perfmon_stopCounters` appends
what it has just measured, `perfmon_finalize` empties it, and no function reads
it.
-/

namespace Likwid

/-! ## State -/

/-- A measured interval: its group, the time stamps, the `init` flags the stop
found and the results it added. -/
structure Interval where
  group : ℕ
  timer : TimerData
  init : ℕ → ℕ → Bool
  result : ℕ → ℕ → ℚ

/-- The module's state. `groupSet` is there exactly while
`perfmon_initialized` is 1. -/
structure Perfmon where
  core : Core
  groupSet : Option PerfmonGroupSet
  /-- How often the time stamp counter was read. -/
  stamps : ℕ
  intervals : List Interval

abbrev ThreadRoutine : Type :=
  (thread cpu : ℕ) → (regTypeMask : BitVec 128) → (numberOfEvents : ℕ) →
    Prog Int (Core × List Slot) Unit

/-! ## Backends -/

/-- The accumulated results of an entry are kept. -/
def FullDataKept (e e' : PerfmonEventSetEntry) : Prop :=
  ∀ t, (e'.threadCounter t).fullData = (e.threadCounter t).fullData

/-- What the start of thread `thread` does to an entry: no `init` flag changes,
and only a record of this thread that is set up may lose its result. -/
def FullDataStarted (thread : ℕ) (e e' : PerfmonEventSetEntry) : Prop :=
  ∀ t, (e'.threadCounter t).init = (e.threadCounter t).init ∧
    ((e'.threadCounter t).fullData = (e.threadCounter t).fullData ∨
      (t = thread ∧ (e.threadCounter t).init = true ∧ (e'.threadCounter t).fullData = 0))

theorem FullDataKept.refl (e : PerfmonEventSetEntry) : FullDataKept e e := fun _ => rfl

theorem FullDataKept.trans (a b c : PerfmonEventSetEntry) (h : FullDataKept a b)
    (h' : FullDataKept b c) : FullDataKept a c :=
  fun t => (h' t).trans (h t)

theorem FullDataStarted.refl {thread : ℕ} (e : PerfmonEventSetEntry) :
    FullDataStarted thread e e :=
  fun _ => ⟨rfl, Or.inl rfl⟩

theorem FullDataStarted.trans {thread : ℕ} (a b c : PerfmonEventSetEntry)
    (h : FullDataStarted thread a b) (h' : FullDataStarted thread b c) :
    FullDataStarted thread a c := by
  intro t
  obtain ⟨hinit, hdata⟩ := h t
  obtain ⟨hinit', hdata'⟩ := h' t
  refine ⟨hinit'.trans hinit, ?_⟩
  rcases hdata' with heq | ⟨ht, hi, hzero⟩
  · rw [heq]
    exact hdata
  · exact Or.inr ⟨ht, hinit ▸ hi, hzero⟩

/-- The flow of a routine that keeps all results. -/
abbrev keepsFullData : Prog.Flow (Core × List Slot) :=
  (Prog.Flow.of (Prog.CellsRel FullDataKept) (Prog.CellsRel.refl FullDataKept.refl)
    (Prog.CellsRel.trans FullDataKept.trans)).snd

abbrev startsFullData (thread : ℕ) : Prog.Flow (Core × List Slot) :=
  (Prog.Flow.of (Prog.CellsRel (FullDataStarted thread))
    (Prog.CellsRel.refl FullDataStarted.refl) (Prog.CellsRel.trans FullDataStarted.trans)).snd

/-- The function pointers `perfmon_init_funcs` sets, with what the generic code
relies on: a set-up returns no negative code, and the results belong to the
generic code except at a start. -/
structure Backend where
  initThreadArch : ℕ → Prog Int Core Unit
  setupCountersThread : ThreadRoutine
  startCountersThread : ThreadRoutine
  readCountersThread : ThreadRoutine
  stopCountersThread : ThreadRoutine
  finalizeCountersThread : ThreadRoutine
  setup_nonneg : ∀ thread cpu mask n p,
    (setupCountersThread thread cpu mask n).wp (fun _ _ => True) (fun r _ => 0 ≤ r) p
  setup_fullData : ∀ thread cpu mask n,
    Prog.Respects keepsFullData (setupCountersThread thread cpu mask n)
  start_fullData : ∀ thread cpu mask n,
    Prog.Respects (startsFullData thread) (startCountersThread thread cpu mask n)
  read_fullData : ∀ thread cpu mask n,
    Prog.Respects keepsFullData (readCountersThread thread cpu mask n)
  stop_fullData : ∀ thread cpu mask n,
    Prog.Respects keepsFullData (stopCountersThread thread cpu mask n)

abbrev PerfmonProg (α : Type) : Type := Prog Int Perfmon α

variable (M : Machine) (B : Backend)

/-! ## Access to the group set -/

def Perfmon.modifyGroupSet (s : Perfmon) (f : PerfmonGroupSet → PerfmonGroupSet) : Perfmon :=
  { s with groupSet := s.groupSet.map f }

/-- Change group `g`. -/
def Perfmon.modifyGroup (s : Perfmon) (g : ℕ) (f : PerfmonEventSet → PerfmonEventSet) :
    Perfmon :=
  s.modifyGroupSet fun gs => { gs with groups := gs.groups.modify g f }

def Perfmon.group? (s : Perfmon) (g : ℕ) : Option PerfmonEventSet :=
  s.groupSet.bind fun gs => gs.groups[g]?

/-- The check every exported function begins with. -/
def requireInit : PerfmonProg PerfmonGroupSet := do
  let s ← Prog.get
  match s.groupSet with
  | some gs => pure gs
  | none => Prog.ret (-einval)

/-- `groupSet->…` where nothing has checked the pointer. -/
def theGroupSet {ρ : Type} : Prog ρ Perfmon PerfmonGroupSet := do
  let s ← Prog.get
  Prog.orUndefined s.groupSet

/-- `groupSet->groups[groupId]`: the position and the group. -/
def groupAt {ρ : Type} (groupId : Int) : Prog ρ Perfmon (ℕ × PerfmonEventSet) := do
  let s ← Prog.get
  if 0 ≤ groupId then do
    let es ← Prog.orOutOfBounds (s.group? groupId.toNat)
    pure (groupId.toNat, es)
  else Prog.halt .outOfBounds

def setState {ρ : Type} (g : ℕ) (state : GroupState) : Prog ρ Perfmon Unit :=
  Prog.modify (·.modifyGroup g fun es => { es with state := state })

/-- Run a routine on the shared state and the slots of group `g`. -/
def onSlots {ρ α : Type} (g : ℕ) (m : Prog ρ (Core × List Slot) α) : Prog ρ Perfmon α :=
  Prog.zoom
    (fun s => (s.core, ((s.group? g).map PerfmonEventSet.events).getD []))
    (fun p s => { s with core := p.1 }.modifyGroup g fun es => { es with events := p.2 })
    m

/-- Call a thread routine for one thread on one group. -/
def callThread (r : ThreadRoutine) (threadId g : ℕ) : PerfmonProg Int := do
  let gs ← theGroupSet
  let thread ← Prog.orOutOfBounds gs.threads[threadId]?
  let (_, es) ← groupAt g
  onSlots g (Prog.call 0 (r threadId thread.processorId es.regTypeMask es.numberOfEvents))

/-! ## Timer (`timer.c`) -/

/-- A reading of the time stamp counter. -/
def readTsc {ρ : Type} : Prog ρ Perfmon Word := fun s =>
  .done (M.tsc s.stamps) { s with stamps := s.stamps + 1 }

def timerStart {ρ : Type} (g : ℕ) : Prog ρ Perfmon Unit := do
  let t ← readTsc M
  Prog.modify (·.modifyGroup g fun es => { es with timer := { es.timer with start := t } })

def timerStop {ρ : Type} (g : ℕ) : Prog ρ Perfmon Unit := do
  let t ← readTsc M
  Prog.modify (·.modifyGroup g fun es => { es with timer := { es.timer with stop := t } })

/-- The cycles of `_timer_print`, clamped to zero if something goes wrong. -/
def timerCycles (t : TimerData) : Word :=
  if t.stop - M.baseline < t.start ∨ t.start = t.stop then 0
  else t.stop - t.start - M.baseline

/-- `timer_print` -/
def timerPrint (t : TimerData) : ℚ :=
  M.fl (toDouble M (timerCycles M t) / toDouble M M.cpuClock)

/-- `rdtscTime = timer_print(&timer); runTime += rdtscTime` -/
def PerfmonEventSet.addRunTime (es : PerfmonEventSet) : PerfmonEventSet :=
  { es with
    rdtscTime := timerPrint M es.timer
    runTime := M.fl (es.runTime + timerPrint M es.timer) }

/-! ## Init and finalize -/

/-- `HPMaddThread` -/
def hpmAddThread {ρ : Type} (cpu : ℕ) : Prog ρ Core Unit :=
  Prog.modify fun c =>
    if c.registeredCpuList cpu = false ∧ M.accessInit cpu = 0 then
      { c with registeredCpuList := fun p => if p = cpu then true else c.registeredCpuList p }
    else c

def perfmonInit (threadsToCpu : List ℕ) : PerfmonProg Unit := do
  let s ← Prog.get
  match s.groupSet with
  | some _ => Prog.ret 0
  | none => do
      Prog.when (threadsToCpu = []) (Prog.ret (-einval))
      Prog.when (M.lockCheck = false) (Prog.ret (-einval))
      Prog.when (M.family = 0 ∧ M.model = 0) (Prog.ret (-enodev))
      Prog.modify fun s =>
        { s with
          core := { s.core with socketLock := fun _ => -1, tileLock := fun _ => -1 } }
      threadsToCpu.foldlM (fun _ cpu => do
        Prog.zoom Perfmon.core (fun c s => { s with core := c }) (hpmAddThread M cpu)
        let _ ← Prog.zoom Perfmon.core (fun c s => { s with core := c })
          (Prog.call (0 : Int) (B.initThreadArch cpu))
        pure ()) ()
      Prog.modify fun s =>
        { s with
          groupSet := some
            { numberOfGroups := 0
              numberOfActiveGroups := 0
              activeGroup := -1
              groups := []
              threads := threadsToCpu.mapIdx fun i cpu => ⟨i, cpu⟩ } }

/-- `perfmon_finalize`; the records are freed with the groups. -/
def perfmonFinalize : PerfmonProg Unit := do
  let s ← Prog.get
  match s.groupSet with
  | none => Prog.ret 0
  | some gs => do
      (List.range gs.numberOfActiveGroups).foldlM (fun _ g =>
        gs.threads.foldlM (fun _ th => do
          let _ ← callThread B.finalizeCountersThread th.threadId g
          pure ()) ()) ()
      Prog.modify fun s =>
        { s with
          core := { s.core with
            currentConfig := fun _ _ => 0
            registeredCpuList := fun _ => false }
          groupSet := none
          intervals := [] }

/-! ## Adding an event set -/

/-- Room for one more group: the first `malloc`, or a `realloc` when the last
group is in use. -/
def PerfmonGroupSet.allocate (gs : PerfmonGroupSet) : PerfmonGroupSet :=
  let fresh : PerfmonEventSet :=
    { numberOfEvents := 0
      events := []
      timer := (M.mallocGroup gs.numberOfActiveGroups).2
      rdtscTime := 0
      runTime := 0
      regTypeMask := 0
      state := (M.mallocGroup gs.numberOfActiveGroups).1 }
  if gs.numberOfActiveGroups = 0 then
    { gs with groups := [fresh], numberOfGroups := 1, activeGroup := -1 }
  else if gs.numberOfActiveGroups = gs.numberOfGroups then
    { gs with groups := gs.groups ++ [fresh], numberOfGroups := gs.numberOfGroups + 1 }
  else gs

/-- `perfmon_addEventSet`, with the value of `LIKWID_FORCE`. Returns the number
of the new group. -/
def perfmonAddEventSet (eventString : List Char) (force : Int) : PerfmonProg Unit := do
  let gs ← requireInit
  Prog.when ('-' ∈ eventString ∨ '.' ∈ eventString) (Prog.ret (-einval))
  Prog.modify (·.modifyGroupSet (PerfmonGroupSet.allocate M))
  let g := gs.numberOfActiveGroups
  let testcpu ← Prog.orUndefined (gs.threads.head?.map PerfmonThread.processorId)
  let parsed ← Prog.zoom Perfmon.core (fun c s => { s with core := c })
    (addEvents M testcpu force g (eventString.splitOn ',') 0 ⟨[], 0, 0⟩)
  Prog.modify (·.modifyGroup g fun es =>
    { es with
      events := parsed.slots
      numberOfEvents := parsed.numberOfEvents
      regTypeMask := parsed.regTypeMask })
  if 0 < parsed.numberOfEvents ∧ parsed.regTypeMask ≠ 0 then do
    setState g .none
    Prog.modify (·.modifyGroupSet fun gs =>
      { gs with numberOfActiveGroups := gs.numberOfActiveGroups + 1 })
    Prog.ret g
  else Prog.ret (-einval)

/-! ## Set-up -/

/-- `__perfmon_setupCountersThread` -/
def perfmonSetupCountersThread (threadId : ℕ) (groupId : Int) : PerfmonProg Unit := do
  let gs ← theGroupSet
  Prog.when (gs.numberOfActiveGroups ≤ groupId) (Prog.ret (-enoent))
  let (g, _) ← groupAt groupId
  let err ← callThread B.setupCountersThread threadId g
  let s ← Prog.get
  Prog.when (err < 0) (Prog.ret (M.errno s.core.trace.length : Int))
  Prog.modify (·.modifyGroupSet fun gs => { gs with activeGroup := groupId })

def perfmonSetupCounters (groupId : Int) : PerfmonProg Unit := do
  let gs ← requireInit
  Prog.when (gs.numberOfActiveGroups ≤ groupId) (Prog.ret (-enoent))
  gs.threads.foldlM (fun _ th => do
    let ret ← Prog.call 0 (perfmonSetupCountersThread M B th.threadId groupId)
    Prog.when (ret ≠ 0) (Prog.ret ret)) ()
  let (g, _) ← groupAt groupId
  setState g .setup

/-! ## Start -/

/-- `__perfmon_startCounters` -/
def perfmonStartCountersOf (groupId : Int) : PerfmonProg Unit := do
  let gs ← theGroupSet
  let (g, es) ← groupAt groupId
  Prog.when (es.state ≠ .setup) (Prog.ret (-einval))
  gs.threads.foldlM (fun _ th => do
    let ret ← callThread B.startCountersThread th.threadId g
    Prog.when (ret ≠ 0) (Prog.ret (-(th.threadId : Int) - 1))) ()
  setState g .start
  timerStart M g

def perfmonStartCounters : PerfmonProg Unit := do
  let gs ← requireInit
  Prog.when (gs.activeGroup < 0) (Prog.ret (-einval))
  perfmonStartCountersOf M B gs.activeGroup

/-- The group a `…GroupCounters` function works on: the active one when the
number given is not that of a group, and none when it is. -/
def groupArgument (gs : PerfmonGroupSet) (groupId : Int) : PerfmonProg Int :=
  if (groupId < 0 ∨ gs.numberOfActiveGroups ≤ groupId) ∧ 0 ≤ gs.activeGroup then
    pure gs.activeGroup
  else Prog.ret (-einval)

def perfmonStartGroupCounters (groupId : Int) : PerfmonProg Unit := do
  let gs ← requireInit
  let groupId ← groupArgument gs groupId
  perfmonStartCountersOf M B groupId

/-! ## Stop -/

/-- What the stop loop does to the record of thread `j`. -/
def PerfmonEventSetEntry.addResult (type : RegisterType) (e : PerfmonEventSetEntry) (j : ℕ) :
    PerfmonEventSetEntry :=
  e.onCounter j fun r =>
    { (calculateResult M e.index type r).2 with
      fullData := M.fl (r.fullData + (calculateResult M e.index type r).1) }

/-- The inner loop over the threads, for one event. -/
def accumulateEvent (numberOfThreads : ℕ) (_ : Unit) : EventProg Unit := do
  let p ← Prog.get
  let row ← counterMap M p.2.index
  Prog.onSnd (Prog.modify fun e =>
    (List.range numberOfThreads).foldl (fun e j => e.addResult M row.type j) e)

/-- The result `calculateResult` gives for event `i` and thread `j`. -/
def slotResult (slots : List Slot) (i j : ℕ) : ℚ :=
  match slots[i]?.join with
  | some e =>
      match M.counterMap[e.index]? with
      | some row => (calculateResult M e.index row.type (e.threadCounter j)).1
      | none => 0
  | none => 0

def slotInit (slots : List Slot) (i j : ℕ) : Bool :=
  match slots[i]?.join with
  | some e => (e.threadCounter j).init
  | none => false

/-- `__perfmon_stopCounters` -/
def perfmonStopCountersOf (groupId : Int) : PerfmonProg Unit := do
  let gs ← theGroupSet
  let (g, before) ← groupAt groupId
  timerStop M g
  gs.threads.foldlM (fun _ th => do
    let ret ← callThread B.stopCountersThread th.threadId g
    Prog.when (ret ≠ 0) (Prog.ret (-(th.threadId : Int) - 1))) ()
  let (_, es) ← groupAt groupId
  onSlots g (Prog.forCells (accumulateEvent M gs.numberOfThreads) es.numberOfEvents ())
  setState g .setup
  Prog.modify (·.modifyGroup g (PerfmonEventSet.addRunTime M))
  Prog.modify fun s =>
    { s with
      intervals := s.intervals ++
        [⟨g, es.timer, slotInit before.events, slotResult M es.events⟩] }

def perfmonStopCounters : PerfmonProg Unit := do
  let gs ← requireInit
  Prog.when (gs.activeGroup < 0) (Prog.ret (-einval))
  let (_, es) ← groupAt gs.activeGroup
  Prog.when (es.state ≠ .start) (Prog.ret (-einval))
  perfmonStopCountersOf M B gs.activeGroup

def perfmonStopGroupCounters (groupId : Int) : PerfmonProg Unit := do
  let gs ← requireInit
  let groupId ← groupArgument gs groupId
  let (_, es) ← groupAt groupId
  Prog.when (es.state ≠ .start) (Prog.ret (-einval))
  perfmonStopCountersOf M B groupId

/-! ## Read -/

/-- `__perfmon_readCounters`; thread -1 stands for all threads. -/
def perfmonReadCountersOf (groupId threadId : Int) : PerfmonProg Unit := do
  let gs ← requireInit
  let groupId :=
    if (groupId < 0 ∨ gs.numberOfActiveGroups ≤ groupId) ∧ 0 ≤ gs.activeGroup then
      gs.activeGroup
    else groupId
  let (g, es) ← groupAt groupId
  Prog.when (es.state ≠ .start) (Prog.ret (-einval))
  if threadId = -1 then
    (List.range gs.numberOfThreads).foldlM (fun _ t => do
      let ret ← callThread B.readCountersThread t g
      Prog.when (ret ≠ 0) (Prog.ret (-(t : Int) - 1))) ()
  else
    Prog.when (0 ≤ threadId ∧ threadId < gs.numberOfThreads) do
      let ret ← callThread B.readCountersThread threadId.toNat g
      Prog.when (ret ≠ 0) (Prog.ret (-threadId - 1))

def perfmonReadCounters : PerfmonProg Unit := perfmonReadCountersOf B (-1) (-1)

def perfmonReadGroupCounters (groupId : Int) : PerfmonProg Unit :=
  perfmonReadCountersOf B groupId (-1)

def perfmonReadGroupThreadCounters (groupId threadId : Int) : PerfmonProg Unit :=
  perfmonReadCountersOf B groupId threadId

def perfmonReadCountersCpu (cpu : Int) : PerfmonProg Unit := do
  let gs ← requireInit
  let threadId :=
    ((gs.threads.find? (fun th => (th.processorId : Int) = cpu)).map PerfmonThread.threadId).getD 0
  let (g, _) ← groupAt gs.activeGroup
  let ret ← callThread B.readCountersThread threadId g
  Prog.ret ret

/-! ## Switch -/

/-- The loop that takes the `init` flags of a thread away. -/
def clearInit (threadId : ℕ) (_ : Unit) : EventProg Unit :=
  Prog.onSnd (Prog.modify (·.setInit threadId false))

/-- `__perfmon_switchActiveGroupThread` -/
def perfmonSwitchActiveGroupThread (threadId : ℕ) (newGroup : Int) : PerfmonProg Unit := do
  let gs ← requireInit
  let (g, es) ← groupAt gs.activeGroup
  timerStop M g
  Prog.modify (·.modifyGroup g (PerfmonEventSet.addRunTime M))
  Prog.when (es.state = .start) do
    let _ ← Prog.call (0 : Int) (perfmonStopCounters M B)
  Prog.when (es.state = .setup)
    (onSlots g (Prog.forCells (clearInit threadId) es.numberOfEvents ()))
  let ret ← Prog.call 0 (perfmonSetupCounters M B newGroup)
  Prog.when (ret ≠ 0) (Prog.ret ret)
  Prog.when (es.state = .start) do
    let ret ← Prog.call 0 (perfmonStartCounters M B)
    Prog.when (ret ≠ 0) (Prog.ret ret)

def perfmonSwitchActiveGroup (newGroup : Int) : PerfmonProg Unit := do
  let gs ← theGroupSet
  gs.threads.foldlM (fun _ th => do
    let ret ← Prog.call 0 (perfmonSwitchActiveGroupThread M B th.threadId newGroup)
    Prog.when (ret ≠ 0) (Prog.ret ret)) ()

end Likwid
