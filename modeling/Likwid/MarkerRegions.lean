import Likwid.Backends
import Likwid.Control
import Likwid.HashTable
import Likwid.Lib.Run
import Likwid.Tables
import Mathlib.Data.Rat.Floor

/-!
# Measuring regions (`libperfctr.c`)

`likwid_markerStartRegion` takes a snapshot of the counters and
`likwid_markerStopRegion` adds what was counted since to the record of the region.
Regions of one CPU share the counters and nothing else, so they may overlap in any
way (`measured_of_run`). The snapshot is an array of `NUM_PMC` doubles, and a counter
has 64 bits: a reading no double holds is not the one that is subtracted.
-/

namespace Likwid

/-! ## State -/

/-- The static variables of the marker API that its regions use, the module
`perfmon.c` below it and the tables of `hashTable.c`. -/
structure Marker where
  likwidInit : Bool
  perfmon : Perfmon
  threadList : ThreadLists

abbrev MarkerProg (α : Type) : Type := Prog Int Marker α

def onPerfmon {α : Type} (m : Prog Int Perfmon α) : MarkerProg α :=
  Prog.zoom Marker.perfmon (fun p s => { s with perfmon := p }) m

/-- `getThreadID` -/
def getThreadID (gs : PerfmonGroupSet) (cpu : ℕ) : Option ℕ :=
  gs.threads.findIdx? (·.processorId = cpu)

/-- `regionTag` with `groupSuffix` behind it -/
def groupTag (regionTag : String) (activeGroup : Int) : String :=
  regionTag ++ "-" ++ toString activeGroup

/-- `(uint64_t)` of a double, where it has a meaning. -/
def toWord (x : ℚ) : Option Word :=
  if 0 ≤ x ∧ x < 2 ^ 64 then some (BitVec.ofNat 64 x.floor.toNat) else none

/-- Position `i` of an array of `NUM_PMC` entries. -/
def pmcIndex (i : ℕ) : Option (Fin numPmc) := if h : i < numPmc then some ⟨i, h⟩ else none

-- `uninit` is what `malloc` leaves in a record, `cpu` is `likwid_getProcessorId()`
variable (M : Machine) (B : Backend) (uninit : LikwidThreadResults) (cpu : ℕ)

/-- `results->… = …` -/
def writeRecord (tag : String) (f : LikwidThreadResults → LikwidThreadResults) : MarkerProg Unit :=
  Prog.modify fun s => { s with threadList := s.threadList.update cpu tag f }

/-- `groupSet->groups[groupSet->activeGroup].events[i]` -/
def activeEvent (p : Perfmon) (g i : ℕ) : Option PerfmonEventSetEntry :=
  (p.group? g).bind fun es => es.events[i]?.join

/-! ## Start and stop -/

/-- The body of the loop of `likwid_markerStartRegion`. -/
def startEvent (g threadId : ℕ) (tag : String) (i : ℕ) : MarkerProg Unit := do
  let s ← Prog.get
  let k ← Prog.orOutOfBounds (pmcIndex i)
  let e ← Prog.orUndefined (activeEvent s.perfmon g i)
  let counter := e.threadCounter threadId
  writeRecord cpu tag fun r =>
    { r with
      startPMcounters := Function.update r.startPMcounters k (toDouble M counter.counterData)
      startOverflows := Function.update r.startOverflows k counter.overflows }

def likwidMarkerStartRegion (regionTag : String) : MarkerProg Unit := do
  let s ← Prog.get
  Prog.when (s.likwidInit = false) (Prog.ret (-efault))
  let gs ← onPerfmon theGroupSet
  match getThreadID gs cpu with
  | none => Prog.ret (-efault)
  | some threadId => do
      Prog.when (maxNumThreads ≤ cpu) (Prog.halt .outOfBounds)
      let tag := groupTag regionTag gs.activeGroup
      Prog.modify fun s => { s with threadList := hashTableGet uninit cpu tag s.threadList }
      let _ ← onPerfmon (Prog.call (0 : Int) (perfmonReadCountersCpu B cpu))
      writeRecord cpu tag fun r => { r with cpuID := cpu }
      let (g, es) ← onPerfmon (groupAt gs.activeGroup)
      (List.range es.numberOfEvents).foldlM (fun _ i => startEvent M cpu g threadId tag i) ()
      let start ← onPerfmon (readTsc M)
      writeRecord cpu tag fun r => { r with startTime := { r.startTime with start := start } }

/-- The body of the loop of `likwid_markerStopRegion`. -/
def stopEvent (g threadId : ℕ) (tag : String) (i : ℕ) : MarkerProg Unit := do
  let s ← Prog.get
  let k ← Prog.orOutOfBounds (pmcIndex i)
  let e ← Prog.orUndefined (activeEvent s.perfmon g i)
  let r ← Prog.orUndefined (s.threadList.record cpu tag)
  let start ← Prog.orUndefined (toWord (r.startPMcounters k))
  let row ← counterMap M e.index
  let counter := e.threadCounter threadId
  let result := calculateMarkerResult M e.index row.type start counter.counterData
    (counter.overflows - r.startOverflows k)
  writeRecord cpu tag fun r =>
    { r with
      pmcounters := Function.update r.pmcounters k
        (if row.type ≠ .thermal then M.fl (r.pmcounters k + result) else result) }

def likwidMarkerStopRegion (regionTag : String) : MarkerProg Unit := do
  let s ← Prog.get
  Prog.when (s.likwidInit = false) (Prog.ret (-efault))
  let timestamp ← onPerfmon (readTsc M)
  let gs ← onPerfmon theGroupSet
  match getThreadID gs cpu with
  | none => Prog.ret (-efault)
  | some threadId => do
      Prog.when (maxNumThreads ≤ cpu) (Prog.halt .outOfBounds)
      let tag := groupTag regionTag gs.activeGroup
      Prog.modify fun s => { s with threadList := hashTableGet uninit cpu tag s.threadList }
      writeRecord cpu tag fun r =>
        { r with
          groupID := gs.activeGroup
          startTime := { r.startTime with stop := timestamp }
          time := M.fl (r.time + timerPrint M { r.startTime with stop := timestamp })
          count := (r.count + 1) % 2 ^ 32 }
      let _ ← onPerfmon (Prog.call (0 : Int) (perfmonReadCountersCpu B cpu))
      let (g, es) ← onPerfmon (groupAt gs.activeGroup)
      (List.range es.numberOfEvents).foldlM (fun _ i => stopEvent M cpu g threadId tag i) ()

/-! ## Runs -/

inductive MarkerCall where
  | start (regionTag : String)
  | stop (regionTag : String)

/-- A counter of the active group, as `events[i]` has it for the thread of the CPU. -/
structure Reading where
  index : RegisterIndex
  type : RegisterType
  data : Word
  overflows : Int

def Perfmon.reading (p : Perfmon) (i : ℕ) : Option Reading := do
  let gs ← p.groupSet
  let threadId ← getThreadID gs cpu
  let e ← activeEvent p gs.activeGroup.toNat i
  let row ← M.counterMap[e.index]?
  return ⟨e.index, row.type, (e.threadCounter threadId).counterData,
    (e.threadCounter threadId).overflows⟩

/-- The time stamp and the readings of a start. -/
structure Snapshot where
  stamp : Word
  readings : ℕ → Option Reading

/-- A completed interval of a region. -/
structure RegionInterval where
  timer : TimerData
  start : ℕ → Option Reading
  stop : ℕ → Option Reading

/-- What the calls measured, kept beside the state and read by none of them. -/
structure History where
  opened : String → Option Snapshot := fun _ => none
  intervals : String → List RegionInterval := fun _ => []

/-- A start opens an interval with the counters it has just read, a stop closes it. -/
def History.record (h : History) (s s' : Marker) : MarkerCall → History
  | .start regionTag =>
      { h with
        opened := Function.update h.opened regionTag
          (some ⟨M.tsc s.perfmon.stamps, s'.perfmon.reading M cpu⟩) }
  | .stop regionTag =>
      match h.opened regionTag with
      | none => h
      | some snapshot =>
          { opened := Function.update h.opened regionTag none
            intervals := Function.update h.intervals regionTag
              (h.intervals regionTag ++
                [⟨⟨snapshot.stamp, M.tsc s.perfmon.stamps⟩, snapshot.readings,
                  s'.perfmon.reading M cpu⟩]) }

def MarkerCall.prog : MarkerCall → MarkerProg Unit
  | .start regionTag => likwidMarkerStartRegion M B uninit cpu regionTag
  | .stop regionTag => likwidMarkerStopRegion M B uninit cpu regionTag

/-- A call that returns 0. -/
def MarkerStep (p : Marker × History) (call : MarkerCall) (p' : Marker × History) : Prop :=
  call.prog M B uninit cpu p.1 = .done () p'.1 ∧ p'.2 = p.2.record M cpu p.1 p'.1 call

/-- The calls of every region alternate. -/
def Alternates (p : Marker × History) : MarkerCall → Prop
  | .start regionTag => p.2.opened regionTag = none
  | .stop regionTag => (p.2.opened regionTag).isSome

/-! ## What the records hold -/

/-- `calculateMarkerResult` of the readings of event `i`. -/
def RegionInterval.result (v : RegionInterval) (i : ℕ) : ℚ :=
  match v.start i, v.stop i with
  | some r, some r' =>
      calculateMarkerResult M r'.index r'.type r.data r'.data (r'.overflows - r.overflows)
  | _, _ => 0

/-- Added in the order given, in the arithmetic of doubles. -/
def flSum (xs : List ℚ) : ℚ := xs.foldl (fun s x => M.fl (s + x)) 0

/-- The record of a region with `n` events has what its intervals add up to. -/
structure Totals (n : ℕ) (intervals : List RegionInterval) (r : LikwidThreadResults) : Prop where
  count : r.count = intervals.length
  time : r.time = flSum M (intervals.map fun v => timerPrint M v.timer)
  pmcounters : ∀ i : Fin numPmc, i < n →
    (∀ v ∈ intervals, ∃ rd, v.stop i = some rd ∧ rd.type ≠ .thermal) →
      r.pmcounters i = flSum M (intervals.map (·.result M i))

/-- Group `group` is active, has `n` events, and the CPU is that of its thread
`threadId`. -/
def Active (group : Int) (n threadId : ℕ) (p : Perfmon) : Prop :=
  ∃ gs es, p.groupSet = some gs ∧ gs.activeGroup = group ∧ 0 ≤ group ∧
    p.group? group.toNat = some es ∧ es.numberOfEvents = n ∧ getThreadID gs cpu = some threadId

/-- No interval of this group has been measured on the CPU yet. -/
def Unmeasured (group : Int) (s : Marker) : Prop :=
  ∀ regionTag r, s.threadList.record cpu (groupTag regionTag group) = some r →
    r.count = 0 ∧ r.time = 0 ∧ ∀ i, r.pmcounters i = 0

/-- **The records of a state.** -/
def Measured (group : Int) (n : ℕ) (q : Marker × History) : Prop :=
  ∀ regionTag, match q.1.threadList.record cpu (groupTag regionTag group) with
    | none => q.2.intervals regionTag = []
    | some r => Totals M n (q.2.intervals regionTag) r

/-- The state in which a call reads the counters: a stop has taken the time before. -/
def MarkerCall.reads (call : MarkerCall) (p : Perfmon) : Perfmon :=
  match call with
  | .start _ => p
  | .stop _ => { p with stamps := p.stamps + 1 }

/-- The call reads the counters of `n` events. -/
def ReadsTo (n : ℕ) (s : Marker) (call : MarkerCall) (p' : Perfmon) : Prop :=
  (∃ code, (Prog.call 0 (perfmonReadCountersCpu B cpu) : Prog Int Perfmon Int)
      (call.reads s.perfmon) = .done code p') ∧
    ∀ i < n, ∃ rd, p'.reading M cpu i = some rd

/-- What the calls need: a start finds readings that a double holds, and `count` has
room for one more. -/
def Holdable (n : ℕ) (q : Marker × History) (call : MarkerCall) : Prop :=
  ∃ p', ReadsTo M B cpu n q.1 call p' ∧
    match call with
    | .start _ => ∀ i < n, ∀ rd, p'.reading M cpu i = some rd →
        M.fl rd.data.toNat = rd.data.toNat
    | .stop regionTag => (q.2.intervals regionTag).length + 1 < 2 ^ 32

/-- A call that meets the condition. -/
def Guarded (n : ℕ) (q : Marker × History) (call : MarkerCall) : Prop :=
  Alternates q call ∧ Holdable M B cpu n q call

/-! ## Records -/

variable {M B uninit cpu} {s s' : Marker} {tl tl' : ThreadLists} {tag regionTag : String}
  {r r' : LikwidThreadResults} {p p' : Perfmon} {init : Bool}

/-- The record of the label is `r`, and the others are those of before. -/
def Only (cpu : ℕ) (tag : String) (tl tl' : ThreadLists) (r : LikwidThreadResults) : Prop :=
  ∀ c l, tl'.record c l = if c = cpu ∧ l = tag then some r else tl.record c l

theorem Only.self (h : Only cpu tag tl tl' r) : tl'.record cpu tag = some r := by
  rw [h, if_pos ⟨rfl, rfl⟩]

theorem Only.others (h : Only cpu tag tl tl' r) {c : ℕ} {l : String} (hne : ¬(c = cpu ∧ l = tag)) :
    tl'.record c l = tl.record c l := by
  rw [h, if_neg hne]

theorem Only.refl (h : tl.record cpu tag = some r) : Only cpu tag tl tl r := by
  intro c l
  split
  · next hkey =>
      obtain ⟨rfl, rfl⟩ := hkey
      exact h
  · rfl

theorem Only.trans {tl'' : ThreadLists} (h : Only cpu tag tl tl' r)
    (h' : Only cpu tag tl' tl'' r') :
    Only cpu tag tl tl'' r' := by
  intro c l
  rw [h' c l]
  split
  · rfl
  · next hkey => exact h.others hkey

theorem only_hashTableGet (uninit : LikwidThreadResults) (cpu : ℕ) (tag : String)
    (tl : ThreadLists) :
    Only cpu tag tl (hashTableGet uninit cpu tag tl)
      ((tl.record cpu tag).getD (uninit.new tag)) := by
  intro c l
  rw [record_hashTableGet]
  split
  · next hkey => rw [hkey.1, hkey.2]
  · rfl

theorem record_label (h : tl.record cpu tag = some r) : r.label = tag := by
  obtain ⟨thread, _, hlook⟩ := Option.bind_eq_some_iff.mp h
  exact RegionTable.label_of_lookup hlook

theorem only_update (f : LikwidThreadResults → LikwidThreadResults)
    (h : tl.record cpu tag = some r) (hf : (f r).label = r.label) :
    Only cpu tag tl (tl.update cpu tag f) (f r) := by
  intro c l
  rw [record_update]
  by_cases hc : c = cpu
  · subst hc
    by_cases hl : l = tag
    · subst hl
      have hlabel := record_label h
      have hwrite : RegionTable.write l f r = f r := by
        rw [RegionTable.write, if_pos hlabel, ← hlabel, ← hf]
      simp [h, hwrite]
    · rw [if_pos rfl, if_neg fun hkey => hl hkey.2]
      cases hrec : tl.record c l with
      | none => rfl
      | some r' =>
          have hlabel := record_label hrec
          simp [RegionTable.write, hlabel, hl]
  · rw [if_neg hc, if_neg fun hkey => hc hkey.1]

theorem writeRecord_apply (tag : String) (f : LikwidThreadResults → LikwidThreadResults)
    (s : Marker) : writeRecord cpu tag f s =
      .done () { s with threadList := s.threadList.update cpu tag f } := rfl

theorem foldlM_writes {b : ℕ → MarkerProg Unit} {n : ℕ} (part : ℕ → LikwidThreadResults)
    (hb : ∀ i < n, ∀ tl, tl.record cpu tag = some (part i) →
      ∃ tl', b i ⟨init, p, tl⟩ = .done () ⟨init, p, tl'⟩ ∧ Only cpu tag tl tl' (part (i + 1)))
    (h0 : tl.record cpu tag = some (part 0)) (j : ℕ) (hj : j ≤ n) :
    ∃ tl', (List.range j).foldlM (fun _ i => b i) () ⟨init, p, tl⟩ = .done () ⟨init, p, tl'⟩ ∧
      Only cpu tag tl tl' (part j) := by
  induction j with
  | zero => exact ⟨tl, rfl, Only.refl h0⟩
  | succ j ih =>
      obtain ⟨tl1, hrun, honly⟩ := ih (Nat.le_of_succ_le hj)
      obtain ⟨tl2, hbody, honly'⟩ := hb j hj tl1 honly.self
      refine ⟨tl2, ?_, honly.trans honly'⟩
      rw [List.range_succ, Prog.foldlM_concat j hrun]
      exact hbody

/-! ## Start -/

variable {group : Int} {n threadId i : ℕ} {rd : Reading}

theorem Active.of_groupSet (h : Active cpu group n threadId p)
    (heq : p'.control.groupSet = p.control.groupSet) : Active cpu group n threadId p' := by
  obtain ⟨gs, es, hgs, hgroup, h0, hes, hn, hthread⟩ := h
  rw [control_groupSet hgs] at heq
  obtain ⟨gs', hgs', hcontrol⟩ := Option.map_eq_some_iff.mp heq
  have hactive : gs'.activeGroup = gs.activeGroup :=
    (congrArg PerfmonGroupSet.activeGroup hcontrol :)
  have hthreads : gs'.threads = gs.threads := (congrArg PerfmonGroupSet.threads hcontrol :)
  have hgroups : gs'.groups.map PerfmonEventSet.control = gs.groups.map PerfmonEventSet.control :=
    congrArg PerfmonGroupSet.groups hcontrol
  have hes' : gs.groups[group.toNat]? = some es := by simpa [Perfmon.group?, hgs] using hes
  have hget : (gs'.groups[group.toNat]?).map PerfmonEventSet.control = some es.control := by
    rw [← List.getElem?_map, hgroups, List.getElem?_map, hes', Option.map_some]
  obtain ⟨es', hes', hcontrol'⟩ := Option.map_eq_some_iff.mp hget
  have hn' : es'.numberOfEvents = es.numberOfEvents :=
    (congrArg PerfmonEventSet.numberOfEvents hcontrol' :)
  refine ⟨gs', es', hgs', hactive.trans hgroup, h0, ?_, hn'.trans hn, ?_⟩
  · simp [Perfmon.group?, hgs', hes']
  · rw [getThreadID, hthreads]
    exact hthread

/-- What a reading is taken from. -/
theorem reading_eq_some (h : Active cpu group n threadId p)
    (hread : p.reading M cpu i = some rd) :
    ∃ e row, activeEvent p group.toNat i = some e ∧ M.counterMap[e.index]? = some row ∧
      rd = ⟨e.index, row.type, (e.threadCounter threadId).counterData,
        (e.threadCounter threadId).overflows⟩ := by
  obtain ⟨gs, es, hgs, rfl, _, _, _, hthread⟩ := h
  simp only [Perfmon.reading, hgs, hthread, Option.bind_eq_bind, Option.bind_some,
    Option.bind_eq_some_iff, Option.pure_def, Option.some.injEq] at hread
  obtain ⟨e, he, row, hrow, rfl⟩ := hread
  exact ⟨e, row, he, hrow, rfl⟩

theorem pmcIndex_of_lt {i : ℕ} (h : i < numPmc) : pmcIndex i = some ⟨i, h⟩ := dif_pos h

theorem update_assigned {α : Type} (v a : PmcArray α) (hi : i < numPmc) :
    Function.update (fun k : Fin numPmc => if k < i then v k else a k) ⟨i, hi⟩ (v ⟨i, hi⟩) =
      fun k : Fin numPmc => if k < i + 1 then v k else a k := by
  funext k
  by_cases hk : k = ⟨i, hi⟩
  · subst hk
    simp
  · have hne : k.val ≠ i := fun h => hk (Fin.ext h)
    have hlt : k.val < i + 1 ↔ k.val < i := by omega
    rw [Function.update_of_ne hk]
    simp only [hlt]

/-- The snapshot of the first `j` counters. -/
def LikwidThreadResults.snapshot (M : Machine) (rd : ℕ → Reading) (r : LikwidThreadResults)
    (j : ℕ) : LikwidThreadResults :=
  { r with
    startPMcounters := fun k => if k < j then toDouble M (rd k).data else r.startPMcounters k
    startOverflows := fun k => if k < j then (rd k).overflows else r.startOverflows k }

theorem LikwidThreadResults.snapshot_zero (M : Machine) (rd : ℕ → Reading)
    (r : LikwidThreadResults) : r.snapshot M rd 0 = r := by
  simp [snapshot]

theorem startEvent_eq {rd : ℕ → Reading} (h : Active cpu group n threadId p) (hi : i < numPmc)
    (hread : p.reading M cpu i = some (rd i))
    (hrec : tl.record cpu tag = some (r.snapshot M rd i)) :
    ∃ tl', startEvent M cpu group.toNat threadId tag i ⟨init, p, tl⟩ = .done () ⟨init, p, tl'⟩ ∧
      Only cpu tag tl tl' (r.snapshot M rd (i + 1)) := by
  obtain ⟨e, row, he, hrow, hrd⟩ := reading_eq_some h hread
  have hdata : (e.threadCounter threadId).counterData = (rd i).data := by rw [hrd]
  have hover : (e.threadCounter threadId).overflows = (rd i).overflows := by rw [hrd]
  have hstep : r.snapshot M rd (i + 1) =
      { r.snapshot M rd i with
        startPMcounters := Function.update (r.snapshot M rd i).startPMcounters ⟨i, hi⟩
          (toDouble M (e.threadCounter threadId).counterData)
        startOverflows := Function.update (r.snapshot M rd i).startOverflows ⟨i, hi⟩
          (e.threadCounter threadId).overflows } := by
    rw [hdata, hover]
    simp only [LikwidThreadResults.snapshot]
    rw [update_assigned (fun k => toDouble M (rd k).data) r.startPMcounters hi,
      update_assigned (fun k => (rd k).overflows) r.startOverflows hi]
  unfold startEvent
  rw [Prog.bind_of_done (Prog.get_apply _), pmcIndex_of_lt hi, he, hstep]
  exact ⟨_, rfl, only_update _ hrec rfl⟩

theorem startEvents_eq (init : Bool) {rd : ℕ → Reading} (h : Active cpu group n threadId p)
    (hn : n ≤ numPmc)
    (hread : ∀ i < n, p.reading M cpu i = some (rd i))
    (hrec : tl.record cpu tag = some r) :
    ∃ tl', (List.range n).foldlM (fun _ i => startEvent M cpu group.toNat threadId tag i) ()
        ⟨init, p, tl⟩ = .done () ⟨init, p, tl'⟩ ∧
      Only cpu tag tl tl' (r.snapshot M rd n) := by
  have h0 : tl.record cpu tag = some (r.snapshot M rd 0) := by
    rw [LikwidThreadResults.snapshot_zero]
    exact hrec
  exact foldlM_writes (r.snapshot M rd)
    (fun i hi _ => startEvent_eq h (hi.trans_le hn) (hread i hi)) h0 n le_rfl

theorem control_of_read {code : Int}
    (hread : (Prog.call 0 (perfmonReadCountersCpu B cpu) : Prog Int Perfmon Int) p =
      .done code p') :
    p'.control = p.control := by
  have hwp : (Prog.call 0 (perfmonReadCountersCpu B cpu) : Prog Int Perfmon Int).wp
      (fun _ p' => p'.control = p.control) (fun _ _ => True) p := by
    rw [Prog.wp_call]
    exact perfmonReadCountersCpu_control _ p
  have h := Prog.wp_done hwp hread
  exact h

theorem theGroupSet_apply {gs : PerfmonGroupSet} (h : p.groupSet = some gs) :
    (theGroupSet : Prog Int Perfmon PerfmonGroupSet) p = .done gs p := by
  unfold theGroupSet
  rw [Prog.bind_of_done (Prog.get_apply p), h]
  rfl

theorem groupAt_apply {es : PerfmonEventSet} (h0 : 0 ≤ group) (h : p.group? group.toNat = some es) :
    (groupAt group : Prog Int Perfmon (ℕ × PerfmonEventSet)) p = .done (group.toNat, es) p := by
  unfold groupAt
  rw [Prog.bind_of_done (Prog.get_apply p), if_pos h0, h]
  rfl

/-- The record as a start leaves it. -/
def LikwidThreadResults.started (M : Machine) (cpu : ℕ) (rd : ℕ → Reading) (n : ℕ) (stamp : Word)
    (r : LikwidThreadResults) : LikwidThreadResults :=
  { ({ r with cpuID := cpu } : LikwidThreadResults).snapshot M rd n with
    startTime := { r.startTime with start := stamp } }

theorem likwidMarkerStartRegion_eq (uninit : LikwidThreadResults) (regionTag : String)
    {rd : ℕ → Reading} {code : Int} (hcpu : cpu < maxNumThreads)
    (hn : n ≤ numPmc) (hinit : s.likwidInit = true) (h : Active cpu group n threadId s.perfmon)
    (hread : (Prog.call 0 (perfmonReadCountersCpu B cpu) : Prog Int Perfmon Int) s.perfmon =
      .done code p')
    (hrd : ∀ i < n, p'.reading M cpu i = some (rd i)) :
    ∃ tl, likwidMarkerStartRegion M B uninit cpu regionTag s =
        .done () ⟨true, { p' with stamps := p'.stamps + 1 }, tl⟩ ∧
      Only cpu (groupTag regionTag group) s.threadList tl
        (((s.threadList.record cpu (groupTag regionTag group)).getD
          (uninit.new (groupTag regionTag group))).started M cpu rd n
            (M.tsc s.perfmon.stamps)) := by
  have hcontrol := control_of_read hread
  have h' : Active cpu group n threadId p' := h.of_groupSet (congrArg Control.groupSet hcontrol)
  have hstamps : p'.stamps = s.perfmon.stamps := (congrArg Control.stamps hcontrol :)
  obtain ⟨gs, es, hgs, rfl, h0, hes, hnum, hthread⟩ := h
  obtain ⟨gs', es', hgs', _, _, hes', rfl, _⟩ := id h'
  obtain ⟨init, p, tl⟩ := s
  obtain rfl : init = true := hinit
  set tag := groupTag regionTag gs.activeGroup
  set r := (tl.record cpu tag).getD (uninit.new tag)
  -- the record, its CPU, the snapshot and the time stamp are written in turn
  have hget := only_hashTableGet uninit cpu tag tl
  have hcpuID := only_update (fun r => { r with cpuID := cpu }) hget.self rfl
  obtain ⟨tl', hloop, hsnapshot⟩ := startEvents_eq true h' hn hrd hcpuID.self
  refine ⟨tl'.update cpu tag fun r =>
    { r with startTime := { r.startTime with start := M.tsc p'.stamps } }, ?_, ?_⟩
  · have hset : onPerfmon theGroupSet ⟨true, p, tl⟩ = .done gs ⟨true, p, tl⟩ :=
      Prog.zoom_of_done (theGroupSet_apply hgs)
    have hreads : onPerfmon (Prog.call (0 : Int) (perfmonReadCountersCpu B cpu))
        ⟨true, p, hashTableGet uninit cpu tag tl⟩ =
          .done code ⟨true, p', hashTableGet uninit cpu tag tl⟩ := Prog.zoom_of_done hread
    have hgroup : ∀ tl, onPerfmon (groupAt gs.activeGroup) ⟨true, p', tl⟩ =
        .done (gs.activeGroup.toNat, es') ⟨true, p', tl⟩ := fun _ =>
      Prog.zoom_of_done (groupAt_apply h0 hes')
    have hnot : ¬(⟨true, p, tl⟩ : Marker).likwidInit = false := by simp
    unfold likwidMarkerStartRegion
    rw [Prog.bind_of_done (Prog.get_apply _), Prog.when_of_neg hnot, Prog.bind_pure_left,
      Prog.bind_of_done hset]
    simp only [hthread]
    rw [Prog.when_of_neg (Nat.not_le.mpr hcpu), Prog.bind_pure_left,
      Prog.bind_of_done (Prog.modify_apply _ _), Prog.bind_of_done hreads,
      Prog.bind_of_done (writeRecord_apply _ _ _), Prog.bind_of_done (hgroup _),
      Prog.bind_of_done hloop]
    rfl
  · rw [← hstamps]
    exact (hget.trans (hcpuID.trans hsnapshot)).trans (only_update _ hsnapshot.self rfl)

/-! ## Stop -/

theorem toWord_toNat (w : Word) : toWord w.toNat = some w := by
  have hlt : (w.toNat : ℚ) < 2 ^ 64 := by exact_mod_cast w.isLt
  have hfloor : (w.toNat : ℚ).floor = w.toNat := Rat.floor_intCast w.toNat
  rw [toWord, if_pos ⟨Nat.cast_nonneg _, hlt⟩, hfloor]
  simp

/-- What `calculateMarkerResult` makes of two readings. -/
def Reading.since (M : Machine) (start stop : Reading) : ℚ :=
  calculateMarkerResult M stop.index stop.type start.data stop.data
    (stop.overflows - start.overflows)

/-- The results of the first `j` events are added. -/
def LikwidThreadResults.counted (M : Machine) (start rd : ℕ → Reading) (r : LikwidThreadResults)
    (j : ℕ) : LikwidThreadResults :=
  { r with
    pmcounters := fun k =>
      if k < j then
        if (rd k).type ≠ .thermal then M.fl (r.pmcounters k + (start k).since M (rd k))
        else (start k).since M (rd k)
      else r.pmcounters k }

/-- The snapshot of a record is that of these readings. -/
def LikwidThreadResults.Started (n : ℕ) (start : ℕ → Reading) (r : LikwidThreadResults) : Prop :=
  ∀ k : Fin numPmc, k < n →
    r.startPMcounters k = (start k).data.toNat ∧ r.startOverflows k = (start k).overflows

theorem stopEvent_eq {start rd : ℕ → Reading} (h : Active cpu group n threadId p)
    (hi : i < numPmc) (hin : i < n) (hread : p.reading M cpu i = some (rd i))
    (hstart : r.Started n start) (hrec : tl.record cpu tag = some (r.counted M start rd i)) :
    ∃ tl', stopEvent M cpu group.toNat threadId tag i ⟨init, p, tl⟩ = .done () ⟨init, p, tl'⟩ ∧
      Only cpu tag tl tl' (r.counted M start rd (i + 1)) := by
  obtain ⟨e, row, he, hrow, hrd⟩ := reading_eq_some h hread
  obtain ⟨hdata, hover⟩ := hstart ⟨i, hi⟩ hin
  have hword : toWord ((r.counted M start rd i).startPMcounters ⟨i, hi⟩) = some (start i).data := by
    show toWord (r.startPMcounters ⟨i, hi⟩) = _
    rw [hdata, toWord_toNat]
  have hover' : (r.counted M start rd i).startOverflows ⟨i, hi⟩ = (start i).overflows := hover
  have hold : (r.counted M start rd i).pmcounters ⟨i, hi⟩ = r.pmcounters ⟨i, hi⟩ := by
    simp [LikwidThreadResults.counted]
  have hresult : calculateMarkerResult M e.index row.type (start i).data
      (e.threadCounter threadId).counterData
      ((e.threadCounter threadId).overflows - (start i).overflows) = (start i).since M (rd i) := by
    rw [hrd]
    rfl
  have htype : row.type = (rd i).type := by rw [hrd]
  have hstep : r.counted M start rd (i + 1) =
      { r.counted M start rd i with
        pmcounters := Function.update (r.counted M start rd i).pmcounters ⟨i, hi⟩
          (if row.type ≠ .thermal then
            M.fl ((r.counted M start rd i).pmcounters ⟨i, hi⟩ + (start i).since M (rd i))
          else (start i).since M (rd i)) } := by
    rw [hold, htype]
    simp only [LikwidThreadResults.counted]
    rw [update_assigned (fun k =>
      if (rd k).type ≠ .thermal then M.fl (r.pmcounters k + (start k).since M (rd k))
      else (start k).since M (rd k)) r.pmcounters hi]
  unfold stopEvent
  rw [Prog.bind_of_done (Prog.get_apply _), pmcIndex_of_lt hi, he]
  simp only [Prog.orOutOfBounds, Prog.orUndefined, Prog.bind_pure_left, hrec, hword, counterMap,
    hrow, hover', hresult]
  exact ⟨_, rfl, hstep ▸ only_update _ hrec rfl⟩

theorem stopEvents_eq (init : Bool) {start rd : ℕ → Reading} (h : Active cpu group n threadId p)
    (hn : n ≤ numPmc) (hread : ∀ i < n, p.reading M cpu i = some (rd i))
    (hstart : r.Started n start) (hrec : tl.record cpu tag = some r) :
    ∃ tl', (List.range n).foldlM (fun _ i => stopEvent M cpu group.toNat threadId tag i) ()
        ⟨init, p, tl⟩ = .done () ⟨init, p, tl'⟩ ∧
      Only cpu tag tl tl' (r.counted M start rd n) := by
  have h0 : tl.record cpu tag = some (r.counted M start rd 0) := by
    simpa [LikwidThreadResults.counted] using hrec
  exact foldlM_writes (r.counted M start rd)
    (fun i hi _ => stopEvent_eq h (hi.trans_le hn) hi (hread i hi) hstart) h0 n le_rfl

/-- What a stop writes before it reads the counters. -/
def LikwidThreadResults.close (M : Machine) (group : Int) (stamp : Word)
    (r : LikwidThreadResults) : LikwidThreadResults :=
  { r with
    groupID := group
    startTime := { r.startTime with stop := stamp }
    time := M.fl (r.time + timerPrint M { r.startTime with stop := stamp })
    count := (r.count + 1) % 2 ^ 32 }

theorem likwidMarkerStopRegion_eq (uninit : LikwidThreadResults) (regionTag : String)
    {start rd : ℕ → Reading} {code : Int} (hcpu : cpu < maxNumThreads)
    (hn : n ≤ numPmc) (hinit : s.likwidInit = true) (h : Active cpu group n threadId s.perfmon)
    (hread : (Prog.call 0 (perfmonReadCountersCpu B cpu) : Prog Int Perfmon Int)
      { s.perfmon with stamps := s.perfmon.stamps + 1 } = .done code p')
    (hrd : ∀ i < n, p'.reading M cpu i = some (rd i))
    (hrec : s.threadList.record cpu (groupTag regionTag group) = some r)
    (hstart : r.Started n start) :
    ∃ tl, likwidMarkerStopRegion M B uninit cpu regionTag s = .done () ⟨true, p', tl⟩ ∧
      Only cpu (groupTag regionTag group) s.threadList tl
        ((r.close M group (M.tsc s.perfmon.stamps)).counted M start rd n) := by
  have h' : Active cpu group n threadId p' :=
    h.of_groupSet (congrArg Control.groupSet (control_of_read hread) :)
  obtain ⟨gs, es, hgs, rfl, h0, hes, hnum, hthread⟩ := h
  obtain ⟨gs', es', hgs', _, _, hes', rfl, _⟩ := id h'
  obtain ⟨init, p, tl⟩ := s
  obtain rfl : init = true := hinit
  set tag := groupTag regionTag gs.activeGroup
  have hget : Only cpu tag tl (hashTableGet uninit cpu tag tl) r := by
    have hget := only_hashTableGet uninit cpu tag tl
    rwa [hrec] at hget
  have hclose := only_update (fun r => r.close M gs.activeGroup (M.tsc p.stamps)) hget.self rfl
  obtain ⟨tl', hloop, hcounted⟩ := stopEvents_eq true h' hn hrd
    (r := r.close M gs.activeGroup (M.tsc p.stamps)) hstart hclose.self
  refine ⟨tl', ?_, (hget.trans hclose).trans hcounted⟩
  have hset : onPerfmon theGroupSet ⟨true, { p with stamps := p.stamps + 1 }, tl⟩ =
      .done gs ⟨true, { p with stamps := p.stamps + 1 }, tl⟩ :=
    Prog.zoom_of_done (theGroupSet_apply hgs)
  have htsc : onPerfmon (readTsc M) ⟨true, p, tl⟩ =
      .done (M.tsc p.stamps) ⟨true, { p with stamps := p.stamps + 1 }, tl⟩ := rfl
  have hreads : ∀ tl, onPerfmon (Prog.call (0 : Int) (perfmonReadCountersCpu B cpu))
      ⟨true, { p with stamps := p.stamps + 1 }, tl⟩ = .done code ⟨true, p', tl⟩ := fun _ =>
    Prog.zoom_of_done hread
  have hgroup : ∀ tl, onPerfmon (groupAt gs.activeGroup) ⟨true, p', tl⟩ =
      .done (gs.activeGroup.toNat, es') ⟨true, p', tl⟩ := fun _ =>
    Prog.zoom_of_done (groupAt_apply h0 hes')
  have hnot : ¬(⟨true, p, tl⟩ : Marker).likwidInit = false := by simp
  unfold likwidMarkerStopRegion
  rw [Prog.bind_of_done (Prog.get_apply _), Prog.when_of_neg hnot, Prog.bind_pure_left,
    Prog.bind_of_done htsc, Prog.bind_of_done hset]
  simp only [hthread]
  rw [Prog.when_of_neg (Nat.not_le.mpr hcpu), Prog.bind_pure_left,
    Prog.bind_of_done (Prog.modify_apply _ _), Prog.bind_of_done (writeRecord_apply _ _ _),
    Prog.bind_of_done (hreads _), Prog.bind_of_done (hgroup _)]
  exact hloop

/-! ## Every run -/

/-- The region a call is about. -/
def MarkerCall.region : MarkerCall → String
  | .start regionTag | .stop regionTag => regionTag

/-- The record of a region against what was measured of it. -/
def RecordAgrees (M : Machine) (n : ℕ) (opened : Option Snapshot)
    (intervals : List RegionInterval) : Option LikwidThreadResults → Prop
  | none => intervals = [] ∧ opened = none
  | some r => Totals M n intervals r ∧ ∀ snapshot, opened = some snapshot →
      r.startTime.start = snapshot.stamp ∧
        ∃ start : ℕ → Reading, (∀ i < n, snapshot.readings i = some (start i)) ∧ r.Started n start

/-- The invariant of the runs. -/
structure Agrees (M : Machine) (cpu : ℕ) (group : Int) (n threadId : ℕ) (q : Marker × History) :
    Prop where
  init : q.1.likwidInit = true
  active : Active cpu group n threadId q.1.perfmon
  records : ∀ regionTag, RecordAgrees M n (q.2.opened regionTag) (q.2.intervals regionTag)
    (q.1.threadList.record cpu (groupTag regionTag group))

theorem groupTag_inj {regionTag' : String} :
    groupTag regionTag group = groupTag regionTag' group ↔ regionTag = regionTag' := by
  rw [groupTag, groupTag, String.append_left_inj, String.append_left_inj]

theorem flSum_concat (M : Machine) (xs : List ℚ) (x : ℚ) :
    flSum M (xs ++ [x]) = M.fl (flSum M xs + x) := by
  rw [flSum, List.foldl_append]
  rfl

theorem Totals.nil (h : r.count = 0 ∧ r.time = 0 ∧ ∀ i, r.pmcounters i = 0) : Totals M n [] r where
  count := h.1
  time := h.2.1
  pmcounters i _ _ := h.2.2 i

theorem Totals.concat {v : RegionInterval} {intervals : List RegionInterval}
    {start rd : ℕ → Reading} (h : Totals M n intervals r) (hcount : intervals.length + 1 < 2 ^ 32)
    (htimer : r.startTime.start = v.timer.start)
    (hstart : ∀ i < n, v.start i = some (start i)) (hstop : ∀ i < n, v.stop i = some (rd i)) :
    Totals M n (intervals ++ [v]) ((r.close M group v.timer.stop).counted M start rd n) where
  count := by
    show (r.count + 1) % 2 ^ 32 = _
    rw [h.count, Nat.mod_eq_of_lt hcount, List.length_append]
    rfl
  time := by
    have htimer' : ({ r.startTime with stop := v.timer.stop } : TimerData) = v.timer := by
      show (⟨r.startTime.start, v.timer.stop⟩ : TimerData) = v.timer
      rw [htimer]
    show M.fl (r.time + timerPrint M { r.startTime with stop := v.timer.stop }) = _
    rw [List.map_append, List.map_singleton, flSum_concat, h.time, htimer']
  pmcounters i hi hall := by
    obtain ⟨rd', hrd', hthermal⟩ := hall v (by simp)
    obtain rfl : rd i = rd' := Option.some.inj ((hstop i hi).symm.trans hrd')
    have hresult : v.result M i = (start i).since M (rd i) := by
      simp only [RegionInterval.result, hstart i hi, hstop i hi]
      rfl
    have hsum := h.pmcounters i hi fun v hv => hall v (List.mem_append_left _ hv)
    rw [List.map_append, List.map_singleton, flSum_concat, ← hsum, hresult]
    simp only [LikwidThreadResults.counted, hi, if_true, hthermal, ne_eq, not_false_eq_true]
    rfl

section Run

variable {q q' : Marker × History} {call : MarkerCall}

theorem RecordAgrees.none {opened : Option Snapshot} {intervals : List RegionInterval}
    (h : RecordAgrees M n opened intervals .none) : intervals = [] ∧ opened = .none := h

theorem RecordAgrees.getD {opened : Option Snapshot} {intervals : List RegionInterval}
    {o : Option LikwidThreadResults} (h : RecordAgrees M n opened intervals o)
    (uninit : LikwidThreadResults) (tag : String) :
    Totals M n intervals (o.getD (uninit.new tag)) := by
  cases o with
  | none =>
      rw [h.none.1]
      exact Totals.nil ⟨rfl, rfl, fun _ => rfl⟩
  | some r => exact h.1

theorem RecordAgrees.other {regionTag' : String} (h h' : History)
    (honly : Only cpu (groupTag regionTag group) tl tl' r) (hne : regionTag' ≠ regionTag)
    (hopened : h'.opened regionTag' = h.opened regionTag')
    (hintervals : h'.intervals regionTag' = h.intervals regionTag')
    (hagrees : RecordAgrees M n (h.opened regionTag') (h.intervals regionTag')
      (tl.record cpu (groupTag regionTag' group))) :
    RecordAgrees M n (h'.opened regionTag') (h'.intervals regionTag')
      (tl'.record cpu (groupTag regionTag' group)) := by
  have hrec := honly.others (c := cpu) (l := groupTag regionTag' group)
    fun hkey => hne (groupTag_inj.mp hkey.2)
  rw [hopened, hintervals, hrec]
  exact hagrees

theorem exists_readings {f : ℕ → Option Reading} (h : ∀ i < n, ∃ rd, f i = some rd) :
    ∃ rd : ℕ → Reading, ∀ i < n, f i = some (rd i) := by
  have : Nonempty Reading := ⟨⟨0, .notype, 0, 0⟩⟩
  choose! rd hrd using h
  exact ⟨rd, hrd⟩

theorem Agrees.start (hcpu : cpu < maxNumThreads) (hn : n ≤ numPmc)
    (h : Agrees M cpu group n threadId q)
    (hhold : Holdable M B cpu n q (.start regionTag)) :
    ∃ q' r, MarkerStep M B uninit cpu q (.start regionTag) q' ∧ Agrees M cpu group n threadId q' ∧
      Only cpu (groupTag regionTag group) q.1.threadList q'.1.threadList r := by
  obtain ⟨p', ⟨⟨code, hread⟩, hreadings⟩, hexact⟩ := hhold
  obtain ⟨rd, hrd⟩ := exists_readings hreadings
  obtain ⟨tl, hrun, honly⟩ :=
    likwidMarkerStartRegion_eq uninit regionTag hcpu hn h.init h.active hread hrd
  have hactive : Active cpu group n threadId { p' with stamps := p'.stamps + 1 } :=
    h.active.of_groupSet (congrArg Control.groupSet (control_of_read hread) :)
  let s' : Marker := ⟨true, { p' with stamps := p'.stamps + 1 }, tl⟩
  refine ⟨(s', q.2.record M cpu q.1 s' (.start regionTag)), _, ⟨hrun, rfl⟩,
    ⟨rfl, hactive, fun regionTag' => ?_⟩, honly⟩
  by_cases hregion : regionTag' = regionTag
  · subst hregion
    rw [honly.self]
    refine ⟨?_, fun snapshot hsnapshot => ?_⟩
    · obtain ⟨hcount, htime, hpm⟩ := (h.records regionTag').getD uninit
        (groupTag regionTag' group)
      exact ⟨hcount, htime, hpm⟩
    · have hnew : (q.2.record M cpu q.1 s' (.start regionTag')).opened regionTag' =
          some ⟨M.tsc q.1.perfmon.stamps, p'.reading M cpu⟩ := Function.update_self _ _ _
      obtain rfl := Option.some.inj (hnew.symm.trans hsnapshot)
      refine ⟨rfl, rd, hrd, fun k hk => ?_⟩
      have hdata : M.fl (rd k).data.toNat = (rd k).data.toNat := hexact k hk (rd k) (hrd k hk)
      simp [LikwidThreadResults.started, LikwidThreadResults.snapshot, hk, toDouble, hdata]
  · refine RecordAgrees.other q.2 _ honly hregion ?_ rfl (h.records regionTag')
    exact Function.update_of_ne hregion _ _

theorem Agrees.stop (hcpu : cpu < maxNumThreads) (hn : n ≤ numPmc)
    (h : Agrees M cpu group n threadId q) (hopen : Alternates q (.stop regionTag))
    (hhold : Holdable M B cpu n q (.stop regionTag)) :
    ∃ q' r, MarkerStep M B uninit cpu q (.stop regionTag) q' ∧ Agrees M cpu group n threadId q' ∧
      Only cpu (groupTag regionTag group) q.1.threadList q'.1.threadList r := by
  obtain ⟨p', ⟨⟨code, hread⟩, hreadings⟩, hcount⟩ := hhold
  obtain ⟨rd, hrd⟩ := exists_readings hreadings
  obtain ⟨snapshot, hsnapshot⟩ := Option.isSome_iff_exists.mp hopen
  have hrecord := h.records regionTag
  cases hrec : q.1.threadList.record cpu (groupTag regionTag group) with
  | none =>
      rw [hrec, hsnapshot] at hrecord
      cases hrecord.none.2
  | some r =>
      rw [hrec] at hrecord
      obtain ⟨htotals, hopened⟩ := hrecord
      obtain ⟨hstamp, start, hstart, hstarted⟩ := hopened snapshot hsnapshot
      obtain ⟨tl, hrun, honly⟩ := likwidMarkerStopRegion_eq uninit regionTag hcpu hn h.init
        h.active hread hrd hrec hstarted
      have hactive : Active cpu group n threadId p' :=
        h.active.of_groupSet (congrArg Control.groupSet (control_of_read hread) :)
      let s' : Marker := ⟨true, p', tl⟩
      refine ⟨(s', q.2.record M cpu q.1 s' (.stop regionTag)), _, ⟨hrun, rfl⟩,
        ⟨rfl, hactive, fun regionTag' => ?_⟩, honly⟩
      let v : RegionInterval :=
        ⟨⟨snapshot.stamp, M.tsc q.1.perfmon.stamps⟩, snapshot.readings, p'.reading M cpu⟩
      have hhistory : q.2.record M cpu q.1 s' (.stop regionTag) =
          { opened := Function.update q.2.opened regionTag none
            intervals := Function.update q.2.intervals regionTag
              (q.2.intervals regionTag ++ [v]) } := by
        simp only [History.record, hsnapshot]
        rfl
      rw [hhistory]
      by_cases hregion : regionTag' = regionTag
      · subst hregion
        rw [honly.self]
        simp only [Function.update_self]
        refine ⟨htotals.concat (v := v) hcount hstamp hstart hrd, fun _ hnone => ?_⟩
        cases hnone
      · refine RecordAgrees.other q.2 ⟨_, _⟩ honly hregion ?_ ?_ (h.records regionTag')
        · exact Function.update_of_ne hregion _ _
        · exact Function.update_of_ne hregion _ _

/-- **Every run**: as long as a double holds the readings of the starts, the records add
up to the intervals measured. The calls return, and write to their own record. -/
theorem measured_of_run (hcpu : cpu < maxNumThreads) (hn : n ≤ numPmc)
    (hinit : s.likwidInit = true) (hactive : Active cpu group n threadId s.perfmon)
    (hfresh : Unmeasured cpu group s)
    (hrun : Run (MarkerStep M B uninit cpu) (Guarded M B cpu n) (s, {}) q) :
    Measured M cpu group n q ∧
      ∀ call, Guarded M B cpu n q call →
        ∃ q', MarkerStep M B uninit cpu q call q' ∧
          ∀ c l, ¬(c = cpu ∧ l = groupTag call.region group) →
            q'.1.threadList.record c l = q.1.threadList.record c l := by
  have hstart : Agrees M cpu group n threadId (s, {}) := by
    refine ⟨hinit, hactive, fun regionTag => ?_⟩
    cases hrec : s.threadList.record cpu (groupTag regionTag group) with
    | none => exact ⟨rfl, rfl⟩
    | some r => exact ⟨Totals.nil (hfresh regionTag r hrec), nofun⟩
  have hcall : ∀ q call, Agrees M cpu group n threadId q → Guarded M B cpu n q call →
      ∃ q' r, MarkerStep M B uninit cpu q call q' ∧
        Agrees M cpu group n threadId q' ∧
          Only cpu (groupTag call.region group) q.1.threadList q'.1.threadList r := by
    intro q call h hguard
    obtain ⟨halternates, hhold⟩ := hguard
    cases call with
    | start regionTag => exact h.start hcpu hn hhold
    | stop regionTag => exact h.stop hcpu hn halternates hhold
  have hagrees : Agrees M cpu group n threadId q := by
    refine Run.invariant hstart (fun q call q' h hguard hstep => ?_) hrun
    obtain ⟨q'', _, hstep', h', _⟩ := hcall q call h hguard
    have hstate : q'.1 = q''.1 := by
      have hdone := hstep.1.symm.trans hstep'.1
      exact (Prog.Outcome.done.inj hdone).2
    have heq : q' = q'' := Prod.ext hstate (by rw [hstep.2, hstep'.2, hstate])
    exact heq ▸ h'
  constructor
  · intro regionTag
    have hrecord := hagrees.records regionTag
    cases hrec : q.1.threadList.record cpu (groupTag regionTag group) with
    | none => exact (hrec ▸ hrecord).1
    | some r => exact (hrec ▸ hrecord).1
  · intro call hguard
    obtain ⟨q', r, hstep, _, honly⟩ := hcall q call hagrees hguard
    exact ⟨q', hstep, fun c l => honly.others⟩

end Run

/-! ## A counter of 64 bits -/

def msrUncV3PcuCc6Ctr : ℕ := 0x3FD

/-- The residency counter of the Haswell EP tables, behind the client's. -/
def residencyTables : Tables where
  counterMap := haswellCounterMap ++
    [⟨"WBOX0FIX", 23, .wbox0fix, 0, msrUncV3PcuCc6Ctr, 0, msrDev, 0⟩]
  boxMap := fun t => if t = .wbox0fix then { regWidth := 64 } else haswellBoxMap t
  index_eq := index_eq_of_map (by decide)
  unit_row := by decide
  fixed_row := by decide
  fixed_private := by decide
  fixed_filter := by intro t; cases t <;> decide
  pmc_row := by decide
  pmc_private := by decide +kernel
  pmc_counter := by decide +kernel
  pmc_filter := by intro t; cases t <;> decide

def residencyMachine : Machine := { roundingMachine with toTables := residencyTables }

/-- The event set `CORE_C6_RESIDENCY:WBOX0FIX` on CPU 0, whose cores have slept for
`ticks` ticks. -/
def residencyMarker (ticks : Word) : Marker where
  likwidInit := true
  perfmon :=
    { core :=
        { regs := fun _ _ reg => if reg = msrUncV3PcuCc6Ctr then ticks else 0
          currentConfig := fun _ _ => 0
          registeredCpuList := fun _ => true
          socketLock := fun _ => 0
          tileLock := fun _ => 0
          haswellCboxSetup := none
          trace := [] }
      groupSet := some
        { numberOfGroups := 1
          numberOfActiveGroups := 1
          activeGroup := 0
          groups :=
            [{ numberOfEvents := 1
               events :=
                [some
                  { event := ⟨"CORE_C6_RESIDENCY", "WBOX0FIX", 0, 0, 0, 0, 0, 0, []⟩
                    index := 23
                    type := .wbox0fix
                    threadCounter := fun _ => { PerfmonCounter.fresh with init := true } }]
               timer := ⟨0, 0⟩
               rdtscTime := 0
               runTime := 0
               regTypeMask := regTypeMaskOf .wbox0fix
               state := .none }]
          threads := [⟨0, 0⟩] }
      stamps := 0
      intervals := [] }
  threadList := fun _ => none

def uninitResults : LikwidThreadResults where
  label := ""
  startTime := ⟨0, 0⟩
  groupID := 0
  cpuID := 0
  startOverflows := fun _ => 0

def sampled (M : Machine) (q : Marker × History) (call : MarkerCall) :
    Option (Marker × History) :=
  ((call.prog M (haswell M) uninitResults 0).result? q.1).map
    fun p => (p.2, q.2.record M 0 q.1 p.2 call)

theorem sampled_step {q q' : Marker × History} {call : MarkerCall}
    (h : sampled M q call = some q') :
    MarkerStep M (haswell M) uninitResults 0 q call q' := by
  obtain ⟨⟨_, s'⟩, hs', rfl⟩ := Option.map_eq_some_iff.mp h
  exact ⟨Prog.result?_eq_some.mp hs', rfl⟩

instance instDecidableAlternates (q : Marker × History) : ∀ call, Decidable (Alternates q call)
  | .start regionTag => decidable_of_iff (q.2.opened regionTag).isNone Option.isNone_iff_eq_none
  | .stop regionTag => inferInstanceAs (Decidable ((q.2.opened regionTag).isSome = true))

/-- One interval of region `R`, in which the residency does not change. -/
def residencyRun : Option (Marker × History) :=
  Run.exec (sampled residencyMachine) Alternates [.start "R", .stop "R"]
    (residencyMarker 0x20000000000001, {})

/-- The record says 1: the start keeps a reading of `2 ^ 53 + 1` as `2 ^ 53`. -/
theorem residencyRun_record :
    (residencyRun.bind fun q => q.1.threadList.record 0 (groupTag "R" 0)).map (·.pmcounters 0) =
      some 1 := by
  decide +kernel

theorem residencyRun_intervals :
    residencyRun.map (fun q => (q.2.intervals "R").map fun v =>
      (v.result residencyMachine 0, (v.stop 0).map Reading.type)) =
        some [(0, some .wbox0fix)] := by
  decide +kernel

/-- Whether a call that reads one counter meets the condition -/
def holdable (M : Machine) (q : Marker × History) (call : MarkerCall) : Bool :=
  let read : Prog Int Perfmon Int := Prog.call 0 (perfmonReadCountersCpu (haswell M) (0 : ℕ))
  ((read.result? (call.reads q.1.perfmon)).bind fun p => p.2.reading M 0 0).any fun rd =>
    match call with
    | .start _ => M.fl rd.data.toNat = rd.data.toNat
    | .stop regionTag => (q.2.intervals regionTag).length + 1 < 2 ^ 32

theorem Holdable.of_holdable {q : Marker × History} {call : MarkerCall}
    (h : holdable M q call = true) : Holdable M (haswell M) 0 1 q call := by
  obtain ⟨rd, hrd, hcall⟩ := (Option.any_eq_true _ _).mp h
  obtain ⟨⟨code, p'⟩, hread, hreading⟩ := Option.bind_eq_some_iff.mp hrd
  have hreads : ReadsTo M (haswell M) 0 1 q.1 call p' := by
    refine ⟨⟨code, Prog.result?_eq_some.mp hread⟩, fun i hi => ?_⟩
    obtain rfl := Nat.lt_one_iff.mp hi
    exact ⟨rd, hreading⟩
  refine ⟨p', hreads, ?_⟩
  cases call with
  | start regionTag =>
      intro i hi rd' hrd'
      obtain rfl := Nat.lt_one_iff.mp hi
      obtain rfl : rd = rd' := Option.some.inj (hreading.symm.trans hrd')
      exact of_decide_eq_true hcall
  | stop regionTag => exact of_decide_eq_true hcall

/-- A counter that counts on: every access finds ten more ticks in it. -/
def tickingMachine : Machine :=
  { residencyMachine with accessData := fun n _ _ _ value => value + 10 * BitVec.ofNat 64 n }

/-- Two regions that overlap; `R` is measured twice. -/
def overlappingRun : Option (Marker × History) :=
  Run.exec (sampled tickingMachine)
    (fun q call => Alternates q call ∧ holdable tickingMachine q call = true)
    [.start "R", .start "S", .stop "R", .start "R", .stop "S", .stop "R"] (residencyMarker 5, {})

theorem overlappingRun_records :
    overlappingRun.map (fun q => ["R", "S"].map fun regionTag =>
      (q.1.threadList.record 0 (groupTag regionTag 0)).map fun r =>
        (r.count, r.pmcounters 0)) = some [some (2, 160), some (1, 120)] := by
  decide +kernel

theorem overlappingRun_intervals :
    overlappingRun.map (fun q => ["R", "S"].map fun regionTag =>
      (q.2.intervals regionTag).map fun v => v.result tickingMachine 0) =
        some [[80, 80], [120]] := by
  decide +kernel

theorem measured_of_run_overlapping :
    ∃ q, Run (MarkerStep tickingMachine (haswell tickingMachine) uninitResults 0)
        (Guarded tickingMachine (haswell tickingMachine) 0 1) (residencyMarker 5, {}) q ∧
      (["R", "S"].map fun regionTag => (q.2.intervals regionTag).map fun v =>
        v.result tickingMachine 0) = [[80, 80], [120]] ∧
      (["R", "S"].map fun regionTag =>
        (q.1.threadList.record 0 (groupTag regionTag 0)).map fun r => (r.count, r.pmcounters 0)) =
          [some (2, 160), some (1, 120)] ∧
      Measured tickingMachine 0 0 1 q := by
  obtain ⟨q, hq, hrecords⟩ := Option.map_eq_some_iff.mp overlappingRun_records
  have hintervals := overlappingRun_intervals
  rw [hq, Option.map_some, Option.some.injEq] at hintervals
  have hrun : Run (MarkerStep tickingMachine (haswell tickingMachine) uninitResults 0)
      (Guarded tickingMachine (haswell tickingMachine) 0 1) (residencyMarker 5, {}) q :=
    (Run.of_exec (fun _ _ _ => sampled_step) hq).weaken
      fun _ _ hguard => ⟨hguard.1, Holdable.of_holdable hguard.2⟩
  have hactive : Active 0 0 1 0 (residencyMarker 5).perfmon :=
    ⟨_, _, rfl, rfl, le_rfl, rfl, rfl, rfl⟩
  exact ⟨q, hrun, hintervals, hrecords,
    (measured_of_run (by decide) (by decide) rfl hactive nofun hrun).1⟩

theorem not_measured_residency :
    ¬∀ q, Run (MarkerStep residencyMachine (haswell residencyMachine) uninitResults 0) Alternates
        (residencyMarker 0x20000000000001, {}) q →
      Measured residencyMachine 0 0 1 q := by
  intro h
  obtain ⟨q, hq, hintervals⟩ := Option.map_eq_some_iff.mp residencyRun_intervals
  obtain ⟨r, hr, hone⟩ := Option.map_eq_some_iff.mp residencyRun_record
  rw [hq, Option.bind_some] at hr
  have hmeasured := h q (Run.of_exec (fun _ _ _ => sampled_step) hq) "R"
  rw [hr] at hmeasured
  obtain ⟨v, hv, hpair⟩ := List.map_eq_singleton_iff.mp hintervals
  obtain ⟨hresult, htype⟩ := Prod.mk.inj hpair
  obtain ⟨rd, hrd, hwbox⟩ := Option.map_eq_some_iff.mp htype
  have hsum := hmeasured.pmcounters 0 Nat.one_pos fun v' hv' => by
    obtain rfl : v' = v := by simpa [hv] using hv'
    exact ⟨rd, hrd, by rw [hwbox]; decide⟩
  have hzero : flSum residencyMachine [v.result residencyMachine 0] = 0 := by
    rw [hresult]
    decide +kernel
  rw [hv, List.map_singleton] at hsum
  exact absurd (hone.symm.trans (hsum.trans hzero)) one_ne_zero

end Likwid
