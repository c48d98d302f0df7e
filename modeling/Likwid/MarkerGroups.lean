import Likwid.ActiveGroup
import Likwid.EventSets
import Likwid.MarkerRegions
import Likwid.SwitchGroup

/-!
# Stepping through the groups (`libperfctr.c`)

`likwid_markerInit` adds the event strings of `LIKWID_EVENTS`, makes the first group
the active one and relies on `likwid-perfctr` having started it.
`likwid_markerNextGroup` switches to the next number modulo the number of strings. The
switch sets the new group up and starts it only if the old one was started, by a state
of this process that no function of the marker API ever writes: a second group never
runs (`stepsThroughGroups_iff`).
-/

namespace Likwid

/-! ## The functions -/

/-- With the static variables of the event sets. -/
structure MarkerApi extends Marker where
  numberOfGroups : ℕ
  groups : List Int

abbrev MarkerApiProg (α : Type) : Type := Prog Unit MarkerApi α

/-- Work on the module `perfmon.c`. -/
def onModule {α : Type} (m : Prog Unit Perfmon α) : MarkerApiProg α :=
  Prog.zoom (fun s => s.perfmon) (fun p s => { s with perfmon := p }) m

/-- The value an exported function returns. -/
def callPerfmon (m : PerfmonProg Unit) : MarkerApiProg Int := onModule (Prog.call (0 : Int) m)

variable (M : Machine) (B : Backend)

/-- `groups[i] = perfmon_addEventSet(…)` -/
def addGroup (force : Int) (eventString : List Char) : MarkerApiProg Unit := do
  let code ← callPerfmon (perfmonAddEventSet M eventString force)
  Prog.modify fun s => { s with groups := s.groups ++ [code] }

/-- The body of `likwid_markerInit` up to the last event string. -/
def markerAddGroups (threads2Cpu : List ℕ) (eventStrings : List (List Char)) (force : Int) :
    MarkerApiProg Unit := do
  Prog.modify fun s => { s with likwidInit := true }
  Prog.when (M.lockCheck = false) (Prog.halt .exited)
  Prog.modify fun s => { s with threadList := fun _ => none }
  let code ← callPerfmon (perfmonInit M B threads2Cpu)
  Prog.when (code < 0) (Prog.ret ())
  Prog.modify fun s => { s with numberOfGroups := eventStrings.length, groups := [] }
  eventStrings.foldlM (fun _ eventString => addGroup M force eventString) ()

/-- `hashTable_initThread` -/
def hashTableInitThread (coreID : ℕ) (threadList : ThreadLists) : ThreadLists := fun core =>
  if core = coreID then some ((threadList core).getD { coreId := coreID }) else threadList core

/-- `threadCounter[i].init = TRUE` for the events of a group -/
def markInit (threadId : ℕ) (_ : Unit) : EventProg Unit :=
  Prog.onSnd (Prog.modify (·.setInit threadId true))

/-- The body of the last loop of `likwid_markerInit`. -/
def enableThread (cpu threadId : ℕ) : MarkerApiProg Unit := do
  Prog.when (maxNumThreads ≤ cpu) (Prog.halt .outOfBounds)
  Prog.modify fun s => { s with threadList := hashTableInitThread cpu s.threadList }
  let s ← Prog.get
  let first ← Prog.orOutOfBounds s.groups.head?
  let (g, es) ← onModule (groupAt first)
  let _ ← callPerfmon (onSlots g (Prog.forCells (markInit threadId) es.numberOfEvents ()))

/-- `likwid_markerInit`, with all of its environment variables set. -/
def likwidMarkerInit (threads2Cpu : List ℕ) (eventStrings : List (List Char)) (force : Int) :
    MarkerApiProg Unit := do
  markerAddGroups M B threads2Cpu eventStrings force
  threads2Cpu.zipIdx.foldlM (fun _ thread => enableThread thread.1 thread.2) ()
  Prog.modify fun s =>
    { s with perfmon := s.perfmon.modifyGroupSet fun gs => { gs with activeGroup := 0 } }

def likwidMarkerNextGroup : MarkerApiProg Unit := do
  let s ← Prog.get
  Prog.when (s.likwidInit = false) (Prog.ret ())
  let gs ← onModule theGroupSet
  Prog.when (s.numberOfGroups = 0) (Prog.halt .undefined)
  let nextGroup := (gs.activeGroup + 1).tmod s.numberOfGroups
  Prog.when (nextGroup ≠ gs.activeGroup) do
    let _ ← callPerfmon (perfmonSwitchActiveGroup M B nextGroup)

/-- `k` calls of `likwid_markerNextGroup`. -/
def nextGroups : ℕ → MarkerApiProg Unit
  | 0 => pure ()
  | k + 1 => do
      nextGroups k
      likwidMarkerNextGroup M B

/-! ## Adding the event strings -/

section Adding

variable {M B} {s s' : MarkerApi} {force : Int} {eventString : List Char}

/-- A call of `perfmon.c` leaves the rest of the state alone. -/
theorem wp_callPerfmon {m : PerfmonProg Unit} {Q : Int → Perfmon → Prop}
    (h : m.wp (fun _ p => Q 0 p) Q s.perfmon) :
    (callPerfmon m).wp (fun code s' => Q code s'.perfmon ∧ s' = { s with perfmon := s'.perfmon })
      (fun _ _ => False) s := by
  unfold callPerfmon onModule
  rw [Prog.wp_zoom, Prog.wp_call]
  exact Prog.wp_mono h (fun _ _ h => ⟨h, rfl⟩) fun _ _ h => ⟨h, rfl⟩

theorem callPerfmon_of_done {m : PerfmonProg Unit} {p : Perfmon} (h : m s.perfmon = .done () p) :
    callPerfmon m s = .done 0 { s with perfmon := p } := by
  unfold callPerfmon onModule
  exact Prog.zoom_of_done (Prog.call_of_done h)

theorem callPerfmon_of_ret {m : PerfmonProg Unit} {r : Int} {p : Perfmon}
    (h : m s.perfmon = .ret r p) : callPerfmon m s = .done r { s with perfmon := p } := by
  unfold callPerfmon onModule
  exact Prog.zoom_of_done (Prog.call_of_ret h)

theorem addGroup_outcome (eventString : List Char) (force : Int) (s : MarkerApi) :
    (addGroup M force eventString).wp
      (fun _ s' => ∃ code, AddOutcome M s.perfmon eventString force code s'.perfmon ∧
        s.perfmon.control.AddedEventSet M s'.perfmon.control ∧
        s' = { s with perfmon := s'.perfmon, groups := s.groups ++ [code] })
      (fun _ _ => False) s := by
  unfold addGroup
  rw [Prog.wp_bind]
  have hadd : (perfmonAddEventSet M eventString force).wp (fun _ _ => False)
      (fun code p => AddOutcome M s.perfmon eventString force code p ∧
        s.perfmon.control.AddedEventSet M p.control) s.perfmon :=
    Prog.wp_mono (Prog.wp_and (perfmonAddEventSet_outcome eventString force s.perfmon)
      (perfmonAddEventSet_control eventString force s.perfmon)) (fun _ _ h => h.1) fun _ _ h => h
  refine Prog.wp_mono (wp_callPerfmon (Prog.wp_mono hadd (fun _ _ h => h.elim) fun _ _ h => h))
    (fun code s1 h => ?_) fun _ _ h => h
  obtain ⟨⟨houtcome, hcontrol⟩, hs1⟩ := h
  rw [Prog.wp_modify]
  refine ⟨code, houtcome, hcontrol, ?_⟩
  rw [hs1]

/-- The groups while the strings `seen` are added: the codes that are not negative
number them, none was ever set up, and the first one holds the events of the first
string if that was accepted. -/
structure Loading (seen : List (List Char)) (s : MarkerApi) : Prop where
  likwidInit : s.likwidInit = true
  codes : s.groups.length = seen.length
  consistent : s.perfmon.control.Consistent
  table : ∃ gs, s.perfmon.groupSet = some gs ∧
    s.groups.filter (0 ≤ ·) = (List.range gs.numberOfActiveGroups).map Int.ofNat ∧
    ∀ i < gs.numberOfActiveGroups, ∃ es, gs.groups[i]? = some es ∧ es.state = .none
  first : s.groups.head? = some 0 → ∃ es entries descriptors,
    s.perfmon.group? 0 = some es ∧ seen.head?.map (·.splitOn ',') = some descriptors ∧
    es.events = layout descriptors entries ∧ es.numberOfEvents = entries.length ∧
    entries.length = (descriptors.filter (IsDescriptor ·)).length

/-- The groups after a call, when those before are `gs`. -/
theorem AddOutcome.groups {p p' : Perfmon} {gs : PerfmonGroupSet} {code : Int}
    (h : AddOutcome M p eventString force code p') (hgs : p.groupSet = some gs)
    (hc : gs.Consistent) :
    ∃ gs', p'.groupSet = some gs' ∧
      (∀ i < gs.numberOfActiveGroups, gs'.groups[i]? = gs.groups[i]?) ∧
      (code < 0 ∧ gs'.numberOfActiveGroups = gs.numberOfActiveGroups ∨
        code = gs.numberOfActiveGroups ∧
          gs'.numberOfActiveGroups = gs.numberOfActiveGroups + 1 ∧
          ∃ es cpu c parsed, Parsed M p eventString force gs cpu c parsed ∧
            gs'.groups[gs.numberOfActiveGroups]? = some es ∧ es.state = .none ∧
            es.events = parsed.slots ∧ es.numberOfEvents = parsed.numberOfEvents) := by
  have hneg : -einval < 0 := by decide
  rcases h with ⟨hr, rfl⟩ | ⟨gs0, cpu, c, parsed, hread, hend⟩
  · exact ⟨gs, hgs, fun _ _ => rfl, Or.inl ⟨hr ▸ hneg, rfl⟩⟩
  obtain rfl : gs = gs0 := Option.some.inj (hgs.symm.trans hread.groupSet)
  obtain ⟨-, hcount, -, -⟩ := Control.allocate_consistent (M := M) hc
  have hactive : (gs.filled M parsed).numberOfActiveGroups = gs.numberOfActiveGroups := hcount
  rcases hend with ⟨-, hr, rfl⟩ | ⟨-, hr, rfl⟩
  · exact ⟨_, rfl, fun i hi => filled_of_lt hc hi, Or.inl ⟨hr ▸ hneg, hactive⟩⟩
  · obtain ⟨es, hes, hevents, hnumber, -⟩ := filled_self (M := M) parsed hc
    refine ⟨_, rfl, fun i hi => ?_, Or.inr ⟨hr, ?_, _, cpu, c, parsed, hread,
      committed_self hes, rfl, hevents, hnumber⟩⟩
    · rw [committed_of_ne (by omega)]
      exact filled_of_lt hc hi
    · rw [← hactive]
      rfl

theorem Loading.pos {seen : List (List Char)} {gs : PerfmonGroupSet} (h : Loading seen s)
    (hgs : s.perfmon.groupSet = some gs) (hhead : s.groups.head? = some 0) :
    0 < gs.numberOfActiveGroups := by
  obtain ⟨gs', hgs', hcodes, -⟩ := h.table
  obtain rfl : gs = gs' := Option.some.inj (hgs.symm.trans hgs')
  have hmem : (0 : Int) ∈ s.groups.filter (0 ≤ ·) :=
    List.mem_filter.mpr ⟨List.mem_of_mem_head? hhead, by decide⟩
  rw [hcodes] at hmem
  obtain ⟨i, hi, -⟩ := List.mem_map.mp hmem
  have hlt := List.mem_range.mp hi
  omega

/-- **One string** keeps the invariant. -/
theorem Loading.add {seen : List (List Char)} {code : Int} (h : Loading seen s)
    (hadd : AddOutcome M s.perfmon eventString force code s'.perfmon)
    (hcontrol : s.perfmon.control.AddedEventSet M s'.perfmon.control)
    (hs' : s' = { s with perfmon := s'.perfmon, groups := s.groups ++ [code] }) :
    Loading (seen ++ [eventString]) s' := by
  have hpos : ∀ {gs}, s.perfmon.groupSet = some gs → s.groups.head? = some 0 →
      0 < gs.numberOfActiveGroups := fun hgs => h.pos hgs
  obtain ⟨hinit, hlength, hc, ⟨gs, hgs, hcodes, hnone⟩, hfirst⟩ := h
  have hgroups : s'.groups = s.groups ++ [code] := by rw [hs']
  obtain ⟨gs', hgs', hsame, hnew⟩ := hadd.groups hgs
    (consistent_of_control (hc _ (control_groupSet hgs)))
  refine ⟨by rw [hs']; exact hinit, by simp [hgroups, hlength], hcontrol.consistent hc,
    ⟨gs', hgs', ?_, ?_⟩, ?_⟩
  · rw [hgroups, List.filter_append, hcodes]
    rcases hnew with ⟨hneg, hn⟩ | ⟨hcode, hn, -⟩
    · simp [hn, hneg]
    · simp [hcode, hn, List.range_succ]
  · intro i hi
    rcases Nat.lt_or_ge i gs.numberOfActiveGroups with hlt | hge
    · rw [hsame i hlt]
      exact hnone i hlt
    · rcases hnew with ⟨-, hn⟩ | ⟨-, hn, es, -, -, -, -, hes, hstate, -⟩
      · omega
      · obtain rfl : i = gs.numberOfActiveGroups := by omega
        exact ⟨es, hes, hstate⟩
  · intro hhead
    rw [hgroups] at hhead
    cases hold : s.groups with
    | nil =>
        -- the first string is this one
        have hseen : seen = [] := List.length_eq_zero_iff.mp (by simpa [hold] using hlength.symm)
        have hn : gs.numberOfActiveGroups = 0 := by simpa [hold] using hcodes.symm
        rw [hold] at hhead
        have hzero : code = 0 := by simpa using hhead
        rcases hnew with ⟨hneg, -⟩ | ⟨-, -, es, cpu, c, parsed, hread, hes, -, hevents, hnumber⟩
        · omega
        · obtain ⟨entries, -, hlen, hslots, hcount⟩ :=
            Prog.wp_done (addEvents_described _ _ _ _) hread.events
          refine ⟨es, entries, _, ?_, by rw [hseen]; rfl, ?_, ?_, hlen⟩
          · rw [hn] at hes
            simpa [Perfmon.group?, hgs'] using hes
          · simpa [hevents] using hslots
          · simpa [hnumber] using hcount
    | cons code0 codes =>
        have hhead0 : s.groups.head? = some 0 := by simpa [hold] using hhead
        obtain ⟨es, entries, descriptors, hes, hstring, hrest⟩ := hfirst hhead0
        refine ⟨es, entries, descriptors, ?_, ?_, hrest⟩
        · have hlt := hpos hgs hhead0
          simp only [Perfmon.group?, hgs, hgs', Option.bind_some] at hes ⊢
          rw [hsame 0 hlt]
          exact hes
        · cases seen with
          | nil => simp at hstring
          | cons first rest => exact hstring

theorem perfmonInit_first {p : Perfmon} (hfresh : p.groupSet = none) (threadsToCpu : List ℕ) :
    (perfmonInit M B threadsToCpu).wp (fun _ _ => threadsToCpu ≠ []) (fun r _ => r < 0) p := by
  unfold perfmonInit
  rw [Prog.wp_bind, Prog.wp_get]
  simp only [hfresh, Prog.wp_bind, Prog.wp_when, Prog.wp_ret, Prog.wp_modify]
  refine ⟨fun _ => by decide, fun hne => ⟨fun _ => by decide, fun _ => ⟨fun _ => by decide,
    fun _ => ?_⟩⟩⟩
  refine Prog.wp_mono (Prog.wp_foldlM (I := fun _ _ => True) (R := fun _ _ => False) ?_ trivial)
    (fun _ _ _ => hne) fun _ _ h => h.elim
  intro _ cpu _ s1 _ _
  rw [Prog.wp_bind]
  refine Prog.wp_mono (Q := fun _ _ => True) (R := fun _ _ => False) ?_ (fun _ s2 _ => ?_)
    fun _ _ h => h.elim
  · rw [Prog.wp_zoom]
    trivial
  · rw [Prog.wp_bind, Prog.wp_zoom, Prog.wp_call]
    exact Prog.wp_mono (Prog.wp_trivial _) (fun _ _ _ => trivial) fun _ _ _ => trivial

/-- When all strings have been added. -/
theorem markerAddGroups_loading (hfresh : s.perfmon.groupSet = none) (threads2Cpu : List ℕ)
    (eventStrings : List (List Char)) (force : Int) :
    (markerAddGroups M B threads2Cpu eventStrings force).wp
      (fun _ s' => Loading eventStrings s' ∧ s'.numberOfGroups = eventStrings.length ∧
        threads2Cpu ≠ [])
      (fun _ _ => True) s := by
  unfold markerAddGroups
  simp only [Prog.wp_bind, Prog.wp_modify, Prog.wp_when, Prog.wp_halt, Prog.wp_ret]
  refine ⟨fun _ => trivial, fun _ => ?_⟩
  have hinit : (perfmonInit M B threads2Cpu).wp
      (fun _ p => s.perfmon.control.Initialised p.control ∧ threads2Cpu ≠ [])
      (fun r _ => r < 0) s.perfmon :=
    Prog.wp_mono (Prog.wp_and (perfmonInit_control threads2Cpu s.perfmon)
      (perfmonInit_first hfresh threads2Cpu)) (fun _ _ h => h) fun _ _ h => h.2
  refine Prog.wp_mono (wp_callPerfmon (Q := fun code p => 0 ≤ code →
    s.perfmon.control.Initialised p.control ∧ threads2Cpu ≠ []) (Prog.wp_mono hinit
      (fun _ _ h _ => h) fun _ _ h h0 => absurd h (Int.not_lt.mpr h0)))
    (fun code s1 h1 => ?_) fun _ _ h => h.elim
  obtain ⟨hcode, hs1⟩ := h1
  refine ⟨fun _ => trivial, fun hnonneg => ?_⟩
  obtain ⟨hfirst, hne⟩ := hcode (Int.not_lt.mp hnonneg)
  let start : MarkerApi := { s1 with numberOfGroups := eventStrings.length, groups := [] }
  have hstart : Loading [] start := by
    obtain ⟨-, gs, hk, -, hzero, -⟩ := id hfirst
    obtain ⟨gs', hgs', heq⟩ := Option.map_eq_some_iff.mp ((congrArg Control.groupSet hk :))
    have hn : gs'.numberOfActiveGroups = 0 := by
      rw [← hzero, ← heq]
      rfl
    refine ⟨by rw [show start.likwidInit = s1.likwidInit from rfl, hs1], rfl, hfirst.consistent,
      ⟨gs', hgs', by rw [hn]; rfl, fun i hi => by omega⟩, fun h => by cases h⟩
  refine Prog.wp_mono (Prog.wp_foldlM (I := fun seen (s' : MarkerApi) => Loading seen s' ∧
    s'.numberOfGroups = eventStrings.length) (R := fun _ _ => True) ?_ ⟨hstart, rfl⟩)
    (fun _ s2 h2 => ⟨h2.1, h2.2, hne⟩) fun _ _ h => h
  intro seen eventString rest s2 _ h2
  refine Prog.wp_mono (addGroup_outcome eventString force s2) (fun _ s3 h3 => ?_)
    fun _ _ h => h.elim
  obtain ⟨code, hadd, hcontrol, hs3⟩ := h3
  refine ⟨h2.1.add hadd hcontrol hs3, ?_⟩
  rw [hs3]
  exact h2.2

end Adding

/-- The events of group 0 have all been initialised. -/
def MarkerApi.FirstFilled (s : MarkerApi) : Prop :=
  ∀ es, s.perfmon.group? 0 = some es → ∀ i < es.numberOfEvents, ∃ e, es.events[i]? = some (some e)

/-! ## Enabling the threads -/

section Enabling

variable {s s' : MarkerApi} {cpu threadId : ℕ}

/-- What enabling a thread does not change. -/
structure Enabled (s s' : MarkerApi) : Prop where
  likwidInit : s'.likwidInit = s.likwidInit
  numberOfGroups : s'.numberOfGroups = s.numberOfGroups
  groups : s'.groups = s.groups
  control : s'.perfmon.control = s.perfmon.control

theorem Enabled.refl (s : MarkerApi) : Enabled s s := ⟨rfl, rfl, rfl, rfl⟩

theorem Enabled.trans {s'' : MarkerApi} (h : Enabled s s') (h' : Enabled s' s'') : Enabled s s'' :=
  ⟨h'.likwidInit.trans h.likwidInit, h'.numberOfGroups.trans h.numberOfGroups,
    h'.groups.trans h.groups, h'.control.trans h.control⟩

/-- The loop over the events of the first group needs every one of them. -/
theorem forCells_markInit (threadId : ℕ) (c : Core) : ∀ (n : ℕ) (slots : List Slot),
    (∀ i < n, ∃ e, slots[i]? = some (some e)) →
      ∃ slots', (Prog.forCells (markInit threadId) n () : Prog Int (Core × List Slot) Unit)
          (c, slots) = .done () (c, slots') ∧
        ∀ i < n, ∃ e, slots'[i]? = some (some e) := by
  intro n
  induction n with
  | zero => exact fun slots _ => ⟨slots, rfl, fun i hi => by omega⟩
  | succ n ih =>
      intro slots h
      obtain ⟨e, he⟩ := h 0 (by omega)
      cases slots with
      | nil => simp at he
      | cons cell rest =>
          obtain rfl : cell = some e := by simpa using he
          obtain ⟨rest', hrun, hrest⟩ := ih rest fun i hi => by
            simpa using h (i + 1) (by omega)
          refine ⟨some (e.setInit threadId true) :: rest', ?_, fun i hi => ?_⟩
          · show Prog.tail (Prog.forCells (markInit threadId) n ())
              (c, some (e.setInit threadId true) :: rest) = _
            simp only [Prog.tail]
            rw [hrun]
            rfl
          · cases i with
            | zero => exact ⟨_, rfl⟩
            | succ i => simpa using hrest i (by omega)

theorem enableThread_done (threadId : ℕ) {es : PerfmonEventSet} (hcpu : cpu < maxNumThreads)
    (hhead : s.groups.head? = some 0) (hes : s.perfmon.group? 0 = some es)
    (hfilled : s.FirstFilled) :
    ∃ s', enableThread cpu threadId s = .done () s' ∧ Enabled s s' ∧ s'.FirstFilled := by
  obtain ⟨slots', hrun, hslots'⟩ :=
    forCells_markInit threadId s.perfmon.core es.numberOfEvents es.events
      (hfilled es hes)
  have hslots := onSlots_of_done hes hrun
  let p' := s.perfmon.putSlots 0 (s.perfmon.core, slots')
  let s' : MarkerApi :=
    { s with perfmon := p', threadList := hashTableInitThread cpu s.threadList }
  refine ⟨s', ?_, ⟨rfl, rfl, rfl, control_putSlots _ _⟩, fun es' hes' => ?_⟩
  · unfold enableThread
    rw [Prog.when_of_neg (Nat.not_le.mpr hcpu), Prog.bind_pure_left,
      Prog.bind_of_done (Prog.modify_apply _ _), Prog.bind_of_done (Prog.get_apply _)]
    let s1 : MarkerApi := { s with threadList := hashTableInitThread cpu s.threadList }
    have hgroup : onModule (groupAt 0) s1 = .done (0, es) s1 :=
      Prog.zoom_of_done (groupAt_some (Int.le_refl 0) hes)
    have hfirst : s1.groups.head? = some 0 := hhead
    show (Prog.orOutOfBounds s1.groups.head? >>= _ : MarkerApiProg Unit) s1 = _
    rw [hfirst]
    show (onModule (groupAt 0) >>= _ : MarkerApiProg Unit) s1 = _
    rw [Prog.bind_of_done hgroup]
    exact Prog.bind_of_done (callPerfmon_of_done hslots)
  · have hgroup : p'.group? 0 = some { es with events := slots' } := by
      show (Perfmon.modifyGroup _ 0 _).group? 0 = _
      rw [group?_modifyGroup]
      show (s.perfmon.group? 0).map _ = _
      rw [hes]
      rfl
    obtain rfl := Option.some.inj (hgroup.symm.trans hes')
    exact hslots'

/-- An enabled thread is in range, and the first group was accepted and has all its
events. -/
theorem enableThread_needs (cpu threadId : ℕ) (s : MarkerApi) :
    (enableThread cpu threadId).wp
      (fun _ s' => cpu < maxNumThreads ∧ Enabled s s' ∧ ∃ first es, s.groups.head? = some first ∧
        0 ≤ first ∧ s.perfmon.group? first.toNat = some es ∧
        ∀ i < es.numberOfEvents, ∃ e, es.events[i]? = some (some e))
      (fun _ _ => False) s := by
  unfold enableThread onModule
  simp only [Prog.wp_bind, Prog.wp_when, Prog.wp_halt, Prog.wp_modify, Prog.wp_get,
    Prog.wp_orOutOfBounds, Prog.wp_zoom, wp_groupAt]
  refine ⟨fun _ => trivial, fun hcpu first hfirst h0 es hes => ?_⟩
  have hloop : (onSlots first.toNat
      (Prog.forCells (markInit threadId) es.numberOfEvents ()) : PerfmonProg Unit).wp
      (fun _ p => p.control = s.perfmon.control ∧
        ∀ i < es.numberOfEvents, ∃ e, es.events[i]? = some (some e))
      (fun _ _ => False) s.perfmon := by
    unfold onSlots
    rw [Prog.wp_zoom]
    have hview : ((s.perfmon.group? first.toNat).map PerfmonEventSet.events).getD [] =
        es.events := by
      rw [hes]
      rfl
    have hbody : ∀ (b : Unit) (c : Core) (e : PerfmonEventSetEntry),
        (markInit threadId b).wp (fun _ _ => True) (fun _ _ => False) (c, e) :=
      fun _ _ _ => trivial
    refine Prog.wp_mono (Prog.forCells_cells (S := fun _ _ => True) (T := fun _ _ => False)
      hbody es.numberOfEvents () _ _) (fun _ q hq => ?_)
      fun _ _ h => h.elim fun _ _ => id
    refine ⟨control_putSlots _ q, fun i hi => ?_⟩
    obtain ⟨e, -, he, -⟩ := hq.get_lt hi
    exact ⟨e, hview ▸ he⟩
  refine Prog.wp_mono (wp_callPerfmon (Q := fun _ p => p.control = s.perfmon.control ∧
    ∀ i < es.numberOfEvents, ∃ e, es.events[i]? = some (some e))
    (Prog.wp_mono hloop (fun _ _ h => h) fun _ _ h => h.elim)) (fun code s1 h1 => ?_)
    fun _ _ h => h
  obtain ⟨⟨hk, hfilled⟩, hs1⟩ := h1
  refine ⟨Nat.not_le.mp hcpu, ⟨?_, ?_, ?_, hk⟩, first, es, hfirst, h0, hes, hfilled⟩
  · rw [hs1]
  · rw [hs1]
  · rw [hs1]

end Enabling

/-! ## Switching while no group runs -/

section Idle

variable {M B} {s s' : Perfmon} {n : ℕ}

/-- `n` groups were added and none runs. -/
structure Control.Idle (k : Control) (n : ℕ) : Prop where
  consistent : k.Consistent
  count : k.frame.map Prod.fst = some n
  rest : ∀ i, ¬k.Running i

theorem Control.Idle.modifyGroup {k : Control} (h : k.Idle n) (g : ℕ)
    {f : PerfmonEventSet → PerfmonEventSet} (hf : ∀ es, (f es).state = es.state) :
    (k.modifyGroup g f).Idle n where
  consistent := h.consistent.modifyGroup g f
  count := by rw [Control.frame_modifyGroup, h.count]
  rest i hi := h.rest i ((Control.running_modifyGroup hf).mp hi)

theorem Control.frame_setActive (k : Control) (g : Int) : (k.setActive g).frame = k.frame := by
  unfold Control.frame Control.setActive Control.modifyGroupSet
  cases k.groupSet <;> rfl

theorem Control.inState_setActive {k : Control} {g : Int} {i : ℕ} {state : GroupState} :
    (k.setActive g).InState i state ↔ k.InState i state := by
  unfold Control.InState Control.group? Control.setActive Control.modifyGroupSet
  cases k.groupSet <;> simp

theorem Control.Idle.setUp {k k' : Control} (h : k.Idle n) {g : Int} (hs : k.SetUp g k') :
    k'.Idle n := by
  refine ⟨hs.consistent h.consistent, ?_, fun i hi => ?_⟩
  · rw [hs.eq h.consistent]
    refine (congrArg (Option.map Prod.fst) (Control.frame_modifyGroup _ _ _)).trans ?_
    rw [Control.frame_setActive, h.count]
  · rw [hs.eq h.consistent] at hi
    rcases hi.of_setState with ⟨-, h'⟩ | ⟨-, hi⟩
    · cases h'
    · exact h.rest i (Control.running_setActive.mp hi)

theorem Control.Idle.leave (h : s.control.Idle n) (a : ℕ) : (s.leave M a).control.Idle n := by
  rw [control_leave]
  have hstop : (s.control.stopTimer M a).Idle n := by
    obtain ⟨hc, hcount, hrest⟩ := h.modifyGroup a
      (f := fun es => { es with timer := { es.timer with stop := M.tsc s.control.stamps } })
      fun _ => rfl
    exact ⟨hc, hcount, hrest⟩
  exact hstop.modifyGroup a fun _ => rfl

/-- The switch of a thread sets the new group up at most. -/
theorem perfmonSwitchActiveGroupThread_idle {threadId : ℕ} {newGroup : Int}
    (h : s.control.Idle n) :
    (perfmonSwitchActiveGroupThread M B threadId newGroup).wp (fun _ s' => s'.control.Idle n)
      (fun _ s' => s'.control.Idle n) s := by
  unfold perfmonSwitchActiveGroupThread
  rw [Prog.wp_bind, wp_requireInit]
  refine ⟨fun gs hgs => ?_, fun _ => h⟩
  rw [Prog.wp_bind, wp_groupAt]
  intro h0 es hes
  have hne : es.state ≠ .start := by
    intro hstart
    obtain ⟨gs', hgs', hlt⟩ := h.consistent.active_added (control_active hgs h0)
    exact h.rest _ ⟨gs', hgs', hlt, hstart ▸ control_inState hes⟩
  have hleave := h.leave (M := M) gs.activeGroup.toNat
  dsimp only
  rw [Prog.wp_bind, wp_timerStop, Prog.wp_bind, Prog.wp_modify]
  show Prog.wp _ _ _ (s.leave M gs.activeGroup.toNat)
  rw [Prog.wp_bind, Prog.wp_when]
  refine ⟨fun hstart => absurd hstart hne, fun _ => ?_⟩
  have hclear : (Prog.when (es.state = .setup)
      (onSlots gs.activeGroup.toNat (Prog.forCells (clearInit threadId) es.numberOfEvents ())) :
        PerfmonProg Unit).wp
      (fun _ s' => s'.control = (s.leave M gs.activeGroup.toNat).control) (fun _ _ => False)
      (s.leave M gs.activeGroup.toNat) :=
    Prog.wp_when.mpr ⟨fun _ => clearInit_control _ _ _ _, fun _ => rfl⟩
  rw [Prog.wp_bind]
  refine Prog.wp_mono hclear (fun _ s1 hk => ?_) fun _ _ h => h.elim
  rw [← hk] at hleave
  rw [Prog.wp_bind, Prog.wp_call]
  refine Prog.wp_mono (perfmonSetupCounters_control newGroup s1) (fun _ s2 hset => ?_)
    fun r s2 hfail => ?_
  · simp only [Prog.wp_bind, Prog.wp_when, Prog.wp_ret]
    exact ⟨fun hne => absurd rfl hne, fun _ => ⟨fun hstart => absurd hstart hne,
      fun _ => hleave.setUp hset⟩⟩
  · obtain ⟨hr, -, hk⟩ := hfail
    rw [Prog.wp_bind, Prog.wp_when, Prog.wp_ret, hk]
    exact ⟨fun _ => hleave, fun hz => absurd hr hz⟩

/-- **A switch starts no group** while none runs. -/
theorem perfmonSwitchActiveGroup_idle {newGroup : Int} (h : s.control.Idle n) :
    (perfmonSwitchActiveGroup M B newGroup).wp (fun _ s' => s'.control.Idle n)
      (fun _ s' => s'.control.Idle n) s := by
  unfold perfmonSwitchActiveGroup
  rw [Prog.wp_bind, wp_theGroupSet]
  intro gs _
  refine Prog.wp_foldlM (I := fun _ (s' : Perfmon) => s'.control.Idle n) ?_ h
  intro _ th _ s1 _ h1
  rw [Prog.wp_bind, Prog.wp_call]
  refine Prog.wp_mono (perfmonSwitchActiveGroupThread_idle h1) (fun _ s2 h2 => ?_) fun r s2 h2 => ?_
  · rw [Prog.wp_when]
    exact ⟨fun _ => h2, fun _ => h2⟩
  · rw [Prog.wp_when]
    exact ⟨fun _ => h2, fun _ => h2⟩

/-- Group 0 is the only one, active, and was never set up. -/
def Perfmon.Single (p : Perfmon) : Prop :=
  ∃ gs es, p.groupSet = some gs ∧ gs.numberOfActiveGroups = 1 ∧ gs.activeGroup = 0 ∧
    gs.threads ≠ [] ∧ gs.groups[0]? = some es ∧ es.state = .none

theorem Perfmon.Single.leave {p : Perfmon} (h : p.Single) : (p.leave M 0).Single := by
  obtain ⟨gs, es, hgs, hn, ha, hth, hes, hstate⟩ := h
  rw [leave_eq]
  refine ⟨{ gs with groups := gs.groups.modify 0 (PerfmonEventSet.leave M p.stamps) },
    es.leave M p.stamps, ?_, hn, ha, hth, ?_, hstate⟩
  · simp [Perfmon.modifyGroup, Perfmon.modifyGroupSet, hgs]
  · simp [hes]

/-- **The switch to a group that is not there** leaves the only one untouched. -/
theorem perfmonSwitchActiveGroup_single {p : Perfmon} (h : p.Single) {newGroup : Int}
    (hnew : 1 ≤ newGroup) :
    perfmonSwitchActiveGroup M B newGroup p = .ret (-enoent) (p.leave M 0) := by
  obtain ⟨gs, es, hgs, hn, ha, hth, hes, hstate⟩ := h
  obtain ⟨th, rest, hth⟩ := List.exists_cons_of_ne_nil hth
  have hgroup : p.group? gs.activeGroup.toNat = some es := by
    rw [ha]
    simpa [Perfmon.group?, hgs] using hes
  refine eq_ret_of_returns (by decide) ?_
  rw [perfmonSwitchActiveGroup_unknown hgs hth (by rw [hn]; exact hnew) (by rw [ha]) hgroup]
  simp only [switchLeft, hstate, Option.map_some, ha]
  rfl

end Idle

/-! ## Stepping -/

/-- How many event strings were accepted; their groups are 0, 1, 2, … -/
def MarkerApi.accepted (s : MarkerApi) : ℕ := (s.groups.filter (0 ≤ ·)).length

/-- The active group counts: this process has started it, or it has not touched what
`likwid-perfctr` has started, which is group 0. -/
def MarkerApi.Counts (s : MarkerApi) : Prop :=
  ∃ a, s.perfmon.control.active = some a ∧
    (s.perfmon.control.InState a .start ∨ a = 0 ∧ s.perfmon.control.InState a .none)

/-- **Stepping**: after each of `k` calls the next group is the active one, around all
groups that were added, and counts. -/
def StepsThroughGroups (threads2Cpu : List ℕ) (eventStrings : List (List Char)) (force : Int)
    (s0 : MarkerApi) (k : ℕ) : Prop :=
  ∀ j ≤ k, ∃ s, (do
      likwidMarkerInit M B threads2Cpu eventStrings force
      nextGroups M B j : MarkerApiProg Unit) s0 = .done () s ∧
    s.perfmon.control.active = some (j % s.accepted) ∧ s.Counts

/-! ## After the init -/

section Init

variable {M B} {s s1 s2 : MarkerApi} {seen : List (List Char)}

theorem layout_entries : ∀ {descriptors : List (List Char)} {entries : List PerfmonEventSetEntry},
    entries.length = (descriptors.filter (IsDescriptor ·)).length →
    (layout descriptors entries).filterMap id = entries
  | [], entries, hlen => by
      obtain rfl : entries = [] := List.length_eq_zero_iff.mp (by simpa using hlen)
      rfl
  | descriptor :: rest, entries, hlen => by
      by_cases hd : IsDescriptor descriptor
      · cases entries with
        | nil => simp [hd] at hlen
        | cons e entries =>
            simp only [layout, hd, if_true]
            exact congrArg (e :: ·) (layout_entries (by simpa [hd] using hlen))
      · simp only [layout, hd, if_false]
        exact layout_entries (by simpa [hd] using hlen)

/-- The slots in use hold events exactly if the descriptors come first. -/
theorem layout_filled {descriptors : List (List Char)} {entries : List PerfmonEventSetEntry}
    (hlen : entries.length = (descriptors.filter (IsDescriptor ·)).length) :
    (∀ i < entries.length, ∃ e, (layout descriptors entries)[i]? = some (some e)) ↔
      descriptors.Pairwise fun d d' => IsDescriptor d' → IsDescriptor d := by
  rw [← layout_take hlen]
  constructor
  · intro hfilled
    rcases hentries : entries with _ | ⟨e, rest⟩
    · rfl
    rw [← hentries]
    have : Nonempty PerfmonEventSetEntry := ⟨e⟩
    choose! f hf using hfilled
    have htake : (layout descriptors entries).take entries.length =
        ((List.range entries.length).map f).map some := by
      refine List.ext_getElem? fun i => ?_
      rcases Nat.lt_or_ge i entries.length with hi | hi
      · rw [List.getElem?_take_of_lt hi, hf i hi]
        simp [hi]
      · rw [List.getElem?_take_eq_none hi, List.getElem?_eq_none (by simpa using hi)]
    -- the entries in use come first, and there are no others
    have hsome : ∀ l : List PerfmonEventSetEntry, (l.map some).filterMap id = l := by simp
    have hall := layout_entries hlen
    rw [← List.take_append_drop entries.length (layout descriptors entries),
      List.filterMap_append, htake, hsome] at hall
    have hlength := congrArg List.length hall
    rw [List.length_append, List.length_map, List.length_range] at hlength
    have hnone := List.length_eq_zero_iff.mp (Nat.left_eq_add.mp hlength.symm)
    rw [hnone, List.append_nil] at hall
    rw [htake, hall]
  · intro htake i hi
    refine ⟨entries[i], ?_⟩
    have := congrArg (fun l : List Slot => l[i]?) htake
    simpa [List.getElem?_take_of_lt hi, hi] using this

theorem Loading.firstFilled_iff (h : Loading seen s) (hhead : s.groups.head? = some 0) :
    s.FirstFilled ↔ ∀ first ∈ seen.head?, DescriptorsFirst first := by
  obtain ⟨es, entries, descriptors, hes, hstring, hevents, hnumber, hlen⟩ := h.first hhead
  obtain ⟨first, hfirst, rfl⟩ := Option.map_eq_some_iff.mp hstring
  have hfilled := layout_filled hlen
  rw [← hevents, ← hnumber] at hfilled
  constructor
  · intro hall first' hfirst'
    obtain rfl : first = first' := Option.some.inj (hfirst.symm.trans hfirst')
    exact hfilled.mp (hall es hes)
  · intro hall es' hes'
    obtain rfl : es = es' := Option.some.inj (hes.symm.trans hes')
    exact hfilled.mpr (hall first hfirst)

/-- The codes begin with 0 if they do not begin with an error. -/
theorem Loading.head_eq_zero (h : Loading seen s) {first : Int}
    (hfirst : s.groups.head? = some first) (h0 : 0 ≤ first) : first = 0 := by
  obtain ⟨gs, -, hcodes, -⟩ := h.table
  cases hgroups : s.groups with
  | nil => simp [hgroups] at hfirst
  | cons code codes =>
      obtain rfl : code = first := by simpa [hgroups] using hfirst
      rw [hgroups, List.filter_cons_of_pos (by simpa using h0)] at hcodes
      cases hn : gs.numberOfActiveGroups with
      | zero => simp [hn] at hcodes
      | succ n =>
          rw [hn, List.range_succ_eq_map] at hcodes
          exact (List.cons.inj hcodes).1

/-- What the init makes of the state after the last string. -/
structure Opened (s1 s2 : MarkerApi) : Prop where
  likwidInit : s2.likwidInit = s1.likwidInit
  numberOfGroups : s2.numberOfGroups = s1.numberOfGroups
  groups : s2.groups = s1.groups
  control : s2.perfmon.control = s1.perfmon.control.setActive 0

theorem control_setActive (p : Perfmon) (g : Int) :
    (p.modifyGroupSet fun gs => { gs with activeGroup := g }).control = p.control.setActive g := by
  refine control_modifyGroupSet (fun _ => ?_) p
  rfl

variable {threads2Cpu : List ℕ} {eventStrings : List (List Char)} {force : Int} {s0 : MarkerApi}

theorem likwidMarkerInit_done
    (hadd : markerAddGroups M B threads2Cpu eventStrings force s0 = .done () s1)
    (hload : Loading eventStrings s1) (hcpus : ∀ cpu ∈ threads2Cpu, cpu < maxNumThreads)
    (hhead : s1.groups.head? = some 0) (hfilled : s1.FirstFilled) :
    ∃ s2, likwidMarkerInit M B threads2Cpu eventStrings force s0 = .done () s2 ∧ Opened s1 s2 := by
  obtain ⟨es1, -, -, hes1, -⟩ := hload.first hhead
  have hloop : ∀ (threads : List (ℕ × ℕ)) (s : MarkerApi), (∀ th ∈ threads, th.1 < maxNumThreads) →
      Enabled s1 s → s.FirstFilled →
      ∃ s', (threads.foldlM (fun _ thread => enableThread thread.1 thread.2) () :
        MarkerApiProg Unit) s = .done () s' ∧ Enabled s1 s' := by
    intro threads
    induction threads with
    | nil => exact fun s _ hk _ => ⟨s, rfl, hk⟩
    | cons th rest ih =>
        intro s hlt hk hf
        have hes : ∃ es, s.perfmon.group? 0 = some es := by
          have hgroup : s.perfmon.control.group? 0 = some es1.control := by
            rw [hk.control, control_group?, hes1]
            rfl
          obtain ⟨es, hes, -⟩ := group?_of_control hgroup
          exact ⟨es, hes⟩
        obtain ⟨es, hes⟩ := hes
        obtain ⟨s', hs', hk', hf'⟩ := enableThread_done th.2 (hlt th (by simp))
          (by rw [hk.groups]; exact hhead) hes hf
        obtain ⟨s'', hs'', hk''⟩ := ih s' (fun t ht => hlt t (List.mem_cons_of_mem _ ht))
          (hk.trans hk') hf'
        refine ⟨s'', ?_, hk''⟩
        rw [List.foldlM_cons, Prog.bind_of_done hs']
        exact hs''
  obtain ⟨s', hs', hk⟩ := hloop threads2Cpu.zipIdx s1 (fun th hth =>
    hcpus th.1 (List.fst_mem_of_mem_zipIdx hth)) (Enabled.refl s1) hfilled
  refine ⟨{ s' with perfmon := s'.perfmon.modifyGroupSet fun gs => { gs with activeGroup := 0 } },
    ?_, hk.likwidInit, hk.numberOfGroups, hk.groups, ?_⟩
  · unfold likwidMarkerInit
    rw [Prog.bind_of_done hadd, Prog.bind_of_done hs']
    rfl
  · rw [control_setActive, hk.control]

/-- What an init that comes to its end has needed. -/
theorem likwidMarkerInit_needs
    (hload : ∀ s1, markerAddGroups M B threads2Cpu eventStrings force s0 = .done () s1 →
      Loading eventStrings s1 ∧ threads2Cpu ≠ [])
    (h : likwidMarkerInit M B threads2Cpu eventStrings force s0 = .done () s2) :
    ∃ s1, markerAddGroups M B threads2Cpu eventStrings force s0 = .done () s1 ∧
      (∀ cpu ∈ threads2Cpu, cpu < maxNumThreads) ∧ s1.groups.head? = some 0 ∧ s1.FirstFilled ∧
      Opened s1 s2 := by
  unfold likwidMarkerInit at h
  obtain ⟨u, s1, hadd, h⟩ := Prog.bind_eq_done.mp h
  obtain ⟨hload, hne⟩ := hload s1 hadd
  have hwp : ((do
      threads2Cpu.zipIdx.foldlM (fun _ thread => enableThread thread.1 thread.2) ()
      Prog.modify fun s => { s with
        perfmon := s.perfmon.modifyGroupSet fun gs => { gs with activeGroup := 0 } }) :
      MarkerApiProg Unit).wp
      (fun _ s2 => (∀ cpu ∈ threads2Cpu, cpu < maxNumThreads) ∧ s1.groups.head? = some 0 ∧
        s1.FirstFilled ∧ Opened s1 s2) (fun _ _ => False) s1 := by
    rw [Prog.wp_bind]
    refine Prog.wp_mono (Prog.wp_foldlM (I := fun seen s => Enabled s1 s ∧
      (∀ th ∈ seen, th.1 < maxNumThreads) ∧
      (seen = [] → s = s1) ∧ (seen ≠ [] → s1.groups.head? = some 0 ∧ s1.FirstFilled))
      (R := fun _ _ => False) ?_ ?_)
      (fun _ s' h' => ?_) fun _ _ h => h
    · intro seen th rest s _ ⟨hk, hlt, hnew, hold⟩
      refine Prog.wp_mono (enableThread_needs th.1 th.2 s) (fun _ s' h' => ?_) fun _ _ h => h
      obtain ⟨hcpu, hk', first, es, hfirst, h0, hes, hfilled⟩ := h'
      rw [hk.groups] at hfirst
      obtain rfl := hload.head_eq_zero hfirst h0
      refine ⟨hk.trans hk', fun t ht => ?_, fun h => absurd h (by simp), fun _ =>
        ⟨hfirst, ?_⟩⟩
      · rcases List.mem_append.mp ht with ht | ht
        · exact hlt t ht
        · rwa [List.mem_singleton.mp ht]
      · by_cases hseen : seen = []
        · obtain rfl := hnew hseen
          intro es' hes'
          obtain rfl := Option.some.inj (hes.symm.trans hes')
          exact hfilled
        · exact (hold hseen).2
    · exact ⟨Enabled.refl s1, by simp, fun _ => rfl, fun h => absurd rfl h⟩
    · obtain ⟨hk, hlt, -, hfirst⟩ := h'
      obtain ⟨hhead, hfilled⟩ := hfirst (by simpa [List.zipIdx_eq_nil_iff] using hne)
      rw [Prog.wp_modify]
      refine ⟨fun cpu hcpu => ?_, hhead, hfilled, hk.likwidInit, hk.numberOfGroups, hk.groups,
        ?_⟩
      · obtain ⟨i, hi, rfl⟩ := List.getElem_of_mem hcpu
        exact hlt (threads2Cpu[i], i) (List.mk_mem_zipIdx_iff_getElem?.mpr (by simp [hi]))
      · rw [control_setActive, hk.control]
  have := Prog.wp_done hwp h
  exact ⟨s1, hadd, this⟩

/-- The state after the init: group 0 is active and no group was ever set up. -/
theorem Opened.idle (h : Opened s1 s2) (hload : Loading seen s1)
    (hhead : s1.groups.head? = some 0) :
    s2.perfmon.control.active = some 0 ∧ s2.perfmon.control.InState 0 .none ∧
      s2.perfmon.control.Idle s1.accepted := by
  have hpos : ∀ {gs}, s1.perfmon.groupSet = some gs → 0 < gs.numberOfActiveGroups :=
    fun hgs => hload.pos hgs hhead
  obtain ⟨-, -, hc, ⟨gs, hgs, hcodes, hnone⟩, -⟩ := hload
  have hlt := hpos hgs
  have hcontrol := control_groupSet hgs
  have hadded : s1.perfmon.control.Added 0 := ⟨gs.control, hcontrol, Int.le_refl 0, by
    show (0 : Int) < gs.numberOfActiveGroups
    omega⟩
  have haccepted : s1.accepted = gs.numberOfActiveGroups := by
    unfold MarkerApi.accepted
    rw [hcodes, List.length_map, List.length_range]
  have hgroup : ∀ i < gs.numberOfActiveGroups, s1.perfmon.control.InState i .none := by
    intro i hi
    obtain ⟨es, hes, hstate⟩ := hnone i hi
    rw [← hstate]
    refine control_inState ?_
    simpa [Perfmon.group?, hgs] using hes
  refine ⟨?_, ?_, ?_, ?_, ?_⟩
  · rw [h.control]
    exact Control.active_setActive hadded
  · rw [h.control]
    exact Control.inState_setActive.mpr (hgroup 0 hlt)
  · rw [h.control]
    exact hc.setActive hadded
  · rw [h.control, Control.frame_setActive, haccepted]
    simp [Control.frame, hcontrol, PerfmonGroupSet.control]
  · intro i hi
    rw [h.control, Control.running_setActive] at hi
    obtain ⟨gs', hgs', hlt', hstart⟩ := hi
    obtain rfl : gs.control = gs' := Option.some.inj (hcontrol.symm.trans hgs')
    cases (hgroup i hlt').unique hstart

end Init

section Rotation

variable {M B} {s : MarkerApi}

theorem likwidMarkerNextGroup_single (hinit : s.likwidInit = true) (hn : 0 < s.numberOfGroups)
    (h : s.perfmon.Single) :
    ∃ p, likwidMarkerNextGroup M B s = .done () { s with perfmon := p } ∧ p.Single := by
  obtain ⟨gs, -, hgs, -, ha, -⟩ := id h
  have hset : onModule theGroupSet s = .done gs s := Prog.zoom_of_done (theGroupSet_some hgs)
  unfold likwidMarkerNextGroup
  rw [Prog.bind_of_done (Prog.get_apply s), Prog.when_of_neg (by simp [hinit]),
    Prog.bind_pure_left, Prog.bind_of_done hset, Prog.when_of_neg (by omega), Prog.bind_pure_left]
  rcases Nat.lt_or_ge 1 s.numberOfGroups with hmany | hone
  · -- the switch fails, since there is no other group
    have hnext : (gs.activeGroup + 1).tmod s.numberOfGroups = 1 := by
      rw [ha]
      exact Int.tmod_eq_of_lt (by decide) (by omega)
    refine ⟨s.perfmon.leave M 0, ?_, h.leave⟩
    rw [Prog.when_of_pos (by rw [hnext, ha]; decide), hnext]
    rw [Prog.bind_of_done (callPerfmon_of_ret (perfmonSwitchActiveGroup_single h (Int.le_refl 1)))]
    rfl
  · obtain hone : s.numberOfGroups = 1 := by omega
    refine ⟨s.perfmon, ?_, h⟩
    rw [Prog.when_of_neg (by rw [ha, hone]; decide)]
    rfl

theorem nextGroups_single (hinit : s.likwidInit = true) (hn : 0 < s.numberOfGroups)
    (h : s.perfmon.Single) (k : ℕ) :
    ∃ p, nextGroups M B k s = .done () { s with perfmon := p } ∧ p.Single := by
  induction k with
  | zero => exact ⟨s.perfmon, rfl, h⟩
  | succ k ih =>
      obtain ⟨p, hrun, hp⟩ := ih
      obtain ⟨p', hrun', hp'⟩ := likwidMarkerNextGroup_single (M := M) (B := B)
        (s := { s with perfmon := p }) hinit hn hp
      refine ⟨p', ?_, hp'⟩
      rw [nextGroups, Prog.bind_of_done hrun]
      exact hrun'

theorem Perfmon.Single.counts (h : s.perfmon.Single) :
    s.perfmon.control.active = some 0 ∧ s.Counts := by
  obtain ⟨gs, es, hgs, -, ha, -, hes, hstate⟩ := h
  have hactive : s.perfmon.control.active = some 0 := by
    have := control_active hgs (by rw [ha])
    rwa [ha] at this
  refine ⟨hactive, 0, hactive, Or.inr ⟨rfl, ?_⟩⟩
  rw [← hstate]
  refine control_inState ?_
  simpa [Perfmon.group?, hgs] using hes

/-- With one group, it was accepted and active and never set up. -/
theorem Opened.single {s1 : MarkerApi} {seen : List (List Char)} (h : Opened s1 s)
    (hload : Loading seen s1) (hhead : s1.groups.head? = some 0) (hone : s1.accepted = 1) :
    s.perfmon.Single := by
  obtain ⟨hactive, hnone, hidle⟩ := h.idle hload hhead
  obtain ⟨gc, hgc, hif⟩ := Option.bind_eq_some_iff.mp hactive
  obtain ⟨h0, hzero⟩ := Option.ite_none_right_eq_some.mp hif
  obtain ⟨gs, hgs, rfl⟩ := Option.map_eq_some_iff.mp hgc
  obtain ⟨ec, hec, hstate⟩ := hnone
  obtain ⟨es, hes, rfl⟩ := group?_of_control hec
  have hcount := hidle.count
  rw [Control.frame, hgc, hone] at hcount
  have hn : gs.control.numberOfActiveGroups = 1 := by simpa using hcount
  refine ⟨gs, es, hgs, hn, ?_, (hidle.consistent _ hgc).threads, ?_, hstate⟩
  · have := Option.some.inj hzero
    change gs.activeGroup.toNat = 0 at this
    change 0 ≤ gs.activeGroup at h0
    omega
  · simpa [Perfmon.group?, hgs] using hes

/-- After a switch from a state where nothing runs, group 1 does not count. -/
theorem not_counts_next {n : ℕ} (hidle : s.perfmon.control.Idle n) (hn : 1 < n)
    (hactive : s.perfmon.control.active = some 1) : ¬s.Counts := by
  rintro ⟨a, ha, hcounts⟩
  obtain rfl : 1 = a := Option.some.inj (hactive.symm.trans ha)
  rcases hcounts with hstart | ⟨h, -⟩
  · obtain ⟨⟨m, threads⟩, hframe, hm⟩ := Option.map_eq_some_iff.mp hidle.count
    obtain ⟨gs, hgs, heq⟩ := Option.map_eq_some_iff.mp hframe
    refine hidle.rest 1 ⟨gs, hgs, ?_, hstart⟩
    have : gs.numberOfActiveGroups = m := (congrArg Prod.fst heq :)
    change m = n at hm
    omega
  · omega

theorem likwidMarkerNextGroup_idle {n : ℕ} (hidle : s.perfmon.control.Idle n) :
    (likwidMarkerNextGroup M B).wp (fun _ s' => s'.perfmon.control.Idle n ∧ s'.groups = s.groups)
      (fun _ _ => True) s := by
  unfold likwidMarkerNextGroup onModule
  simp only [Prog.wp_bind, Prog.wp_get, Prog.wp_when, Prog.wp_ret, Prog.wp_halt, Prog.wp_zoom,
    wp_theGroupSet]
  refine ⟨fun _ => trivial, fun _ gs hgs => ⟨fun _ => trivial, fun _ => ⟨fun _ => ?_,
    fun _ => ⟨hidle, trivial⟩⟩⟩⟩
  refine Prog.wp_mono (wp_callPerfmon (Q := fun _ p => p.control.Idle n)
    (perfmonSwitchActiveGroup_idle hidle)) (fun code s' h => ?_) fun _ _ h => h.elim
  obtain ⟨h, hs'⟩ := h
  rw [Prog.wp_pure, hs']
  exact ⟨h, rfl⟩

end Rotation

/-- **The marker API steps through the groups, and they count, if and only if only the
first string is accepted** or the group is never changed. The set-up must come to its
end: `perfmon_init` succeeds, the processors fit the table of threads, and the first
string has its descriptors before anything that is none. -/
theorem stepsThroughGroups_iff (threads2Cpu : List ℕ) (eventStrings : List (List Char))
    (force : Int) {s0 : MarkerApi} (hfresh : s0.perfmon.groupSet = none) (k : ℕ) :
    StepsThroughGroups M B threads2Cpu eventStrings force s0 k ↔
      (∀ cpu ∈ threads2Cpu, cpu < maxNumThreads) ∧
      (∀ first ∈ eventStrings.head?, DescriptorsFirst first) ∧
      ∃ s1, markerAddGroups M B threads2Cpu eventStrings force s0 = .done () s1 ∧
        s1.groups.head? = some 0 ∧ (k = 0 ∨ s1.accepted = 1) := by
  have hload : ∀ s1, markerAddGroups M B threads2Cpu eventStrings force s0 = .done () s1 →
      Loading eventStrings s1 ∧ s1.numberOfGroups = eventStrings.length ∧ threads2Cpu ≠ [] := by
    intro s1 hadd
    have hwp := markerAddGroups_loading (M := M) (B := B) hfresh threads2Cpu eventStrings force
    have h := Prog.wp_done hwp hadd
    exact h
  have hpos : ∀ {s1 : MarkerApi}, s1.groups.head? = some 0 → 1 ≤ s1.accepted := by
    intro s1 hhead
    refine List.length_pos_of_mem (a := 0) (List.mem_filter.mpr ⟨?_, by decide⟩)
    exact List.mem_of_mem_head? hhead
  constructor
  · intro h
    obtain ⟨s, hrun, -⟩ := h 0 (Nat.zero_le k)
    obtain ⟨u, s2, hinit, hnext⟩ := Prog.bind_eq_done.mp hrun
    obtain ⟨-, rfl⟩ := Prog.Outcome.done.inj hnext
    obtain ⟨s1, hadd, hcpus, hhead, hfilled, hopened⟩ :=
      likwidMarkerInit_needs (fun s1 hadd => ⟨(hload s1 hadd).1, (hload s1 hadd).2.2⟩) hinit
    refine ⟨hcpus, ((hload s1 hadd).1.firstFilled_iff hhead).mp hfilled, s1, hadd, hhead, ?_⟩
    by_cases hk : k = 0
    · exact Or.inl hk
    · right
      by_contra hne
      have hmany : 1 < s1.accepted := by
        have := hpos hhead
        omega
      obtain ⟨s', hrun', hactive, hcounts⟩ := h 1 (by omega)
      rw [Prog.bind_of_done hinit] at hrun'
      change likwidMarkerNextGroup M B s2 = .done () s' at hrun'
      obtain ⟨-, -, hidle⟩ := hopened.idle (hload s1 hadd).1 hhead
      obtain ⟨hidle', hgroups⟩ := Prog.wp_done (likwidMarkerNextGroup_idle hidle) hrun'
      have haccepted : s'.accepted = s1.accepted := by
        unfold MarkerApi.accepted
        rw [hgroups, hopened.groups]
      rw [haccepted, Nat.mod_eq_of_lt hmany] at hactive
      exact not_counts_next hidle' hmany hactive hcounts
  · rintro ⟨hcpus, hfirst, s1, hadd, hhead, hk⟩ j hj
    obtain ⟨hloaded, hnumber, -⟩ := hload s1 hadd
    obtain ⟨s2, hinit, hopened⟩ := likwidMarkerInit_done hadd hloaded hcpus hhead
      ((hloaded.firstFilled_iff hhead).mpr hfirst)
    rw [Prog.bind_of_done hinit]
    rcases hk with rfl | hone
    · obtain rfl : j = 0 := by omega
      obtain ⟨hactive, hnone, -⟩ := hopened.idle hloaded hhead
      refine ⟨s2, rfl, by rw [Nat.zero_mod]; exact hactive, 0, hactive, Or.inr ⟨rfl, hnone⟩⟩
    · have hstrings : 0 < s2.numberOfGroups := by
        rw [hopened.numberOfGroups, hnumber, ← hloaded.codes]
        exact List.length_pos_of_mem (List.mem_of_mem_head? hhead)
      obtain ⟨p, hrun, hp⟩ := nextGroups_single (M := M) (B := B)
        (by rw [hopened.likwidInit]; exact hloaded.likwidInit) hstrings
        (hopened.single hloaded hhead hone) j
      obtain ⟨hactive, hcounts⟩ := Perfmon.Single.counts (s := { s2 with perfmon := p }) hp
      refine ⟨{ s2 with perfmon := p }, hrun, ?_, hcounts⟩
      have haccepted : ({ s2 with perfmon := p } : MarkerApi).accepted = 1 := by
        rw [← hone]
        unfold MarkerApi.accepted
        rw [← hopened.groups]
      rw [haccepted, Nat.mod_one]
      exact hactive

/-! ## Two groups -/

/-- The variables of a process that has just been loaded. -/
def MarkerApi.boot : MarkerApi where
  likwidInit := false
  perfmon := Perfmon.boot
  threadList := fun _ => none
  numberOfGroups := 0
  groups := []

def oneString : List (List Char) := ["INSTR_RETIRED_ANY:FIXC0".toList, "-".toList]

def twoStrings : List (List Char) :=
  ["INSTR_RETIRED_ANY:FIXC0".toList, "CPU_CLK_UNHALTED_CORE:FIXC1".toList]

/-- The state after the strings. -/
def loadedFrom (eventStrings : List (List Char)) : Option (Unit × MarkerApi) :=
  (markerAddGroups haswellMachine (haswell haswellMachine) [0] eventStrings 0).result?
    MarkerApi.boot

theorem loadedFrom_oneString :
    (loadedFrom oneString).map (fun r => (r.2.groups.head?, r.2.accepted)) =
      some (some 0, 1) := by
  decide +kernel

theorem stepsThroughGroups_oneString :
    StepsThroughGroups haswellMachine (haswell haswellMachine) [0] oneString 0
      MarkerApi.boot 3 := by
  obtain ⟨r, hr, hpair⟩ := Option.map_eq_some_iff.mp loadedFrom_oneString
  obtain ⟨hhead, hone⟩ := Prod.mk.inj hpair
  exact (stepsThroughGroups_iff _ _ [0] oneString 0 rfl 3).mpr ⟨by decide, by decide +kernel, r.2,
    Prog.result?_eq_some.mp hr, hhead, Or.inr hone⟩

/-- `likwid_markerInit` and one call with two groups. -/
def stepped : Option (Unit × MarkerApi) :=
  (do
    likwidMarkerInit haswellMachine (haswell haswellMachine) [0] twoStrings 0
    nextGroups haswellMachine (haswell haswellMachine) 1 : MarkerApiProg Unit).result?
      MarkerApi.boot

theorem stepped_stopped :
    stepped.map (fun r => (r.2.perfmon.control.active,
      decide (r.2.perfmon.control.InState 1 .start))) = some (some 1, false) := by
  decide +kernel

/-- Group 1 becomes the active one and is not started. -/
theorem not_stepsThroughGroups_twoStrings :
    ¬StepsThroughGroups haswellMachine (haswell haswellMachine) [0] twoStrings 0
      MarkerApi.boot 1 := by
  intro h
  obtain ⟨s, hrun, -, a, ha, hcounts⟩ := h 1 (Nat.le_refl 1)
  have hs : stepped = some ((), s) := Prog.result?_eq_some.mpr hrun
  have hstopped := stepped_stopped
  rw [hs] at hstopped
  obtain ⟨hactive, hstart⟩ := Prod.mk.inj (Option.some.inj hstopped)
  obtain rfl : a = 1 := Option.some.inj (ha.symm.trans hactive)
  rcases hcounts with h1 | ⟨h0, -⟩
  · exact of_decide_eq_false hstart h1
  · omega

end Likwid
