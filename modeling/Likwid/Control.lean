import Likwid.Calls

/-!
# What the exported functions do to the state machine

`Perfmon.control` is a state without its registers and event arrays: the states
of the groups, the active group, timers, run times and measured intervals. A
thread routine, whatever it does, leaves it alone, so that each exported
function acts on it by a function of its own. One lemma a function says which.
-/

namespace Likwid

/-! ## Control -/

def PerfmonEventSet.control (es : PerfmonEventSet) : PerfmonEventSet := { es with events := [] }

def PerfmonGroupSet.control (gs : PerfmonGroupSet) : PerfmonGroupSet :=
  { gs with groups := gs.groups.map PerfmonEventSet.control }

/-- A state without registers and events. -/
structure Control where
  groupSet : Option PerfmonGroupSet
  stamps : ℕ
  intervals : List Interval

def Perfmon.control (s : Perfmon) : Control where
  groupSet := s.groupSet.map PerfmonGroupSet.control
  stamps := s.stamps
  intervals := s.intervals

namespace Control

def modifyGroupSet (k : Control) (f : PerfmonGroupSet → PerfmonGroupSet) : Control :=
  { k with groupSet := k.groupSet.map f }

def modifyGroup (k : Control) (g : ℕ) (f : PerfmonEventSet → PerfmonEventSet) : Control :=
  k.modifyGroupSet fun gs => { gs with groups := gs.groups.modify g f }

def group? (k : Control) (g : ℕ) : Option PerfmonEventSet :=
  k.groupSet.bind fun gs => gs.groups[g]?

def setState (k : Control) (g : ℕ) (state : GroupState) : Control :=
  k.modifyGroup g fun es => { es with state := state }

/-- `groupSet->activeGroup = groupId` -/
def setActive (k : Control) (groupId : Int) : Control :=
  k.modifyGroupSet fun gs => { gs with activeGroup := groupId }

variable (M : Machine)

def startTimer (k : Control) (g : ℕ) : Control :=
  { k.modifyGroup g (fun es => { es with timer := { es.timer with start := M.tsc k.stamps } }) with
    stamps := k.stamps + 1 }

def stopTimer (k : Control) (g : ℕ) : Control :=
  { k.modifyGroup g (fun es => { es with timer := { es.timer with stop := M.tsc k.stamps } }) with
    stamps := k.stamps + 1 }

/-- The end of a stop: the group is set up again, its run time grows, and the
interval is measured. -/
def close (k : Control) (g : ℕ) (interval : Interval) : Control :=
  { (k.setState g .setup).modifyGroup g (PerfmonEventSet.addRunTime M) with
    intervals := k.intervals ++ [interval] }

end Control

variable {M : Machine} {B : Backend} {s s' : Perfmon}

theorem control_modifyGroupSet {f f' : PerfmonGroupSet → PerfmonGroupSet}
    (hf : ∀ gs, (f gs).control = f' gs.control) (s : Perfmon) :
    (s.modifyGroupSet f).control = s.control.modifyGroupSet f' := by
  simp only [Perfmon.control, Perfmon.modifyGroupSet, Control.modifyGroupSet, Option.map_map]
  congr 1
  exact congrArg (Option.map · s.groupSet) (funext hf)

theorem control_modifyGroup {f f' : PerfmonEventSet → PerfmonEventSet}
    (hf : ∀ es, (f es).control = f' es.control) (g : ℕ) (s : Perfmon) :
    (s.modifyGroup g f).control = s.control.modifyGroup g f' := by
  refine control_modifyGroupSet (fun gs => ?_) s
  simp only [PerfmonGroupSet.control, PerfmonGroupSet.mk.injEq, true_and, and_true]
  refine List.ext_getElem? fun i => ?_
  simp only [List.getElem?_map, List.getElem?_modify]
  cases gs.groups[i]? with
  | none => rfl
  | some es =>
      by_cases hi : g = i
      · simp [hi, hf]
      · simp [hi]

theorem control_groupSet {gs : PerfmonGroupSet} (h : s.groupSet = some gs) :
    s.control.groupSet = some gs.control := by
  simp [Perfmon.control, h]

theorem control_group? (g : ℕ) : s.control.group? g = (s.group? g).map PerfmonEventSet.control := by
  simp only [Control.group?, Perfmon.control, Perfmon.group?]
  cases s.groupSet with
  | none => rfl
  | some gs => simp [PerfmonGroupSet.control]

theorem groupSet_of_control_none (h : s.control.groupSet = none) : s.groupSet = none := by
  simpa [Perfmon.control] using h

theorem group?_of_control {g : ℕ} {ec : PerfmonEventSet} (h : s.control.group? g = some ec) :
    ∃ es, s.group? g = some es ∧ es.control = ec := by
  rw [control_group?] at h
  exact Option.map_eq_some_iff.mp h

/-! ## Rules for the accessors -/

section Rules

variable {ρ : Type}

@[simp] theorem wp_requireInit {Q : PerfmonGroupSet → Perfmon → Prop} {R : Int → Perfmon → Prop} :
    requireInit.wp Q R s ↔
      (∀ gs, s.groupSet = some gs → Q gs s) ∧ (s.groupSet = none → R (-einval) s) := by
  unfold requireInit
  rw [Prog.wp_bind, Prog.wp_get]
  cases s.groupSet <;> simp

@[simp] theorem wp_theGroupSet {Q : PerfmonGroupSet → Perfmon → Prop} {R : ρ → Perfmon → Prop} :
    (theGroupSet : Prog ρ Perfmon PerfmonGroupSet).wp Q R s ↔
      ∀ gs, s.groupSet = some gs → Q gs s := by
  unfold theGroupSet
  rw [Prog.wp_bind, Prog.wp_get, Prog.wp_orUndefined]

@[simp] theorem wp_groupAt {groupId : Int} {Q : ℕ × PerfmonEventSet → Perfmon → Prop}
    {R : ρ → Perfmon → Prop} :
    (groupAt groupId : Prog ρ Perfmon (ℕ × PerfmonEventSet)).wp Q R s ↔
      0 ≤ groupId → ∀ es, s.group? groupId.toNat = some es → Q (groupId.toNat, es) s := by
  unfold groupAt
  rw [Prog.wp_bind, Prog.wp_get]
  by_cases h : 0 ≤ groupId <;> simp [h]

variable {gs : PerfmonGroupSet} {es : PerfmonEventSet}

theorem requireInit_some (hgs : s.groupSet = some gs) : requireInit s = .done gs s := by
  refine (Prog.bind_of_done rfl).trans ?_
  simp only [hgs]
  rfl

theorem theGroupSet_some (hgs : s.groupSet = some gs) :
    (theGroupSet : Prog ρ Perfmon PerfmonGroupSet) s = .done gs s := by
  refine (Prog.bind_of_done rfl).trans ?_
  rw [hgs]
  rfl

theorem groupAt_some {groupId : Int} (h0 : 0 ≤ groupId)
    (hes : s.group? groupId.toNat = some es) :
    (groupAt groupId : Prog ρ Perfmon _) s = .done (groupId.toNat, es) s := by
  refine (Prog.bind_of_done rfl).trans ?_
  rw [if_pos h0, hes]
  rfl

end Rules

/-! ## Routines that keep it -/

/-- The shared state and the events of group `g` replaced. -/
def Perfmon.putSlots (s : Perfmon) (g : ℕ) (p : Core × List Slot) : Perfmon :=
  { s with core := p.1 }.modifyGroup g fun es => { es with events := p.2 }

@[simp] theorem control_putSlots (g : ℕ) (p : Core × List Slot) :
    (s.putSlots g p).control = s.control := by
  simp only [Perfmon.putSlots, Perfmon.control, Perfmon.modifyGroup, Perfmon.modifyGroupSet,
    Option.map_map, Control.mk.injEq, and_true]
  refine congrArg (Option.map · s.groupSet) (funext fun gs => ?_)
  simp only [Function.comp_apply, PerfmonGroupSet.control, PerfmonGroupSet.mk.injEq, true_and,
    and_true]
  refine List.ext_getElem? fun i => ?_
  simp only [List.getElem?_map, List.getElem?_modify]
  cases gs.groups[i]? with
  | none => rfl
  | some es => by_cases hi : g = i <;> simp [hi, PerfmonEventSet.control]

theorem group?_putSlots (g : ℕ) (p : Core × List Slot) (i : ℕ) :
    (s.putSlots g p).group? i =
      (s.group? i).map fun es => if g = i then { es with events := p.2 } else es := by
  simp only [Perfmon.group?, Perfmon.putSlots, Perfmon.modifyGroup, Perfmon.modifyGroupSet]
  cases s.groupSet with
  | none => rfl
  | some gs =>
      simp only [Option.map_some, Option.bind_some, List.getElem?_modify]
      cases gs.groups[i]? with
      | none => rfl
      | some es => by_cases hi : g = i <;> simp [hi]

theorem putSlots_self {g : ℕ} {es : PerfmonEventSet} (hes : s.group? g = some es) :
    s.putSlots g (s.core, es.events) = s := by
  obtain ⟨gs, hgs, hget⟩ := Option.bind_eq_some_iff.mp hes
  have hgroups : gs.groups.modify g (fun es0 => { es0 with events := es.events }) = gs.groups := by
    refine List.ext_getElem? fun i => ?_
    rw [List.getElem?_modify]
    by_cases hi : g = i
    · subst hi
      rw [hget]
      simp
    · simp [hi]
  show Perfmon.mk s.core (s.groupSet.map _) s.stamps s.intervals = s
  rw [hgs, Option.map_some, hgroups, ← hgs]

theorem putSlots_putSlots (g : ℕ) (q q' : Core × List Slot) :
    (s.putSlots g q).putSlots g q' = s.putSlots g q' := by
  show Perfmon.mk q'.1 ((s.groupSet.map _).map _) s.stamps s.intervals =
    Perfmon.mk q'.1 (s.groupSet.map _) s.stamps s.intervals
  rw [Option.map_map]
  refine congrArg (fun f => Perfmon.mk q'.1 (s.groupSet.map f) s.stamps s.intervals)
    (funext fun gs => ?_)
  have hgroups : (gs.groups.modify g fun es => { es with events := q.2 }).modify g
      (fun es => { es with events := q'.2 }) =
        gs.groups.modify g fun es => { es with events := q'.2 } := by
    refine List.ext_getElem? fun i => ?_
    simp only [List.getElem?_modify]
    cases gs.groups[i]? with
    | none => rfl
    | some es => by_cases hi : g = i <;> simp [hi]
  exact congrArg (fun groups => { gs with groups := groups }) hgroups

section Keeping

theorem callThread_control (r : ThreadRoutine) (threadId g : ℕ) (s : Perfmon) :
    (callThread r threadId g).wp (fun _ s' => s'.control = s.control) (fun _ _ => False) s := by
  unfold callThread onSlots
  simp only [Prog.wp_bind, wp_theGroupSet, wp_groupAt, Prog.wp_orOutOfBounds, Prog.wp_zoom,
    Prog.wp_call]
  exact fun _ _ _ _ _ _ _ => Prog.wp_mono (Prog.wp_trivial _)
    (fun _ p _ => control_putSlots g p) fun _ p _ => control_putSlots g p

theorem callThread_setup_nonneg (threadId g : ℕ) (s : Perfmon) :
    (callThread B.setupCountersThread threadId g).wp
      (fun err s' => 0 ≤ err ∧ s'.control = s.control) (fun _ _ => False) s := by
  unfold callThread onSlots
  simp only [Prog.wp_bind, wp_theGroupSet, wp_groupAt, Prog.wp_orOutOfBounds, Prog.wp_zoom,
    Prog.wp_call]
  exact fun _ _ th _ _ es _ => Prog.wp_mono (B.setup_nonneg _ _ _ _ _)
    (fun _ p _ => ⟨Int.le_refl 0, control_putSlots g p⟩) fun _ p h => ⟨h, control_putSlots g p⟩

theorem threads_control {ι : Type} {threads : List ι} {f : ι → ℕ} {r : ThreadRoutine}
    {g : ℕ} {code : ι → Int} (hcode : ∀ th, code th ≠ 0) (s : Perfmon) :
    (threads.foldlM (fun _ th => do
        let ret ← callThread r (f th) g
        Prog.when (ret ≠ 0) (Prog.ret (code th))) () : PerfmonProg Unit).wp
      (fun _ s' => s'.control = s.control) (fun r s' => r ≠ 0 ∧ s'.control = s.control) s := by
  refine Prog.wp_foldlM (I := fun _ (s' : Perfmon) => s'.control = s.control) ?_ rfl
  intro _ th _ s1 _ h1
  rw [Prog.wp_bind]
  refine Prog.wp_mono (callThread_control r (f th) g s1) ?_ fun _ _ h => h.elim
  intro ret s2 h2
  rw [Prog.wp_when]
  exact ⟨fun _ => ⟨hcode th, h2.trans h1⟩, fun _ => h2.trans h1⟩

end Keeping

theorem control_setState (g : ℕ) (state : GroupState) (s : Perfmon) :
    (s.modifyGroup g fun es => { es with state := state }).control =
      s.control.setState g state := by
  refine control_modifyGroup (fun _ => ?_) g s
  rfl

/-- The start stamp of group `g` is the next reading. -/
def Perfmon.startTimer (M : Machine) (s : Perfmon) (g : ℕ) : Perfmon :=
  { s with stamps := s.stamps + 1 }.modifyGroup g fun es =>
    { es with timer := { es.timer with start := M.tsc s.stamps } }

def Perfmon.stopTimer (M : Machine) (s : Perfmon) (g : ℕ) : Perfmon :=
  { s with stamps := s.stamps + 1 }.modifyGroup g fun es =>
    { es with timer := { es.timer with stop := M.tsc s.stamps } }

section Timers

variable {ρ : Type} {g : ℕ} {Q : Unit → Perfmon → Prop} {R : ρ → Perfmon → Prop}

@[simp] theorem wp_timerStart :
    (timerStart M g : Prog ρ Perfmon Unit).wp Q R s ↔ Q () (s.startTimer M g) := Iff.rfl

@[simp] theorem wp_timerStop :
    (timerStop M g : Prog ρ Perfmon Unit).wp Q R s ↔ Q () (s.stopTimer M g) := Iff.rfl

theorem control_startTimer : (s.startTimer M g).control = s.control.startTimer M g := by
  refine control_modifyGroup (fun _ => ?_) g _
  rfl

theorem control_stopTimer : (s.stopTimer M g).control = s.control.stopTimer M g := by
  refine control_modifyGroup (fun _ => ?_) g _
  rfl

theorem control_addRunTime :
    (s.modifyGroup g (PerfmonEventSet.addRunTime M)).control =
      s.control.modifyGroup g (PerfmonEventSet.addRunTime M) := by
  refine control_modifyGroup (fun _ => ?_) g s
  rfl

end Timers

/-! ## Transitions -/

namespace Control

/-- The active group, if there is one. -/
def active (k : Control) : Option ℕ :=
  k.groupSet.bind fun gs => if 0 ≤ gs.activeGroup then some gs.activeGroup.toNat else none

/-- Group `g` is one of the groups that were added. -/
def Added (k : Control) (g : Int) : Prop :=
  ∃ gs, k.groupSet = some gs ∧ 0 ≤ g ∧ g < gs.numberOfActiveGroups

def InState (k : Control) (g : ℕ) (state : GroupState) : Prop :=
  ∃ es, k.group? g = some es ∧ es.state = state

variable (M : Machine)

/-- A successful start of the active group. -/
def Started (k k' : Control) : Prop :=
  ∃ a, k.active = some a ∧ k.InState a .setup ∧ k' = (k.setState a .start).startTimer M a

/-- A successful stop of group `g`. -/
def Stopped (k : Control) (g : ℕ) (k' : Control) : Prop :=
  ∃ interval, interval.group = g ∧
    (∃ es, (k.stopTimer M g).group? g = some es ∧ interval.timer = es.timer) ∧
    k' = (k.stopTimer M g).close M g interval

/-- A successful stop of the active group. -/
def StoppedActive (k k' : Control) : Prop :=
  ∃ a, k.active = some a ∧ k.InState a .start ∧ k.Stopped M a k'

/-- A stop that returns an error: at most the timer was stopped. -/
def StopFailed (k k' : Control) : Prop :=
  k' = k ∨ ∃ a, k.active = some a ∧ k.InState a .start ∧ k' = k.stopTimer M a

/-- A successful set-up of group `g`. -/
def SetUp (k : Control) (g : Int) (k' : Control) : Prop :=
  k.Added g ∧ ∀ gs, k.groupSet = some gs → gs.threads ≠ [] →
    k' = (k.setActive g).setState g.toNat .setup

end Control

theorem control_active {gs : PerfmonGroupSet} (h : s.groupSet = some gs)
    (h0 : 0 ≤ gs.activeGroup) : s.control.active = some gs.activeGroup.toNat := by
  simp [Control.active, control_groupSet h, PerfmonGroupSet.control, h0]

theorem control_inState {g : ℕ} {es : PerfmonEventSet} (h : s.group? g = some es) :
    s.control.InState g es.state := by
  refine ⟨es.control, ?_, rfl⟩
  rw [control_group?, h]
  rfl

theorem control_added {gs : PerfmonGroupSet} {g : Int} (h : s.groupSet = some gs) (h0 : 0 ≤ g)
    (hlt : g < gs.numberOfActiveGroups) : s.control.Added g :=
  ⟨gs.control, control_groupSet h, h0, hlt⟩

theorem control_not_added {gs : PerfmonGroupSet} {g : Int} (h : s.groupSet = some gs)
    (hge : gs.numberOfActiveGroups ≤ g) : ¬s.control.Added g := by
  rintro ⟨gs', hgs', -, hlt⟩
  obtain rfl : gs.control = gs' := Option.some.inj ((control_groupSet h).symm.trans hgs')
  exact absurd hge (Int.not_le.mpr hlt)

/-! ## The exported functions -/

theorem perfmonStartCountersOf_control (groupId : Int) (s : Perfmon) :
    (perfmonStartCountersOf M B groupId).wp
      (fun _ s' => 0 ≤ groupId ∧ s.control.InState groupId.toNat .setup ∧
        s'.control = (s.control.setState groupId.toNat .start).startTimer M groupId.toNat)
      (fun r s' => r ≠ 0 ∧ s'.control = s.control) s := by
  unfold perfmonStartCountersOf
  simp only [Prog.wp_bind, wp_theGroupSet, wp_groupAt, Prog.wp_when, Prog.wp_ret]
  intro gs hgs h0 es hes
  refine ⟨fun _ => ⟨by decide, trivial⟩, fun hstate => ?_⟩
  have hsetup : es.state = .setup := not_not.mp hstate
  refine Prog.wp_mono (threads_control (fun th => by omega) s) (fun _ s1 h1 => ?_) fun _ _ h => h
  unfold setState
  rw [Prog.wp_modify, wp_timerStart, control_startTimer, control_setState, h1]
  exact ⟨h0, hsetup ▸ control_inState hes, rfl⟩

theorem events_control {body : Unit → EventProg Unit}
    (h : ∀ p, (body ()).wp (fun _ _ => True) (fun _ _ => False) p) (n g : ℕ) (s : Perfmon) :
    (onSlots g (Prog.forCells body n ()) : PerfmonProg Unit).wp
      (fun _ s' => s'.control = s.control) (fun _ _ => False) s := by
  unfold onSlots
  rw [Prog.wp_zoom]
  exact Prog.wp_mono (Prog.forCells_cells (S := fun _ _ => True) (T := fun _ _ => False)
    (fun _ c e => h (c, e)) n () _ _) (fun _ p _ => control_putSlots g p)
    fun _ _ h => h.elim fun _ _ => id

theorem accumulate_control (numberOfThreads n g : ℕ) (s : Perfmon) :
    (onSlots g (Prog.forCells (accumulateEvent M numberOfThreads) n ()) : PerfmonProg Unit).wp
      (fun _ s' => s'.control = s.control) (fun _ _ => False) s := by
  refine events_control (fun p => ?_) n g s
  unfold accumulateEvent counterMap
  simp

theorem clearInit_control (threadId n g : ℕ) (s : Perfmon) :
    (onSlots g (Prog.forCells (clearInit threadId) n ()) : PerfmonProg Unit).wp
      (fun _ s' => s'.control = s.control) (fun _ _ => False) s := by
  refine events_control (fun _ => ?_) n g s
  exact trivial

theorem perfmonStopCountersOf_control (groupId : Int) (s : Perfmon) :
    (perfmonStopCountersOf M B groupId).wp
      (fun _ s' => 0 ≤ groupId ∧ s.control.Stopped M groupId.toNat s'.control)
      (fun r s' => r ≠ 0 ∧ 0 ≤ groupId ∧ s'.control = s.control.stopTimer M groupId.toNat) s := by
  unfold perfmonStopCountersOf
  simp only [Prog.wp_bind, wp_theGroupSet, wp_groupAt]
  intro gs _ h0 before _
  rw [wp_timerStop]
  have h1 : (s.stopTimer M groupId.toNat).control = s.control.stopTimer M groupId.toNat :=
    control_stopTimer
  refine Prog.wp_mono (threads_control (fun th => by omega) _) (fun _ s2 h2 => ?_)
    fun _ _ h => ⟨h.1, h0, h.2.trans h1⟩
  intro _ es hes
  refine Prog.wp_mono (accumulate_control _ _ _ s2) (fun _ s3 h3 => ?_) fun _ _ h => h.elim
  unfold setState
  simp only [Prog.wp_modify]
  have hclose : (((s3.modifyGroup groupId.toNat fun es =>
      { es with state := .setup }).modifyGroup groupId.toNat
        (PerfmonEventSet.addRunTime M)).control) =
      (((s.control.stopTimer M groupId.toNat).setState groupId.toNat .setup).modifyGroup
        groupId.toNat (PerfmonEventSet.addRunTime M)) := by
    rw [control_addRunTime, control_setState, h3, h2, h1]
  let interval : Interval :=
    ⟨groupId.toNat, es.timer, slotInit before.events, slotResult M es.events⟩
  refine ⟨h0, interval, rfl, ⟨es.control, ?_, rfl⟩, ?_⟩
  · rw [← h1, ← h2, control_group?, hes]
    rfl
  · exact congrArg (fun k : Control => { k with intervals := k.intervals ++ [interval] }) hclose

theorem perfmonStartCounters_control (s : Perfmon) :
    (perfmonStartCounters M B).wp (fun _ s' => s.control.Started M s'.control)
      (fun r s' => r ≠ 0 ∧ s'.control = s.control) s := by
  unfold perfmonStartCounters
  simp only [Prog.wp_bind, wp_requireInit, Prog.wp_when, Prog.wp_ret]
  refine ⟨fun gs hgs => ⟨fun _ => ⟨by decide, trivial⟩, fun hneg => ?_⟩,
    fun _ => ⟨by decide, trivial⟩⟩
  refine Prog.wp_mono (perfmonStartCountersOf_control _ s) (fun _ s' h => ?_) fun _ _ h => h
  obtain ⟨h0, hsetup, hk⟩ := h
  exact ⟨_, control_active hgs h0, hsetup, hk⟩

theorem wp_groupArgument {gs : PerfmonGroupSet} {groupId : Int} {Q : Int → Perfmon → Prop}
    {R : Int → Perfmon → Prop} (hQ : 0 ≤ gs.activeGroup → Q gs.activeGroup s)
    (hR : R (-einval) s) : (groupArgument gs groupId).wp Q R s := by
  unfold groupArgument
  split
  · next h => exact hQ h.2
  · exact hR

theorem perfmonStartGroupCounters_control (groupId : Int) (s : Perfmon) :
    (perfmonStartGroupCounters M B groupId).wp (fun _ s' => s.control.Started M s'.control)
      (fun r s' => r ≠ 0 ∧ s'.control = s.control) s := by
  unfold perfmonStartGroupCounters
  simp only [Prog.wp_bind, wp_requireInit]
  refine ⟨fun gs hgs => wp_groupArgument (fun _ => ?_) ⟨by decide, rfl⟩,
    fun _ => ⟨by decide, trivial⟩⟩
  refine Prog.wp_mono (perfmonStartCountersOf_control _ s) (fun _ s' h => ?_) fun _ _ h => h
  obtain ⟨h0, hsetup, hk⟩ := h
  exact ⟨_, control_active hgs h0, hsetup, hk⟩

theorem stopActive_control {gs : PerfmonGroupSet} (hgs : s.groupSet = some gs) :
    (do
      let (_, es) ← groupAt gs.activeGroup
      Prog.when (es.state ≠ .start) (Prog.ret (-einval))
      perfmonStopCountersOf M B gs.activeGroup : PerfmonProg Unit).wp
      (fun _ s' => s.control.StoppedActive M s'.control)
      (fun r s' => r ≠ 0 ∧ s.control.StopFailed M s'.control) s := by
  simp only [Prog.wp_bind, wp_groupAt, Prog.wp_when, Prog.wp_ret]
  refine fun h0 es hes => ⟨fun _ => ⟨by decide, Or.inl rfl⟩, fun hstate => ?_⟩
  have hstart : s.control.InState gs.activeGroup.toNat .start :=
    not_not.mp hstate ▸ control_inState hes
  refine Prog.wp_mono (perfmonStopCountersOf_control _ s) (fun _ s' h => ?_) fun r s' h => ?_
  · exact ⟨_, control_active hgs h0, hstart, h.2⟩
  · exact ⟨h.1, Or.inr ⟨_, control_active hgs h0, hstart, h.2.2⟩⟩

theorem perfmonStopCounters_control (s : Perfmon) :
    (perfmonStopCounters M B).wp (fun _ s' => s.control.StoppedActive M s'.control)
      (fun r s' => r ≠ 0 ∧ s.control.StopFailed M s'.control) s := by
  unfold perfmonStopCounters
  rw [Prog.wp_bind, wp_requireInit]
  refine ⟨fun gs hgs => ?_, fun _ => ⟨by decide, Or.inl rfl⟩⟩
  rw [Prog.wp_bind, Prog.wp_when]
  exact ⟨fun _ => ⟨by decide, Or.inl rfl⟩, fun _ => stopActive_control hgs⟩

theorem perfmonStopGroupCounters_control (groupId : Int) (s : Perfmon) :
    (perfmonStopGroupCounters M B groupId).wp (fun _ s' => s.control.StoppedActive M s'.control)
      (fun r s' => r ≠ 0 ∧ s.control.StopFailed M s'.control) s := by
  unfold perfmonStopGroupCounters
  rw [Prog.wp_bind, wp_requireInit]
  refine ⟨fun gs hgs => ?_, fun _ => ⟨by decide, Or.inl rfl⟩⟩
  rw [Prog.wp_bind]
  exact wp_groupArgument (fun _ => stopActive_control hgs) ⟨by decide, Or.inl rfl⟩

theorem perfmonReadCountersOf_control (groupId threadId : Int) (s : Perfmon) :
    (perfmonReadCountersOf B groupId threadId).wp (fun _ s' => s'.control = s.control)
      (fun _ s' => s'.control = s.control) s := by
  unfold perfmonReadCountersOf
  simp only [Prog.wp_bind, wp_requireInit, wp_groupAt, Prog.wp_when, Prog.wp_ret]
  refine ⟨fun gs _ h0 es _ => ⟨fun _ => trivial, fun _ => ?_⟩, fun _ => trivial⟩
  split
  · exact Prog.wp_mono (threads_control (f := id) (fun t => by omega) s) (fun _ _ h => h)
      fun _ _ h => h.2
  · rw [Prog.wp_when]
    refine ⟨fun _ => ?_, fun _ => rfl⟩
    rw [Prog.wp_bind]
    refine Prog.wp_mono (callThread_control _ _ _ s) (fun ret s1 h1 => ?_) fun _ _ h => h.elim
    rw [Prog.wp_when]
    exact ⟨fun _ => h1, fun _ => h1⟩

theorem perfmonReadCountersCpu_control (cpu : Int) (s : Perfmon) :
    (perfmonReadCountersCpu B cpu).wp (fun _ s' => s'.control = s.control)
      (fun _ s' => s'.control = s.control) s := by
  unfold perfmonReadCountersCpu
  simp only [Prog.wp_bind, wp_requireInit, wp_groupAt]
  refine ⟨fun gs _ h0 es _ => ?_, fun _ => trivial⟩
  exact Prog.wp_mono (callThread_control _ _ _ s) (fun _ _ h => h) fun _ _ h => h.elim

theorem Control.added_setActive {k : Control} {g g' : Int} :
    (k.setActive g').Added g ↔ k.Added g := by
  simp [Added, setActive, modifyGroupSet]

theorem Control.setActive_setActive (k : Control) (g : Int) :
    (k.setActive g).setActive g = k.setActive g := by
  simp [setActive, modifyGroupSet, Function.comp_def]

theorem perfmonSetupCountersThread_control (threadId : ℕ) (groupId : Int) (s : Perfmon) :
    (perfmonSetupCountersThread M B threadId groupId).wp
      (fun _ s' => s.control.Added groupId ∧ s'.control = s.control.setActive groupId)
      (fun r s' => r ≠ 0 ∧ ¬s.control.Added groupId ∧ s'.control = s.control) s := by
  unfold perfmonSetupCountersThread
  simp only [Prog.wp_bind, wp_theGroupSet, wp_groupAt, Prog.wp_when, Prog.wp_ret]
  refine fun gs hgs => ⟨fun hge => ⟨by decide, control_not_added hgs hge, trivial⟩,
    fun hlt h0 es _ => ?_⟩
  refine Prog.wp_mono (callThread_setup_nonneg threadId groupId.toNat s) (fun err s1 h1 => ?_)
    fun _ _ h => h.elim
  obtain ⟨hnonneg, hk⟩ := h1
  rw [Prog.wp_get]
  refine ⟨fun hneg => absurd hnonneg (Int.not_le.mpr hneg), fun _ => ?_⟩
  rw [Prog.wp_modify, ← hk]
  refine ⟨hk ▸ control_added hgs h0 (Int.not_le.mp hlt), ?_⟩
  refine control_modifyGroupSet (fun _ => ?_) s1
  rfl

theorem perfmonSetupCounters_control (groupId : Int) (s : Perfmon) :
    (perfmonSetupCounters M B groupId).wp (fun _ s' => s.control.SetUp groupId s'.control)
      (fun r s' => r ≠ 0 ∧ ¬s.control.Added groupId ∧ s'.control = s.control) s := by
  unfold perfmonSetupCounters
  simp only [Prog.wp_bind, wp_requireInit, Prog.wp_when, Prog.wp_ret]
  refine ⟨fun gs hgs => ⟨fun hge => ⟨by decide, control_not_added hgs hge, trivial⟩,
    fun hlt => ?_⟩, fun hgs => ⟨by decide, ?_, trivial⟩⟩
  · -- as soon as one thread was set up the group is active
    refine Prog.wp_mono (Prog.wp_foldlM
      (I := fun seen (s' : Perfmon) => (seen = [] ∧ s'.control = s.control) ∨
        (s.control.Added groupId ∧ s'.control = s.control.setActive groupId))
      (R := fun r s' => r ≠ 0 ∧ ¬s.control.Added groupId ∧ s'.control = s.control) ?_
      (Or.inl ⟨rfl, rfl⟩))
      (fun _ s1 h1 => ?_) fun _ _ h => h
    · intro seen th rest s1 _ h1
      rw [Prog.wp_bind, Prog.wp_call]
      refine Prog.wp_mono (perfmonSetupCountersThread_control th.threadId groupId s1)
        (fun _ s2 h2 => ?_) fun r s2 h2 => ?_
      · rw [Prog.wp_when]
        refine ⟨fun h => absurd rfl h, fun _ => Or.inr ?_⟩
        obtain ⟨hadd, hk⟩ := h2
        rcases h1 with ⟨-, h1⟩ | ⟨hadd', h1⟩
        · rw [h1] at hadd hk
          exact ⟨hadd, hk⟩
        · rw [h1, Control.setActive_setActive] at hk
          exact ⟨hadd', hk⟩
      · obtain ⟨hr, hnot, hk⟩ := h2
        rw [Prog.wp_when]
        refine ⟨fun _ => ?_, fun h => absurd hr h⟩
        rcases h1 with ⟨-, h1⟩ | ⟨hadd', h1⟩
        · rw [h1] at hnot hk
          exact ⟨hr, hnot, hk⟩
        · rw [h1, Control.added_setActive] at hnot
          exact absurd hadd' hnot
    · rw [wp_groupAt]
      intro h0 es _
      unfold setState
      rw [Prog.wp_modify, control_setState]
      refine ⟨control_added hgs h0 (Int.not_le.mp hlt), fun gs' hgs' hne => ?_⟩
      obtain rfl : gs.control = gs' := Option.some.inj ((control_groupSet hgs).symm.trans hgs')
      rcases h1 with ⟨hnil, -⟩ | ⟨-, h1⟩
      · exact absurd hnil hne
      · rw [h1]
  · rintro ⟨gs', hgs', -⟩
    simp [Perfmon.control, hgs] at hgs'

namespace Control

variable (M : Machine)

/-- The group set after an init. -/
def Initialised (k k' : Control) : Prop :=
  k.groupSet = none ∧ ∃ gs : PerfmonGroupSet, k' = { k with groupSet := some gs } ∧
    gs.numberOfGroups = 0 ∧ gs.numberOfActiveGroups = 0 ∧ gs.activeGroup = -1 ∧
    gs.groups = [] ∧ gs.threads ≠ [] ∧
    ∀ (i : ℕ) (th : PerfmonThread), gs.threads[i]? = some th → th.threadId = i

/-- Room for one more group, whose events have been parsed. -/
def allocated (k : Control) (g n : ℕ) (mask : BitVec 128) : Control :=
  (k.modifyGroupSet (PerfmonGroupSet.allocate M)).modifyGroup g fun es =>
    { es with numberOfEvents := n, regTypeMask := mask }

/-- The group at the end of the array becomes one of the groups. -/
def commit (k : Control) (g : ℕ) : Control :=
  (k.setState g .none).modifyGroupSet fun gs =>
    { gs with numberOfActiveGroups := gs.numberOfActiveGroups + 1 }

/-- What adding an event set does: nothing, room for a group, or a new group. -/
def AddedEventSet (k k' : Control) : Prop :=
  k' = k ∨ ∃ gs n mask, k.groupSet = some gs ∧
    (k' = k.allocated M gs.numberOfActiveGroups n mask ∨
      k' = (k.allocated M gs.numberOfActiveGroups n mask).commit gs.numberOfActiveGroups)

end Control

theorem onCore_control {ρ α : Type} (m : Prog ρ Core α) (s : Perfmon) :
    (Prog.zoom Perfmon.core (fun c s => { s with core := c }) m).wp
      (fun _ s' => s'.control = s.control) (fun _ s' => s'.control = s.control) s := by
  rw [Prog.wp_zoom]
  exact Prog.wp_mono (Prog.wp_trivial _) (fun _ _ _ => rfl) fun _ _ _ => rfl

theorem perfmonInit_control (threadsToCpu : List ℕ) (s : Perfmon) :
    (perfmonInit M B threadsToCpu).wp (fun _ s' => s.control.Initialised s'.control)
      (fun _ s' => s'.control = s.control) s := by
  unfold perfmonInit
  rw [Prog.wp_bind, Prog.wp_get]
  cases hgs : s.groupSet with
  | some gs => rfl
  | none =>
      simp only [Prog.wp_bind, Prog.wp_when, Prog.wp_ret, Prog.wp_modify]
      refine ⟨fun _ => trivial, fun hne => ⟨fun _ => trivial, fun _ => ⟨fun _ => trivial,
        fun _ => ?_⟩⟩⟩
      refine Prog.wp_mono (Prog.wp_foldlM
        (I := fun _ (s' : Perfmon) => s'.control = s.control)
        (R := fun _ (s' : Perfmon) => s'.control = s.control) ?_ rfl)
        (fun _ s1 h1 => ?_) fun _ _ h => h
      · intro _ cpu _ s1 _ h1
        rw [Prog.wp_bind]
        refine Prog.wp_mono (onCore_control _ s1) (fun _ s2 h2 => ?_) fun _ _ h => h.trans h1
        rw [Prog.wp_bind]
        exact Prog.wp_mono (onCore_control _ s2) (fun _ _ h3 => h3.trans (h2.trans h1))
          fun _ _ h3 => h3.trans (h2.trans h1)
      · have hnone : s.control.groupSet = none := by simp [Perfmon.control, hgs]
        refine ⟨hnone, ⟨0, 0, -1, [], threadsToCpu.mapIdx fun i cpu => ⟨i, cpu⟩⟩, ?_, rfl, rfl,
          rfl, rfl, ?_, ?_⟩
        · rw [← h1]
          rfl
        · intro hnil
          exact hne (by simpa using congrArg List.length hnil)
        · intro i th hth
          simp only [List.getElem?_mapIdx, Option.map_eq_some_iff] at hth
          obtain ⟨cpu, -, rfl⟩ := hth
          rfl

theorem perfmonFinalize_control (s : Perfmon) :
    (perfmonFinalize B).wp
      (fun _ s' => s'.control = { s.control with groupSet := none, intervals := [] })
      (fun _ s' => s.control.groupSet = none ∧ s'.control = s.control) s := by
  unfold perfmonFinalize
  rw [Prog.wp_bind, Prog.wp_get]
  cases hgs : s.groupSet with
  | none => exact ⟨by simp [Perfmon.control, hgs], rfl⟩
  | some gs =>
      dsimp only
      rw [Prog.wp_bind]
      refine Prog.wp_mono (Prog.wp_foldlM
        (I := fun _ (s' : Perfmon) => s'.control = s.control) (R := fun _ _ => False) ?_ rfl)
        (fun _ s1 h1 => ?_) fun _ _ h => h.elim
      · intro _ g _ s1 _ h1
        refine Prog.wp_foldlM (I := fun _ (s' : Perfmon) => s'.control = s.control) ?_ h1
        intro _ th _ s2 _ h2
        rw [Prog.wp_bind]
        exact Prog.wp_mono (callThread_control _ _ _ s2) (fun _ s3 h3 => h3.trans h2)
          fun _ _ h => h.elim
      · rw [Prog.wp_modify, ← h1]
        rfl

theorem allocate_control (gs : PerfmonGroupSet) :
    (gs.allocate M).control = gs.control.allocate M := by
  unfold PerfmonGroupSet.allocate PerfmonGroupSet.control
  dsimp only
  split
  · rfl
  split
  · simp [PerfmonEventSet.control]
  · rfl

theorem control_commit (g : ℕ) (s : Perfmon) :
    ((s.modifyGroup g fun es => { es with state := .none }).modifyGroupSet fun gs =>
      { gs with numberOfActiveGroups := gs.numberOfActiveGroups + 1 }).control =
      s.control.commit g := by
  unfold Control.commit
  rw [← control_setState]
  refine control_modifyGroupSet (fun _ => ?_) _
  rfl

theorem perfmonAddEventSet_control (eventString : List Char) (force : Int) (s : Perfmon) :
    (perfmonAddEventSet M eventString force).wp (fun _ _ => False)
      (fun _ s' => s.control.AddedEventSet M s'.control) s := by
  unfold perfmonAddEventSet
  simp only [Prog.wp_bind, wp_requireInit, Prog.wp_when, Prog.wp_ret, Prog.wp_modify,
    Prog.wp_orUndefined]
  refine ⟨fun gs hgs => ⟨fun _ => Or.inl rfl, fun _ cpu _ => ?_⟩, fun _ => Or.inl rfl⟩
  rw [Prog.wp_zoom]
  refine Prog.wp_mono (addEvents_noReturn M _ force _ _ 0 _ _) (fun parsed c _ => ?_)
    fun _ _ h => h.elim
  have hroom : ({ s.modifyGroupSet (PerfmonGroupSet.allocate M) with core := c }.modifyGroup
        gs.numberOfActiveGroups fun es =>
      { es with
        events := parsed.slots
        numberOfEvents := parsed.numberOfEvents
        regTypeMask := parsed.regTypeMask }).control =
      s.control.allocated M gs.numberOfActiveGroups parsed.numberOfEvents parsed.regTypeMask := by
    unfold Control.allocated
    rw [← control_modifyGroupSet allocate_control s]
    refine control_modifyGroup (fun _ => ?_) _ _
    rfl
  have hgroupSet := control_groupSet hgs
  split
  · simp only [Prog.wp_bind, setState, Prog.wp_modify, Prog.wp_ret]
    refine Or.inr ⟨gs.control, parsed.numberOfEvents, parsed.regTypeMask, hgroupSet, Or.inr ?_⟩
    exact (control_commit _ _).trans (congrArg (·.commit gs.numberOfActiveGroups) hroom)
  · rw [Prog.wp_ret]
    exact Or.inr ⟨gs.control, parsed.numberOfEvents, parsed.regTypeMask, hgroupSet, Or.inl hroom⟩

end Likwid
