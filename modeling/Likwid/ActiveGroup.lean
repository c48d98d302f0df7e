import Likwid.Backends
import Likwid.Groups
import Likwid.Tables

/-!
# One running group

"Only one eventSet can be measured at a time": at most one group runs, and it
is the active one. This holds along every run that sets up no second group
while one runs, and that switches away only from a group whose stop succeeds.
-/

namespace Likwid

variable {M : Machine} {B : Backend} {s s' t : Perfmon} {k k' : Control}

/-! ## The invariant -/

/-- A consistent group set all of whose running groups are the active one. -/
structure Control.OneRunning (k : Control) : Prop where
  consistent : k.Consistent
  active : ∀ i, k.Running i → k.active = some i

namespace Control.OneRunning

theorem unique (h : k.OneRunning) {i j : ℕ} (hi : k.Running i) (hj : k.Running j) : i = j :=
  Option.some.inj ((h.active i hi).symm.trans (h.active j hj))

/-- No group runs while the active one is not started. -/
theorem not_running (h : k.OneRunning) {a : ℕ} {state : GroupState} (ha : k.active = some a)
    (hstate : k.InState a state) (hne : state ≠ .start) (i : ℕ) : ¬k.Running i := by
  intro hrun
  obtain rfl : a = i := Option.some.inj (ha.symm.trans (h.active i hrun))
  obtain ⟨-, -, -, hstart⟩ := hrun
  exact hne (hstate.unique hstart)

theorem stopTimer (h : k.OneRunning) (g : ℕ) : (k.stopTimer M g).OneRunning where
  consistent := h.consistent.modifyGroup g _
  active i hi := active_modifyGroup.trans (h.active i (running_stopTimer.mp hi))

theorem addRunTime (h : k.OneRunning) (g : ℕ) :
    (k.modifyGroup g (PerfmonEventSet.addRunTime M)).OneRunning where
  consistent := h.consistent.modifyGroup g _
  active i hi := active_modifyGroup.trans (h.active i (running_addRunTime.mp hi))

theorem started (h : k.OneRunning) (hs : k.Started M k') : k'.OneRunning := by
  have hconsistent := hs.consistent h.consistent
  obtain ⟨a, ha, hsetup, rfl⟩ := hs
  refine ⟨hconsistent, fun i hi => ?_⟩
  have hactive : ((k.setState a .start).startTimer M a).active = some a := by
    rw [← ha]
    exact active_modifyGroup.trans active_modifyGroup
  rcases (running_startTimer.mp hi).of_setState with ⟨rfl, -⟩ | ⟨-, hi⟩
  · exact hactive
  · exact absurd hi (h.not_running ha hsetup (by decide) i)

theorem stopped (h : k.OneRunning) (hs : k.StoppedActive M k') :
    k'.OneRunning ∧ ∀ i, ¬k'.Running i := by
  have hnone : ∀ i, ¬k'.Running i := by
    obtain ⟨a, ha, -, interval, -, -, rfl⟩ := hs
    intro i hi
    rcases (running_addRunTime.mp hi : ((k.stopTimer M a).setState a .setup).Running i).of_setState
      with ⟨-, h'⟩ | ⟨hne, hi⟩
    · cases h'
    · have hai := h.active i (running_stopTimer.mp hi)
      exact hne (Option.some.inj (ha.symm.trans hai))
  exact ⟨⟨hs.consistent h.consistent, fun i hi => absurd hi (hnone i)⟩, hnone⟩

theorem stopFailed (h : k.OneRunning) (hs : k.StopFailed M k') : k'.OneRunning := by
  rcases hs with rfl | ⟨a, -, -, rfl⟩
  · exact h
  · exact h.stopTimer a

/-- A set-up of the running group stops it; no other group may be set up. -/
theorem setUp (h : k.OneRunning) {g : Int} (hs : k.SetUp g k')
    (hg : ∀ i, k.Running i → g = i) : k'.OneRunning := by
  refine ⟨hs.consistent h.consistent, fun i hi => ?_⟩
  rw [hs.eq h.consistent] at hi
  rcases hi.of_setState with ⟨-, h'⟩ | ⟨hne, hi⟩
  · cases h'
  · rw [hg i (running_setActive.mp hi)] at hne
    exact absurd rfl hne

theorem setUp_active (h : k.OneRunning) {g : Int} (hs : k.SetUp g k') :
    k'.active = some g.toNat := by
  rw [hs.eq h.consistent]
  exact active_modifyGroup.trans (active_setActive hs.1)

theorem addedEventSet (h : k.OneRunning) (hs : k.AddedEventSet M k') : k'.OneRunning := by
  refine ⟨hs.consistent h.consistent, fun i hi => ?_⟩
  obtain ⟨hrun, hactive⟩ := hs.running h.consistent hi
  rw [hactive]
  exact h.active i hrun

theorem initialised (h : k.Initialised k') : k'.OneRunning := by
  refine ⟨h.consistent, fun i hi => ?_⟩
  obtain ⟨gs, hgs, hlt, -⟩ := hi
  obtain ⟨-, gs0, rfl, -, hzero, -⟩ := h
  obtain rfl : gs0 = gs := Option.some.inj hgs
  omega

theorem of_none (h : k.groupSet = none) : k.OneRunning where
  consistent gs hgs := by simp [h] at hgs
  active i hi := by
    obtain ⟨gs, hgs, -⟩ := hi
    simp [h] at hgs

end Control.OneRunning

/-! ## Switching -/

/-- The state in which a switch stops group `a`: its timer was stopped and the
time added. -/
def Perfmon.leave (M : Machine) (s : Perfmon) (a : ℕ) : Perfmon :=
  (s.stopTimer M a).modifyGroup a (PerfmonEventSet.addRunTime M)

theorem control_leave {a : ℕ} :
    (s.leave M a).control =
      (s.control.stopTimer M a).modifyGroup a (PerfmonEventSet.addRunTime M) := by
  unfold Perfmon.leave
  rw [control_addRunTime, control_stopTimer]

theorem running_leave {a i : ℕ} : (s.leave M a).control.Running i ↔ s.control.Running i := by
  rw [control_leave, Control.running_addRunTime, Control.running_stopTimer]

theorem Control.OneRunning.leave (h : s.control.OneRunning) (a : ℕ) :
    (s.leave M a).control.OneRunning := by
  rw [control_leave]
  exact (h.stopTimer a).addRunTime a

/-- The stop that a switch issues in `s` for the active group succeeds. -/
def StopsForSwitch (M : Machine) (B : Backend) (s : Perfmon) : Prop :=
  ∀ a, s.control.active = some a →
    (perfmonStopCounters M B).wp (fun _ _ => True) (fun _ _ => False) (s.leave M a)

/-- What a switch to `newGroup` needs: the running group is `newGroup` itself, or
it can be stopped. -/
def MaySwitch (M : Machine) (B : Backend) (s : Perfmon) (newGroup : Int) : Prop :=
  s.control.Added newGroup → ∀ i, s.control.Running i → newGroup = i ∨ StopsForSwitch M B s

theorem active_leave {a : ℕ} : (s.leave M a).control.active = s.control.active := by
  rw [control_leave, Control.active_modifyGroup]
  exact Control.active_modifyGroup (k := s.control)

theorem added_leave {a : ℕ} {g : Int} : (s.leave M a).control.Added g ↔ s.control.Added g := by
  rw [control_leave]
  exact Control.added_modifyGroup.trans (Control.added_modifyGroup (k := s.control))

/-- What a switch does once it has left the old group keeps the invariant. -/
theorem switch_rest {threadId g : ℕ} {es : PerfmonEventSet} {newGroup : Int}
    (h : s.control.OneRunning)
    (hg : s.control.Added newGroup → ∀ i, s.control.Running i → newGroup = i) :
    (do
      Prog.when (es.state = .setup)
        (onSlots g (Prog.forCells (clearInit threadId) es.numberOfEvents ()))
      let ret ← Prog.call 0 (perfmonSetupCounters M B newGroup)
      Prog.when (ret ≠ 0) (Prog.ret ret)
      Prog.when (es.state = .start) do
        let ret ← Prog.call 0 (perfmonStartCounters M B)
        Prog.when (ret ≠ 0) (Prog.ret ret) : PerfmonProg Unit).wp
      (fun _ s' => s'.control.OneRunning ∧ s'.control.active = some newGroup.toNat)
      (fun r s' => r ≠ 0 ∧ s'.control.OneRunning) s := by
  have hclear : (Prog.when (es.state = .setup)
      (onSlots g (Prog.forCells (clearInit threadId) es.numberOfEvents ())) :
        PerfmonProg Unit).wp (fun _ s' => s'.control = s.control) (fun _ _ => False) s :=
    Prog.wp_when.mpr ⟨fun _ => clearInit_control _ _ _ s, fun _ => rfl⟩
  rw [Prog.wp_bind]
  refine Prog.wp_mono hclear (fun _ s1 hk => ?_) fun _ _ h => h.elim
  rw [← hk] at h hg
  rw [Prog.wp_bind, Prog.wp_call]
  refine Prog.wp_mono (perfmonSetupCounters_control newGroup s1) (fun _ s2 hset => ?_)
    fun r s2 hfail => ?_
  · have h2 := h.setUp hset (hg hset.1)
    have hactive := h.setUp_active hset
    simp only [Prog.wp_bind, Prog.wp_when, Prog.wp_call, Prog.wp_ret]
    refine ⟨fun hne => absurd rfl hne, fun _ => ⟨fun _ => ?_, fun _ => ⟨h2, hactive⟩⟩⟩
    refine Prog.wp_mono (perfmonStartCounters_control s2) (fun _ s3 hstart => ?_)
      fun r s3 hfail => ?_
    · refine ⟨fun hne => absurd rfl hne, fun _ => ⟨h2.started hstart, ?_⟩⟩
      obtain ⟨a, ha, -, hk⟩ := hstart
      rw [hk, ← hactive]
      exact Control.active_modifyGroup.trans Control.active_modifyGroup
    · obtain ⟨hr, hk⟩ := hfail
      exact ⟨fun _ => ⟨hr, hk ▸ h2⟩, fun hz => absurd hr hz⟩
  · obtain ⟨hr, -, hk⟩ := hfail
    rw [Prog.wp_bind, Prog.wp_when, Prog.wp_ret, hk]
    exact ⟨fun _ => ⟨hr, h⟩, fun hz => absurd hr hz⟩

theorem perfmonSwitchActiveGroupThread_oneRunning {threadId : ℕ} {newGroup : Int}
    (h : s.control.OneRunning) (hg : MaySwitch M B s newGroup) :
    (perfmonSwitchActiveGroupThread M B threadId newGroup).wp
      (fun _ s' => s'.control.OneRunning ∧ s'.control.active = some newGroup.toNat)
      (fun r s' => r ≠ 0 ∧ s'.control.OneRunning) s := by
  unfold perfmonSwitchActiveGroupThread
  rw [Prog.wp_bind, wp_requireInit]
  refine ⟨fun gs hgs => ?_, fun _ => ⟨by decide, h⟩⟩
  rw [Prog.wp_bind, wp_groupAt]
  intro h0 es hes
  have hactive := control_active hgs h0
  have hleave := h.leave (M := M) gs.activeGroup.toNat
  dsimp only
  rw [Prog.wp_bind, wp_timerStop, Prog.wp_bind, Prog.wp_modify]
  show Prog.wp _ _ _ (s.leave M gs.activeGroup.toNat)
  rw [Prog.wp_bind, Prog.wp_when]
  refine ⟨fun hstart => ?_, fun hne => ?_⟩
  · rw [Prog.wp_bind, Prog.wp_call]
    refine Prog.wp_mono (Prog.wp_and (perfmonStopCounters_control _) (?_ : Prog.wp _
      (fun _ _ => True) (fun _ _ => ¬StopsForSwitch M B s) _)) (fun _ s1 h1 => ?_)
      fun r s1 h1 => ?_
    · by_cases hstops : StopsForSwitch M B s
      · exact Prog.wp_mono (hstops _ hactive) (fun _ _ h => h) fun _ _ h => h.elim
      · exact Prog.wp_mono (Prog.wp_trivial _) (fun _ _ h => h) fun _ _ _ => hstops
    · -- the stop leaves no running group
      obtain ⟨hone, hnone⟩ := hleave.stopped h1.1
      exact switch_rest hone fun _ i hi => absurd hi (hnone i)
    · -- the stop has failed, so the group that still runs is the new one
      obtain ⟨⟨-, hfail⟩, hnot⟩ := h1
      refine switch_rest (hleave.stopFailed hfail) fun hadd i hi => ?_
      exact (hg (added_leave.mp (hfail.added.mp hadd)) i
        (running_leave.mp (hfail.running.mp hi))).resolve_right hnot
  · -- the group that is left does not run, so none does
    have hnone := h.not_running hactive (control_inState hes) hne
    exact switch_rest hleave fun _ i hi => absurd (running_leave.mp hi) (hnone i)

/-- The threads after the first one switch from the new group to itself. -/
theorem perfmonSwitchActiveGroup_oneRunning {newGroup : Int} (h : s.control.OneRunning)
    (hg : MaySwitch M B s newGroup) :
    (perfmonSwitchActiveGroup M B newGroup).wp (fun _ s' => s'.control.OneRunning)
      (fun _ s' => s'.control.OneRunning) s := by
  unfold perfmonSwitchActiveGroup
  rw [Prog.wp_bind, wp_theGroupSet]
  intro gs _
  refine Prog.wp_mono (Prog.wp_foldlM
    (I := fun _ (s' : Perfmon) => s'.control.OneRunning ∧ MaySwitch M B s' newGroup)
    (R := fun _ (s' : Perfmon) => s'.control.OneRunning) ?_ ⟨h, hg⟩)
    (fun _ _ h => h.1) fun _ _ h => h
  intro _ th _ s1 _ h1
  rw [Prog.wp_bind, Prog.wp_call]
  refine Prog.wp_mono (perfmonSwitchActiveGroupThread_oneRunning h1.1 h1.2)
    (fun _ s2 h2 => ?_) fun r s2 h2 => ?_
  · obtain ⟨hone, hactive⟩ := h2
    rw [Prog.wp_when]
    refine ⟨fun hne => absurd rfl hne, fun _ => ⟨hone, fun hadd i hi => Or.inl ?_⟩⟩
    obtain ⟨-, -, h0, -⟩ := hadd
    have hi := Option.some.inj (hactive.symm.trans (hone.active i hi))
    omega
  · rw [Prog.wp_when]
    exact ⟨fun _ => h2.2, fun hz => absurd h2.1 hz⟩

/-! ## Runs -/

/-- The calls that keep to one measurement: no second group is set up while a
group runs, and a switch leaves a running group only when its stop succeeds. -/
def MeasuresOne (M : Machine) (B : Backend) (s : Perfmon) : Call → Prop
  | .setupCounters groupId =>
      s.control.Added groupId → ∀ i, s.control.Running i → groupId = i
  | .switchActiveGroup newGroup => MaySwitch M B s newGroup
  | _ => True

/-- Whether a routine that starts in `s` returns a code is seen by running it. -/
instance {m : PerfmonProg Unit} : Decidable (m.wp (fun _ _ => True) (fun _ _ => False) s) :=
  match h : m s with
  | .done _ _ => isTrue (by simp [Prog.wp, h])
  | .ret _ _ => isFalse (by simp [Prog.wp, h])
  | .halt _ => isTrue (by simp [Prog.wp, h])

instance : Decidable (StopsForSwitch M B s) :=
  match h : s.control.active with
  | some a => decidable_of_iff
      ((perfmonStopCounters M B).wp (fun _ _ => True) (fun _ _ => False) (s.leave M a))
      (by simp [StopsForSwitch, h])
  | none => isTrue fun a ha => by simp [h] at ha

instance (call : Call) : Decidable (MeasuresOne M B s call) :=
  match call with
  | .setupCounters groupId => inferInstanceAs
      (Decidable (s.control.Added groupId → ∀ i, s.control.Running i → groupId = i))
  | .switchActiveGroup newGroup => inferInstanceAs
      (Decidable (s.control.Added newGroup → ∀ i, s.control.Running i →
        newGroup = i ∨ StopsForSwitch M B s))
  | .init _ | .finalize | .addEventSet _ _ | .startCounters | .startGroupCounters _
  | .readCounters | .readGroupCounters _ | .readGroupThreadCounters _ _ | .readCountersCpu _
  | .stopCounters | .stopGroupCounters _ => isTrue trivial

/-- **One step**: every call that keeps to one measurement keeps the invariant. -/
theorem oneRunning_step {call : Call} (h : s.control.OneRunning) (hg : MeasuresOne M B s call)
    (hs : Step M B s call s') : s'.control.OneRunning := by
  have hkeep : ∀ {s1 : Perfmon}, s1.control = s.control → s1.control.OneRunning :=
    fun hk => hk ▸ h
  refine hs.wp (P := fun s' => s'.control.OneRunning) ?_
  cases call with
  | init threadsToCpu =>
      exact Prog.wp_mono (perfmonInit_control threadsToCpu s)
        (fun _ _ h1 => Control.OneRunning.initialised h1) fun _ _ => hkeep
  | finalize =>
      refine Prog.wp_mono (perfmonFinalize_control s) (fun _ _ hk => ?_) fun _ _ hk => hkeep hk.2
      exact Control.OneRunning.of_none (by rw [hk])
  | addEventSet eventString force =>
      exact Prog.wp_mono (perfmonAddEventSet_control eventString force s)
        (fun _ _ h1 => h1.elim) fun _ _ h1 => h.addedEventSet h1
  | setupCounters groupId =>
      exact Prog.wp_mono (perfmonSetupCounters_control groupId s)
        (fun _ _ h1 => h.setUp h1 (hg h1.1)) fun _ _ h1 => hkeep h1.2.2
  | startCounters =>
      exact Prog.wp_mono (perfmonStartCounters_control s) (fun _ _ h1 => h.started h1)
        fun _ _ h1 => hkeep h1.2
  | startGroupCounters groupId =>
      exact Prog.wp_mono (perfmonStartGroupCounters_control groupId s)
        (fun _ _ h1 => h.started h1) fun _ _ h1 => hkeep h1.2
  | readCounters =>
      exact Prog.wp_mono (perfmonReadCountersOf_control _ _ s) (fun _ _ => hkeep) fun _ _ => hkeep
  | readGroupCounters groupId =>
      exact Prog.wp_mono (perfmonReadCountersOf_control _ _ s) (fun _ _ => hkeep) fun _ _ => hkeep
  | readGroupThreadCounters groupId threadId =>
      exact Prog.wp_mono (perfmonReadCountersOf_control _ _ s) (fun _ _ => hkeep) fun _ _ => hkeep
  | readCountersCpu cpu =>
      exact Prog.wp_mono (perfmonReadCountersCpu_control cpu s) (fun _ _ => hkeep)
        fun _ _ => hkeep
  | stopCounters =>
      exact Prog.wp_mono (perfmonStopCounters_control s) (fun _ _ h1 => (h.stopped h1).1)
        fun _ _ h1 => h.stopFailed h1.2
  | stopGroupCounters groupId =>
      exact Prog.wp_mono (perfmonStopGroupCounters_control groupId s)
        (fun _ _ h1 => (h.stopped h1).1) fun _ _ h1 => h.stopFailed h1.2
  | switchActiveGroup newGroup => exact perfmonSwitchActiveGroup_oneRunning h hg

/-- Group `i` of the module's state is an added group in `STATE_START`. -/
def Perfmon.Running (s : Perfmon) (i : ℕ) : Prop :=
  ∃ gs es, s.groupSet = some gs ∧ i < gs.numberOfActiveGroups ∧ gs.groups[i]? = some es ∧
    es.state = .start

/-- At most one group runs, and a running group is `groupSet->activeGroup`. -/
def OnlyActiveRuns (s : Perfmon) : Prop :=
  (∀ i j, s.Running i → s.Running j → i = j) ∧
    ∀ i, s.Running i → ∃ gs, s.groupSet = some gs ∧ gs.activeGroup = i

theorem running_control {i : ℕ} : s.control.Running i ↔ s.Running i := by
  constructor
  · rintro ⟨gs', hgs', hlt, ec, hec, hstate⟩
    obtain ⟨es, hes, rfl⟩ := group?_of_control hec
    obtain ⟨gs, hgs, rfl⟩ := Option.map_eq_some_iff.mp hgs'
    exact ⟨gs, es, hgs, hlt, by simpa [Perfmon.group?, hgs] using hes, hstate⟩
  · rintro ⟨gs, es, hgs, hlt, hes, hstate⟩
    have hgroup : s.group? i = some es := by simp [Perfmon.group?, hgs, hes]
    exact ⟨gs.control, control_groupSet hgs, hlt, hstate ▸ control_inState hgroup⟩

theorem OnlyActiveRuns.of_oneRunning (h : s.control.OneRunning) : OnlyActiveRuns s := by
  refine ⟨fun i j hi hj => h.unique (running_control.mpr hi) (running_control.mpr hj),
    fun i hi => ?_⟩
  have hactive := h.active i (running_control.mpr hi)
  obtain ⟨gs, -, hgs, -⟩ := hi
  refine ⟨gs, hgs, ?_⟩
  simp only [Control.active, control_groupSet hgs, PerfmonGroupSet.control, Option.bind_some,
    Option.ite_none_right_eq_some, Option.some.injEq] at hactive
  omega

/-- **In every run whose calls keep to one measurement, at most one group runs
and it is the active one**, in every state and with every backend. -/
theorem onlyActiveRuns_of_run (h0 : Booted s) (h : Run (Step M B) (MeasuresOne M B) s t) :
    OnlyActiveRuns t := by
  have hboot : s.control.OneRunning :=
    Control.OneRunning.of_none (by simp [Perfmon.control, h0.groupSet])
  have hstep : ∀ (u : Perfmon) (call : Call) (v : Perfmon), u.control.OneRunning →
      MeasuresOne M B u call → Step M B u call v → v.control.OneRunning :=
    fun _ _ _ => oneRunning_step
  exact OnlyActiveRuns.of_oneRunning (Run.invariant (t := t) hboot hstep h)

/-- One group of one fixed event, and a second one. -/
def twoGroups : List Call :=
  [.init [0], .addEventSet "INSTR_RETIRED_ANY:FIXC0".toList 0,
    .addEventSet "CPU_CLK_UNHALTED_CORE:FIXC1".toList 0]

theorem onlyActiveRuns_switch :
    OnlyActiveRuns ((Perfmon.afterIf haswellMachine (haswell haswellMachine)
      (MeasuresOne haswellMachine (haswell haswellMachine))
      (twoGroups ++ [.setupCounters 0, .startCounters, .stopCounters, .startCounters,
        .switchActiveGroup 1, .stopCounters]) Perfmon.boot).get (by decide +kernel)) :=
  onlyActiveRuns_of_run booted_boot (Run.of_afterIf (Option.some_get _).symm)

/-- A second group is set up while the first one runs: it becomes the active
group, and the first one still runs. -/
theorem not_onlyActiveRuns_setup :
    ∃ s, Run (Step haswellMachine (haswell haswellMachine)) (fun _ _ => True) Perfmon.boot s ∧
      ¬OnlyActiveRuns s := by
  let s := (Perfmon.after haswellMachine (haswell haswellMachine)
    (twoGroups ++ [.setupCounters 0, .startCounters, .setupCounters 1]) Perfmon.boot).get
      (by decide +kernel)
  have hrun : s.control.Running 0 := by decide +kernel
  have hactive : s.control.active = some 1 := by decide +kernel
  refine ⟨s, Run.of_afterIf (Option.some_get _).symm, fun h => ?_⟩
  obtain ⟨gs, hgs, h0⟩ := h.2 0 (running_control.mp hrun)
  have := control_active hgs (by omega)
  rw [hactive, h0] at this
  cases this

end Likwid
