import Likwid.RunTime

/-!
# Accumulated results

`fullData` of an event is the sum of the results of the measured intervals of
its group, along every run in which no start throws a result away.

The generic code adds the results and the thread routines of a backend keep
them (`Backend.stop_fullData` and its like); only a start may clear the records
it starts. `resultsSummed_step` puts the two together.
-/

namespace Likwid

variable {M : Machine} {B : Backend} {s s' t : Perfmon} {k k' : Control} {g : ℕ}

/-! ## The property -/

/-- The measured intervals of group `g`. -/
def Perfmon.intervalsOf (s : Perfmon) (g : ℕ) : List Interval :=
  s.intervals.filter fun iv => iv.group = g

/-- The results of event `i` and thread `j` in the intervals of group `g`, added
up as the C code adds doubles. -/
def Perfmon.total (M : Machine) (s : Perfmon) (g i j : ℕ) : ℚ :=
  (s.intervalsOf g).foldl (fun x iv => M.fl (x + iv.result i j)) 0

/-- Every record of a group that was added holds the sum of the results of the
group's intervals. -/
def FullDataExact (M : Machine) (s : Perfmon) : Prop :=
  ∀ gs, s.groupSet = some gs → ∀ g < gs.numberOfActiveGroups, ∀ es, gs.groups[g]? = some es →
    ∀ i < es.numberOfEvents, ∀ e, es.events[i]? = some (some e) →
      ∀ j < gs.numberOfThreads, (e.threadCounter j).fullData = s.total M g i j

/-- The run time of every group is the sum of the lengths of the same
intervals. -/
def RunTimeOfIntervals (M : Machine) (s : Perfmon) : Prop :=
  ∀ g es, s.group? g = some es → es.runTime =
    (s.intervalsOf g).foldl (fun x iv => M.fl (x + timerPrint M iv.timer)) 0

/-! ## What a start would throw away -/

/-- No record of group `g` that is set up holds a result. -/
def Perfmon.NothingToLose (s : Perfmon) (g : ℕ) : Prop :=
  ∀ gs ∈ s.groupSet, ∀ es ∈ gs.groups[g]?, ∀ e, some e ∈ es.events →
    ∀ j < gs.numberOfThreads, (e.threadCounter j).init = true →
      (e.threadCounter j).fullData = 0

/-- No record of group `g` holds a result. -/
def Perfmon.NoResults (s : Perfmon) (g : ℕ) : Prop :=
  ∀ gs ∈ s.groupSet, ∀ es ∈ gs.groups[g]?, ∀ e, some e ∈ es.events →
    ∀ j < gs.numberOfThreads, (e.threadCounter j).fullData = 0

/-- Only one thread is measured. -/
def Perfmon.OneThread (s : Perfmon) : Prop := ∀ gs ∈ s.groupSet, gs.numberOfThreads = 1

/-- What a start of the active group needs. -/
def MayStart (s : Perfmon) : Prop :=
  ∀ a ∈ s.control.active, s.control.InState a .setup → s.NothingToLose a

/-- The calls that keep the results: a start finds none in the records it clears.
A switch away from a running group starts the new one, and does so again for
every further thread. -/
def KeepsResults (s : Perfmon) : Call → Prop
  | .startCounters => MayStart s
  | .startGroupCounters groupId => ¬s.control.Added groupId → MayStart s
  | .switchActiveGroup newGroup => s.control.Added newGroup →
      ∀ a ∈ s.control.active, s.control.InState a .start →
        s.OneThread ∧ newGroup ≠ a ∧ s.NoResults newGroup.toNat
  | _ => True

instance (s : Perfmon) (g : ℕ) : Decidable (s.NothingToLose g) :=
  inferInstanceAs (Decidable (∀ gs ∈ s.groupSet, ∀ es ∈ gs.groups[g]?, ∀ e, some e ∈ es.events →
    ∀ j < gs.numberOfThreads, (e.threadCounter j).init = true →
      (e.threadCounter j).fullData = 0))

instance (s : Perfmon) (g : ℕ) : Decidable (s.NoResults g) :=
  inferInstanceAs (Decidable (∀ gs ∈ s.groupSet, ∀ es ∈ gs.groups[g]?, ∀ e, some e ∈ es.events →
    ∀ j < gs.numberOfThreads, (e.threadCounter j).fullData = 0))

instance (s : Perfmon) : Decidable s.OneThread :=
  inferInstanceAs (Decidable (∀ gs ∈ s.groupSet, gs.numberOfThreads = 1))

instance (s : Perfmon) : Decidable (MayStart s) :=
  inferInstanceAs (Decidable (∀ a ∈ s.control.active, s.control.InState a .setup →
    s.NothingToLose a))

instance (s : Perfmon) (call : Call) : Decidable (KeepsResults s call) :=
  match call with
  | .startCounters => inferInstanceAs (Decidable (MayStart s))
  | .startGroupCounters groupId =>
      inferInstanceAs (Decidable (¬s.control.Added groupId → MayStart s))
  | .switchActiveGroup newGroup => inferInstanceAs (Decidable (s.control.Added newGroup →
      ∀ a ∈ s.control.active, s.control.InState a .start →
        s.OneThread ∧ newGroup ≠ a ∧ s.NoResults newGroup.toNat))
  | .init _ | .finalize | .addEventSet _ _ | .setupCounters _ | .readCounters
  | .readGroupCounters _ | .readGroupThreadCounters _ _ | .readCountersCpu _ | .stopCounters
  | .stopGroupCounters _ => isTrue trivial

/-! ## Groups whose entries are related -/

/-- Each entry of a group stands in `R` to the one that was at its place. -/
def GroupsRel (R : PerfmonEventSetEntry → PerfmonEventSetEntry → Prop) (s s' : Perfmon) : Prop :=
  ∀ g es', s'.group? g = some es' → ∃ es, s.group? g = some es ∧
    ∀ (i : ℕ) e', es'.events[i]? = some (some e') →
      ∃ e, es.events[i]? = some (some e) ∧ R e e'

section GroupsRel

variable {R : PerfmonEventSetEntry → PerfmonEventSetEntry → Prop}

theorem GroupsRel.of_eq (hr : ∀ e, R e e)
    (h : ∀ g, (s'.group? g).map PerfmonEventSet.events = (s.group? g).map PerfmonEventSet.events) :
    GroupsRel R s s' := by
  intro g es' hes'
  have hg := h g
  rw [hes'] at hg
  obtain ⟨es, hes, heq⟩ := Option.map_eq_some_iff.mp hg.symm
  exact ⟨es, hes, fun i e' he' => ⟨e', heq ▸ he', hr e'⟩⟩

theorem GroupsRel.refl (hr : ∀ e, R e e) (s : Perfmon) : GroupsRel R s s :=
  GroupsRel.of_eq hr fun _ => rfl

theorem GroupsRel.trans (ht : ∀ a b c, R a b → R b c → R a c) {s1 s2 s3 : Perfmon}
    (h : GroupsRel R s1 s2) (h' : GroupsRel R s2 s3) : GroupsRel R s1 s3 := by
  intro g es3 hes3
  obtain ⟨es2, hes2, h23⟩ := h' g es3 hes3
  obtain ⟨es1, hes1, h12⟩ := h g es2 hes2
  refine ⟨es1, hes1, fun i e3 he3 => ?_⟩
  obtain ⟨e2, he2, hR'⟩ := h23 i e3 he3
  obtain ⟨e1, he1, hR⟩ := h12 i e2 he2
  exact ⟨e1, he1, ht _ _ _ hR hR'⟩

theorem group?_modifyGroupSet {f : PerfmonGroupSet → PerfmonGroupSet}
    (hf : ∀ gs, (f gs).groups = gs.groups) (g : ℕ) :
    (s.modifyGroupSet f).group? g = s.group? g := by
  unfold Perfmon.group? Perfmon.modifyGroupSet
  cases s.groupSet <;> simp [hf]

theorem GroupsRel.modifyGroup (hr : ∀ e, R e e) {f : PerfmonEventSet → PerfmonEventSet}
    (hf : ∀ es, (f es).events = es.events) (g : ℕ) : GroupsRel R s (s.modifyGroup g f) := by
  refine GroupsRel.of_eq hr fun i => ?_
  simp only [Perfmon.group?, Perfmon.modifyGroup, Perfmon.modifyGroupSet]
  cases s.groupSet with
  | none => rfl
  | some gs =>
      simp only [Option.map_some, Option.bind_some, List.getElem?_modify]
      cases gs.groups[i]? with
      | none => rfl
      | some es => by_cases hi : g = i <;> simp [hi, hf]

theorem GroupsRel.putSlots (hr : ∀ e, R e e) {es : PerfmonEventSet} {p : Core × List Slot}
    (hes : s.group? g = some es) (h : Prog.CellsRel R es.events p.2) :
    GroupsRel R s (s.putSlots g p) := by
  intro i es' hes'
  rw [group?_putSlots] at hes'
  obtain ⟨es0, hes0, rfl⟩ := Option.map_eq_some_iff.mp hes'
  refine ⟨es0, hes0, fun n e' he' => ?_⟩
  split at he'
  · next hi =>
      obtain rfl : es = es0 := Option.some.inj (hes.symm.trans (hi ▸ hes0))
      exact h.get he'
  · exact ⟨e', he', hr e'⟩

theorem callThread_groupsRel (hr : ∀ e, R e e) (ht : ∀ a b c, R a b → R b c → R a c)
    {r : ThreadRoutine} {threadId : ℕ}
    (h : ∀ cpu mask n, Prog.Respects (Prog.Flow.of (Prog.CellsRel R) (Prog.CellsRel.refl hr)
      (Prog.CellsRel.trans ht)).snd (r threadId cpu mask n)) (g : ℕ) (s : Perfmon) :
    (callThread r threadId g).wp (fun _ s' => GroupsRel R s s') (fun _ _ => False) s := by
  unfold callThread onSlots
  simp only [Prog.wp_bind, wp_theGroupSet, wp_groupAt, Prog.wp_orOutOfBounds, Prog.wp_zoom,
    Prog.wp_call]
  intro gs _ th _ _ es hes
  have hslots : ((s.group? g).map PerfmonEventSet.events).getD [] = es.events :=
    congrArg (fun o => (Option.map PerfmonEventSet.events o).getD []) hes
  rw [hslots]
  have hput : ∀ p : Core × List Slot, Prog.CellsRel R es.events p.2 →
      GroupsRel R s (s.putSlots g p) := fun p hp => GroupsRel.putSlots hr hes hp
  exact Prog.wp_mono (h th.processorId es.regTypeMask es.numberOfEvents (s.core, es.events))
    (fun _ p hp => hput p hp) fun _ p hp => hput p hp

end GroupsRel

/-! ## Routines that keep the results -/

/-- All results are kept. -/
abbrev Kept (s s' : Perfmon) : Prop := GroupsRel FullDataKept s s'

theorem Kept.refl (s : Perfmon) : Kept s s := GroupsRel.refl FullDataKept.refl s

theorem Kept.trans {s1 s2 s3 : Perfmon} (h : Kept s1 s2) (h' : Kept s2 s3) : Kept s1 s3 :=
  GroupsRel.trans FullDataKept.trans h h'

theorem Kept.setState (g : ℕ) (state : GroupState) (s : Perfmon) :
    Kept s (s.modifyGroup g fun es => { es with state := state }) := by
  refine GroupsRel.modifyGroup FullDataKept.refl (fun _ => ?_) g
  rfl

theorem Kept.startTimer (g : ℕ) (s : Perfmon) : Kept s (s.startTimer M g) := by
  refine GroupsRel.modifyGroup (s := { s with stamps := s.stamps + 1 }) FullDataKept.refl
    (fun _ => ?_) g
  rfl

theorem Kept.stopTimer (g : ℕ) (s : Perfmon) : Kept s (s.stopTimer M g) := by
  refine GroupsRel.modifyGroup (s := { s with stamps := s.stamps + 1 }) FullDataKept.refl
    (fun _ => ?_) g
  rfl

theorem Kept.addRunTime (g : ℕ) (s : Perfmon) :
    Kept s (s.modifyGroup g (PerfmonEventSet.addRunTime M)) := by
  refine GroupsRel.modifyGroup FullDataKept.refl (fun _ => ?_) g
  rfl

theorem callThread_kept {r : ThreadRoutine} {threadId : ℕ}
    (h : ∀ cpu mask n, Prog.Respects keepsFullData (r threadId cpu mask n)) (g : ℕ)
    (s : Perfmon) :
    (callThread r threadId g).wp (fun _ s' => Kept s s') (fun _ _ => False) s :=
  callThread_groupsRel FullDataKept.refl FullDataKept.trans h g s

theorem threads_kept {ι : Type} {threads : List ι} {f : ι → ℕ} {r : ThreadRoutine}
    {code : ι → Int} (h : ∀ th cpu mask n, Prog.Respects keepsFullData (r th cpu mask n))
    (g : ℕ) (s : Perfmon) :
    (threads.foldlM (fun _ th => do
        let ret ← callThread r (f th) g
        Prog.when (ret ≠ 0) (Prog.ret (code th))) () : PerfmonProg Unit).wp
      (fun _ s' => Kept s s') (fun _ s' => Kept s s') s := by
  refine Prog.wp_foldlM (I := fun _ (s' : Perfmon) => Kept s s') ?_ (Kept.refl s)
  intro _ th _ s1 _ h1
  rw [Prog.wp_bind]
  refine Prog.wp_mono (callThread_kept (h (f th)) g s1) (fun ret s2 h2 => ?_)
    fun _ _ h => h.elim
  rw [Prog.wp_when]
  exact ⟨fun _ => h1.trans h2, fun _ => h1.trans h2⟩

theorem perfmonReadCountersOf_kept (groupId threadId : Int) (s : Perfmon) :
    (perfmonReadCountersOf B groupId threadId).wp (fun _ s' => Kept s s')
      (fun _ s' => Kept s s') s := by
  unfold perfmonReadCountersOf
  simp only [Prog.wp_bind, wp_requireInit, wp_groupAt, Prog.wp_when, Prog.wp_ret]
  refine ⟨fun gs _ _ es _ => ⟨fun _ => Kept.refl s, fun _ => ?_⟩, fun _ => Kept.refl s⟩
  split
  · exact threads_kept (f := id) B.read_fullData _ s
  · rw [Prog.wp_when]
    refine ⟨fun _ => ?_, fun _ => Kept.refl s⟩
    rw [Prog.wp_bind]
    refine Prog.wp_mono (callThread_kept (B.read_fullData _) _ s) (fun ret s1 h1 => ?_)
      fun _ _ h => h.elim
    rw [Prog.wp_when]
    exact ⟨fun _ => h1, fun _ => h1⟩

theorem perfmonReadCountersCpu_kept (cpu : Int) (s : Perfmon) :
    (perfmonReadCountersCpu B cpu).wp (fun _ s' => Kept s s') (fun _ s' => Kept s s') s := by
  unfold perfmonReadCountersCpu
  simp only [Prog.wp_bind, wp_requireInit, wp_groupAt]
  refine ⟨fun gs _ _ es _ => ?_, fun _ => Kept.refl s⟩
  exact Prog.wp_mono (callThread_kept (B.read_fullData _) _ s) (fun _ _ h => h)
    fun _ _ h => h.elim

theorem perfmonSetupCountersThread_kept (threadId : ℕ) (groupId : Int) (s : Perfmon) :
    (perfmonSetupCountersThread M B threadId groupId).wp (fun _ s' => Kept s s')
      (fun _ s' => Kept s s') s := by
  unfold perfmonSetupCountersThread
  simp only [Prog.wp_bind, wp_theGroupSet, wp_groupAt, Prog.wp_when, Prog.wp_ret]
  refine fun gs _ => ⟨fun _ => Kept.refl s, fun _ _ es _ => ?_⟩
  refine Prog.wp_mono (callThread_kept (B.setup_fullData threadId) _ s) (fun err s1 h1 => ?_)
    fun _ _ h => h.elim
  rw [Prog.wp_get]
  refine ⟨fun _ => h1, fun _ => h1.trans (GroupsRel.of_eq FullDataKept.refl fun g => ?_)⟩
  refine congrArg (Option.map PerfmonEventSet.events) (group?_modifyGroupSet (fun _ => ?_) g)
  rfl

theorem perfmonSetupCounters_kept (groupId : Int) (s : Perfmon) :
    (perfmonSetupCounters M B groupId).wp (fun _ s' => Kept s s') (fun _ s' => Kept s s') s := by
  unfold perfmonSetupCounters
  simp only [Prog.wp_bind, wp_requireInit, Prog.wp_when, Prog.wp_ret]
  refine ⟨fun gs _ => ⟨fun _ => Kept.refl s, fun _ => ?_⟩, fun _ => Kept.refl s⟩
  refine Prog.wp_mono (Prog.wp_foldlM (I := fun _ (s' : Perfmon) => Kept s s') ?_ (Kept.refl s))
    (fun _ s1 h1 => ?_) fun _ _ h => h
  · intro _ th _ s1 _ h1
    rw [Prog.wp_bind, Prog.wp_call]
    refine Prog.wp_mono (perfmonSetupCountersThread_kept th.threadId groupId s1)
      (fun _ s2 h2 => ?_) fun r s2 h2 => ?_
    · rw [Prog.wp_when]
      exact ⟨fun _ => h1.trans h2, fun _ => h1.trans h2⟩
    · rw [Prog.wp_when]
      exact ⟨fun _ => h1.trans h2, fun _ => h1.trans h2⟩
  · rw [wp_groupAt]
    intro _ es _
    unfold setState
    rw [Prog.wp_modify]
    exact h1.trans (Kept.setState _ _ s1)

/-- The init flags and the results of all records are kept. -/
def RecordsKept (e e' : PerfmonEventSetEntry) : Prop :=
  ∀ t, (e'.threadCounter t).init = (e.threadCounter t).init ∧
    (e'.threadCounter t).fullData = (e.threadCounter t).fullData

theorem RecordsKept.refl (e : PerfmonEventSetEntry) : RecordsKept e e := fun _ => ⟨rfl, rfl⟩

theorem RecordsKept.trans (a b c : PerfmonEventSetEntry) (h : RecordsKept a b)
    (h' : RecordsKept b c) : RecordsKept a c :=
  fun t => ⟨(h' t).1.trans (h t).1, (h' t).2.trans (h t).2⟩

theorem Kept.of_records (h : GroupsRel RecordsKept s s') : Kept s s' := by
  intro g es' hes'
  obtain ⟨es, hes, hall⟩ := h g es' hes'
  refine ⟨es, hes, fun i e' he' => ?_⟩
  obtain ⟨e, he, hR⟩ := hall i e' he'
  exact ⟨e, he, fun t => (hR t).2⟩

theorem callThread_other (r : ThreadRoutine) (threadId g : ℕ) (s : Perfmon) :
    (callThread r threadId g).wp (fun _ s' => ∀ i, i ≠ g → s'.group? i = s.group? i)
      (fun _ _ => False) s := by
  unfold callThread onSlots
  simp only [Prog.wp_bind, wp_theGroupSet, wp_groupAt, Prog.wp_orOutOfBounds, Prog.wp_zoom,
    Prog.wp_call]
  intro gs _ th _ _ es _
  have hput : ∀ p : Core × List Slot, ∀ i, i ≠ g → (s.putSlots g p).group? i = s.group? i := by
    intro p i hi
    rw [group?_putSlots]
    simp [Ne.symm hi]
  exact Prog.wp_mono (Prog.wp_trivial _) (fun _ p _ => hput p) fun _ p _ => hput p

theorem callThread_start_kept {gs : PerfmonGroupSet} {threadId : ℕ} (hgs : s.groupSet = some gs)
    (hid : threadId < gs.numberOfThreads) (h : s.NothingToLose g) :
    (callThread B.startCountersThread threadId g).wp (fun _ s' => GroupsRel RecordsKept s s')
      (fun _ _ => False) s := by
  refine Prog.wp_mono (Prog.wp_and (callThread_groupsRel FullDataStarted.refl
    FullDataStarted.trans (B.start_fullData threadId) g s)
    (callThread_other _ threadId g s)) (fun _ s1 h1 => ?_) fun _ _ h => h.1
  obtain ⟨hrel, hother⟩ := h1
  intro i es' hes'
  by_cases hi : i = g
  · subst hi
    obtain ⟨es, hes, hall⟩ := hrel i es' hes'
    refine ⟨es, hes, fun n e' he' => ?_⟩
    obtain ⟨e, he, hR⟩ := hall n e' he'
    refine ⟨e, he, fun t => ⟨(hR t).1, ?_⟩⟩
    rcases (hR t).2 with heq | ⟨rfl, hinit, hzero⟩
    · exact heq
    · have hgroup : gs.groups[i]? = some es := by simpa [Perfmon.group?, hgs] using hes
      rw [hzero, h gs hgs es hgroup e (List.mem_of_getElem? he) t hid hinit]
  · rw [hother i hi] at hes'
    exact ⟨es', hes', fun n e' he' => ⟨e', he', RecordsKept.refl e'⟩⟩

theorem NothingToLose.records (h : GroupsRel RecordsKept s s')
    (hframe : s'.control.frame = s.control.frame) (hlose : s.NothingToLose g) :
    s'.NothingToLose g := by
  intro gs' hgs' es' hes' e' he' j hj hinit
  obtain ⟨gs, hgs, -, hthreads⟩ := groupSet_of_frame hframe.symm hgs'
  have hgroup : s'.group? g = some es' := by
    rw [Perfmon.group?, Option.mem_def.mp hgs']
    exact hes'
  obtain ⟨es, hes, hall⟩ := h g es' hgroup
  obtain ⟨i, hi⟩ := List.mem_iff_getElem?.mp he'
  obtain ⟨e, he, hR⟩ := hall i e' hi
  rw [(hR j).2]
  refine hlose gs hgs es (by simpa [Perfmon.group?, hgs] using hes) e (List.mem_of_getElem? he) j
    ?_ ((hR j).1 ▸ hinit)
  rw [PerfmonGroupSet.numberOfThreads, hthreads]
  exact hj

theorem perfmonStartCountersOf_kept {groupId : Int} (hc : s.control.Consistent)
    (hlose : s.control.InState groupId.toNat .setup → s.NothingToLose groupId.toNat) :
    (perfmonStartCountersOf M B groupId).wp (fun _ s' => Kept s s') (fun _ s' => Kept s s') s := by
  unfold perfmonStartCountersOf
  simp only [Prog.wp_bind, wp_theGroupSet, wp_groupAt, Prog.wp_when, Prog.wp_ret]
  intro gs hgs _ es hes
  refine ⟨fun _ => Kept.refl s, fun hstate => ?_⟩
  have hlose := hlose (not_not.mp hstate ▸ control_inState hes)
  refine Prog.wp_mono (Prog.wp_foldlM (I := fun _ (s' : Perfmon) =>
      s'.control = s.control ∧ GroupsRel RecordsKept s s')
    (R := fun _ (s' : Perfmon) => Kept s s') ?_ ⟨rfl, GroupsRel.refl RecordsKept.refl s⟩)
    (fun _ s1 h1 => ?_) fun _ _ h => h
  · intro seen th rest s1 hsplit h1
    have hframe := congrArg Control.frame h1.1
    obtain ⟨gs1, hgs1, -, hthreads⟩ := groupSet_of_frame hframe hgs
    have hid : th.threadId < gs1.numberOfThreads := by
      have hth : gs.threads[seen.length]? = some th := by simp [hsplit]
      have hlt := (List.getElem?_eq_some_iff.mp hth).1
      rw [(hc gs.control (control_groupSet hgs)).threadId seen.length th hth,
        PerfmonGroupSet.numberOfThreads, hthreads]
      exact hlt
    rw [Prog.wp_bind]
    refine Prog.wp_mono (Prog.wp_and (callThread_control B.startCountersThread th.threadId _ s1)
      (callThread_start_kept hgs1 hid (NothingToLose.records h1.2 hframe hlose)))
      (fun ret s2 h2 => ?_) fun _ _ h => h.1.elim
    have hrecords := h1.2.trans RecordsKept.trans h2.2
    rw [Prog.wp_when]
    exact ⟨fun _ => Kept.of_records hrecords, fun _ => ⟨h2.1.trans h1.1, hrecords⟩⟩
  · unfold setState
    rw [Prog.wp_modify, wp_timerStart]
    exact (Kept.of_records h1.2).trans ((Kept.setState _ _ s1).trans (Kept.startTimer _ _))

theorem perfmonStartCounters_kept (hc : s.control.Consistent) (hmay : MayStart s) :
    (perfmonStartCounters M B).wp (fun _ s' => Kept s s') (fun _ s' => Kept s s') s := by
  unfold perfmonStartCounters
  simp only [Prog.wp_bind, wp_requireInit, Prog.wp_when, Prog.wp_ret]
  refine ⟨fun gs hgs => ⟨fun _ => Kept.refl s, fun hneg => ?_⟩, fun _ => Kept.refl s⟩
  exact perfmonStartCountersOf_kept hc (hmay _ (control_active hgs (Int.not_lt.mp hneg)))

theorem perfmonStartGroupCounters_kept {groupId : Int} (hc : s.control.Consistent)
    (hmay : ¬s.control.Added groupId → MayStart s) :
    (perfmonStartGroupCounters M B groupId).wp (fun _ s' => Kept s s')
      (fun _ s' => Kept s s') s := by
  unfold perfmonStartGroupCounters groupArgument
  simp only [Prog.wp_bind, wp_requireInit]
  refine ⟨fun gs hgs => ?_, fun _ => Kept.refl s⟩
  split
  · next h =>
      rw [Prog.wp_pure]
      have hnot : ¬s.control.Added groupId := by
        rintro ⟨gs', hgs', h0, hlt⟩
        obtain rfl : gs.control = gs' := Option.some.inj ((control_groupSet hgs).symm.trans hgs')
        rcases h.1 with hneg | hge
        · omega
        · exact absurd hlt (Int.not_lt.mpr hge)
      exact perfmonStartCountersOf_kept hc (hmay hnot _ (control_active hgs h.2))
  · exact Kept.refl s

/-! ## Sizes -/

/-- The groups, their numbers of events and the threads are the same. -/
structure Control.SameShape (k k' : Control) : Prop where
  frame : k'.frame = k.frame
  numberOfEvents : ∀ g, (k'.group? g).map PerfmonEventSet.numberOfEvents =
    (k.group? g).map PerfmonEventSet.numberOfEvents

namespace Control.SameShape

theorem of_eq (h : k' = k) : k.SameShape k' := by
  rw [h]
  exact ⟨rfl, fun _ => rfl⟩

theorem trans {k1 k2 k3 : Control} (h : k1.SameShape k2) (h' : k2.SameShape k3) :
    k1.SameShape k3 :=
  ⟨h'.frame.trans h.frame, fun g => (h'.numberOfEvents g).trans (h.numberOfEvents g)⟩

theorem modifyGroup (k : Control) (g : ℕ) (f : PerfmonEventSet → PerfmonEventSet)
    (hf : ∀ es, (f es).numberOfEvents = es.numberOfEvents) : k.SameShape (k.modifyGroup g f) := by
  refine ⟨frame_modifyGroup k g f, fun i => ?_⟩
  rw [Control.group?_modifyGroup]
  split
  · cases k.group? i <;> simp [hf]
  · rfl

theorem setState (k : Control) (g : ℕ) (state : GroupState) : k.SameShape (k.setState g state) :=
  modifyGroup k g (fun es => { es with state := state }) fun _ => rfl

theorem stopTimer (k : Control) (g : ℕ) : k.SameShape (k.stopTimer M g) := by
  have h := modifyGroup k g
    (fun es => { es with timer := { es.timer with stop := M.tsc k.stamps } }) fun _ => rfl
  exact ⟨h.frame, h.numberOfEvents⟩

theorem startTimer (k : Control) (g : ℕ) : k.SameShape (k.startTimer M g) := by
  have h := modifyGroup k g
    (fun es => { es with timer := { es.timer with start := M.tsc k.stamps } }) fun _ => rfl
  exact ⟨h.frame, h.numberOfEvents⟩

theorem addRunTime (k : Control) (g : ℕ) :
    k.SameShape (k.modifyGroup g (PerfmonEventSet.addRunTime M)) :=
  modifyGroup k g _ fun _ => rfl

theorem started (h : k.Started M k') : k.SameShape k' := by
  obtain ⟨a, -, -, rfl⟩ := h
  exact (setState k a .start).trans (startTimer _ a)

theorem stopFailed (h : k.StopFailed M k') : k.SameShape k' := by
  rcases h with rfl | ⟨a, -, -, rfl⟩
  · exact of_eq rfl
  · exact stopTimer k a

theorem stoppedActive (h : k.StoppedActive M k') : k.SameShape k' := by
  obtain ⟨a, -, -, interval, -, -, rfl⟩ := h
  have hclose := (setState (k.stopTimer M a) a .setup).trans (addRunTime (M := M) _ a)
  exact (stopTimer k a).trans ⟨hclose.frame, hclose.numberOfEvents⟩

theorem setUp {newGroup : Int} (h : k.SetUp newGroup k') (hc : k.Consistent) :
    k.SameShape k' := by
  rw [h.eq hc]
  refine trans ⟨?_, fun g => ?_⟩ (setState _ _ _)
  · simp only [Control.frame, Control.setActive, Control.modifyGroupSet]
    cases k.groupSet <;> rfl
  · simp only [Control.group?, Control.setActive, Control.modifyGroupSet]
    cases k.groupSet <;> rfl

theorem numberOfEvents_eq (h : s.control.SameShape s'.control) {es es' : PerfmonEventSet}
    (hes' : s'.group? g = some es') (hes : s.group? g = some es) :
    es'.numberOfEvents = es.numberOfEvents := by
  have hg := h.numberOfEvents g
  rw [control_group?, control_group?, hes, hes'] at hg
  exact Option.some.inj hg

end Control.SameShape

/-! ## Stopping -/

theorem addResult_fullData (type : RegisterType) (e : PerfmonEventSetEntry) (j : ℕ) :
    ((e.addResult M type j).threadCounter j).fullData = M.fl ((e.threadCounter j).fullData +
      (calculateResult M e.index type (e.threadCounter j)).1) := by
  unfold PerfmonEventSetEntry.addResult
  rw [PerfmonEventSetEntry.onCounter_self]

theorem addResult_of_ne (type : RegisterType) (e : PerfmonEventSetEntry) {i j : ℕ} (h : i ≠ j) :
    (e.addResult M type j).threadCounter i = e.threadCounter i :=
  PerfmonEventSetEntry.onCounter_of_ne _ _ _ h

theorem addResults_fullData (type : RegisterType) (e : PerfmonEventSetEntry) :
    ∀ n, ((List.range n).foldl (fun e j => e.addResult M type j) e).index = e.index ∧
      (∀ j < n, (((List.range n).foldl (fun e j => e.addResult M type j) e).threadCounter
        j).fullData = M.fl ((e.threadCounter j).fullData +
          (calculateResult M e.index type (e.threadCounter j)).1)) ∧
      ∀ j, n ≤ j → ((List.range n).foldl (fun e j => e.addResult M type j) e).threadCounter j =
        e.threadCounter j := by
  intro n
  induction n with
  | zero => exact ⟨rfl, fun j hj => absurd hj (Nat.not_lt_zero j), fun _ _ => rfl⟩
  | succ n ih =>
      obtain ⟨hindex, hdone, hrest⟩ := ih
      rw [List.range_succ, List.foldl_append, List.foldl_cons, List.foldl_nil]
      refine ⟨hindex, fun j hj => ?_, fun j hj => ?_⟩
      · by_cases hjn : j = n
        · subst hjn
          rw [addResult_fullData, hindex, hrest j (Nat.le_refl j)]
        · rw [addResult_of_ne _ _ hjn]
          exact hdone j (by omega)
      · rw [addResult_of_ne _ _ (by omega)]
        exact hrest j (by omega)

/-- What a successful stop of group `g` does to the results: those of the new
interval are added to the group's records. -/
def StoppedResults (M : Machine) (s : Perfmon) (g : ℕ) (s' : Perfmon) : Prop :=
  ∃ iv : Interval, iv.group = g ∧ s'.intervals = s.intervals ++ [iv] ∧
    ∀ i es', s'.group? i = some es' → ∃ es, s.group? i = some es ∧
      ∀ (n : ℕ) e', es'.events[n]? = some (some e') → ∃ e, es.events[n]? = some (some e) ∧
        (i ≠ g → FullDataKept e e') ∧
        (i = g → n < es.numberOfEvents → ∀ gs, s.groupSet = some gs →
          ∀ j < gs.numberOfThreads, (e'.threadCounter j).fullData =
            M.fl ((e.threadCounter j).fullData + iv.result n j))

/-- The results of one event were added to its records. -/
def Accumulated (M : Machine) (numberOfThreads : ℕ) (e e' : PerfmonEventSetEntry) : Prop :=
  ∃ row, M.counterMap[e.index]? = some row ∧ ∀ j < numberOfThreads,
    (e'.threadCounter j).fullData = M.fl ((e.threadCounter j).fullData +
      (calculateResult M e.index row.type (e.threadCounter j)).1)

theorem accumulate_fullData {numberOfThreads n : ℕ} {es : PerfmonEventSet}
    (hes : s.group? g = some es) :
    (onSlots g (Prog.forCells (accumulateEvent M numberOfThreads) n ()) : PerfmonProg Unit).wp
      (fun _ s' => ∃ p : Core × List Slot, s' = s.putSlots g p ∧
        ∀ (i : ℕ) e', p.2[i]? = some (some e') → ∃ e, es.events[i]? = some (some e) ∧
          (i < n → ∀ j < numberOfThreads, (e'.threadCounter j).fullData =
            M.fl ((e.threadCounter j).fullData + slotResult M es.events i j)))
      (fun _ _ => False) s := by
  have hbody : ∀ (b : Unit) (c : Core) (e : PerfmonEventSetEntry),
      (accumulateEvent M numberOfThreads b).wp
        (fun _ p => Accumulated M numberOfThreads e p.2) (fun _ _ => False) (c, e) := by
    intro b c e
    unfold accumulateEvent counterMap
    simp only [Prog.wp_bind, Prog.wp_get, Prog.wp_orUndefined, Prog.wp_zoom, Prog.wp_modify]
    intro row hrow
    exact ⟨row, hrow, (addResults_fullData row.type e numberOfThreads).2.1⟩
  have hslots : ((s.group? g).map PerfmonEventSet.events).getD [] = es.events := by
    rw [hes]
    rfl
  unfold onSlots
  rw [Prog.wp_zoom, hslots]
  refine Prog.wp_mono (Prog.forCells_cells (S := Accumulated M numberOfThreads)
      (T := fun _ _ => False) hbody n () s.core es.events)
    (fun _ p hp => ⟨p, rfl, fun i e' he' => ?_⟩) fun _ _ h => h.elim fun _ _ => id
  rcases Nat.lt_or_ge i n with hi | hi
  · obtain ⟨e, e1, he, he1, row, hrow, hdata⟩ := hp.get_lt hi
    obtain rfl : e1 = e' := by simpa using he1.symm.trans he'
    refine ⟨e, he, fun _ j hj => ?_⟩
    rw [hdata j hj]
    simp [slotResult, he, hrow]
  · rw [hp.get_ge hi] at he'
    exact ⟨e', he', fun h => by omega⟩

theorem perfmonStopCountersOf_fullData (groupId : Int) (s : Perfmon) :
    (perfmonStopCountersOf M B groupId).wp (fun _ s' => StoppedResults M s groupId.toNat s')
      (fun _ s' => Kept s s') s := by
  unfold perfmonStopCountersOf
  simp only [Prog.wp_bind, wp_theGroupSet, wp_groupAt]
  intro gs hgs _ before hbefore
  rw [wp_timerStop]
  have htimer : Kept s (s.stopTimer M groupId.toNat) := Kept.stopTimer _ s
  refine Prog.wp_mono (Prog.wp_and (threads_control (fun th => by omega) _)
    (threads_kept B.stop_fullData _ _)) (fun _ s1 h1 => ?_) fun _ _ h => htimer.trans h.2
  obtain ⟨hk, h1⟩ := h1
  intro _ es hes
  refine Prog.wp_mono (accumulate_fullData hes) (fun _ s2 h2 => ?_) fun _ _ h => h.elim
  obtain ⟨p, rfl, hp⟩ := h2
  unfold setState
  simp only [Prog.wp_modify]
  refine ⟨⟨groupId.toNat, es.timer, slotInit before.events, slotResult M es.events⟩, rfl, ?_,
    fun i es' hes' => ?_⟩
  · have hintervals := congrArg Control.intervals hk
    exact congrArg (· ++ [_]) hintervals
  · -- the new state and the slots have changed nothing else in any group
    have hlast : Kept (s1.putSlots groupId.toNat p) _ :=
      (Kept.setState groupId.toNat .setup (s1.putSlots groupId.toNat p)).trans
        (Kept.addRunTime (M := M) groupId.toNat _)
    obtain ⟨es2, hes2, hall2⟩ := hlast i es' hes'
    rw [group?_putSlots] at hes2
    obtain ⟨es1, hes1, rfl⟩ := Option.map_eq_some_iff.mp hes2
    obtain ⟨es0, hes0, hall0⟩ := (htimer.trans h1) i es1 hes1
    refine ⟨es0, hes0, fun n e' he' => ?_⟩
    obtain ⟨e2, he2, hR2⟩ := hall2 n e' he'
    by_cases hi : groupId.toNat = i
    · subst hi
      rw [if_pos rfl] at he2
      obtain rfl : es = es1 := Option.some.inj (hes.symm.trans hes1)
      obtain ⟨e1, he1, hadd⟩ := hp n e2 he2
      obtain ⟨e0, he0, hR0⟩ := hall0 n e1 he1
      refine ⟨e0, he0, fun h => absurd rfl h, fun _ hn gs' hgs' j hj => ?_⟩
      obtain rfl : gs = gs' := Option.some.inj (hgs.symm.trans hgs')
      have hcount : es.numberOfEvents = es0.numberOfEvents :=
        (Control.SameShape.trans (control_stopTimer (M := M) (s := s) ▸
          Control.SameShape.stopTimer s.control groupId.toNat)
          (Control.SameShape.of_eq hk)).numberOfEvents_eq hes hes0
      rw [hR2 j, hadd (hcount ▸ hn) j hj, hR0 j]
    · rw [if_neg hi] at he2
      obtain ⟨e0, he0, hR0⟩ := hall0 n e2 he2
      exact ⟨e0, he0, fun _ t => (hR2 t).trans (hR0 t), fun h => absurd h.symm hi⟩

theorem stopActive_fullData {gs : PerfmonGroupSet} (hgs : s.groupSet = some gs) :
    (do
      let (_, es) ← groupAt gs.activeGroup
      Prog.when (es.state ≠ .start) (Prog.ret (-einval))
      perfmonStopCountersOf M B gs.activeGroup : PerfmonProg Unit).wp
      (fun _ s' => ∃ a, s.control.active = some a ∧ StoppedResults M s a s')
      (fun _ s' => Kept s s') s := by
  simp only [Prog.wp_bind, wp_groupAt, Prog.wp_when, Prog.wp_ret]
  refine fun h0 es _ => ⟨fun _ => Kept.refl s, fun _ => ?_⟩
  exact Prog.wp_mono (perfmonStopCountersOf_fullData _ s)
    (fun _ _ h => ⟨_, control_active hgs h0, h⟩) fun _ _ h => h

theorem perfmonStopCounters_fullData (s : Perfmon) :
    (perfmonStopCounters M B).wp
      (fun _ s' => ∃ a, s.control.active = some a ∧ StoppedResults M s a s')
      (fun _ s' => Kept s s') s := by
  unfold perfmonStopCounters
  rw [Prog.wp_bind, wp_requireInit]
  refine ⟨fun gs hgs => ?_, fun _ => Kept.refl s⟩
  rw [Prog.wp_bind, Prog.wp_when]
  exact ⟨fun _ => Kept.refl s, fun _ => stopActive_fullData hgs⟩

theorem perfmonStopGroupCounters_fullData (groupId : Int) (s : Perfmon) :
    (perfmonStopGroupCounters M B groupId).wp
      (fun _ s' => ∃ a, s.control.active = some a ∧ StoppedResults M s a s')
      (fun _ s' => Kept s s') s := by
  unfold perfmonStopGroupCounters
  rw [Prog.wp_bind, wp_requireInit]
  refine ⟨fun gs hgs => ?_, fun _ => Kept.refl s⟩
  rw [Prog.wp_bind]
  exact wp_groupArgument (fun _ => stopActive_fullData hgs) (Kept.refl s)

/-! ## Adding an event set -/

/-- The groups there were keep their events, and a new one has fresh records. -/
def AddedResults (s s' : Perfmon) : Prop :=
  ∀ gs', s'.groupSet = some gs' → ∃ gs, s.groupSet = some gs ∧ gs'.threads = gs.threads ∧
    gs.numberOfActiveGroups ≤ gs'.numberOfActiveGroups ∧
    ∀ g < gs'.numberOfActiveGroups, ∀ es', gs'.groups[g]? = some es' →
      (g < gs.numberOfActiveGroups ∧ gs.groups[g]? = some es') ∨
        (g = gs.numberOfActiveGroups ∧
          ∀ e, some e ∈ es'.events → e.threadCounter = fun _ => PerfmonCounter.fresh)

theorem allocate_threads (gs : PerfmonGroupSet) : (gs.allocate M).threads = gs.threads := by
  unfold PerfmonGroupSet.allocate
  dsimp only
  split
  · rfl
  split <;> rfl

theorem perfmonAddEventSet_results (eventString : List Char) (force : Int)
    (hc : s.control.Consistent) :
    (perfmonAddEventSet M eventString force).wp (fun _ _ => False)
      (fun _ s' => s'.intervals = s.intervals ∧ AddedResults s s') s := by
  have hsame : AddedResults s s := fun gs hgs => ⟨gs, hgs, rfl, Nat.le_refl _,
    fun g hg es' hes' => Or.inl ⟨hg, hes'⟩⟩
  unfold perfmonAddEventSet
  simp only [Prog.wp_bind, wp_requireInit, Prog.wp_when, Prog.wp_ret, Prog.wp_modify,
    Prog.wp_orUndefined]
  refine ⟨fun gs hgs => ⟨fun _ => ⟨trivial, hsame⟩, fun _ cpu _ => ?_⟩,
    fun _ => ⟨trivial, hsame⟩⟩
  have hgsc := consistent_of_control (hc gs.control (control_groupSet hgs))
  obtain ⟨-, hcount, -, hbefore⟩ := Control.allocate_consistent (M := M) hgsc
  have hempty : Fresh M [] 0 := ⟨by simp, by simp, by simp⟩
  rw [Prog.wp_zoom]
  refine Prog.wp_mono (Prog.wp_and (addEvents_noReturn M _ force _ _ 0 _ _)
    (addEvents_fresh M _ force _ _ 0 _ _ hempty)) (fun parsed c hparsed => ?_) fun _ _ h => h.1.elim
  have hfresh := hparsed.2
  let added (es : PerfmonEventSet) : PerfmonEventSet :=
    { es with
      events := parsed.slots
      numberOfEvents := parsed.numberOfEvents
      regTypeMask := parsed.regTypeMask }
  have hgroups : ∀ (f : PerfmonEventSet → PerfmonEventSet) (n : ℕ),
      (∀ es, (f es).events = es.events) → n ≤ gs.numberOfActiveGroups + 1 → ∀ g < n, ∀ es',
      (((gs.allocate M).groups.modify gs.numberOfActiveGroups added).modify
        gs.numberOfActiveGroups f)[g]? = some es' →
      (g < gs.numberOfActiveGroups ∧ gs.groups[g]? = some es') ∨
        (g = gs.numberOfActiveGroups ∧
          ∀ e, some e ∈ es'.events → e.threadCounter = fun _ => PerfmonCounter.fresh) := by
    intro f n hf hn g hg es' hes'
    rw [List.getElem?_modify, List.getElem?_modify] at hes'
    rcases Nat.lt_or_ge g gs.numberOfActiveGroups with hlt | hge
    · have hne : gs.numberOfActiveGroups ≠ g := by omega
      rw [hbefore g hlt] at hes'
      exact Or.inl ⟨hlt, by simpa [hne] using hes'⟩
    · obtain rfl : gs.numberOfActiveGroups = g := by omega
      refine Or.inr ⟨rfl, fun e he => ?_⟩
      simp only [if_true, Option.map_eq_map, Option.map_map, Option.map_eq_some_iff] at hes'
      obtain ⟨es, -, rfl⟩ := hes'
      refine hfresh.records e ?_
      simpa [hf, added] using he
  split
  · simp only [Prog.wp_bind, setState, Prog.wp_modify, Prog.wp_ret]
    refine ⟨rfl, fun gs' hgs' => ⟨gs, hgs, ?_⟩⟩
    simp only [Perfmon.modifyGroup, Perfmon.modifyGroupSet, hgs, Option.map_some,
      Option.some.injEq] at hgs'
    subst hgs'
    refine ⟨allocate_threads gs, ?_, hgroups _ _ (fun _ => rfl) ?_⟩
    · dsimp only
      omega
    · dsimp only
      omega
  · rw [Prog.wp_ret]
    refine ⟨rfl, fun gs' hgs' => ⟨gs, hgs, ?_⟩⟩
    simp only [Perfmon.modifyGroup, Perfmon.modifyGroupSet, hgs, Option.map_some,
      Option.some.injEq] at hgs'
    subst hgs'
    refine ⟨allocate_threads gs, Nat.le_of_eq hcount.symm, fun g hg es' hes' => ?_⟩
    refine hgroups id _ (fun _ => rfl) (Nat.le_succ_of_le (Nat.le_of_eq hcount)) g hg es' ?_
    simpa using hes'

/-! ## The invariant -/

/-- The intervals are those of groups that were added, and the records hold the
sums of their results. -/
structure ResultsSummed (M : Machine) (s : Perfmon) : Prop where
  consistent : s.control.Consistent
  added : ∀ iv ∈ s.intervals, s.control.Added iv.group
  exact : FullDataExact M s

theorem Control.SameShape.added (h : k.SameShape k') {i : Int} : k'.Added i ↔ k.Added i := by
  have hframe : ∀ k : Control, k.Added i ↔ ∃ p, k.frame = some p ∧ 0 ≤ i ∧ i < p.1 := by
    intro k
    unfold Control.Added Control.frame
    cases k.groupSet <;> simp
  rw [hframe, hframe, h.frame]

namespace ResultsSummed

theorem of_none (h : s.groupSet = none) (hi : s.intervals = []) : ResultsSummed M s where
  consistent gs hgs := by simp [Perfmon.control, h] at hgs
  added iv hiv := by simp [hi] at hiv
  exact gs hgs := by simp [h] at hgs

theorem keep (h : ResultsSummed M s) (hc : s'.control.Consistent)
    (hshape : s.control.SameShape s'.control) (hintervals : s'.intervals = s.intervals)
    (hkept : Kept s s') : ResultsSummed M s' where
  consistent := hc
  added iv hiv := hshape.added.mpr (h.added iv (hintervals ▸ hiv))
  exact gs' hgs' g hg es' hes' i hi e' he' j hj := by
    obtain ⟨gs, hgs, hcount, hthreads⟩ := groupSet_of_frame hshape.frame.symm hgs'
    have hgroup' : s'.group? g = some es' := by simp [Perfmon.group?, hgs', hes']
    obtain ⟨es, hes, hall⟩ := hkept g es' hgroup'
    obtain ⟨e, he, hdata⟩ := hall i e' he'
    have hevents := hshape.numberOfEvents_eq hgroup' hes
    have htotal : s'.total M g i j = s.total M g i j := by
      simp only [Perfmon.total, Perfmon.intervalsOf, hintervals]
    rw [hdata j, htotal]
    refine h.exact gs hgs g (hcount ▸ hg) es (by simpa [Perfmon.group?, hgs] using hes) i
      (hevents ▸ hi) e he j ?_
    rw [PerfmonGroupSet.numberOfThreads, hthreads]
    exact hj

theorem of_control (h : ResultsSummed M s) (hk : s'.control = s.control) (hkept : Kept s s') :
    ResultsSummed M s' :=
  h.keep (hk ▸ h.consistent) (Control.SameShape.of_eq hk) (congrArg Control.intervals hk) hkept

theorem stopFailed (h : ResultsSummed M s) (hs : s.control.StopFailed M s'.control)
    (hkept : Kept s s') : ResultsSummed M s' := by
  refine h.keep (hs.consistent h.consistent) (Control.SameShape.stopFailed hs) ?_ hkept
  rcases hs with hk | ⟨a, -, -, hk⟩
  · exact congrArg Control.intervals hk
  · exact congrArg Control.intervals hk

theorem started (h : ResultsSummed M s) (hs : s.control.Started M s'.control)
    (hkept : Kept s s') : ResultsSummed M s' := by
  refine h.keep (hs.consistent h.consistent) (Control.SameShape.started hs) ?_ hkept
  obtain ⟨a, -, -, hk⟩ := hs
  exact congrArg Control.intervals hk

theorem stopped (h : ResultsSummed M s) {a : ℕ} (ha : s.control.active = some a)
    (hs : s.control.StoppedActive M s'.control) (hr : StoppedResults M s a s') :
    ResultsSummed M s' where
  consistent := hs.consistent h.consistent
  added iv hiv := by
    refine (Control.SameShape.stoppedActive hs).added.mpr ?_
    obtain ⟨iv0, hgroup, hintervals, -⟩ := hr
    rw [hintervals] at hiv
    rcases List.mem_append.mp hiv with hiv | hiv
    · exact h.added iv hiv
    · rw [List.mem_singleton.mp hiv, hgroup]
      obtain ⟨gs, hgs, hlt⟩ := h.consistent.active_added ha
      exact ⟨gs, hgs, Int.natCast_nonneg a, Int.ofNat_lt.mpr hlt⟩
  exact gs' hgs' g hg es' hes' i hi e' he' j hj := by
    have hshape := Control.SameShape.stoppedActive hs
    obtain ⟨gs, hgs, hcount, hthreads⟩ := groupSet_of_frame hshape.frame.symm hgs'
    have hgroup' : s'.group? g = some es' := by simp [Perfmon.group?, hgs', hes']
    obtain ⟨iv, hgroup, hintervals, hrel⟩ := hr
    obtain ⟨es, hes, hall⟩ := hrel g es' hgroup'
    obtain ⟨e, he, hother, hself⟩ := hall i e' he'
    have hevents := hshape.numberOfEvents_eq hgroup' hes
    have hj' : j < gs.numberOfThreads := by
      rw [PerfmonGroupSet.numberOfThreads, hthreads]
      exact hj
    have hbefore := h.exact gs hgs g (hcount ▸ hg) es (by simpa [Perfmon.group?, hgs] using hes) i
      (hevents ▸ hi) e he j hj'
    by_cases hga : g = a
    · subst hga
      rw [hself rfl (hevents ▸ hi) gs hgs j hj', hbefore]
      simp [Perfmon.total, Perfmon.intervalsOf, hintervals, hgroup, List.filter_append]
    · have hne : iv.group ≠ g := fun h => hga (h.symm.trans hgroup)
      rw [hother hga j, hbefore]
      simp [Perfmon.total, Perfmon.intervalsOf, hintervals, hne, List.filter_append]

theorem addedEventSet (h : ResultsSummed M s) (hs : s.control.AddedEventSet M s'.control)
    (hintervals : s'.intervals = s.intervals) (hr : AddedResults s s') : ResultsSummed M s' where
  consistent := hs.consistent h.consistent
  added iv hiv := hs.added h.consistent (h.added iv (hintervals ▸ hiv))
  exact gs' hgs' g hg es' hes' i hi e' he' j hj := by
    obtain ⟨gs, hgs, hthreads, -, hgroups⟩ := hr gs' hgs'
    have htotal : s'.total M g i j = s.total M g i j := by
      simp only [Perfmon.total, Perfmon.intervalsOf, hintervals]
    rw [htotal]
    rcases hgroups g hg es' hes' with ⟨hlt, hold⟩ | ⟨rfl, hfresh⟩
    · refine h.exact gs hgs g hlt es' hold i hi e' he' j ?_
      rw [PerfmonGroupSet.numberOfThreads, ← hthreads]
      exact hj
    · -- a new group has not measured anything
      have hnil : s.intervalsOf gs.numberOfActiveGroups = [] := by
        refine List.filter_eq_nil_iff.mpr fun iv hiv => ?_
        obtain ⟨gs0, hgs0, -, hlt⟩ := h.added iv hiv
        obtain rfl : gs.control = gs0 := Option.some.inj ((control_groupSet hgs).symm.trans hgs0)
        have hlt : (iv.group : Int) < gs.numberOfActiveGroups := hlt
        simp only [decide_eq_true_eq]
        omega
      rw [hfresh e' (List.mem_of_getElem? he'), Perfmon.total, hnil]
      rfl

end ResultsSummed

/-! ## Steps -/

theorem perfmonSetupCounters_resultsSummed (h : ResultsSummed M s) (groupId : Int) :
    (perfmonSetupCounters M B groupId).wp
      (fun _ s' => s.control.SetUp groupId s'.control ∧ ResultsSummed M s' ∧ Kept s s')
      (fun r s' => r ≠ 0 ∧ ¬s.control.Added groupId ∧ ResultsSummed M s') s := by
  refine Prog.wp_mono (Prog.wp_and (perfmonSetupCounters_control groupId s)
    (perfmonSetupCounters_kept groupId s)) (fun _ s1 h1 => ?_) fun r s1 h1 => ?_
  · obtain ⟨hset, hkept⟩ := h1
    have hk := congrArg Control.intervals (hset.eq h.consistent)
    exact ⟨hset, h.keep (hset.consistent h.consistent)
      (Control.SameShape.setUp hset h.consistent) hk hkept, hkept⟩
  · obtain ⟨⟨hr, hnot, hk⟩, hkept⟩ := h1
    exact ⟨hr, hnot, h.of_control hk hkept⟩

theorem perfmonStopCounters_resultsSummed (h : ResultsSummed M s) :
    (perfmonStopCounters M B).wp (fun _ s' => ResultsSummed M s') (fun _ s' => ResultsSummed M s')
      s := by
  refine Prog.wp_mono (Prog.wp_and (perfmonStopCounters_control s)
    (perfmonStopCounters_fullData s)) (fun _ s1 h1 => ?_) fun r s1 h1 => ?_
  · obtain ⟨hstop, a, ha, hr⟩ := h1
    exact h.stopped ha hstop hr
  · exact h.stopFailed h1.1.2 h1.2

theorem perfmonStopGroupCounters_resultsSummed (h : ResultsSummed M s) (groupId : Int) :
    (perfmonStopGroupCounters M B groupId).wp (fun _ s' => ResultsSummed M s')
      (fun _ s' => ResultsSummed M s') s := by
  refine Prog.wp_mono (Prog.wp_and (perfmonStopGroupCounters_control groupId s)
    (perfmonStopGroupCounters_fullData groupId s)) (fun _ s1 h1 => ?_) fun r s1 h1 => ?_
  · obtain ⟨hstop, a, ha, hr⟩ := h1
    exact h.stopped ha hstop hr
  · exact h.stopFailed h1.1.2 h1.2

theorem perfmonStartCounters_resultsSummed (h : ResultsSummed M s) (hmay : MayStart s) :
    (perfmonStartCounters M B).wp (fun _ s' => ResultsSummed M s') (fun _ s' => ResultsSummed M s')
      s :=
  Prog.wp_mono (Prog.wp_and (perfmonStartCounters_control s)
    (perfmonStartCounters_kept h.consistent hmay)) (fun _ _ h1 => h.started h1.1 h1.2)
    fun _ _ h1 => h.of_control h1.1.2 h1.2

theorem perfmonStartGroupCounters_resultsSummed (h : ResultsSummed M s) {groupId : Int}
    (hmay : ¬s.control.Added groupId → MayStart s) :
    (perfmonStartGroupCounters M B groupId).wp (fun _ s' => ResultsSummed M s')
      (fun _ s' => ResultsSummed M s') s :=
  Prog.wp_mono (Prog.wp_and (perfmonStartGroupCounters_control groupId s)
    (perfmonStartGroupCounters_kept h.consistent hmay)) (fun _ _ h1 => h.started h1.1 h1.2)
    fun _ _ h1 => h.of_control h1.1.2 h1.2

/-! ## Switching -/

theorem clearInit_kept (threadId n g : ℕ) (s : Perfmon) :
    (onSlots g (Prog.forCells (clearInit threadId) n ()) : PerfmonProg Unit).wp
      (fun _ s' => Kept s s') (fun _ _ => False) s := by
  have hbody : ∀ (b : Unit) (c : Core) (e : PerfmonEventSetEntry),
      (clearInit threadId b).wp (fun _ p => FullDataKept e p.2) (fun _ _ => False) (c, e) :=
    fun _ _ e => setInit_fullDataKept false e
  unfold onSlots
  rw [Prog.wp_zoom]
  refine Prog.wp_mono (Prog.forCells_cells (S := FullDataKept) (T := fun _ _ => False) hbody n ()
    _ _) (fun _ p hp => ?_) fun _ _ h => h.elim fun _ _ => id
  intro i es' hes'
  have hes' := (group?_putSlots g p i).symm.trans hes'
  obtain ⟨es, hes, rfl⟩ := Option.map_eq_some_iff.mp hes'
  refine ⟨es, hes, fun m e' he' => ?_⟩
  split at he'
  · next hi =>
      rw [hi, hes] at hp
      exact (Prog.CellsRel.of_done FullDataKept.refl hp).get he'
  · exact ⟨e', he', FullDataKept.refl e'⟩

theorem Perfmon.NoResults.kept (h : s.NoResults g) (hframe : s'.control.frame = s.control.frame)
    (hkept : ∀ es', s'.group? g = some es' → ∃ es, s.group? g = some es ∧
      ∀ (i : ℕ) e', es'.events[i]? = some (some e') →
        ∃ e, es.events[i]? = some (some e) ∧ FullDataKept e e') : s'.NoResults g := by
  intro gs' hgs' es' hes' e' he' j hj
  obtain ⟨gs, hgs, -, hthreads⟩ := groupSet_of_frame hframe.symm hgs'
  have hgroup : s'.group? g = some es' := by
    rw [Perfmon.group?, Option.mem_def.mp hgs']
    exact hes'
  obtain ⟨es, hes, hall⟩ := hkept es' hgroup
  obtain ⟨i, hi⟩ := List.mem_iff_getElem?.mp he'
  obtain ⟨e, he, hR⟩ := hall i e' hi
  rw [hR j]
  refine h gs hgs es (by simpa [Perfmon.group?, hgs] using hes) e (List.mem_of_getElem? he) j ?_
  rw [PerfmonGroupSet.numberOfThreads, hthreads]
  exact hj

theorem Perfmon.NoResults.nothingToLose (h : s.NoResults g) : s.NothingToLose g :=
  fun gs hgs es hes e he j hj _ => h gs hgs es hes e he j hj

/-- What is left of a switch once the old group was left. -/
theorem switchRest_resultsSummed {threadId g : ℕ} {es : PerfmonEventSet} {newGroup : Int}
    (h : ResultsSummed M s)
    (hnew : es.state = .start → s.control.Added newGroup → s.NoResults newGroup.toNat) :
    (do
      Prog.when (es.state = .setup)
        (onSlots g (Prog.forCells (clearInit threadId) es.numberOfEvents ()))
      let ret ← Prog.call 0 (perfmonSetupCounters M B newGroup)
      Prog.when (ret ≠ 0) (Prog.ret ret)
      Prog.when (es.state = .start) do
        let ret ← Prog.call 0 (perfmonStartCounters M B)
        Prog.when (ret ≠ 0) (Prog.ret ret) : PerfmonProg Unit).wp
      (fun _ s' => ResultsSummed M s' ∧ s.control.SameShape s'.control ∧
        s.control.Added newGroup ∧
        (es.state ≠ .start → ∀ a ∈ s'.control.active, ¬s'.control.InState a .start))
      (fun r s' => r ≠ 0 ∧ ResultsSummed M s') s := by
  have hclear : (Prog.when (es.state = .setup)
      (onSlots g (Prog.forCells (clearInit threadId) es.numberOfEvents ())) :
        PerfmonProg Unit).wp (fun _ s' => s'.control = s.control ∧ Kept s s')
        (fun _ _ => False) s := by
    rw [Prog.wp_when]
    refine ⟨fun _ => ?_, fun _ => ⟨rfl, Kept.refl s⟩⟩
    exact Prog.wp_mono (Prog.wp_and (clearInit_control _ _ _ s) (clearInit_kept _ _ _ s))
      (fun _ _ h => h) fun _ _ h => h.1
  rw [Prog.wp_bind]
  refine Prog.wp_mono hclear (fun _ s1 h1 => ?_) fun _ _ h => h.elim
  obtain ⟨hk, hkept⟩ := h1
  rw [Prog.wp_bind, Prog.wp_call]
  refine Prog.wp_mono (perfmonSetupCounters_resultsSummed (h.of_control hk hkept) newGroup)
    (fun _ s2 h2 => ?_) fun r s2 h2 => ?_
  · obtain ⟨hset, h2, hkept2⟩ := h2
    have hc1 : s1.control.Consistent := hk ▸ h.consistent
    have hadd : s.control.Added newGroup := hk ▸ hset.1
    have hshape : s.control.SameShape s2.control :=
      (Control.SameShape.of_eq hk).trans (Control.SameShape.setUp hset hc1)
    have hactive : s2.control.active = some newGroup.toNat := by
      rw [hset.eq hc1]
      exact Control.active_modifyGroup.trans (Control.active_setActive hset.1)
    simp only [Prog.wp_bind, Prog.wp_when, Prog.wp_call, Prog.wp_ret]
    refine ⟨fun hne => absurd rfl hne, fun _ => ⟨fun hstart => ?_, fun hne =>
      ⟨h2, hshape, hadd, fun _ a ha hst => ?_⟩⟩⟩
    · have hno : s2.NoResults newGroup.toNat :=
        (hnew hstart hadd).kept hshape.frame fun es' hes' => (hkept.trans hkept2) _ es' hes'
      have hmay : MayStart s2 := by
        intro a ha _
        obtain rfl : newGroup.toNat = a := Option.some.inj (hactive.symm.trans ha)
        exact hno.nothingToLose
      refine Prog.wp_mono (Prog.wp_and (perfmonStartCounters_control s2)
        (perfmonStartCounters_resultsSummed h2 hmay)) (fun _ s3 h3 => ?_) fun r s3 h3 => ?_
      · exact ⟨fun hne => absurd rfl hne, fun _ => ⟨h3.2,
          hshape.trans (Control.SameShape.started h3.1), hadd, fun hne => absurd hstart hne⟩⟩
      · exact ⟨fun _ => ⟨h3.1.1, h3.2⟩, fun hz => absurd h3.1.1 hz⟩
    · obtain rfl : newGroup.toNat = a := Option.some.inj (hactive.symm.trans ha)
      rw [hset.eq hc1] at hst
      rcases hst.of_setState with ⟨-, h⟩ | ⟨hne, -⟩
      · cases h
      · exact absurd rfl hne
  · obtain ⟨hr, -, h2⟩ := h2
    rw [Prog.wp_bind, Prog.wp_when, Prog.wp_ret]
    exact ⟨fun _ => ⟨hr, h2⟩, fun hz => absurd hr hz⟩

theorem Kept.leave (s : Perfmon) (a : ℕ) : Kept s (s.leave M a) :=
  (Kept.stopTimer a s).trans (Kept.addRunTime a _)

theorem Control.SameShape.leave (s : Perfmon) (a : ℕ) :
    s.control.SameShape (s.leave M a).control := by
  rw [control_leave]
  exact (stopTimer s.control a).trans (addRunTime _ a)

theorem perfmonSwitchActiveGroupThread_resultsSummed {threadId : ℕ} {newGroup : Int}
    (h : ResultsSummed M s) (hg : KeepsResults s (.switchActiveGroup newGroup)) :
    (perfmonSwitchActiveGroupThread M B threadId newGroup).wp
      (fun _ s' => ResultsSummed M s' ∧ s.control.SameShape s'.control ∧
        (s.OneThread ∨ ∀ a ∈ s'.control.active, ¬s'.control.InState a .start))
      (fun r s' => r ≠ 0 ∧ ResultsSummed M s') s := by
  unfold perfmonSwitchActiveGroupThread
  rw [Prog.wp_bind, wp_requireInit]
  refine ⟨fun gs hgs => ?_, fun _ => ⟨by decide, h⟩⟩
  rw [Prog.wp_bind, wp_groupAt]
  intro h0 es hes
  have hactive := control_active hgs h0
  have hshape := Control.SameShape.leave (M := M) s gs.activeGroup.toNat
  have hkept := Kept.leave (M := M) s gs.activeGroup.toNat
  have hleave : ResultsSummed M (s.leave M gs.activeGroup.toNat) := by
    refine h.keep ?_ hshape rfl hkept
    rw [control_leave]
    exact (h.consistent.modifyGroup _ _).modifyGroup _ _
  dsimp only
  rw [Prog.wp_bind, wp_timerStop, Prog.wp_bind, Prog.wp_modify]
  show Prog.wp _ _ _ (s.leave M gs.activeGroup.toNat)
  rw [Prog.wp_bind, Prog.wp_when]
  have hrest : ∀ s1 : Perfmon, ResultsSummed M s1 → s.control.SameShape s1.control →
      (es.state = .start → s.control.Added newGroup → s1.NoResults newGroup.toNat) →
      (do
        Prog.when (es.state = .setup)
          (onSlots gs.activeGroup.toNat
            (Prog.forCells (clearInit threadId) es.numberOfEvents ()))
        let ret ← Prog.call 0 (perfmonSetupCounters M B newGroup)
        Prog.when (ret ≠ 0) (Prog.ret ret)
        Prog.when (es.state = .start) do
          let ret ← Prog.call 0 (perfmonStartCounters M B)
          Prog.when (ret ≠ 0) (Prog.ret ret) : PerfmonProg Unit).wp
        (fun _ s' => ResultsSummed M s' ∧ s.control.SameShape s'.control ∧
          (s.OneThread ∨ ∀ a ∈ s'.control.active, ¬s'.control.InState a .start))
        (fun r s' => r ≠ 0 ∧ ResultsSummed M s') s1 := by
    intro s1 h1 hshape1 hno
    refine Prog.wp_mono (switchRest_resultsSummed h1 fun hstart hadd =>
      hno hstart (hshape1.added.mp hadd)) (fun _ s2 h2 => ?_) fun _ _ h => h
    obtain ⟨h2, hshape2, hadd, hstate⟩ := h2
    refine ⟨h2, hshape1.trans hshape2, ?_⟩
    by_cases hstart : es.state = .start
    · have hin : s.control.InState gs.activeGroup.toNat .start := hstart ▸ control_inState hes
      exact Or.inl (hg (hshape1.added.mp hadd) _ hactive hin).1
    · exact Or.inr (hstate hstart)
  refine ⟨fun hstart => ?_, fun hne => hrest _ hleave hshape fun hstart => absurd hstart hne⟩
  have hin : s.control.InState gs.activeGroup.toNat .start := hstart ▸ control_inState hes
  rw [Prog.wp_bind, Prog.wp_call]
  refine Prog.wp_mono (Prog.wp_and (perfmonStopCounters_control _) (Prog.wp_and
    (perfmonStopCounters_fullData _) (perfmonStopCounters_resultsSummed hleave)))
    (fun _ s1 h1 => ?_) fun r s1 h1 => ?_
  · obtain ⟨hstop, ⟨a, ha, hr⟩, h1⟩ := h1
    have hshape1 := hshape.trans (Control.SameShape.stoppedActive hstop)
    refine hrest s1 h1 hshape1 fun _ hadd => ?_
    obtain ⟨-, hne, hno⟩ := hg hadd _ hactive hin
    obtain rfl : gs.activeGroup.toNat = a :=
      Option.some.inj (hactive.symm.trans (active_leave.symm.trans ha))
    have hne' : newGroup.toNat ≠ gs.activeGroup.toNat := by
      obtain ⟨-, -, hn0, -⟩ := hadd
      omega
    obtain ⟨iv, -, -, hrel⟩ := hr
    refine hno.kept hshape1.frame fun es' hes' => ?_
    obtain ⟨es1, hes1, hall1⟩ := hrel _ es' hes'
    obtain ⟨es0, hes0, hall0⟩ := hkept _ es1 hes1
    refine ⟨es0, hes0, fun i e' he' => ?_⟩
    obtain ⟨e1, he1, hother, -⟩ := hall1 i e' he'
    obtain ⟨e0, he0, hR⟩ := hall0 i e1 he1
    exact ⟨e0, he0, fun t => (hother hne' t).trans (hR t)⟩
  · obtain ⟨⟨-, hfail⟩, hkept1, h1⟩ := h1
    have hshape1 := hshape.trans (Control.SameShape.stopFailed hfail)
    refine hrest s1 h1 hshape1 fun _ hadd => ?_
    obtain ⟨-, -, hno⟩ := hg hadd _ hactive hin
    exact hno.kept hshape1.frame fun es' hes' => (hkept.trans hkept1) _ es' hes'

theorem perfmonSwitchActiveGroup_resultsSummed {newGroup : Int} (h : ResultsSummed M s)
    (hg : KeepsResults s (.switchActiveGroup newGroup)) :
    (perfmonSwitchActiveGroup M B newGroup).wp (fun _ s' => ResultsSummed M s')
      (fun _ s' => ResultsSummed M s') s := by
  unfold perfmonSwitchActiveGroup
  rw [Prog.wp_bind, wp_theGroupSet]
  intro gs hgs
  -- a running group is switched by one thread only, another one by any number
  refine Prog.wp_mono (Prog.wp_foldlM
    (I := fun seen (s' : Perfmon) => ResultsSummed M s' ∧ s.control.SameShape s'.control ∧
      (seen.length < gs.threads.length → KeepsResults s' (.switchActiveGroup newGroup)))
    (R := fun _ (s' : Perfmon) => ResultsSummed M s') ?_
    ⟨h, Control.SameShape.of_eq rfl, fun _ => hg⟩) (fun _ _ h => h.1) fun _ _ h => h
  intro seen th rest s1 hsplit h1
  obtain ⟨h1, hshape1, hg1⟩ := h1
  have hlength := congrArg List.length hsplit
  simp only [List.length_append, List.length_cons] at hlength
  rw [Prog.wp_bind, Prog.wp_call]
  refine Prog.wp_mono (perfmonSwitchActiveGroupThread_resultsSummed h1 (hg1 (by omega)))
    (fun _ s2 h2 => ?_) fun r s2 h2 => ?_
  · obtain ⟨h2, hshape2, hstate⟩ := h2
    rw [Prog.wp_when]
    refine ⟨fun hne => absurd rfl hne, fun _ => ⟨h2, hshape1.trans hshape2, fun hlt => ?_⟩⟩
    rw [List.length_append, List.length_singleton] at hlt
    rcases hstate with hone | hnot
    · obtain ⟨gs1, hgs1, -, hthreads⟩ := groupSet_of_frame hshape1.frame hgs
      have hcount := hone gs1 hgs1
      rw [PerfmonGroupSet.numberOfThreads, hthreads] at hcount
      omega
    · exact fun _ a ha hst => absurd hst (hnot a ha)
  · rw [Prog.wp_when]
    exact ⟨fun _ => h2.2, fun hz => absurd h2.1 hz⟩

/-! ## Runs -/

theorem ResultsSummed.intervals_of_none (h : ResultsSummed M s) (hnone : s.groupSet = none) :
    s.intervals = [] := by
  refine List.eq_nil_iff_forall_not_mem.mpr fun iv hiv => ?_
  obtain ⟨gs, hgs, -⟩ := h.added iv hiv
  simp [Perfmon.control, hnone] at hgs

theorem perfmonInit_resultsSummed (h : ResultsSummed M s) (threadsToCpu : List ℕ) :
    (perfmonInit M B threadsToCpu).wp (fun _ s' => ResultsSummed M s')
      (fun _ s' => ResultsSummed M s') s := by
  cases hgs : s.groupSet with
  | some gs =>
      unfold perfmonInit
      rw [Prog.wp_bind, Prog.wp_get, hgs]
      exact h
  | none =>
      have hnone : s.control.groupSet = none := by simp [Perfmon.control, hgs]
      have hintervals := h.intervals_of_none hgs
      refine Prog.wp_mono (perfmonInit_control threadsToCpu s) (fun _ s1 h1 => ?_)
        fun _ s1 hk => ?_
      · have hc := h1.consistent
        obtain ⟨-, gs, hk, -, hzero, -⟩ := h1
        have hempty : s1.intervals = [] := (congrArg Control.intervals hk).trans hintervals
        refine ⟨hc, by simp [hempty], fun gs1 hgs1 g hg => ?_⟩
        have hset := (control_groupSet hgs1).symm.trans (congrArg Control.groupSet hk)
        have hcount : gs1.numberOfActiveGroups = 0 :=
          (congrArg PerfmonGroupSet.numberOfActiveGroups (Option.some.inj hset)).trans hzero
        omega
      · exact ResultsSummed.of_none (groupSet_of_control_none (hk ▸ hnone))
          ((congrArg Control.intervals hk).trans hintervals)

/-- **One step**: a call that keeps the results keeps the invariant. -/
theorem resultsSummed_step {call : Call} (h : ResultsSummed M s) (hg : KeepsResults s call)
    (hs : Step M B s call s') : ResultsSummed M s' := by
  refine hs.wp (P := fun s' => ResultsSummed M s') ?_
  have hread : ∀ groupId threadId, (perfmonReadCountersOf B groupId threadId).wp
      (fun _ s' => ResultsSummed M s') (fun _ s' => ResultsSummed M s') s := fun groupId threadId =>
    Prog.wp_mono (Prog.wp_and (perfmonReadCountersOf_control groupId threadId s)
      (perfmonReadCountersOf_kept groupId threadId s)) (fun _ _ h1 => h.of_control h1.1 h1.2)
      fun _ _ h1 => h.of_control h1.1 h1.2
  cases call with
  | init threadsToCpu => exact perfmonInit_resultsSummed h threadsToCpu
  | finalize =>
      refine Prog.wp_mono (perfmonFinalize_control s) (fun _ s1 hk => ?_) fun _ s1 hk => ?_
      · exact ResultsSummed.of_none (groupSet_of_control_none (by rw [hk]))
          (congrArg Control.intervals hk)
      · refine ResultsSummed.of_none (groupSet_of_control_none (by rw [hk.2, hk.1])) ?_
        exact (congrArg Control.intervals hk.2).trans
          (h.intervals_of_none (groupSet_of_control_none hk.1))
  | addEventSet eventString force =>
      exact Prog.wp_mono (Prog.wp_and (perfmonAddEventSet_control eventString force s)
        (perfmonAddEventSet_results eventString force h.consistent)) (fun _ _ h1 => h1.1.elim)
        fun _ _ h1 => h.addedEventSet h1.1 h1.2.1 h1.2.2
  | setupCounters groupId =>
      exact Prog.wp_mono (perfmonSetupCounters_resultsSummed h groupId) (fun _ _ h1 => h1.2.1)
        fun _ _ h1 => h1.2.2
  | startCounters => exact perfmonStartCounters_resultsSummed h hg
  | startGroupCounters groupId => exact perfmonStartGroupCounters_resultsSummed h hg
  | readCounters => exact hread _ _
  | readGroupCounters groupId => exact hread _ _
  | readGroupThreadCounters groupId threadId => exact hread _ _
  | readCountersCpu cpu =>
      exact Prog.wp_mono (Prog.wp_and (perfmonReadCountersCpu_control cpu s)
        (perfmonReadCountersCpu_kept cpu s)) (fun _ _ h1 => h.of_control h1.1 h1.2)
        fun _ _ h1 => h.of_control h1.1 h1.2
  | stopCounters => exact perfmonStopCounters_resultsSummed h
  | stopGroupCounters groupId => exact perfmonStopGroupCounters_resultsSummed h groupId
  | switchActiveGroup newGroup => exact perfmonSwitchActiveGroup_resultsSummed h hg

/-- Without switches the run times are sums over the same intervals. -/
theorem runTimeOfIntervals_of_run (h0 : Booted s)
    (h : Run (Step M B) (fun _ call => AddsOnce call) s t) : RunTimeOfIntervals M t := by
  obtain ⟨m, hm⟩ := Run.watched h Monitor.empty
  have haccounts := accounts_of_run (p := (t, m)) h0 hm
  intro g es hes
  have htimers : (t.intervalsOf g).map Interval.timer = (m.spans g).map (Span.timer M) := by
    have hselect := congrArg (List.filterMap fun p : ℕ × TimerData =>
      if p.1 = g then some p.2 else none) haccounts.intervals
    rw [List.filterMap_map, List.filterMap_map] at hselect
    unfold Perfmon.intervalsOf Monitor.spans
    rw [← List.filterMap_eq_map, List.filterMap_filter, List.map_filterMap]
    refine Eq.trans ?_ (hselect.trans ?_)
    · refine congrArg (List.filterMap · t.intervals) (funext fun iv => ?_)
      by_cases hiv : iv.group = g <;> simp [hiv]
    · refine congrArg (List.filterMap · m.measured) (funext fun p => ?_)
      by_cases hp : p.1 = g <;> simp [hp]
  have htime := haccounts.runTime g es.control (by rw [control_group?, hes]; rfl)
  have hfold : ∀ l : List Interval, l.foldl (fun x iv => M.fl (x + timerPrint M iv.timer)) 0 =
      (l.map Interval.timer).foldl (fun x timer => M.fl (x + timerPrint M timer)) 0 :=
    fun l => by rw [List.foldl_map]
  rw [hfold, htimers, List.foldl_map]
  exact htime

/-- **In every run whose starts throw no result away every record holds the sum
of its results over the measured intervals of its group**, with every backend.
If there is no switch in the run either, the run times cover the same
intervals. -/
theorem fullDataExact_of_run (h0 : Booted s) (h : Run (Step M B) KeepsResults s t) :
    FullDataExact M t ∧
      (Run (Step M B) (fun _ call => AddsOnce call) s t → RunTimeOfIntervals M t) := by
  have hboot : ResultsSummed M s := ResultsSummed.of_none h0.groupSet h0.intervals
  have hstep : ∀ (u : Perfmon) (call : Call) (v : Perfmon), ResultsSummed M u →
      KeepsResults u call → Step M B u call v → ResultsSummed M v :=
    fun _ _ _ => resultsSummed_step
  exact ⟨(Run.invariant (t := t) hboot hstep h).exact, runTimeOfIntervals_of_run h0⟩

/-- The counters of these machines deliver 5 whenever they are read. -/
def countingFive (M : Machine) : Machine :=
  { M with accessData := fun _ _ _ reg value => if reg = msrPerfFixedCtr0 then 5 else value }

theorem fullDataExact_switch :
    let M := countingFive haswellMachine
    let t := (Perfmon.afterIf M (haswell M) KeepsResults
      (twoGroups ++ [.setupCounters 1, .startCounters, .switchActiveGroup 0, .readCounters,
        .stopCounters, .startCounters, .stopCounters]) Perfmon.boot).get (by decide +kernel)
    FullDataExact M t ∧
      (Run (Step M (haswell M)) (fun _ call => AddsOnce call) Perfmon.boot t →
        RunTimeOfIntervals M t) :=
  fullDataExact_of_run booted_boot (Run.of_afterIf (Option.some_get _).symm)

/-- The second start throws the result of the first interval away. -/
theorem not_fullDataExact_restart :
    ∃ t, Run (Step (countingFive nehalemMachine) (nehalem (countingFive nehalemMachine)))
        (fun _ _ => True) Perfmon.boot t ∧
      ¬FullDataExact (countingFive nehalemMachine) t := by
  let M := countingFive nehalemMachine
  let t := (Perfmon.after M (nehalem M)
    [.init [0], .addEventSet "INSTR_RETIRED_ANY:FIXC0".toList 0, .setupCounters 0,
      .startCounters, .stopCounters, .startCounters, .stopCounters] Perfmon.boot).get
        (by decide +kernel)
  have hfull : ((t.group? 0).bind fun es => es.events[0]?.join.map fun e =>
      (es.numberOfEvents, (e.threadCounter 0).fullData)) = some (1, 5) := by decide +kernel
  have hcounts : t.groupSet.map (fun gs => (gs.numberOfActiveGroups, gs.numberOfThreads)) =
      some (1, 1) := by decide +kernel
  have htotal : t.total M 0 0 0 = 10 := by decide +kernel
  refine ⟨t, Run.of_afterIf (Option.some_get _).symm, fun h => ?_⟩
  obtain ⟨gs, hgs, hcounts⟩ := Option.map_eq_some_iff.mp hcounts
  obtain ⟨es, hes, hentry⟩ := Option.bind_eq_some_iff.mp hfull
  obtain ⟨e, he, hentry⟩ := Option.map_eq_some_iff.mp hentry
  have hgroup : gs.groups[0]? = some es := by simpa [Perfmon.group?, hgs] using hes
  have hsum := h gs hgs 0 (by simp_all) es hgroup 0 (by simp_all) e
    (Option.join_eq_some_iff.mp he) 0 (by simp_all)
  rw [htotal, (Prod.mk.inj hentry).2] at hsum
  exact absurd hsum (by decide)

end Likwid
