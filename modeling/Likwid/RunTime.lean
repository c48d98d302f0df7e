import Likwid.ActiveGroup

/-!
# Run time

An observer of the calls, their return codes and the readings of the time stamp
counter says which intervals of a group were measured: each begins at a
successful start and ends at the stop that follows. `runTime_of_run` shows that
the run time of every group is the sum of these intervals, which do not
overlap, along every run without a switch.
-/

namespace Likwid

variable {M : Machine} {B : Backend} {s s' t : Perfmon} {k k' : Control} {g : ℕ}

/-! ## The observer -/

/-- A measured interval, by the numbers of the two readings. -/
structure Span where
  opened : ℕ
  closed : ℕ
deriving DecidableEq, Repr

def Span.timer (M : Machine) (sp : Span) : TimerData := ⟨M.tsc sp.opened, M.tsc sp.closed⟩

def Span.length (M : Machine) (sp : Span) : ℚ := timerPrint M (sp.timer M)

/-- The reading of each group's last start, and the intervals measured so far,
each with its group. -/
structure Monitor where
  opened : ℕ → ℕ
  measured : List (ℕ × Span)

namespace Monitor

def empty : Monitor := ⟨fun _ => 0, []⟩

/-- The intervals of group `g`, in the order in which they were measured. -/
def spans (m : Monitor) (g : ℕ) : List Span :=
  m.measured.filterMap fun p => if p.1 = g then some p.2 else none

/-- The lengths of the intervals of group `g`, added up as the C code adds
doubles. -/
def total (M : Machine) (m : Monitor) (g : ℕ) : ℚ :=
  (m.spans g).foldl (fun x sp => M.fl (x + sp.length M)) 0

/-- Group `a` is started with reading `n`. -/
def start (m : Monitor) (a n : ℕ) : Monitor :=
  { m with opened := fun g => if g = a then n else m.opened g }

/-- Group `a` is stopped with reading `n`. -/
def stop (m : Monitor) (a n : ℕ) : Monitor :=
  { m with measured := m.measured ++ [(a, ⟨m.opened a, n⟩)] }

/-- Change the observer's notes on the active group, if there is one. -/
def onActive (m : Monitor) (s : Perfmon) (f : ℕ → Monitor) : Monitor :=
  match s.control.active with
  | some a => f a
  | none => m

/-- What is seen of a call in `s` that returns `r` and leaves `s'`. A switch
closes the interval of a running group and opens one of the new group. -/
def observe (m : Monitor) (s : Perfmon) (call : Call) (r : Int) (s' : Perfmon) : Monitor :=
  match call with
  | .startCounters | .startGroupCounters _ =>
      if r = 0 then m.onActive s (m.start · s.stamps) else m
  | .stopCounters | .stopGroupCounters _ =>
      if r = 0 then m.onActive s (m.stop · s.stamps) else m
  | .switchActiveGroup newGroup =>
      if r = 0 then m.onActive s fun a =>
        if s.control.InState a .start then
          (m.stop a s.stamps).start newGroup.toNat (s'.stamps - 1)
        else m
      else m
  | .finalize => { m with measured := [] }
  | .init _ | .addEventSet _ _ | .setupCounters _ | .readCounters | .readGroupCounters _
  | .readGroupThreadCounters _ _ | .readCountersCpu _ => m

theorem onActive_of (m : Monitor) {s : Perfmon} {a : ℕ} (ha : s.control.active = some a)
    (f : ℕ → Monitor) : m.onActive s f = f a := by
  simp [onActive, ha]

end Monitor

/-- A call, watched by the observer. -/
def WatchedStep (M : Machine) (B : Backend) (p : Perfmon × Monitor) (call : Call)
    (p' : Perfmon × Monitor) : Prop :=
  ∃ r, returns (call.prog M B) p.1 = some (r, p'.1) ∧ p'.2 = p.2.observe p.1 call r p'.1

/-- The state and the observer after a call, if it returns. -/
def watchedNext (M : Machine) (B : Backend) (p : Perfmon × Monitor) (call : Call) :
    Option (Perfmon × Monitor) :=
  (returns (call.prog M B) p.1).map fun q => (q.2, p.2.observe p.1 call q.1 q.2)

theorem watchedStep_of_next {p p' : Perfmon × Monitor} {call : Call}
    (h : watchedNext M B p call = some p') : WatchedStep M B p call p' := by
  obtain ⟨⟨r, s'⟩, hr, rfl⟩ := Option.map_eq_some_iff.mp h
  exact ⟨r, hr, rfl⟩

theorem Run.watched {guard : Perfmon → Call → Prop} (h : Run (Step M B) guard s t)
    (m : Monitor) :
    ∃ m', Run (WatchedStep M B) (fun p call => guard p.1 call) (s, m) (t, m') := by
  induction h with
  | nil => exact ⟨m, Run.nil⟩
  | @snoc u v call _ hg hs ih =>
      obtain ⟨m', hrun⟩ := ih
      obtain ⟨r, hr⟩ := hs
      exact ⟨m'.observe u call r v, hrun.snoc hg ⟨r, hr, rfl⟩⟩

/-- The run time of each group is the sum of its measured intervals, which do
not overlap. -/
def RunTimeExact (M : Machine) (s : Perfmon) (m : Monitor) : Prop :=
  ∀ g es, s.group? g = some es → es.runTime = m.total M g ∧
    (m.spans g).Pairwise (fun sp sp' => sp.closed < sp'.opened) ∧
    ∀ sp ∈ m.spans g, sp.opened < sp.closed

/-! ## The invariant -/

namespace Monitor

theorem spans_stop (m : Monitor) (a n g : ℕ) :
    (m.stop a n).spans g = if a = g then m.spans g ++ [⟨m.opened a, n⟩] else m.spans g := by
  unfold stop spans
  rw [List.filterMap_append]
  by_cases h : a = g
  · simp [h]
  · simp [h]

theorem total_stop_self (m : Monitor) (a n : ℕ) :
    (m.stop a n).total M a = M.fl (m.total M a + (⟨m.opened a, n⟩ : Span).length M) := by
  unfold total
  rw [spans_stop, if_pos rfl, List.foldl_append]
  rfl

theorem total_stop_of_ne (m : Monitor) {a g : ℕ} (n : ℕ) (h : a ≠ g) :
    (m.stop a n).total M g = m.total M g := by
  unfold total
  rw [spans_stop, if_neg h]

theorem mem_spans {m : Monitor} {g : ℕ} {sp : Span} : sp ∈ m.spans g ↔ (g, sp) ∈ m.measured := by
  unfold spans
  rw [List.mem_filterMap]
  constructor
  · rintro ⟨⟨i, sp'⟩, hmem, h⟩
    obtain ⟨rfl, heq⟩ := Option.ite_none_right_eq_some.mp h
    exact Option.some.inj heq ▸ hmem
  · exact fun h => ⟨(g, sp), h, if_pos rfl⟩

end Monitor

/-- The run times agree with the observer, and a running group was started by
the last reading the observer has for it. -/
structure Accounts (M : Machine) (k : Control) (m : Monitor) : Prop where
  consistent : k.Consistent
  added : ∀ p ∈ m.measured, k.Added p.1
  ordered : ∀ p ∈ m.measured, p.2.opened < p.2.closed ∧ p.2.closed < k.stamps
  runTime : ∀ g es, k.group? g = some es → es.runTime = m.total M g
  running : ∀ g es, k.Running g → k.group? g = some es →
    es.timer.start = M.tsc (m.opened g) ∧ m.opened g < k.stamps ∧
      ∀ sp ∈ m.spans g, sp.closed < m.opened g
  disjoint : ∀ g, (m.spans g).Pairwise fun sp sp' => sp.closed < sp'.opened
  intervals : k.intervals.map (fun iv => (iv.group, iv.timer)) =
    m.measured.map fun p => (p.1, p.2.timer M)

namespace Accounts

variable {m : Monitor}

theorem of_none (h : k.groupSet = none) (hi : k.intervals = []) (hm : m.measured = []) :
    Accounts M k m where
  consistent gs hgs := by simp [h] at hgs
  added p hp := by simp [hm] at hp
  ordered p hp := by simp [hm] at hp
  runTime g es hes := by simp [Control.group?, h] at hes
  running g es hrun := by
    obtain ⟨gs, hgs, -⟩ := hrun
    simp [h] at hgs
  disjoint g := by simp [Monitor.spans, hm]
  intervals := by rw [hi, hm]; rfl

theorem measured_of_none (h : Accounts M k m) (hnone : k.groupSet = none) : m.measured = [] := by
  refine List.eq_nil_iff_forall_not_mem.mpr fun p hp => ?_
  obtain ⟨gs, hgs, -⟩ := h.added p hp
  simp [hnone] at hgs

theorem initialised (h : Accounts M k m) (hs : k.Initialised k') : Accounts M k' m := by
  have hconsistent := hs.consistent
  obtain ⟨hnone, gs, rfl, -, -, -, hgroups, -, -⟩ := hs
  have hmeasured := h.measured_of_none hnone
  refine ⟨hconsistent, ?_, ?_, fun g es hes => ?_, fun g es _ hes => ?_, h.disjoint,
    h.intervals⟩
  · simp [hmeasured]
  · simp [hmeasured]
  · simp [Control.group?, hgroups] at hes
  · simp [Control.group?, hgroups] at hes

theorem total_of_not_added (h : Accounts M k m) (hg : ¬k.Added g) : m.total M g = 0 := by
  have hnil : m.spans g = [] := by
    refine List.eq_nil_iff_forall_not_mem.mpr fun sp hsp => hg ?_
    exact h.added (g, sp) (Monitor.mem_spans.mp hsp)
  unfold Monitor.total
  rw [hnil]
  rfl

/-- Calls that start and stop nothing: groups keep their run times, new ones
have none, and those that run did so before. -/
theorem keep (h : Accounts M k m) (hconsistent : k'.Consistent)
    (hadded : ∀ i, k.Added i → k'.Added i) (hstamps : k.stamps ≤ k'.stamps)
    (hgroup : ∀ g es', k'.group? g = some es' →
      (¬k.Added g ∧ es'.runTime = 0) ∨ ∃ es, k.group? g = some es ∧ es'.runTime = es.runTime)
    (hrun : ∀ g es', k'.Running g → k'.group? g = some es' →
      k.Running g ∧ ∃ es, k.group? g = some es ∧ es'.timer.start = es.timer.start)
    (hintervals : k'.intervals = k.intervals) : Accounts M k' m where
  consistent := hconsistent
  added p hp := hadded p.1 (h.added p hp)
  ordered p hp := ⟨(h.ordered p hp).1, Nat.lt_of_lt_of_le (h.ordered p hp).2 hstamps⟩
  runTime g es' hes' := by
    rcases hgroup g es' hes' with ⟨hnot, hzero⟩ | ⟨es, hes, heq⟩
    · rw [hzero, h.total_of_not_added hnot]
    · rw [heq, h.runTime g es hes]
  running g es' hg hes' := by
    obtain ⟨hg, es, hes, heq⟩ := hrun g es' hg hes'
    obtain ⟨hstart, hlt, hafter⟩ := h.running g es hg hes
    exact ⟨heq.trans hstart, Nat.lt_of_lt_of_le hlt hstamps, hafter⟩
  disjoint := h.disjoint
  intervals := hintervals ▸ h.intervals

theorem stopFailed (h : Accounts M k m) (hs : k.StopFailed M k') : Accounts M k' m := by
  have hconsistent := hs.consistent h.consistent
  have hrunning : ∀ g, k'.Running g → k.Running g := fun g => hs.running.mp
  have hadded : ∀ i, k.Added i → k'.Added i := fun i => hs.added.mpr
  rcases hs with rfl | ⟨a, -, -, rfl⟩
  · exact h
  have hgroup : ∀ g es', (k.stopTimer M a).group? g = some es' → ∃ es, k.group? g = some es ∧
      es'.runTime = es.runTime ∧ es'.timer.start = es.timer.start := by
    intro g es' hes'
    have hes' := (Control.group?_modifyGroup k a _ g).symm.trans hes'
    split at hes'
    · obtain ⟨es, hes, rfl⟩ := Option.map_eq_some_iff.mp hes'
      exact ⟨es, hes, rfl, rfl⟩
    · exact ⟨es', hes', rfl, rfl⟩
  refine h.keep hconsistent hadded (Nat.le_succ _) (fun g es' hes' => Or.inr ?_)
    (fun g es' hg hes' => ⟨hrunning g hg, ?_⟩) rfl
  · obtain ⟨es, hes, htime, -⟩ := hgroup g es' hes'
    exact ⟨es, hes, htime⟩
  · obtain ⟨es, hes, -, hstart⟩ := hgroup g es' hes'
    exact ⟨es, hes, hstart⟩

theorem setUp {newGroup : Int} (h : Accounts M k m) (hs : k.SetUp newGroup k') :
    Accounts M k' m := by
  have hconsistent := hs.consistent h.consistent
  have heq := hs.eq h.consistent
  have hgroup : ∀ g es', k'.group? g = some es' → ∃ es, k.group? g = some es ∧
      es'.runTime = es.runTime ∧ es'.timer = es.timer := by
    intro g es' hes'
    have hkept : (k.setActive newGroup).group? g = k.group? g := by
      unfold Control.group? Control.setActive Control.modifyGroupSet
      cases k.groupSet <;> rfl
    rw [heq, Control.setState, Control.group?_modifyGroup, hkept] at hes'
    split at hes'
    · obtain ⟨es, hes, rfl⟩ := Option.map_eq_some_iff.mp hes'
      exact ⟨es, hes, rfl, rfl⟩
    · exact ⟨es', hes', rfl, rfl⟩
  refine h.keep hconsistent (fun i hi => ?_) (by rw [heq]; exact Nat.le_refl _)
    (fun g es' hes' => Or.inr ?_) (fun g es' hg hes' => ⟨?_, ?_⟩) (by rw [heq]; rfl)
  · rw [heq]
    exact Control.added_modifyGroup.mpr (Control.added_setActive.mpr hi)
  · obtain ⟨es, hes, htime, -⟩ := hgroup g es' hes'
    exact ⟨es, hes, htime⟩
  · rw [heq] at hg
    rcases hg.of_setState with ⟨-, h⟩ | ⟨-, hg⟩
    · cases h
    · exact Control.running_setActive.mp hg
  · obtain ⟨es, hes, -, htimer⟩ := hgroup g es' hes'
    exact ⟨es, hes, congrArg TimerData.start htimer⟩

theorem allocate_group {gs : PerfmonGroupSet} (hgs : gs.Consistent) {es : PerfmonEventSet}
    (hes : (gs.allocate M).groups[g]? = some es) :
    (gs.numberOfActiveGroups ≤ g ∧ es.runTime = 0) ∨ gs.groups[g]? = some es := by
  unfold PerfmonGroupSet.allocate at hes
  dsimp only at hes
  split at hes
  · next h0 =>
      rw [List.getElem?_singleton, Option.ite_none_right_eq_some] at hes
      obtain ⟨-, heq⟩ := hes
      exact Or.inl ⟨h0 ▸ Nat.zero_le _, Option.some.inj heq ▸ rfl⟩
  split at hes
  · next heq =>
      rw [List.getElem?_append, hgs.length] at hes
      split at hes
      · exact Or.inr hes
      · next hge =>
          rw [List.getElem?_singleton, Option.ite_none_right_eq_some] at hes
          exact Or.inl ⟨by omega, Option.some.inj hes.2 ▸ rfl⟩
  · exact Or.inr hes

theorem addedEventSet (h : Accounts M k m) (hs : k.AddedEventSet M k') : Accounts M k' m := by
  have hconsistent := hs.consistent h.consistent
  have hrunning : ∀ g, k'.Running g → k.Running g :=
    fun g hg => (hs.running h.consistent hg).1
  have hadded : ∀ i, k.Added i → k'.Added i := fun i => hs.added h.consistent
  rcases hs with rfl | ⟨gs, n, mask, hgs, hk⟩
  · exact h
  have hallocated : ∀ g es', (k.allocated M gs.numberOfActiveGroups n mask).group? g = some es' →
      ∃ es, (gs.allocate M).groups[g]? = some es ∧ es'.runTime = es.runTime ∧
        es'.timer = es.timer := by
    intro g es' hes'
    unfold Control.allocated at hes'
    rw [Control.group?_modifyGroup] at hes'
    simp only [Control.group?, Control.modifyGroupSet, hgs, Option.map_some,
      Option.bind_some] at hes'
    split at hes'
    · obtain ⟨es, hes, rfl⟩ := Option.map_eq_some_iff.mp hes'
      exact ⟨es, hes, rfl, rfl⟩
    · exact ⟨es', hes', rfl, rfl⟩
  have hgroup : ∀ g es', k'.group? g = some es' →
      ∃ es, (gs.allocate M).groups[g]? = some es ∧ es'.runTime = es.runTime ∧
        es'.timer = es.timer := by
    intro g es' hes'
    rcases hk with rfl | rfl
    · exact hallocated g es' hes'
    unfold Control.commit Control.group? Control.modifyGroupSet at hes'
    rw [Option.bind_map] at hes'
    have hes' := (Control.group?_modifyGroup _ gs.numberOfActiveGroups _ g).symm.trans hes'
    split at hes'
    · obtain ⟨es1, hes1, rfl⟩ := Option.map_eq_some_iff.mp hes'
      exact hallocated g es1 hes1
    · exact hallocated g es' hes'
  refine h.keep hconsistent hadded ?_ (fun g es' hes' => ?_) (fun g es' hg hes' =>
    ⟨hrunning g hg, ?_⟩) ?_
  · rcases hk with rfl | rfl <;> exact Nat.le_refl _
  · obtain ⟨es, hes, htime, -⟩ := hgroup g es' hes'
    rcases allocate_group (h.consistent gs hgs) hes with ⟨hge, hzero⟩ | hold
    · refine Or.inl ⟨?_, htime.trans hzero⟩
      rintro ⟨gs', hgs', -, hlt⟩
      obtain rfl : gs = gs' := Option.some.inj (hgs.symm.trans hgs')
      omega
    · exact Or.inr ⟨es, by simp [Control.group?, hgs, hold], htime⟩
  · obtain ⟨es, hes, -, htimer⟩ := hgroup g es' hes'
    obtain ⟨gs', hgs', hlt, -⟩ := hrunning g hg
    obtain rfl : gs = gs' := Option.some.inj (hgs.symm.trans hgs')
    rcases allocate_group (h.consistent gs hgs) hes with ⟨hge, -⟩ | hold
    · omega
    · exact ⟨es, by simp [Control.group?, hgs, hold], congrArg TimerData.start htimer⟩
  · rcases hk with rfl | rfl <;> rfl

theorem started (h : Accounts M k m) {a : ℕ} (ha : k.active = some a) (hs : k.Started M k') :
    Accounts M k' (m.start a k.stamps) := by
  have hconsistent := hs.consistent h.consistent
  obtain ⟨b, hb, -, rfl⟩ := hs
  obtain rfl : a = b := Option.some.inj (ha.symm.trans hb)
  have hgroup : ∀ g, ((k.setState a .start).startTimer M a).group? g =
      if a = g then (k.group? g).map fun es =>
        { es with state := .start, timer := { es.timer with start := M.tsc k.stamps } }
      else k.group? g := by
    intro g
    refine (Control.group?_modifyGroup (k.setState a .start) a _ g).trans ?_
    rw [Control.setState, Control.group?_modifyGroup]
    split
    · rw [Option.map_map]
      rfl
    · rfl
  refine ⟨hconsistent, fun p hp => ?_, fun p hp => ?_, fun g es hes => ?_,
    fun g es hg hes => ?_, h.disjoint, h.intervals⟩
  · exact Control.added_modifyGroup.mpr (Control.added_modifyGroup.mpr (h.added p hp))
  · exact ⟨(h.ordered p hp).1, Nat.lt_succ_of_lt (h.ordered p hp).2⟩
  · rw [hgroup] at hes
    split at hes
    · obtain ⟨es0, hes0, rfl⟩ := Option.map_eq_some_iff.mp hes
      exact h.runTime g es0 hes0
    · exact h.runTime g es hes
  · rw [hgroup] at hes
    show es.timer.start = M.tsc (if g = a then k.stamps else m.opened g) ∧
      (if g = a then k.stamps else m.opened g) < k.stamps + 1 ∧
      ∀ sp ∈ m.spans g, sp.closed < if g = a then k.stamps else m.opened g
    split at hes
    · next hga =>
        obtain ⟨es0, -, rfl⟩ := Option.map_eq_some_iff.mp hes
        rw [if_pos hga.symm]
        exact ⟨rfl, Nat.lt_succ_self _, fun sp hsp => (h.ordered _ (Monitor.mem_spans.mp hsp)).2⟩
    · next hga =>
        rw [if_neg (Ne.symm hga)]
        have hran : k.Running g := by
          rcases (Control.running_startTimer.mp hg).of_setState with ⟨h, -⟩ | ⟨-, h⟩
          · exact absurd h hga
          · exact h
        obtain ⟨h1, h2, h3⟩ := h.running g es hran hes
        exact ⟨h1, Nat.lt_succ_of_lt h2, h3⟩

theorem stopped (h : Accounts M k m) {a : ℕ} (ha : k.active = some a)
    (hs : k.StoppedActive M k') : Accounts M k' (m.stop a k.stamps) := by
  have hconsistent := hs.consistent h.consistent
  obtain ⟨b, hb, hstart, interval, hgroup0, htimer, rfl⟩ := hs
  obtain rfl : a = b := Option.some.inj (ha.symm.trans hb)
  obtain ⟨gs, hgs, hlt⟩ := h.consistent.active_added ha
  have hran : k.Running a := ⟨gs, hgs, hlt, hstart⟩
  obtain ⟨ea, hea, -⟩ := hstart
  obtain ⟨hopened, hbefore, hafter⟩ := h.running a ea hran hea
  have hgroup : ∀ g, ((k.stopTimer M a).close M a interval).group? g =
      if a = g then (k.group? g).map fun es =>
        { es with state := .setup, timer := { es.timer with stop := M.tsc k.stamps } }.addRunTime M
      else k.group? g := by
    intro g
    refine (Control.group?_modifyGroup ((k.stopTimer M a).setState a .setup) a _ g).trans ?_
    rw [Control.setState, Control.group?_modifyGroup]
    have hstop := Control.group?_modifyGroup k a
      (fun es => { es with timer := { es.timer with stop := M.tsc k.stamps } }) g
    split
    · next hag =>
        rw [if_pos hag] at hstop
        rw [Option.map_map]
        refine (congrArg (Option.map _) hstop).trans ?_
        rw [Option.map_map]
        rfl
    · next hag =>
        rw [if_neg hag] at hstop
        exact hstop
  refine ⟨hconsistent, fun p hp => ?_, fun p hp => ?_, fun g es hes => ?_,
    fun g es hg hes => ?_, fun g => ?_, ?_⟩
  · refine Control.added_modifyGroup.mpr (Control.added_modifyGroup.mpr
      (Control.added_modifyGroup (k := k) |>.mpr ?_))
    rcases List.mem_append.mp hp with hp | hp
    · exact h.added p hp
    · rw [List.mem_singleton.mp hp]
      exact ⟨gs, hgs, Int.natCast_nonneg a, Int.ofNat_lt.mpr hlt⟩
  · show p.2.opened < p.2.closed ∧ p.2.closed < k.stamps + 1
    rcases List.mem_append.mp hp with hp | hp
    · exact ⟨(h.ordered p hp).1, Nat.lt_succ_of_lt (h.ordered p hp).2⟩
    · rw [List.mem_singleton.mp hp]
      exact ⟨hbefore, Nat.lt_succ_self _⟩
  · rw [hgroup] at hes
    split at hes
    · next hag =>
        subst hag
        obtain ⟨es0, hes0, rfl⟩ := Option.map_eq_some_iff.mp hes
        obtain rfl : ea = es0 := Option.some.inj (hea.symm.trans hes0)
        rw [Monitor.total_stop_self, Span.length, Span.timer, ← hopened, ← h.runTime a ea hea]
        rfl
    · next hag =>
        rw [Monitor.total_stop_of_ne _ _ hag]
        exact h.runTime g es hes
  · -- the groups that still run are others than the one stopped
    have hother : a ≠ g ∧ k.Running g := by
      rcases (Control.running_addRunTime.mp hg).of_setState with ⟨-, h⟩ | ⟨hne, h⟩
      · cases h
      · exact ⟨hne, Control.running_stopTimer.mp h⟩
    rw [hgroup, if_neg hother.1] at hes
    obtain ⟨h1, h2, h3⟩ := h.running g es hother.2 hes
    rw [Monitor.spans_stop, if_neg hother.1]
    exact ⟨h1, Nat.lt_succ_of_lt h2, h3⟩
  · rw [Monitor.spans_stop]
    split
    · next hag =>
        subst hag
        refine List.pairwise_append.mpr ⟨h.disjoint a, List.pairwise_singleton _ _, ?_⟩
        intro sp hsp sp' hsp'
        rw [List.mem_singleton.mp hsp']
        exact hafter sp hsp
    · exact h.disjoint g
  · obtain ⟨es, hes, htimer⟩ := htimer
    have hes := (Control.group?_modifyGroup k a _ a).symm.trans hes
    rw [if_pos rfl, hea] at hes
    obtain rfl := Option.some.inj hes
    show List.map _ (k.intervals ++ [interval]) =
      List.map _ (m.measured ++ [(a, (⟨m.opened a, k.stamps⟩ : Span))])
    rw [List.map_append, List.map_append, h.intervals, List.map_singleton, List.map_singleton,
      hgroup0, htimer, Span.timer, ← hopened]

end Accounts

/-! ## Runs -/

/-- The calls that add no time outside a stop. -/
def AddsOnce : Call → Prop
  | .switchActiveGroup _ => False
  | _ => True

instance (call : Call) : Decidable (AddsOnce call) :=
  match call with
  | .switchActiveGroup _ => isFalse not_false
  | .init _ | .finalize | .addEventSet _ _ | .setupCounters _ | .startCounters
  | .startGroupCounters _ | .readCounters | .readGroupCounters _
  | .readGroupThreadCounters _ _ | .readCountersCpu _ | .stopCounters
  | .stopGroupCounters _ => isTrue trivial

/-- **One step**: a call that is not a switch keeps the accounts. -/
theorem accounts_step {m : Monitor} {r : Int} {call : Call} (h : Accounts M s.control m)
    (hg : AddsOnce call) (hr : returns (call.prog M B) s = some (r, s')) :
    Accounts M s'.control (m.observe s call r s') := by
  have hkeep : ∀ {s1 : Perfmon}, s1.control = s.control → Accounts M s1.control m :=
    fun hk => hk ▸ h
  have hstart : ∀ {k'}, s.control.Started M k' →
      Accounts M k' (m.onActive s (m.start · s.stamps)) := by
    intro k' hs
    obtain ⟨a, ha, -⟩ := id hs
    rw [Monitor.onActive_of _ ha]
    exact h.started ha hs
  have hstop : ∀ {k'}, s.control.StoppedActive M k' →
      Accounts M k' (m.onActive s (m.stop · s.stamps)) := by
    intro k' hs
    obtain ⟨a, ha, -⟩ := id hs
    rw [Monitor.onActive_of _ ha]
    exact h.stopped ha hs
  refine of_returns (P := fun r s' => Accounts M s'.control (m.observe s call r s')) ?_ hr
  cases call with
  | init threadsToCpu =>
      exact Prog.wp_mono (perfmonInit_control threadsToCpu s) (fun _ _ h1 => h.initialised h1)
        fun _ _ => hkeep
  | finalize =>
      refine Prog.wp_mono (perfmonFinalize_control s) (fun _ s1 hk => ?_) fun _ s1 hk => ?_
      · exact Accounts.of_none (by rw [hk]) (by rw [hk]) rfl
      · have hintervals := h.intervals
        rw [h.measured_of_none hk.1] at hintervals
        exact Accounts.of_none (by rw [hk.2, hk.1]) (by rw [hk.2]; simpa using hintervals) rfl
  | addEventSet eventString force =>
      exact Prog.wp_mono (perfmonAddEventSet_control eventString force s)
        (fun _ _ h1 => h1.elim) fun _ _ h1 => h.addedEventSet h1
  | setupCounters groupId =>
      exact Prog.wp_mono (perfmonSetupCounters_control groupId s)
        (fun _ _ h1 => h.setUp h1) fun _ _ h1 => hkeep h1.2.2
  | startCounters =>
      refine Prog.wp_mono (perfmonStartCounters_control s) (fun _ s1 h1 => ?_) fun r s1 h1 => ?_
      · exact hstart h1
      · rw [Monitor.observe, if_neg h1.1]
        exact hkeep h1.2
  | startGroupCounters groupId =>
      refine Prog.wp_mono (perfmonStartGroupCounters_control groupId s) (fun _ s1 h1 => ?_)
        fun r s1 h1 => ?_
      · exact hstart h1
      · rw [Monitor.observe, if_neg h1.1]
        exact hkeep h1.2
  | readCounters =>
      exact Prog.wp_mono (perfmonReadCountersOf_control _ _ s) (fun _ _ => hkeep) fun _ _ => hkeep
  | readGroupCounters groupId =>
      exact Prog.wp_mono (perfmonReadCountersOf_control _ _ s) (fun _ _ => hkeep) fun _ _ => hkeep
  | readGroupThreadCounters groupId threadId =>
      exact Prog.wp_mono (perfmonReadCountersOf_control _ _ s) (fun _ _ => hkeep) fun _ _ => hkeep
  | readCountersCpu cpu =>
      exact Prog.wp_mono (perfmonReadCountersCpu_control cpu s) (fun _ _ => hkeep)
        fun _ _ => hkeep
  | stopCounters =>
      refine Prog.wp_mono (perfmonStopCounters_control s) (fun _ s1 h1 => ?_) fun r s1 h1 => ?_
      · exact hstop h1
      · rw [Monitor.observe, if_neg h1.1]
        exact h.stopFailed h1.2
  | stopGroupCounters groupId =>
      refine Prog.wp_mono (perfmonStopGroupCounters_control groupId s) (fun _ s1 h1 => ?_)
        fun r s1 h1 => ?_
      · exact hstop h1
      · rw [Monitor.observe, if_neg h1.1]
        exact h.stopFailed h1.2
  | switchActiveGroup newGroup => exact hg.elim

theorem Accounts.exact {m : Monitor} (h : Accounts M s.control m) : RunTimeExact M s m := by
  intro g es hes
  refine ⟨?_, h.disjoint g, fun sp hsp => ?_⟩
  · exact h.runTime g es.control (by rw [control_group?, hes]; rfl)
  · exact (h.ordered (g, sp) (Monitor.mem_spans.mp hsp)).1

theorem accounts_of_run {p : Perfmon × Monitor} (h0 : Booted s)
    (h : Run (WatchedStep M B) (fun _ call => AddsOnce call) (s, Monitor.empty) p) :
    Accounts M p.1.control p.2 := by
  have hboot : Accounts M s.control Monitor.empty :=
    Accounts.of_none (by simp [Perfmon.control, h0.groupSet]) h0.intervals rfl
  have hstep : ∀ (p : Perfmon × Monitor) (call : Call) (p' : Perfmon × Monitor),
      Accounts M p.1.control p.2 → AddsOnce call → WatchedStep M B p call p' →
      Accounts M p'.1.control p'.2 := by
    rintro p call p' hp hg ⟨r, hr, heq⟩
    rw [heq]
    exact accounts_step hp hg hr
  exact Run.invariant (t := p) hboot hstep h

/-- **In every run without a switch the run time of each group is the sum of its
measured intervals**, for any number of threads and every backend. -/
theorem runTimeExact_of_run {p : Perfmon × Monitor} (h0 : Booted s)
    (h : Run (WatchedStep M B) (fun _ call => AddsOnce call) (s, Monitor.empty) p) :
    RunTimeExact M p.1 p.2 :=
  (accounts_of_run h0 h).exact

/-- Two threads and a group that is started and stopped twice. -/
theorem runTimeExact_cycles :
    let p := (Run.exec (watchedNext haswellMachine (haswell haswellMachine))
      (fun _ call => AddsOnce call)
      [.init [0, 1], .addEventSet "INSTR_RETIRED_ANY:FIXC0".toList 0, .setupCounters 0,
        .startCounters, .stopCounters, .startCounters, .readCounters, .stopCounters]
      (Perfmon.boot, Monitor.empty)).get (by decide +kernel)
    RunTimeExact haswellMachine p.1 p.2 :=
  runTimeExact_of_run booted_boot
    (Run.of_exec (fun _ _ _ => watchedStep_of_next) (Option.some_get _).symm)

/-- A switch adds the time since the start, and then its stop adds it again. -/
theorem not_runTimeExact_switch :
    ∃ p, Run (WatchedStep haswellMachine (haswell haswellMachine)) (fun _ _ => True)
        (Perfmon.boot, Monitor.empty) p ∧
      ¬RunTimeExact haswellMachine p.1 p.2 := by
  let p := (Run.exec (watchedNext haswellMachine (haswell haswellMachine)) (fun _ _ => True)
    (twoGroups ++ [.setupCounters 0, .startCounters, .switchActiveGroup 1])
    (Perfmon.boot, Monitor.empty)).get (by decide +kernel)
  have htotal : p.2.total haswellMachine 0 = 1 := by decide +kernel
  have hgroup : (p.1.group? 0).map PerfmonEventSet.runTime = some 3 := by decide +kernel
  refine ⟨p, Run.of_exec (fun _ _ _ => watchedStep_of_next) (Option.some_get _).symm,
    fun h => ?_⟩
  obtain ⟨es, hes, htime⟩ := Option.map_eq_some_iff.mp hgroup
  have := (h 0 es hes).1
  rw [htotal, htime] at this
  exact absurd this (by decide)

end Likwid
