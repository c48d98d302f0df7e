import Likwid.GroupVariants
import Likwid.Queries
import Likwid.SwitchGroup
import Likwid.ThreadBounds

/-!
# Arguments and array bounds

Nine functions of the module take the number of a group, an event, a thread or a
CPU, and each has its own test and its own fallback to the active group. What
they index lies within the arrays when the number they end up with is that of a
group (`Entry.Addressed`), and only then (`indexBounds`): the active group is
-1 until a group was set up, and a number below zero passes every test that
looks for one that is too large.
-/

namespace Likwid

open Prog (Within WithinAt Filled)

variable {M : Machine} {B : Backend} {s0 s s' t : Perfmon} {gs gs0 : PerfmonGroupSet}

/-- The events that are counted are all initialised. -/
def PerfmonEventSet.Filled (es : PerfmonEventSet) : Prop := Prog.Filled es.numberOfEvents es.events

/-- The state is one that `s0` can turn into without an added group: the same
threads and groups, with as many events. -/
abbrev ArraysKept (s0 s : Perfmon) : Prop := EventsKept (fun _ _ => True) s0 s

theorem ArraysKept.group {g : ℕ} {e0 : PerfmonEventSet} (h : ArraysKept s0 s)
    (he : s0.group? g = some e0) :
    ∃ es, s.group? g = some es ∧ e0.EventsRel (fun _ _ => True) es := by
  have hg := h.groups g
  rw [he] at hg
  cases hes : s.group? g with
  | none =>
      rw [hes] at hg
      cases hg
  | some es =>
      rw [hes] at hg
      cases hg with
      | some hrel => exact ⟨es, rfl, hrel⟩

theorem ArraysKept.groupSet (h : ArraysKept s0 s) (hgs : s0.groupSet = some gs0) :
    ∃ gs, s.groupSet = some gs ∧ gs.numberOfActiveGroups = gs0.numberOfActiveGroups ∧
      gs.threads = gs0.threads := by
  have hframe := h.frame
  rw [control_frame hgs] at hframe
  cases hs : s.groupSet with
  | none => simp [Control.frame, Perfmon.control, hs] at hframe
  | some gs =>
      rw [control_frame hs] at hframe
      obtain ⟨hn, hthreads⟩ := Prod.mk.inj (Option.some.inj hframe)
      exact ⟨gs, rfl, hn, hthreads⟩

theorem PerfmonEventSet.Filled.rel {e0 es : PerfmonEventSet} (h : e0.Filled)
    (hrel : e0.EventsRel (fun _ _ => True) es) : es.Filled := by
  unfold PerfmonEventSet.Filled
  rw [hrel.numberOfEvents]
  exact Prog.Filled.rel h hrel.events

/-! ## Routines on the module's state -/

/-- A routine that respects the events stays within bounds if it does not leave
them. -/
theorem withinAt_of_respects {α : Type} {m : PerfmonProg α}
    (hm : Prog.Respects (entryFlow_any M B).flow m) (hs : ArraysKept s0 s)
    (hb : m s ≠ .halt .outOfBounds) : m.WithinAt (ArraysKept s0) s := by
  have hflow := hm s
  unfold WithinAt
  unfold Prog.wp at hflow
  have htrans := EventsKept.trans (R := fun _ _ => True) (fun _ _ _ _ _ => trivial) s0 s
  cases hrun : m s with
  | done a s' =>
      rw [hrun] at hflow
      exact htrans s' hs hflow
  | ret r s' =>
      rw [hrun] at hflow
      exact htrans s' hs hflow
  | halt k =>
      rw [hrun] at hb
      exact fun hk => hb (congrArg _ hk)

theorem theGroupSet_within {ρ : Type} :
    Within (ArraysKept s0) (theGroupSet : Prog ρ Perfmon PerfmonGroupSet) :=
  .bind .get fun _ => .orUndefined _

theorem within_of_done {α : Type} {m : PerfmonProg α}
    (hm : Prog.Respects (entryFlow_any M B).flow m) (hdone : ∀ s, ∃ a s', m s = .done a s') :
    Within (ArraysKept s0) m := by
  intro s hs
  obtain ⟨a, s', hrun⟩ := hdone s
  exact withinAt_of_respects hm hs (by simp [hrun])

theorem setState_within (g : ℕ) (state : GroupState) :
    Within (ArraysKept s0) (setState g state : PerfmonProg Unit) := by
  refine .modify fun s hs => ?_
  have hstate : ArraysKept s (s.modifyGroup g fun es => { es with state := state }) :=
    EventsKept.modifyGroup (f := fun es => { es with state := state }) (fun _ => trivial)
      (fun es => ⟨rfl, rfl, Prog.CellsRel.refl (fun _ => trivial) es.events⟩) g s
  exact hs.trans (fun _ _ _ _ _ => trivial) _ _ _ hstate

theorem groupAt_position {ρ : Type} {groupId : Int} (s : Perfmon) (p : ℕ × PerfmonEventSet)
    (s' : Perfmon) (h : (groupAt groupId : Prog ρ Perfmon _) s = .done p s') :
    p.1 = groupId.toNat :=
  Prog.wp_done (Q := fun p _ => p.1 = groupId.toNat) (R := fun _ _ => True)
    (wp_groupAt.mpr fun _ _ _ => rfl) h

section Routines

variable {g : ℕ} {e0 : PerfmonEventSet} (hg : s0.group? g = some e0)

include hg

theorem groupAt_within {ρ : Type} {groupId : Int} (h0 : 0 ≤ groupId)
    (hid : groupId.toNat = g) :
    Within (ArraysKept s0) (groupAt groupId : Prog ρ Perfmon (ℕ × PerfmonEventSet)) := by
  intro s hs
  obtain ⟨es, hes, -⟩ := hs.group hg
  unfold WithinAt
  rw [groupAt_some h0 (hid ▸ hes)]
  exact hs

theorem onSlots_withinAt {α : Type} {m : Prog Int (Core × List Slot) α} {n : ℕ}
    (hm : Prog.Respects (entryFlow_any M B).slots m) (hbounds : Within (fun p => Filled n p.2) m)
    (hfilled : e0.Filled) (hn : e0.numberOfEvents = n) (hs : ArraysKept s0 s) :
    (onSlots g m : PerfmonProg α).WithinAt (ArraysKept s0) s := by
  obtain ⟨es, hes, hrel⟩ := hs.group hg
  refine withinAt_of_respects (M := M) (B := B)
    ((entryFlow_any M B).order.calls.onSlots hm g) hs fun hhalt => ?_
  have hslots : Filled n es.events := by
    rw [← hn, ← hrel.numberOfEvents]
    exact hfilled.rel hrel
  have hrun := Prog.zoom_eq_halt.mp hhalt
  rw [hes] at hrun
  exact (hbounds (s.core, es.events) hslots).ne_outOfBounds hrun

theorem callThread_within {r : ThreadRoutine} (hgs : s0.groupSet = some gs0)
    (hr : ∀ thread cpu mask n, Prog.Respects (entryFlow_any M B).slots (r thread cpu mask n))
    (hbounds : ∀ thread cpu n, Within (fun p => Filled n p.2) (r thread cpu e0.regTypeMask n))
    (hfilled : e0.Filled) {threadId : ℕ} (ht : threadId < gs0.threads.length) :
    Within (ArraysKept s0) (callThread r threadId g) := by
  intro s hs
  obtain ⟨gs, hgs', -, hthreads⟩ := hs.groupSet hgs
  obtain ⟨es, hes, hrel⟩ := hs.group hg
  have hthread : gs.threads[threadId]? = some (gs0.threads[threadId]) := by
    rw [hthreads]
    exact List.getElem?_eq_getElem ht
  refine WithinAt.bind_done (theGroupSet_some hgs') ?_
  rw [hthread]
  refine WithinAt.bind_done rfl (WithinAt.bind_done (groupAt_some (Int.natCast_nonneg g) hes) ?_)
  dsimp only
  rw [hrel.regTypeMask, hrel.numberOfEvents]
  exact onSlots_withinAt (M := M) (B := B) hg (fun p => Prog.wp_call.mpr (hr _ _ _ _ p))
    (.call (hbounds _ _ _)) hfilled rfl hs

end Routines

theorem ArraysKept.refl (s : Perfmon) : ArraysKept s s := EventsKept.refl (fun _ => trivial) s

/-! ## The exported functions -/

theorem accumulateEvent_free (n : ℕ) (u : Unit) :
    Within (fun _ => True) (accumulateEvent M n u) :=
  .bind .get fun _ => .bind (.orUndefined _) fun _ => .onSnd_modify

section Functions

variable {groupId threadId : Int} {e0 : PerfmonEventSet} (hgs : s0.groupSet = some gs0)
  (hc : gs0.Consistent) (hB : B.InBounds)

theorem PerfmonGroupSet.Consistent.threadId_lt (hc : gs0.Consistent) {th : PerfmonThread}
    (h : th ∈ gs0.threads) : th.threadId < gs0.threads.length := by
  obtain ⟨i, hi, hth⟩ := List.mem_iff_getElem.mp h
  rw [hc.threadId i th (List.getElem?_eq_some_iff.mpr ⟨hi, hth⟩)]
  exact hi

include hgs hc

theorem threads_within {r : ThreadRoutine} {g : ℕ} (hg : s0.group? g = some e0)
    (hr : ∀ thread cpu mask n, Prog.Respects (entryFlow_any M B).slots (r thread cpu mask n))
    (hbounds : ∀ thread cpu n, Within (fun p => Filled n p.2) (r thread cpu e0.regTypeMask n))
    (hfilled : e0.Filled) (code : PerfmonThread → Int) :
    Within (ArraysKept s0) (gs0.threads.foldlM (fun _ th => do
      let ret ← callThread r th.threadId g
      Prog.when (ret ≠ 0) (Prog.ret (code th))) () : PerfmonProg Unit) :=
  .foldlM (fun _ _ hth => .bind
    (callThread_within (M := M) (B := B) hg hgs hr hbounds hfilled (hc.threadId_lt hth)) fun _ =>
      .when fun _ => .ret _) ()

include hB

omit hc in
include M in
theorem readCountersOf_withinAt (h0 : 0 ≤ groupId) (hg : s0.group? groupId.toNat = some e0)
    (hfilled : e0.state = .start → e0.Filled) {number : Int}
    (hnumber : (if (number < 0 ∨ gs0.numberOfActiveGroups ≤ number) ∧ 0 ≤ gs0.activeGroup then
      gs0.activeGroup else number) = groupId) :
    (perfmonReadCountersOf B number threadId).WithinAt (ArraysKept s0) s0 := by
  have hthread : e0.state = .start → ∀ {t : ℕ}, t < gs0.numberOfThreads →
      Within (ArraysKept s0) (callThread B.readCountersThread t groupId.toNat) := fun hstart _ ht =>
    callThread_within (M := M) (B := B) hg hgs (entryFlow_any M B).read
      (fun _ _ _ => hB.read _ _ _ _) (hfilled hstart) ht
  refine WithinAt.bind_done (requireInit_some hgs) ?_
  dsimp only
  rw [hnumber]
  refine WithinAt.bind_done (groupAt_some h0 hg) ?_
  dsimp only
  by_cases hstart : e0.state = .start
  · rw [Prog.when_of_neg (by simp [hstart])]
    refine WithinAt.bind_done rfl ?_
    refine Within.ite (fun _ => ?_) (fun _ => ?_) s0 (ArraysKept.refl s0)
    · refine .foldlM (fun _ t ht => .bind (hthread hstart (List.mem_range.mp ht)) fun _ =>
        .when fun _ => .ret _) ()
    · refine .when fun ht => .bind (hthread hstart (by omega)) fun _ => .when fun _ => .ret _
  · rw [Prog.when_of_pos hstart]
    exact WithinAt.bind_ret rfl (ArraysKept.refl s0)

omit hc in
include M in
theorem readCountersCpu_withinAt (ha : 0 ≤ gs0.activeGroup)
    (hg : s0.group? gs0.activeGroup.toNat = some e0) (hfilled : e0.Filled) (cpu : Int)
    (hc : gs0.Consistent) :
    (perfmonReadCountersCpu B cpu).WithinAt (ArraysKept s0) s0 := by
  refine WithinAt.bind_done (requireInit_some hgs) ?_
  refine WithinAt.bind_done (groupAt_some ha hg) ?_
  refine Within.bind (callThread_within (M := M) (B := B) hg hgs (entryFlow_any M B).read
    (fun _ _ _ => hB.read _ _ _ _) hfilled ?_) (fun _ => .ret _) s0 (ArraysKept.refl s0)
  cases hfind : gs0.threads.find? (fun th => (th.processorId : Int) = cpu) with
  | none => exact List.length_pos_iff.mpr hc.threads
  | some th => exact hc.threadId_lt (List.mem_of_find?_eq_some hfind)

/-- A set-up of a group there is. -/
theorem setupCounters_within (h0 : 0 ≤ groupId) (hg : s0.group? groupId.toNat = some e0)
    (hfilled : e0.Filled) : Within (ArraysKept s0) (perfmonSetupCounters M B groupId) := by
  have hactive : ∀ s, ArraysKept s0 s →
      ArraysKept s0 (s.modifyGroupSet fun gs => { gs with activeGroup := groupId }) := fun s hs =>
    hs.trans (fun _ _ _ _ _ => trivial) _ _ _ (EventsKept.modifyGroupSet
      (f := fun gs => { gs with activeGroup := groupId }) (fun _ => trivial) (fun _ => rfl)
      (fun _ => rfl) (fun _ => rfl) s)
  have hthread : ∀ th ∈ gs0.threads,
      Within (ArraysKept s0) (perfmonSetupCountersThread M B th.threadId groupId) := by
    intro th hth
    refine .bind theGroupSet_within fun _ => .bind (.when fun _ => .ret _) fun _ =>
      .bind_of (groupAt_within hg h0 rfl) groupAt_position ?_
    rintro ⟨g, es⟩ rfl
    exact .bind (callThread_within (M := M) (B := B) hg hgs (entryFlow_any M B).setup
      (fun _ _ _ => hB.setup _ _ _ _) hfilled (hc.threadId_lt hth)) fun _ =>
        .bind .get fun _ => .bind (.when fun _ => .ret _) fun _ => .modify hactive
  intro s hs
  obtain ⟨gs, hgs', -, hthreads⟩ := hs.groupSet hgs
  refine WithinAt.bind_done (requireInit_some hgs') ?_
  rw [hthreads]
  refine Within.bind (.when fun _ => .ret _) (fun _ => .bind (.foldlM (fun _ th hth => .bind
    (.call (hthread th hth)) fun _ => .when fun _ => .ret _) ()) fun _ =>
      .bind (groupAt_within hg h0 rfl) fun _ => setState_within _ _) s hs

theorem stopCountersOf_within (h0 : 0 ≤ groupId) (hg : s0.group? groupId.toNat = some e0)
    (hfilled : e0.Filled) : Within (ArraysKept s0) (perfmonStopCountersOf M B groupId) := by
  have hflow := entryFlow_any M B
  have hintervals : ∀ (s : Perfmon) (is : List Interval), ArraysKept s0 s →
      ArraysKept s0 { s with intervals := is } := fun s is hs => ⟨hs.frame, hs.groups⟩
  have hend : ∀ (es : PerfmonEventSet) (f : Perfmon → List Interval), Within (ArraysKept s0) (do
      setState groupId.toNat .setup
      Prog.modify (·.modifyGroup groupId.toNat (PerfmonEventSet.addRunTime M))
      Prog.modify fun s => { s with intervals := f s } : PerfmonProg Unit) := fun es f =>
    .bind (setState_within _ _) fun _ => .bind
      (within_of_done (M := M) (B := B) (hflow.order.calls.addRunTime _) fun _ => ⟨_, _, rfl⟩)
      fun _ => .modify fun s hs => hintervals s _ hs
  intro s hs
  obtain ⟨gs, hgs', -, hthreads⟩ := hs.groupSet hgs
  refine WithinAt.bind_done (theGroupSet_some hgs') ?_
  obtain ⟨es, hes, -⟩ := hs.group hg
  refine WithinAt.bind_done (groupAt_some h0 hes) ?_
  dsimp only
  rw [hthreads]
  refine Within.bind
    (within_of_done (M := M) (B := B) (hflow.order.calls.timerStop _) fun _ => ⟨_, _, rfl⟩)
    (fun _ => .bind (threads_within (M := M) (B := B) hgs hc hg hflow.stop
      (fun _ _ _ => hB.stop _ _ _ _) hfilled _) fun _ => ?_) s hs
  intro s1 hs1
  obtain ⟨es1, hes1, hrel1⟩ := hs1.group hg
  refine WithinAt.bind_done (groupAt_some h0 hes1) ?_
  dsimp only
  refine (onSlots_withinAt (M := M) (B := B) hg
    (hflow.slotFlow.accumulate _ _)
    (.forCells (accumulateEvent_free _) _ _ _ le_rfl) hfilled hrel1.numberOfEvents.symm hs1).bind
      fun _ s2 _ hs2 => ?_
  exact hend es1 _ s2 hs2

omit hB in
theorem startCountersOf_within (h0 : 0 ≤ groupId) (hg : s0.group? groupId.toNat = some e0)
    (hfilled : e0.Filled) (hstart : B.StartInBounds e0.regTypeMask) :
    Within (ArraysKept s0) (perfmonStartCountersOf M B groupId) := by
  have hflow := entryFlow_any M B
  intro s hs
  obtain ⟨gs, hgs', -, hthreads⟩ := hs.groupSet hgs
  refine WithinAt.bind_done (theGroupSet_some hgs') ?_
  obtain ⟨es, hes, -⟩ := hs.group hg
  refine WithinAt.bind_done (groupAt_some h0 hes) ?_
  dsimp only
  rw [hthreads]
  exact Within.bind (.when fun _ => .ret _) (fun _ => .bind
    (threads_within (M := M) (B := B) hgs hc hg hflow.start (fun _ _ _ => hstart _ _ _) hfilled _)
      fun _ => .bind (setState_within _ _) fun _ =>
        within_of_done (M := M) (B := B) (hflow.order.calls.timerStart _) fun _ => ⟨_, _, rfl⟩) s hs

omit hgs hc hB in
theorem groupSet_of_active {i : ℕ} (h : s.control.active = some i) :
    ∃ gs, s.groupSet = some gs ∧ 0 ≤ gs.activeGroup ∧ gs.activeGroup.toNat = i := by
  cases hgs : s.groupSet with
  | none => simp [Control.active, Perfmon.control, hgs] at h
  | some gs =>
      by_cases h0 : 0 ≤ gs.activeGroup
      · exact ⟨gs, rfl, h0, Option.some.inj ((control_active hgs h0).symm.trans h)⟩
      · simp [Control.active, control_groupSet hgs, PerfmonGroupSet.control, h0] at h

theorem stopCounters_withinAt {i : ℕ} (hs : ArraysKept s0 s) (hactive : s.control.active = some i)
    (hg : s0.group? i = some e0) (hfilled : e0.Filled) :
    (perfmonStopCounters M B).WithinAt (ArraysKept s0) s := by
  obtain ⟨gs, hgs', h0, rfl⟩ := groupSet_of_active hactive
  refine WithinAt.bind_done (requireInit_some hgs') ?_
  exact Within.bind (.when fun _ => .ret _) (fun _ => .bind (groupAt_within hg h0 rfl) fun _ =>
    .bind (.when fun _ => .ret _) fun _ => stopCountersOf_within hgs hc hB h0 hg hfilled) s hs

omit hB in
theorem startCounters_withinAt {i : ℕ} (hs : ArraysKept s0 s) (hactive : s.control.active = some i)
    (hg : s0.group? i = some e0) (hfilled : e0.Filled)
    (hstart : B.StartInBounds e0.regTypeMask) :
    (perfmonStartCounters M B).WithinAt (ArraysKept s0) s := by
  obtain ⟨gs, hgs', h0, rfl⟩ := groupSet_of_active hactive
  refine WithinAt.bind_done (requireInit_some hgs') ?_
  exact Within.bind (.when fun _ => .ret _) (fun _ =>
    startCountersOf_within hgs hc h0 hg hfilled hstart) s hs

end Functions

/-! ## The switch -/

section Switch

variable {threadId : ℕ} {newGroup : Int} {es eN : PerfmonEventSet}

/-- If the switch runs to its end the new group is active, and it runs only if
the old one did. -/
theorem switchRest_post (threadId g : ℕ) (es : PerfmonEventSet) (newGroup : Int)
    (hc : s.control.Consistent) :
    (do
      Prog.when (es.state = .setup)
        (onSlots g (Prog.forCells (clearInit threadId) es.numberOfEvents ()))
      let ret ← Prog.call 0 (perfmonSetupCounters M B newGroup)
      Prog.when (ret ≠ 0) (Prog.ret ret)
      Prog.when (es.state = .start) do
        let ret ← Prog.call 0 (perfmonStartCounters M B)
        Prog.when (ret ≠ 0) (Prog.ret ret) : PerfmonProg Unit).wp
      (fun _ s' => s'.control.active = some newGroup.toNat ∧
        (s'.control.InState newGroup.toNat .start → es.state = .start))
      (fun r _ => r ≠ 0) s := by
  have hclear : (Prog.when (es.state = .setup)
      (onSlots g (Prog.forCells (clearInit threadId) es.numberOfEvents ())) :
        PerfmonProg Unit).wp (fun _ s' => s'.control = s.control) (fun _ _ => False) s :=
    Prog.wp_when.mpr ⟨fun _ => clearInit_control _ _ _ s, fun _ => rfl⟩
  rw [Prog.wp_bind]
  refine Prog.wp_mono hclear (fun _ s1 hk => ?_) fun _ _ h => h.elim
  rw [← hk] at hc
  rw [Prog.wp_bind, Prog.wp_call]
  refine Prog.wp_mono (perfmonSetupCounters_control newGroup s1) (fun _ s2 hset => ?_)
    fun r s2 hfail => ?_
  · have heq := hset.eq hc
    have hactive : s2.control.active = some newGroup.toNat := by
      rw [heq]
      exact Control.active_modifyGroup.trans (Control.active_setActive hset.1)
    simp only [Prog.wp_bind, Prog.wp_when, Prog.wp_call, Prog.wp_ret]
    refine ⟨fun hne => absurd rfl hne, fun _ => ⟨fun hstart => ?_, fun _ => ⟨hactive, ?_⟩⟩⟩
    · refine Prog.wp_mono (perfmonStartCounters_control s2) (fun _ s3 hstarted => ?_)
        fun r s3 hfail => ⟨fun _ => hfail.1, fun hz => absurd hfail.1 hz⟩
      refine ⟨fun hne => absurd rfl hne, fun _ => ⟨?_, fun _ => hstart⟩⟩
      obtain ⟨a, -, -, hk3⟩ := hstarted
      rw [hk3, ← hactive]
      exact Control.active_modifyGroup.trans Control.active_modifyGroup
    · intro hin
      rw [heq] at hin
      rcases hin.of_setState with ⟨-, h⟩ | ⟨hne, -⟩
      · cases h
      · exact absurd rfl hne
  · obtain ⟨hr, -, -⟩ := hfail
    rw [Prog.wp_bind, Prog.wp_when, Prog.wp_ret]
    exact ⟨fun _ => hr, fun hz => absurd hr hz⟩

theorem switchThread_post (hc : s.control.Consistent) :
    (perfmonSwitchActiveGroupThread M B threadId newGroup).wp
      (fun _ s' => s'.control.active = some newGroup.toNat ∧
        (s'.control.InState newGroup.toNat .start →
          ∃ a, s.control.active = some a ∧ s.control.InState a .start))
      (fun r _ => r ≠ 0) s := by
  unfold perfmonSwitchActiveGroupThread
  rw [Prog.wp_bind, wp_requireInit]
  refine ⟨fun gs hgs => ?_, fun _ => by decide⟩
  rw [Prog.wp_bind, wp_groupAt]
  intro h0 es hes
  have hpost : ∀ s1 : Perfmon, s1.control.Consistent → Prog.wp _ _ _ s1 := fun s1 hc1 =>
    Prog.wp_mono (switchRest_post (M := M) (B := B) (s := s1) threadId gs.activeGroup.toNat es
      newGroup hc1)
      (fun _ s' (h : s'.control.active = some newGroup.toNat ∧
          (s'.control.InState newGroup.toNat .start → es.state = .start)) =>
        (⟨h.1, fun hin => ⟨_, control_active hgs h0, h.2 hin ▸ control_inState hes⟩⟩ :
          s'.control.active = some newGroup.toNat ∧
            (s'.control.InState newGroup.toNat .start →
              ∃ a, s.control.active = some a ∧ s.control.InState a .start)))
      fun _ _ h => h
  have hleave : (s.leave M gs.activeGroup.toNat).control.Consistent := by
    rw [control_leave]
    exact (hc.modifyGroup _ _).modifyGroup _ _
  dsimp only
  rw [Prog.wp_bind, wp_timerStop, Prog.wp_bind, Prog.wp_modify]
  show Prog.wp _ _ _ (s.leave M gs.activeGroup.toNat)
  rw [Prog.wp_bind, Prog.wp_when]
  refine ⟨fun _ => ?_, fun _ => hpost _ hleave⟩
  rw [Prog.wp_bind, Prog.wp_call]
  refine Prog.wp_mono (perfmonStopCounters_control _) (fun _ s1 h1 => ?_) fun r s1 h1 => ?_
  · exact hpost s1 (h1.consistent hleave)
  · exact hpost s1 (h1.2.consistent hleave)

variable (hgs : s0.groupSet = some gs0) (hc : gs0.Consistent) (hB : B.InBounds)
  (h0 : 0 ≤ newGroup) (hnew : s0.group? newGroup.toNat = some eN) (hfilledN : eN.Filled)

include hgs hc hB h0 hnew hfilledN

theorem switchRest_withinAt (threadId : ℕ) {g : ℕ} {ei : PerfmonEventSet} (hs : ArraysKept s0 s)
    (hcs : s.control.Consistent) (hg : s0.group? g = some ei) (hfilled : ei.Filled)
    (hn : ei.numberOfEvents = es.numberOfEvents)
    (hstart : es.state = .start → B.StartInBounds eN.regTypeMask) :
    (do
      Prog.when (es.state = .setup)
        (onSlots g (Prog.forCells (clearInit threadId) es.numberOfEvents ()))
      let ret ← Prog.call 0 (perfmonSetupCounters M B newGroup)
      Prog.when (ret ≠ 0) (Prog.ret ret)
      Prog.when (es.state = .start) do
        let ret ← Prog.call 0 (perfmonStartCounters M B)
        Prog.when (ret ≠ 0) (Prog.ret ret) : PerfmonProg Unit).WithinAt (ArraysKept s0) s := by
  have hflow := entryFlow_any M B
  have hclear : Within (ArraysKept s0) (Prog.when (es.state = .setup)
      (onSlots g (Prog.forCells (clearInit threadId) es.numberOfEvents ())) : PerfmonProg Unit) :=
    .when fun _ _ hs => onSlots_withinAt (M := M) (B := B) hg
      (hflow.slotFlow.clear threadId _)
      (.forCells (fun _ => .onSnd_modify) _ _ _ le_rfl) hfilled hn hs
  have hclear_control : (Prog.when (es.state = .setup)
      (onSlots g (Prog.forCells (clearInit threadId) es.numberOfEvents ())) :
        PerfmonProg Unit).wp (fun _ s' => s'.control = s.control) (fun _ _ => False) s :=
    Prog.wp_when.mpr ⟨fun _ => clearInit_control _ _ _ s, fun _ => rfl⟩
  refine (hclear s hs).bind fun _ s1 hrun hs1 => ?_
  have hcs1 : s1.control.Consistent := by
    have h := Prog.wp_done hclear_control hrun
    rw [h]
    exact hcs
  have hset : Within (ArraysKept s0) (Prog.call 0 (perfmonSetupCounters M B newGroup) :
      PerfmonProg Int) := .call (setupCounters_within hgs hc hB h0 hnew hfilledN)
  refine (hset s1 hs1).bind fun ret s2 hrun2 hs2 => ?_
  have hactive : (Prog.call 0 (perfmonSetupCounters M B newGroup) : PerfmonProg Int).wp
      (fun ret s' => ret = 0 → s'.control.active = some newGroup.toNat) (fun _ _ => True) s1 := by
    rw [Prog.wp_call]
    refine Prog.wp_mono (perfmonSetupCounters_control newGroup s1) (fun _ s' h _ => ?_)
      fun r _ h hr => absurd hr h.1
    rw [h.eq hcs1]
    exact Control.active_modifyGroup.trans (Control.active_setActive h.1)
  by_cases hret : ret = 0
  · have hactive2 := Prog.wp_done hactive hrun2 hret
    rw [Prog.when_of_neg (by simp [hret])]
    refine WithinAt.bind_done rfl ?_
    by_cases hrunning : es.state = .start
    · rw [Prog.when_of_pos hrunning]
      have hcall : (Prog.call 0 (perfmonStartCounters M B) : PerfmonProg Int).WithinAt
          (ArraysKept s0) s2 :=
        (startCounters_withinAt hgs hc hs2 hactive2 hnew hfilledN (hstart hrunning)).call
      exact hcall.bind fun _ s3 _ hs3 => Within.when (fun _ => .ret _) s3 hs3
    · rw [Prog.when_of_neg hrunning]
      exact hs2
  · rw [Prog.when_of_pos hret]
    exact WithinAt.bind_ret rfl hs2

/-- The switch of one thread, away from a group there is. -/
theorem switchThread_withinAt {i : ℕ} {ei : PerfmonEventSet} (hs : ArraysKept s0 s)
    (hcs : s.control.Consistent) (hactive : s.control.active = some i)
    (hg : s0.group? i = some ei) (hfilled : ei.Filled)
    (hstart : s.control.InState i .start → B.StartInBounds eN.regTypeMask) :
    (perfmonSwitchActiveGroupThread M B threadId newGroup).WithinAt (ArraysKept s0) s := by
  have hflow := entryFlow_any M B
  obtain ⟨gs, hgs', ha, rfl⟩ := groupSet_of_active hactive
  obtain ⟨es, hes, hrel⟩ := hs.group hg
  refine WithinAt.bind_done (requireInit_some hgs') ?_
  refine WithinAt.bind_done (groupAt_some ha hes) (WithinAt.bind_done rfl
    (WithinAt.bind_done rfl ?_))
  have hleave : ArraysKept s0 (s.leave M gs.activeGroup.toNat) :=
    hs.trans (fun _ _ _ _ _ => trivial) _ _ _
      ((hflow.order.calls.timerStop gs.activeGroup.toNat s).trans (fun _ _ _ _ _ => trivial) _ _ _
        (hflow.order.calls.addRunTime gs.activeGroup.toNat _))
  have hcleave : (s.leave M gs.activeGroup.toNat).control.Consistent := by
    rw [control_leave]
    exact (hcs.modifyGroup _ _).modifyGroup _ _
  have hrest : ∀ s1, ArraysKept s0 s1 → s1.control.Consistent → WithinAt (ArraysKept s0) _ s1 :=
    fun s1 hs1 hc1 => switchRest_withinAt (M := M) hgs hc hB h0 hnew hfilledN
      threadId hs1 hc1 hg hfilled hrel.numberOfEvents.symm fun hst =>
        hstart (hst ▸ control_inState hes)
  show WithinAt (ArraysKept s0) _ (s.leave M gs.activeGroup.toNat)
  by_cases hrunning : es.state = .start
  · have hstop : (perfmonStopCounters M B).WithinAt (ArraysKept s0)
        (s.leave M gs.activeGroup.toNat) :=
      stopCounters_withinAt hgs hc hB hleave (active_leave.trans hactive) hg hfilled
    have hstop_control : (do let _ ← Prog.call (0 : Int) (perfmonStopCounters M B) :
        PerfmonProg Unit).wp (fun _ s' => s'.control.Consistent) (fun _ _ => True)
        (s.leave M gs.activeGroup.toNat) := by
      rw [Prog.wp_bind, Prog.wp_call]
      exact Prog.wp_mono (perfmonStopCounters_control _) (fun _ _ h => h.consistent hcleave)
        fun _ _ h => h.2.consistent hcleave
    rw [Prog.when_of_pos hrunning]
    refine WithinAt.bind (hstop.call.bind fun _ s1 _ hs1 => hs1) fun _ s1 hrun hs1 => ?_
    exact hrest s1 hs1 (Prog.wp_done hstop_control hrun)
  · rw [Prog.when_of_neg hrunning]
    exact WithinAt.bind_done rfl (hrest _ hleave hcleave)

/-- The switch of all threads. After the first one the new group is the active
one. -/
theorem switch_withinAt {ea : PerfmonEventSet} (hcs : s0.control.Consistent)
    (ha : 0 ≤ gs0.activeGroup) (hg : s0.group? gs0.activeGroup.toNat = some ea)
    (hfilled : ea.Filled) (hstart : ea.state = .start → B.StartInBounds eN.regTypeMask) :
    (perfmonSwitchActiveGroup M B newGroup).WithinAt (ArraysKept s0) s0 := by
  refine WithinAt.bind_done (theGroupSet_some hgs) ?_
  refine WithinAt.foldlM (J := fun s : Perfmon => s.control.Consistent ∧ ∃ i ei,
    s.control.active = some i ∧ s0.group? i = some ei ∧ ei.Filled ∧
      (s.control.InState i .start → B.StartInBounds eN.regTypeMask)) ?_ (ArraysKept.refl s0)
    ⟨hcs, _, ea, control_active hgs ha, hg, hfilled, fun hin => hstart ?_⟩
  · rintro th - s hs ⟨hcons, i, ei, hactive, hgi, hfi, hst⟩
    refine ⟨(switchThread_withinAt hgs hc hB h0 hnew hfilledN hs hcons hactive hgi hfi
      hst).call.bind fun _ s1 _ hs1 => Within.when (fun _ => .ret _) s1 hs1, fun b s' hrun => ?_⟩
    have hpost : (do
        let ret ← Prog.call 0 (perfmonSwitchActiveGroupThread M B th.threadId newGroup)
        Prog.when (ret ≠ 0) (Prog.ret ret) : PerfmonProg Unit).wp
        (fun _ s' => s'.control.Consistent ∧ s'.control.active = some newGroup.toNat ∧
          (s'.control.InState newGroup.toNat .start → B.StartInBounds eN.regTypeMask))
        (fun _ _ => True) s := by
      rw [Prog.wp_bind, Prog.wp_call]
      refine Prog.wp_mono (Prog.wp_and (switchThread_post hcons)
        (perfmonSwitchActiveGroupThread_moves th.threadId newGroup s)) (fun _ s1 h1 => ?_)
        fun r s1 h1 => ?_
      · obtain ⟨⟨hactive1, hrunning⟩, hmoves⟩ := h1
        rw [Prog.wp_when]
        refine ⟨fun _ => trivial, fun _ => ⟨hmoves.invariant (fun _ _ hk hm => hm.consistent hk)
          hcons, hactive1, fun hin => ?_⟩⟩
        obtain ⟨a, ha', hin'⟩ := hrunning hin
        exact hst (Option.some.inj (hactive.symm.trans ha') ▸ hin')
      · rw [Prog.wp_when]
        exact ⟨fun _ => trivial, fun hz => absurd h1.1 hz⟩
    obtain ⟨hcons', hactive', hst'⟩ := Prog.wp_done hpost hrun
    exact ⟨hcons', _, eN, hactive', hnew, hfilledN, hst'⟩
  · exact (control_inState hg).unique hin

end Switch

/-! ## The nine functions -/

inductive Entry where
  | readCounters
  | readGroupCounters (groupId : Int)
  | readGroupThreadCounters (groupId threadId : Int)
  | readCountersCpu (cpu : Int)
  | getResult (groupId eventId threadId : Int)
  | setupCounters (groupId : Int)
  | switchActiveGroup (newGroup : Int)
  | getNumberOfEvents (groupId : Int)
  | getTimeOfGroup (groupId : Int)
deriving DecidableEq, Repr

def Entry.op : Entry → Op
  | .readCounters => .call .readCounters
  | .readGroupCounters groupId => .call (.readGroupCounters groupId)
  | .readGroupThreadCounters groupId threadId =>
      .call (.readGroupThreadCounters groupId threadId)
  | .readCountersCpu cpu => .call (.readCountersCpu cpu)
  | .getResult groupId eventId threadId => .query (.getResult groupId eventId threadId)
  | .setupCounters groupId => .call (.setupCounters groupId)
  | .switchActiveGroup newGroup => .call (.switchActiveGroup newGroup)
  | .getNumberOfEvents groupId => .query (.getNumberOfEvents groupId)
  | .getTimeOfGroup groupId => .query (.getTimeOfGroup groupId)

/-- The group argument is not the number of a group, and the function does not
take the active one in its place; or the CPU is not one that is measured. -/
def Entry.NoGroup (gs : PerfmonGroupSet) : Entry → Prop
  | .readCounters => False
  | .readCountersCpu cpu => ∀ th ∈ gs.threads, (th.processorId : Int) ≠ cpu
  | .readGroupCounters g | .readGroupThreadCounters g _ => ¬gs.Valid g ∧ gs.activeGroup < 0
  | .setupCounters g | .switchActiveGroup g => ¬gs.Valid g
  | .getResult g _ _ | .getNumberOfEvents g | .getTimeOfGroup g =>
      ¬gs.Valid g ∧ ¬(g < 0 ∧ 0 ≤ gs.activeGroup)

/-- A getter's group argument, or the active group for one below zero. -/
def PerfmonGroupSet.orActive (gs : PerfmonGroupSet) (groupId : Int) : Int :=
  if groupId < 0 ∧ 0 ≤ gs.activeGroup then gs.activeGroup else groupId

/-- The event or thread number is out of range. Thread -1 stands for all threads
of a read. -/
def Entry.NoRecord (s : Perfmon) (gs : PerfmonGroupSet) : Entry → Prop
  | .readGroupThreadCounters _ t => t < -1 ∨ gs.numberOfThreads ≤ t
  | .getResult g e t => t < 0 ∨ gs.numberOfThreads ≤ t ∨ e < 0 ∨
      ∃ es, s.group? (gs.orActive g).toNat = some es ∧ es.numberOfEvents ≤ e
  | _ => False

/-- Another group array. -/
def Perfmon.withGroups (s : Perfmon) (groups : List PerfmonEventSet) : Perfmon :=
  s.modifyGroupSet fun gs => { gs with groups := groups }

/-- **The bounds**: the function indexes no array beyond its bounds, it answers a
number of no group or CPU whatever the groups are, and one of no event or thread
without a change. -/
structure Bounded (M : Machine) (B : Backend) (s : Perfmon) (gs : PerfmonGroupSet) (x : Entry) :
    Prop where
  within : s.answer M B x.op ≠ .error .outOfBounds
  group : x.NoGroup gs → ∃ r, ∀ groups,
    (s.withGroups groups).answer M B x.op = .ok (r, s.withGroups groups)
  record : x.NoRecord s gs → ∃ r, s.answer M B x.op = .ok (r, s)

/-- The number the function ends up with is that of a group, or it is refused
first; and the CPU is one that is measured. -/
def Entry.Addressed (s : Perfmon) (gs : PerfmonGroupSet) : Entry → Prop
  | .readCounters => 0 ≤ gs.activeGroup
  | .readCountersCpu cpu => 0 ≤ gs.activeGroup ∧ ∃ th ∈ gs.threads, (th.processorId : Int) = cpu
  | .readGroupCounters g | .readGroupThreadCounters g _ => gs.Valid g ∨ 0 ≤ gs.activeGroup
  | .setupCounters g => 0 ≤ g
  | .switchActiveGroup g => 0 ≤ gs.activeGroup ∧ gs.Valid g
  | .getNumberOfEvents g | .getTimeOfGroup g => gs.Valid (gs.orActive g)
  | .getResult g e t => gs.numberOfActiveGroups = 0 ∨ gs.Valid (gs.orActive g) ∧
      ∃ es, s.group? (gs.orActive g).toNat = some es ∧
        (es.numberOfEvents ≤ e ∨ gs.numberOfThreads ≤ t ∨
          0 ≤ e ∧ 0 ≤ t ∧ es.events[e.toNat]?.join ≠ none)

/-- The groups that the function works on have their events initialised, and no
group is started in which a failing reset would mark an event that is not there. -/
def Entry.Loaded (B : Backend) (s : Perfmon) (gs : PerfmonGroupSet) : Entry → Prop
  | .readCounters =>
      ∀ es, s.group? gs.activeGroup.toNat = some es → es.state = .start → es.Filled
  | .readGroupCounters g | .readGroupThreadCounters g _ => ∀ es,
      s.group? (if gs.Valid g then g else gs.activeGroup).toNat = some es →
        es.state = .start → es.Filled
  | .readCountersCpu _ => ∀ es, s.group? gs.activeGroup.toNat = some es → es.Filled
  | .setupCounters g => ∀ es, s.group? g.toNat = some es → gs.Valid g → es.Filled
  | .switchActiveGroup g => ∀ ea en, s.group? gs.activeGroup.toNat = some ea →
      s.group? g.toNat = some en →
        ea.Filled ∧ en.Filled ∧ (ea.state = .start → B.StartInBounds en.regTypeMask)
  | _ => True

section Functions

variable {x : Entry}

theorem answer_call_ne {c : Call} (h : c.prog M B s ≠ .halt .outOfBounds) :
    s.answer M B (.call c) ≠ .error .outOfBounds := by
  rw [answer_call]
  cases hrun : c.prog M B s with
  | done a s' => simp
  | ret r s' => simp
  | halt k =>
      rw [hrun] at h
      simpa using h

theorem answer_query (q : Query) : s.answer M B (.query q) =
    match q.prog M s with
    | .done _ s' => .ok (0, s')
    | .ret r s' => .ok (r, s')
    | .halt k => .error k := rfl

theorem answer_query_ne {q : Query} (h : q.prog M s ≠ .halt .outOfBounds) :
    s.answer M B (.query q) ≠ .error .outOfBounds := by
  rw [answer_query]
  cases hrun : q.prog M s with
  | done a s' => simp
  | ret r s' => simp
  | halt k =>
      rw [hrun] at h
      simpa using h

theorem answer_call_halt {c : Call} (h : c.prog M B s = .halt .outOfBounds) :
    s.answer M B (.call c) = .error .outOfBounds := by
  rw [answer_call, h]

/-- A group there is has an entry in the array. -/
theorem PerfmonGroupSet.Consistent.group (hc : gs.Consistent) (hgs : s.groupSet = some gs)
    {g : Int} (h : gs.Valid g) : ∃ es, s.group? g.toNat = some es := by
  have hlt : g.toNat < gs.groups.length := by
    have h1 := hc.added
    have h2 := hc.length
    have h3 := h.2
    have h4 := h.1
    omega
  refine ⟨gs.groups[g.toNat], ?_⟩
  simp [Perfmon.group?, hgs, hlt]

theorem PerfmonGroupSet.Consistent.active_valid (hc : gs.Consistent) (h : 0 ≤ gs.activeGroup) :
    gs.Valid gs.activeGroup := by
  rcases hc.active with hneg | hvalid
  · omega
  · exact hvalid

/-! ## The getters -/

section Getters

variable {g e i : Int} {es : PerfmonEventSet} (hgs : s.groupSet = some gs)

theorem groupAt_halt {ρ : Type} (h : 0 ≤ g → s.group? g.toNat = none) :
    (groupAt g : Prog ρ Perfmon _) s = .halt .outOfBounds := by
  refine (Prog.bind_of_done rfl).trans ?_
  by_cases h0 : 0 ≤ g
  · rw [if_pos h0, h h0]
    rfl
  · rw [if_neg h0]
    rfl

include hgs

theorem getResult_noGroups (hn : gs.numberOfActiveGroups = 0) :
    perfmonGetResult M g e i s = .ret 0 s := by
  refine (Prog.bind_of_done rfl).trans ?_
  simp only [hgs]
  rw [Prog.when_of_pos hn]
  exact Prog.bind_of_ret rfl

theorem getResult_halt (hn : gs.numberOfActiveGroups ≠ 0)
    (h : 0 ≤ gs.orActive g → s.group? (gs.orActive g).toNat = none) :
    perfmonGetResult M g e i s = .halt .outOfBounds := by
  refine (Prog.bind_of_done rfl).trans ?_
  simp only [hgs]
  rw [Prog.when_of_neg hn, Prog.bind_pure_left]
  exact Prog.bind_of_halt (groupAt_halt h)

theorem getResult_group (hn : gs.numberOfActiveGroups ≠ 0) (h0 : 0 ≤ gs.orActive g)
    (hes : s.group? (gs.orActive g).toNat = some es) :
    perfmonGetResult M g e i s = (do
      Prog.when (es.numberOfEvents ≤ e) (Prog.ret 0)
      Prog.when (gs.numberOfThreads ≤ i) (Prog.ret 0)
      let entry ← eventAt es.events e
      let r ← recordAt entry i
      Prog.when (r.fullData ≠ 0) (Prog.ret r.fullData)
      let row ← counterMap M entry.index
      Prog.modify (·.modifyRecord (gs.orActive g).toNat e.toNat i.toNat fun r =>
        (calculateResult M entry.index row.type r).2)
      Prog.ret (calculateResult M entry.index row.type r).1 : Prog ℚ Perfmon Unit) s := by
  refine (Prog.bind_of_done rfl).trans ?_
  simp only [hgs]
  rw [Prog.when_of_neg hn, Prog.bind_pure_left]
  exact Prog.bind_of_done (groupAt_some h0 hes)

theorem getResult_refused (hn : gs.numberOfActiveGroups ≠ 0) (h0 : 0 ≤ gs.orActive g)
    (hes : s.group? (gs.orActive g).toNat = some es)
    (h : es.numberOfEvents ≤ e ∨ gs.numberOfThreads ≤ i) :
    perfmonGetResult M g e i s = .ret 0 s := by
  rw [getResult_group hgs hn h0 hes]
  by_cases he : es.numberOfEvents ≤ e
  · rw [Prog.when_of_pos he]
    exact Prog.bind_of_ret rfl
  · rw [Prog.when_of_neg he, Prog.bind_pure_left,
      Prog.when_of_pos (h.resolve_left he)]
    exact Prog.bind_of_ret rfl

/-- The event and the thread are not too large. -/
theorem getResult_slot (hn : gs.numberOfActiveGroups ≠ 0) (h0 : 0 ≤ gs.orActive g)
    (hes : s.group? (gs.orActive g).toNat = some es)
    (he : ¬es.numberOfEvents ≤ e) (hi : ¬gs.numberOfThreads ≤ i) :
    perfmonGetResult M g e i s ≠ .halt .outOfBounds ↔
      0 ≤ e ∧ 0 ≤ i ∧ es.events[e.toNat]?.join ≠ none := by
  rw [getResult_group hgs hn h0 hes, Prog.when_of_neg he, Prog.bind_pure_left,
    Prog.when_of_neg hi, Prog.bind_pure_left]
  by_cases h0e : 0 ≤ e
  · cases hentry : es.events[e.toNat]?.join with
    | none =>
        have hhalt : (eventAt es.events e : Prog ℚ Perfmon _) s = .halt .outOfBounds := by
          unfold eventAt
          rw [if_pos h0e, hentry]
          rfl
        rw [Prog.bind_of_halt hhalt]
        simp
    | some entry =>
        have hdone : (eventAt es.events e : Prog ℚ Perfmon _) s = .done entry s := by
          unfold eventAt
          rw [if_pos h0e, hentry]
          rfl
        rw [Prog.bind_of_done hdone]
        by_cases h0i : 0 ≤ i
        · have hdone : (recordAt entry i : Prog ℚ Perfmon _) s =
              .done (entry.threadCounter i.toNat) s := by
            unfold recordAt
            rw [if_pos h0i]
            rfl
          rw [Prog.bind_of_done hdone]
          have hrest : Within (fun _ => True) (do
              Prog.when ((entry.threadCounter i.toNat).fullData ≠ 0)
                (Prog.ret (entry.threadCounter i.toNat).fullData)
              let row ← counterMap M entry.index
              Prog.modify (·.modifyRecord (gs.orActive g).toNat e.toNat i.toNat fun r =>
                (calculateResult M entry.index row.type r).2)
              Prog.ret (calculateResult M entry.index row.type
                (entry.threadCounter i.toNat)).1 : Prog ℚ Perfmon Unit) :=
            .bind (.when fun _ => .ret _) fun _ => .bind (.orUndefined _) fun _ =>
              .bind (.modify fun _ _ => trivial) fun _ => .ret _
          simp [(hrest s trivial).ne_outOfBounds, h0e, h0i]
        · have hhalt : (recordAt entry i : Prog ℚ Perfmon _) s = .halt .outOfBounds := by
            unfold recordAt
            rw [if_neg h0i]
            rfl
          rw [Prog.bind_of_halt hhalt]
          simp [h0i]
  · have hhalt : (eventAt es.events e : Prog ℚ Perfmon _) s = .halt .outOfBounds := by
      unfold eventAt
      rw [if_neg h0e]
      rfl
    rw [Prog.bind_of_halt hhalt]
    simp [h0e]

omit hgs in
theorem not_valid_orActive (h : ¬gs.Valid g ∧ ¬(g < 0 ∧ 0 ≤ gs.activeGroup)) :
    ¬gs.Valid (gs.orActive g) := by
  unfold PerfmonGroupSet.orActive
  rw [if_neg h.2]
  exact h.1

omit hgs in
theorem getterGroup_eq (h : gs.Valid (gs.orActive g)) :
    (if g < 0 then gs.activeGroup else g) = gs.orActive g := by
  unfold PerfmonGroupSet.Valid PerfmonGroupSet.orActive at *
  by_cases h0 : g < 0
  · by_cases ha : 0 ≤ gs.activeGroup <;> simp_all
    omega
  · simp [h0]

theorem answer_getNumberOfEvents (h0 : 0 ≤ (if g < 0 then gs.activeGroup else g))
    (hes : s.group? (if g < 0 then gs.activeGroup else g).toNat = some es) :
    s.answer M B (.query (.getNumberOfEvents g)) = .ok ((es.numberOfEvents : Int), s) := by
  have hrun : perfmonGetNumberOfEvents g s = .ret (es.numberOfEvents : Int) s := by
    refine (Prog.bind_of_done (requireInit_some hgs)).trans ?_
    exact Prog.bind_of_done (groupAt_some h0 hes)
  have hprog : (Query.prog M (.getNumberOfEvents g)) s = .ret ((es.numberOfEvents : Int) : ℚ) s :=
    Prog.bind_of_done (Prog.call_of_ret hrun)
  simp only [Perfmon.answer, Op.prog, hprog]

theorem answer_getTimeOfGroup (h0 : 0 ≤ (if g < 0 then gs.activeGroup else g))
    (hes : s.group? (if g < 0 then gs.activeGroup else g).toNat = some es) :
    s.answer M B (.query (.getTimeOfGroup g)) = .ok (es.runTime, s) := by
  have hprog : (Query.prog M (.getTimeOfGroup g)) s = .ret es.runTime s := by
    refine (Prog.bind_of_done rfl).trans ?_
    simp only [hgs]
    exact Prog.bind_of_done (groupAt_some h0 hes)
  simp only [Perfmon.answer, Op.prog, hprog]

end Getters

theorem readGroup_valid (hc : gs.Consistent) {g : Int} (h : gs.Valid g ∨ 0 ≤ gs.activeGroup) :
    gs.Valid (if gs.Valid g then g else gs.activeGroup) := by
  split
  · assumption
  · exact hc.active_valid (h.resolve_left ‹_›)

theorem readGroup_eq {g : Int} (h : gs.Valid g ∨ 0 ≤ gs.activeGroup) :
    (if (g < 0 ∨ gs.numberOfActiveGroups ≤ g) ∧ 0 ≤ gs.activeGroup then gs.activeGroup else g) =
      if gs.Valid g then g else gs.activeGroup := by
  by_cases hg : gs.Valid g
  · rw [if_pos hg, if_neg]
    unfold PerfmonGroupSet.Valid at hg
    omega
  · rw [if_neg hg, if_pos]
    unfold PerfmonGroupSet.Valid at hg h
    omega

/-! ## The condition is enough -/

theorem entry_within (hB : B.InBounds) (hcs : s.control.Consistent) (hgs : s.groupSet = some gs)
    (ha : x.Addressed s gs) (hl : x.Loaded B s gs) : s.answer M B x.op ≠ .error .outOfBounds := by
  have hc : gs.Consistent := consistent_of_control (hcs _ (control_groupSet hgs))
  have hread : ∀ g i : Int, gs.Valid g ∨ 0 ≤ gs.activeGroup →
      (∀ es, s.group? (if gs.Valid g then g else gs.activeGroup).toNat = some es →
        es.state = .start → es.Filled) →
      perfmonReadCountersOf B g i s ≠ .halt .outOfBounds := by
    intro g i hg hfilled
    have hvalid := readGroup_valid hc hg
    obtain ⟨es, hes⟩ := hc.group hgs hvalid
    exact (readCountersOf_withinAt (M := M) hgs hB hvalid.1 hes (hfilled es hes)
      (readGroup_eq hg)).ne_outOfBounds
  cases x with
  | readCounters =>
      refine answer_call_ne (hread (-1) (-1) (Or.inr ha) ?_)
      rw [if_neg (by unfold PerfmonGroupSet.Valid; omega)]
      exact hl
  | readGroupCounters g => exact answer_call_ne (hread g (-1) ha hl)
  | readGroupThreadCounters g i => exact answer_call_ne (hread g i ha hl)
  | readCountersCpu cpu =>
      obtain ⟨es, hes⟩ := hc.group hgs (hc.active_valid ha.1)
      exact answer_call_ne
        (readCountersCpu_withinAt (M := M) hgs hB ha.1 hes (hl es hes) cpu hc).ne_outOfBounds
  | getResult g e i =>
      refine answer_query_ne ?_
      rcases ha with hn | ⟨hvalid, es, hes, h⟩
      · simp [Query.prog, getResult_noGroups hgs hn]
      by_cases hn : gs.numberOfActiveGroups = 0
      · simp [Query.prog, getResult_noGroups hgs hn]
      by_cases hlarge : es.numberOfEvents ≤ e ∨ gs.numberOfThreads ≤ i
      · simp [Query.prog, getResult_refused hgs hn hvalid.1 hes hlarge]
      · obtain ⟨he, hi⟩ := not_or.mp hlarge
        exact (getResult_slot hgs hn hvalid.1 hes he hi).mpr
          ((h.resolve_left he).resolve_left hi)
  | setupCounters g =>
      by_cases hlt : g < gs.numberOfActiveGroups
      · obtain ⟨es, hes⟩ := hc.group hgs ⟨ha, hlt⟩
        exact answer_call_ne (setupCounters_within hgs hc hB ha hes (hl es hes ⟨ha, hlt⟩) s
          (ArraysKept.refl s)).ne_outOfBounds
      · refine answer_call_ne ?_
        simp [Call.prog, perfmonSetupCounters_unknown hgs (Int.not_lt.mp hlt)]
  | switchActiveGroup g =>
      obtain ⟨hactive, hvalid⟩ := ha
      obtain ⟨ea, hea⟩ := hc.group hgs (hc.active_valid hactive)
      obtain ⟨en, hen⟩ := hc.group hgs hvalid
      obtain ⟨hfa, hfn, hstart⟩ := hl ea en hea hen
      exact answer_call_ne (switch_withinAt hgs hc hB hvalid.1 hen hfn hcs hactive hea hfa
        hstart).ne_outOfBounds
  | getNumberOfEvents g =>
      obtain ⟨es, hes⟩ := hc.group hgs ha
      have hg := getterGroup_eq (g := g) ha
      simp [Entry.op, answer_getNumberOfEvents hgs (hg ▸ ha.1) (hg ▸ hes)]
  | getTimeOfGroup g =>
      obtain ⟨es, hes⟩ := hc.group hgs ha
      have hg := getterGroup_eq (g := g) ha
      simp [Entry.op, answer_getTimeOfGroup hgs (hg ▸ ha.1) (hg ▸ hes)]

/-- A number of no group is refused before a group is looked at. -/
theorem entry_group (hcs : s.control.Consistent) (hgs : s.groupSet = some gs)
    (ha : x.Addressed s gs) (hx : x.NoGroup gs) : ∃ r, ∀ groups,
      (s.withGroups groups).answer M B x.op = .ok (r, s.withGroups groups) := by
  have hc : gs.Consistent := consistent_of_control (hcs _ (control_groupSet hgs))
  have hgs' : ∀ groups, (s.withGroups groups).groupSet = some { gs with groups := groups } :=
    fun groups => by simp [Perfmon.withGroups, Perfmon.modifyGroupSet, hgs]
  cases x with
  | readCounters => exact hx.elim
  | readGroupCounters g => exact absurd (ha.resolve_left hx.1) (by have := hx.2; omega)
  | readGroupThreadCounters g i => exact absurd (ha.resolve_left hx.1) (by have := hx.2; omega)
  | readCountersCpu cpu =>
      obtain ⟨-, th, hth, hcpu⟩ := ha
      exact absurd hcpu (hx th hth)
  | getResult g e i =>
      rcases ha with hn | ⟨hvalid, -⟩
      · refine ⟨0, fun groups => ?_⟩
        simp [Perfmon.answer, Entry.op, Op.prog, Query.prog,
          getResult_noGroups (hgs' groups) hn]
      · exact absurd hvalid (not_valid_orActive hx)
  | setupCounters g =>
      refine ⟨((-enoent : Int) : ℚ), fun groups => ?_⟩
      have hge : gs.numberOfActiveGroups ≤ g := by
        by_contra hlt
        exact hx ⟨ha, Int.not_le.mp hlt⟩
      simp [Entry.op, answer_call, Call.prog, perfmonSetupCounters_unknown (hgs' groups) hge]
  | switchActiveGroup g => exact absurd ha.2 hx
  | getNumberOfEvents g => exact absurd ha (not_valid_orActive hx)
  | getTimeOfGroup g => exact absurd ha (not_valid_orActive hx)

/-- A number of no event or thread is refused, or stands for nothing. -/
theorem entry_record (hcs : s.control.Consistent) (hgs : s.groupSet = some gs)
    (ha : x.Addressed s gs) (hx : x.NoRecord s gs) : ∃ r, s.answer M B x.op = .ok (r, s) := by
  have hc : gs.Consistent := consistent_of_control (hcs _ (control_groupSet hgs))
  cases x with
  | readGroupThreadCounters g i =>
      obtain ⟨es, hes⟩ := hc.group hgs (readGroup_valid hc ha)
      have hvalid := readGroup_valid hc ha
      have hrun : perfmonReadGroupThreadCounters B g i s = .ret (-einval) s ∨
          perfmonReadGroupThreadCounters B g i s = .done () s := by
        unfold perfmonReadGroupThreadCounters perfmonReadCountersOf
        rw [Prog.bind_of_done (requireInit_some hgs)]
        dsimp only
        rw [readGroup_eq ha, Prog.bind_of_done (groupAt_some hvalid.1 hes)]
        by_cases hstart : es.state = .start
        · rw [Prog.when_of_neg (by simp [hstart]), Prog.bind_pure_left,
            if_neg (by rcases hx with h | h <;> omega),
            Prog.when_of_neg (by rcases hx with h | h <;> omega)]
          exact Or.inr rfl
        · rw [Prog.when_of_pos hstart]
          exact Or.inl (Prog.bind_of_ret rfl)
      rcases hrun with hrun | hrun
      · exact ⟨((-einval : Int) : ℚ), by simp [Entry.op, answer_call, Call.prog, hrun]⟩
      · exact ⟨0, by simp [Entry.op, answer_call, Call.prog, hrun]⟩
  | getResult g e i =>
      refine ⟨0, ?_⟩
      have hprog : perfmonGetResult M g e i s = .ret 0 s := by
        rcases ha with hn | ⟨hvalid, es, hes, h⟩
        · exact getResult_noGroups hgs hn
        by_cases hn : gs.numberOfActiveGroups = 0
        · exact getResult_noGroups hgs hn
        refine getResult_refused hgs hn hvalid.1 hes ?_
        rcases hx with hi | hi | he | ⟨es', hes', he⟩
        · omega
        · exact Or.inr hi
        · omega
        · obtain rfl := Option.some.inj (hes.symm.trans hes')
          exact Or.inl he
      simp [Perfmon.answer, Entry.op, Op.prog, Query.prog, hprog]
  | _ => exact hx.elim

/-! ## The condition is necessary -/

theorem answer_ne_ok {op : Op} {r : ℚ}
    (h : (op.prog M B).wp (fun _ _ => False) (fun _ _ => False) s) :
    s.answer M B op ≠ .ok (r, s') :=
  fun hr => answer_of_wp (P := fun _ _ => False) h hr

theorem answer_call_ne_ok {c : Call} {r : ℚ}
    (h : (c.prog M B).wp (fun _ _ => False) (fun _ _ => False) s) :
    s.answer M B (.call c) ≠ .ok (r, s') := by
  refine answer_ne_ok ?_
  simp only [Op.prog, Prog.wp_bind, Prog.wp_call]
  exact Prog.wp_mono h (fun _ _ h => h.elim) fun _ _ h => h.elim

theorem readCountersOf_halt {g i : Int} (hgs : s.groupSet = some gs)
    (h : ¬(gs.Valid g ∨ 0 ≤ gs.activeGroup)) (hg : 0 ≤ g → s.group? g.toNat = none) :
    perfmonReadCountersOf B g i s = .halt .outOfBounds := by
  unfold perfmonReadCountersOf
  rw [Prog.bind_of_done (requireInit_some hgs)]
  dsimp only
  rw [if_neg (fun hn => h (Or.inr hn.2))]
  exact Prog.bind_of_halt (groupAt_halt hg)

/-- Without groups there is nothing to switch away from. -/
theorem switch_halt {g : Int} (hgs : s.groupSet = some gs) (hthreads : gs.threads ≠ [])
    (h : 0 ≤ gs.activeGroup → s.group? gs.activeGroup.toNat = none) :
    perfmonSwitchActiveGroup M B g s = .halt .outOfBounds := by
  unfold perfmonSwitchActiveGroup
  rw [Prog.bind_of_done (theGroupSet_some hgs)]
  obtain ⟨th, rest, hcons⟩ := List.exists_cons_of_ne_nil hthreads
  have hthread : perfmonSwitchActiveGroupThread M B th.threadId g s = .halt .outOfBounds := by
    unfold perfmonSwitchActiveGroupThread
    rw [Prog.bind_of_done (requireInit_some hgs)]
    exact Prog.bind_of_halt (groupAt_halt h)
  rw [hcons, List.foldlM_cons]
  exact Prog.bind_of_halt (Prog.bind_of_halt (Prog.call_of_halt hthread))

theorem noGroup_of_not_valid (hc : gs.Consistent) {g : Int} (h : ¬gs.Valid (gs.orActive g)) :
    ¬gs.Valid g ∧ ¬(g < 0 ∧ 0 ≤ gs.activeGroup) := by
  unfold PerfmonGroupSet.orActive at h
  by_cases hfall : g < 0 ∧ 0 ≤ gs.activeGroup
  · rw [if_pos hfall] at h
    exact absurd (hc.active_valid hfall.2) h
  · rw [if_neg hfall] at h
    exact ⟨h, hfall⟩

theorem addressed_of_bounded (hcs : s.control.Consistent) (hgs : s.groupSet = some gs)
    (h : Bounded M B s gs x) : x.Addressed s gs := by
  have hc : gs.Consistent := consistent_of_control (hcs _ (control_groupSet hgs))
  have hgs' : (s.withGroups []).groupSet = some { gs with groups := [] } := by
    simp [Perfmon.withGroups, Perfmon.modifyGroupSet, hgs]
  have hnone : ∀ i, (s.withGroups []).group? i = none := by simp [Perfmon.group?, hgs']
  have hread : ∀ g, ¬(gs.Valid g ∨ 0 ≤ gs.activeGroup) → ¬gs.Valid g ∧ gs.activeGroup < 0 :=
    fun g hg => ⟨fun hv => hg (Or.inl hv), Int.not_le.mp fun hn => hg (Or.inr hn)⟩
  have hhalts : ∀ g i : Int, ¬(gs.Valid g ∨ 0 ≤ gs.activeGroup) →
      (perfmonReadCountersOf B g i).wp (fun _ _ => False) (fun _ _ => False) (s.withGroups []) := by
    intro g i hg
    unfold Prog.wp
    rw [readCountersOf_halt hgs' hg fun _ => hnone _]
    trivial
  by_contra ha
  cases x with
  | readCounters =>
      refine h.within (answer_call_halt ?_)
      exact readCountersOf_halt hgs (fun hg => hg.elim (fun hv => by have := hv.1; omega) ha)
        fun h0 => by omega
  | readGroupCounters g =>
      obtain ⟨r, hr⟩ := h.group (hread g ha)
      exact answer_call_ne_ok (c := .readGroupCounters g) (hhalts g (-1) ha) (hr [])
  | readGroupThreadCounters g i =>
      obtain ⟨r, hr⟩ := h.group (hread g ha)
      exact answer_call_ne_ok (c := .readGroupThreadCounters g i) (hhalts g i ha) (hr [])
  | readCountersCpu cpu =>
      by_cases hactive : 0 ≤ gs.activeGroup
      · -- thread 0 is read in place of the CPU
        obtain ⟨r, hr⟩ := h.group fun th hth hcpu => ha ⟨hactive, th, hth, hcpu⟩
        refine answer_call_ne_ok (c := .readCountersCpu cpu) ?_ (hr [])
        have hhalt : perfmonReadCountersCpu B cpu (s.withGroups []) = .halt .outOfBounds :=
          (Prog.bind_of_done (requireInit_some hgs')).trans
            (Prog.bind_of_halt (groupAt_halt fun _ => hnone _))
        unfold Prog.wp Call.prog
        dsimp only
        rw [hhalt]
        trivial
      · refine h.within (answer_call_halt ?_)
        refine (Prog.bind_of_done (requireInit_some hgs)).trans ?_
        exact Prog.bind_of_halt (groupAt_halt fun h0 => absurd h0 hactive)
  | getResult g e i =>
      obtain ⟨hn, hrest⟩ := not_or.mp ha
      by_cases hvalid : gs.Valid (gs.orActive g)
      · obtain ⟨es, hes⟩ := hc.group hgs hvalid
        have hslot : ¬(es.numberOfEvents ≤ e ∨ gs.numberOfThreads ≤ i ∨
            0 ≤ e ∧ 0 ≤ i ∧ es.events[e.toNat]?.join ≠ none) :=
          fun hcase => hrest ⟨hvalid, es, hes, hcase⟩
        obtain ⟨he, hrest'⟩ := not_or.mp hslot
        obtain ⟨hi, hbad⟩ := not_or.mp hrest'
        refine hbad ((getResult_slot (M := M) hgs hn hvalid.1 hes he hi).mp fun hhalt => ?_)
        exact h.within (by simp [Entry.op, answer_query, Query.prog, hhalt])
      · obtain ⟨r, hr⟩ := h.group (noGroup_of_not_valid hc hvalid)
        have hhalt := getResult_halt (M := M) (g := g) (e := e) (i := i) hgs' hn
          fun _ => hnone _
        have h0 := hr []
        simp [Entry.op, answer_query, Query.prog, hhalt] at h0
  | setupCounters g =>
      obtain ⟨r, hr⟩ := h.group fun hv => ha hv.1
      exact answer_call_ne_ok (c := .setupCounters g)
        (perfmonSetupCounters_negative (Int.not_le.mp ha) hgs' hc.threads) (hr [])
  | switchActiveGroup g =>
      by_cases hactive : 0 ≤ gs.activeGroup
      · obtain ⟨r, hr⟩ := h.group fun hv => ha ⟨hactive, hv⟩
        have h0 := hr []
        rw [Entry.op, answer_call_halt (c := .switchActiveGroup g)
          (switch_halt hgs' hc.threads fun _ => hnone _)] at h0
        cases h0
      · exact h.within (answer_call_halt (switch_halt hgs hc.threads
          fun h0 => absurd h0 hactive))
  | getNumberOfEvents g =>
      obtain ⟨r, hr⟩ := h.group (noGroup_of_not_valid hc ha)
      refine answer_ne_ok ?_ (hr [])
      simp only [Entry.op, Op.prog, Query.prog, perfmonGetNumberOfEvents, Prog.wp_bind,
        Prog.wp_call, wp_requireInit, wp_groupAt, hnone, hgs']
      simp
  | getTimeOfGroup g =>
      obtain ⟨r, hr⟩ := h.group (noGroup_of_not_valid hc ha)
      refine answer_ne_ok ?_ (hr [])
      simp only [Entry.op, Op.prog, Query.prog, perfmonGetTimeOfGroup, Prog.wp_bind,
        Prog.wp_get, hgs', wp_groupAt, hnone]
      simp

end Functions

theorem ops_of_run {guard : Perfmon → Call → Prop} (h : Run (Step M B) guard s0 s) :
    Run (OpStep M B) (fun _ _ => True) s0 s := by
  induction h with
  | nil => exact .nil
  | snoc _ _ hs ih => exact .snoc ih trivial (opStep_call.mpr hs)

/-- A new group has its events initialised if its descriptors come first. -/
theorem filled_of_added {eventString : List Char} {force : Int} {es : PerfmonEventSet}
    (hfirst : DescriptorsFirst eventString) (h : AddedGroup M s eventString force es) :
    es.Filled := by
  obtain ⟨gs, cpu, c, parsed, hread, -, hevents, hnumber, -⟩ := h.parsed
  obtain ⟨entries, -, hlen, hslots, hcount⟩ :=
    Prog.wp_done (addEvents_described _ _ _ _) hread.events
  have htake : es.events.take es.numberOfEvents = entries.map some := by
    rw [hevents, hnumber, hslots, hcount, List.nil_append, Nat.zero_add]
    exact (layout_take hlen).mpr hfirst
  have hn : es.numberOfEvents = entries.length := by
    rw [hnumber, hcount, Nat.zero_add]
  intro i hi
  have hlt : i < entries.length := by omega
  have hget : es.events[i]? = (entries.map some)[i]? := by
    rw [← htake, List.getElem?_take_of_lt hi]
  refine ⟨entries[i], ?_⟩
  rw [hget, List.getElem?_map, List.getElem?_eq_getElem hlt]
  rfl

/-- The event string that an operation adds -/
def Op.added : Op → Option (List Char)
  | .call (.addEventSet eventString _) => some eventString
  | _ => none

/-- The strings that are added have no gap. -/
def AddsWithoutGap (_ : Perfmon) (op : Op) : Prop :=
  ∀ eventString ∈ op.added, DescriptorsFirst eventString

instance (s : Perfmon) (op : Op) : Decidable (AddsWithoutGap s op) :=
  inferInstanceAs (Decidable (∀ eventString ∈ op.added, DescriptorsFirst eventString))

/-- Every group that can be worked on is initialised. -/
theorem loaded_of_filled (hgs : s.groupSet = some gs) (hc : gs.Consistent)
    (hfilled : s.EachGroup PerfmonEventSet.Filled) (hB : ∀ mask, B.StartInBounds mask) {x : Entry}
    (hx : x.Addressed s gs) : x.Loaded B s gs := by
  have hgroup : ∀ {g : Int} {es}, gs.Valid g → s.group? g.toNat = some es → es.Filled := by
    intro g es hvalid hes
    obtain ⟨hge, hlt⟩ := hvalid
    refine hfilled gs hgs g.toNat (by omega) es ?_
    rwa [Perfmon.group?, hgs] at hes
  cases x with
  | readCounters => exact fun es hes _ => hgroup (hc.active_valid hx) hes
  | readGroupCounters g => exact fun es hes _ => hgroup (readGroup_valid hc hx) hes
  | readGroupThreadCounters g t => exact fun es hes _ => hgroup (readGroup_valid hc hx) hes
  | readCountersCpu cpu => exact fun es hes => hgroup (hc.active_valid hx.1) hes
  | setupCounters g => exact fun es hes hvalid => hgroup hvalid hes
  | switchActiveGroup g =>
      exact fun ea en hea hen =>
        ⟨hgroup (hc.active_valid hx.1) hea, hgroup hx.2 hen, fun _ => hB _⟩
  | _ => trivial

/-- **On Nehalem no call indexes outside the arrays** that is given the number of a group, in a
run in which no string that is added has a gap. -/
theorem nehalem_within_of_ops (h0 : Booted s0) (h : Run (OpStep M (nehalem M)) AddsWithoutGap s0 s)
    (hgs : s.groupSet = some gs) {x : Entry} (hx : x.Addressed s gs) :
    s.answer M (nehalem M) x.op ≠ .error .outOfBounds := by
  have hcs := consistent_of_ops h0 h
  have hc : gs.Consistent := consistent_of_control (hcs _ (control_groupSet hgs))
  have hfilled : s.EachGroup PerfmonEventSet.Filled :=
    eachGroup_of_ops (entryFlow_any M (nehalem M)) (fun _ _ _ _ => trivial)
      (fun _ _ h hrel => h.rel hrel) (fun _ _ _ hg _ hadd => filled_of_added (hg _ rfl) hadd) h0 h
  exact entry_within nehalem_inBounds hcs hgs hx
    (loaded_of_filled hgs hc hfilled (fun _ => nehalem_startInBounds) hx)

/-- The state after a call -/
def nextCall (M : Machine) (B : Backend) (s : Perfmon) : Op → Option Perfmon
  | .call c => s.next M B c
  | .query _ => none

/-- One group on Nehalem, set up -/
def nehalemSetUp : Perfmon :=
  (Run.exec (nextCall haswellMachine (nehalem haswellMachine)) AddsWithoutGap
    [.call (.init [0]), .call (.addEventSet "INSTR_RETIRED_ANY:FIXC0".toList 0),
      .call (.setupCounters 0)] Perfmon.boot).get (by decide +kernel)

theorem nehalem_within_setUp :
    nehalemSetUp.answer haswellMachine (nehalem haswellMachine) (Entry.readGroupCounters 5).op ≠
      .error .outOfBounds := by
  have hrun : Run (OpStep haswellMachine (nehalem haswellMachine)) AddsWithoutGap Perfmon.boot
      nehalemSetUp := by
    refine Run.of_exec (fun s op t hnext => ?_) (Option.some_get _).symm
    cases op with
    | call c => exact opStep_call.mpr (step_of_next hnext)
    | query q => cases hnext
  exact nehalem_within_of_ops booted_boot hrun (Option.some_get (by decide +kernel)).symm
    (x := .readGroupCounters 5) (Or.inr (by decide +kernel))

end Likwid
