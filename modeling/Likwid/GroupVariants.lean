import Likwid.Backends
import Likwid.Reachable
import Likwid.Tables

/-!
# The `…GroupCounters` functions

`perfmon_startGroupCounters`, `perfmon_stopGroupCounters` and
`perfmon_readGroupCounters` are to work on the group they are given, and on the
active one when there is no such group. The test in the first two is the wrong
way round, so that they refuse every group there is: `actsOnGroup_iff` says when
nobody notices.
-/

namespace Likwid

variable {M : Machine} {B : Backend} {s : Perfmon} {gs : PerfmonGroupSet} {es : PerfmonEventSet}

/-! ## What they are to do -/

/-- The group number is that of a group. -/
def PerfmonGroupSet.Valid (gs : PerfmonGroupSet) (groupId : Int) : Prop :=
  0 ≤ groupId ∧ groupId < gs.numberOfActiveGroups

instance (gs : PerfmonGroupSet) (groupId : Int) : Decidable (gs.Valid groupId) :=
  inferInstanceAs (Decidable (_ ∧ _))

/-- Stop group `groupId` if it runs. -/
def stopOn (M : Machine) (B : Backend) (groupId : Int) : PerfmonProg Unit := do
  let (_, es) ← groupAt groupId
  Prog.when (es.state ≠ .start) (Prog.ret (-einval))
  perfmonStopCountersOf M B groupId

/-- Read all threads of group `groupId` if it runs. -/
def readOn (B : Backend) (groupId : Int) : PerfmonProg Unit := do
  let gs ← theGroupSet
  let (g, es) ← groupAt groupId
  Prog.when (es.state ≠ .start) (Prog.ret (-einval))
  (List.range gs.numberOfThreads).foldlM (fun _ t => do
    let ret ← callThread B.readCountersThread t g
    Prog.when (ret ≠ 0) (Prog.ret (-(t : Int) - 1))) ()

/-- **What they do**: in `s` the three functions act on group `groupId` if there is
such a group, and as the plain ones do otherwise (a read needs an active group
for that) and for the active group. -/
structure ActsOnGroup (M : Machine) (B : Backend) (s : Perfmon) (gs : PerfmonGroupSet)
    (groupId : Int) : Prop where
  valid : gs.Valid groupId →
    perfmonStartGroupCounters M B groupId s = perfmonStartCountersOf M B groupId s ∧
    perfmonStopGroupCounters M B groupId s = stopOn M B groupId s ∧
    perfmonReadGroupCounters B groupId s = readOn B groupId s
  otherwise : ¬gs.Valid groupId →
    perfmonStartGroupCounters M B groupId s = perfmonStartCounters M B s ∧
    perfmonStopGroupCounters M B groupId s = perfmonStopCounters M B s ∧
    (0 ≤ gs.activeGroup → perfmonReadGroupCounters B groupId s = perfmonReadCounters B s)
  active : groupId = gs.activeGroup →
    perfmonStartGroupCounters M B groupId s = perfmonStartCounters M B s ∧
    perfmonStopGroupCounters M B groupId s = perfmonStopCounters M B s ∧
    perfmonReadGroupCounters B groupId s = perfmonReadCounters B s

/-- The loop of a start over the threads. -/
def startThreads (B : Backend) (gs : PerfmonGroupSet) (g : ℕ) : PerfmonProg Unit :=
  gs.threads.foldlM (fun _ th => do
    let ret ← callThread B.startCountersThread th.threadId g
    Prog.when (ret ≠ 0) (Prog.ret (-(th.threadId : Int) - 1))) ()

/-- The start of the threads fails with the very code that stands for a wrong
argument, and without a trace. -/
def SilentlyRefused (B : Backend) (s : Perfmon) (gs : PerfmonGroupSet) (g : ℕ) : Prop :=
  startThreads B gs g s = .ret (-einval) s

/-- The group can be started. -/
def Startable (B : Backend) (s : Perfmon) (gs : PerfmonGroupSet) (g : ℕ) : Prop :=
  s.control.InState g .setup ∧ ¬SilentlyRefused B s gs g

/-! ## The tests -/

theorem startGroupCounters_valid (hgs : s.groupSet = some gs) {groupId : Int}
    (h : gs.Valid groupId) : perfmonStartGroupCounters M B groupId s = .ret (-einval) s := by
  unfold perfmonStartGroupCounters groupArgument
  rw [Prog.bind_of_done (requireInit_some hgs),
    if_neg (by unfold PerfmonGroupSet.Valid at h; omega)]
  exact Prog.bind_of_ret rfl

theorem stopGroupCounters_valid (hgs : s.groupSet = some gs) {groupId : Int}
    (h : gs.Valid groupId) : perfmonStopGroupCounters M B groupId s = .ret (-einval) s := by
  unfold perfmonStopGroupCounters groupArgument
  rw [Prog.bind_of_done (requireInit_some hgs),
    if_neg (by unfold PerfmonGroupSet.Valid at h; omega)]
  exact Prog.bind_of_ret rfl

theorem readGroupCounters_valid (hgs : s.groupSet = some gs) {groupId : Int}
    (h : gs.Valid groupId) : perfmonReadGroupCounters B groupId s = readOn B groupId s := by
  unfold perfmonReadGroupCounters perfmonReadCountersOf readOn
  rw [Prog.bind_of_done (requireInit_some hgs), Prog.bind_of_done (theGroupSet_some hgs),
    if_neg (by unfold PerfmonGroupSet.Valid at h; omega)]
  rfl

theorem groupCounters_otherwise (hgs : s.groupSet = some gs) {groupId : Int}
    (h : ¬gs.Valid groupId) :
    perfmonStartGroupCounters M B groupId s = perfmonStartCounters M B s ∧
    perfmonStopGroupCounters M B groupId s = perfmonStopCounters M B s ∧
    (0 ≤ gs.activeGroup → perfmonReadGroupCounters B groupId s = perfmonReadCounters B s) := by
  have hbad : groupId < 0 ∨ (gs.numberOfActiveGroups : Int) ≤ groupId := by
    unfold PerfmonGroupSet.Valid at h
    omega
  unfold perfmonStartGroupCounters perfmonStartCounters perfmonStopGroupCounters
    perfmonStopCounters groupArgument
  simp only [Prog.bind_of_done (requireInit_some hgs)]
  rcases Int.lt_or_le gs.activeGroup 0 with hneg | hpos
  · rw [if_neg (by omega), Prog.when_of_pos hneg]
    exact ⟨rfl, rfl, fun h => absurd h (by omega)⟩
  · rw [if_pos ⟨hbad, hpos⟩, Prog.when_of_neg (by omega)]
    refine ⟨rfl, rfl, fun _ => ?_⟩
    unfold perfmonReadGroupCounters perfmonReadCounters perfmonReadCountersOf
    rw [Prog.bind_of_done (requireInit_some hgs), Prog.bind_of_done (requireInit_some hgs),
      if_pos ⟨hbad, hpos⟩, if_pos ⟨Or.inl (by decide), hpos⟩]

/-! ## A group that is there -/

theorem stopOn_refused {groupId : Int} (h0 : 0 ≤ groupId)
    (hes : s.group? groupId.toNat = some es) :
    stopOn M B groupId s = .ret (-einval) s ↔ es.state ≠ .start := by
  unfold stopOn
  rw [Prog.bind_of_done (groupAt_some h0 hes)]
  dsimp only
  by_cases hstate : es.state = .start
  · rw [Prog.when_of_neg (not_not.mpr hstate)]
    refine ⟨fun h => ?_, fun h => absurd hstate h⟩
    -- the stamp taken at the top of a stop shows
    have hstop := Prog.wp_returned (perfmonStopCountersOf_control (M := M) (B := B) groupId s) h
    have hstamps : s.stamps = s.stamps + 1 := congrArg Control.stamps hstop.2.2
    omega
  · rw [Prog.when_of_pos hstate]
    exact ⟨fun _ => hstate, fun _ => Prog.bind_of_ret rfl⟩

theorem startOn_refused {groupId : Int} (hgs : s.groupSet = some gs) (h0 : 0 ≤ groupId)
    (hes : s.group? groupId.toNat = some es) :
    perfmonStartCountersOf M B groupId s = .ret (-einval) s ↔
      es.state ≠ .setup ∨ SilentlyRefused B s gs groupId.toNat := by
  unfold perfmonStartCountersOf
  rw [Prog.bind_of_done (theGroupSet_some hgs), Prog.bind_of_done (groupAt_some h0 hes)]
  dsimp only
  by_cases hstate : es.state = .setup
  · rw [Prog.when_of_neg (not_not.mpr hstate)]
    show ((startThreads B gs groupId.toNat >>= fun _ => _) : PerfmonProg Unit) s = _ ↔ _
    have hnot : ¬es.state ≠ .setup := not_not.mpr hstate
    simp only [hnot, false_or, SilentlyRefused]
    cases hloop : startThreads B gs groupId.toNat s with
    | done _ s1 =>
        rw [Prog.bind_of_done hloop]
        constructor
        · intro h
          cases h
        · intro h
          cases h
    | ret r s1 => rw [Prog.bind_of_ret hloop]
    | halt k => rw [Prog.bind_of_halt hloop]
  · rw [Prog.when_of_pos hstate]
    exact ⟨fun _ => Or.inl hstate, fun _ => Prog.bind_of_ret rfl⟩

theorem actsOnGroup_valid_iff (hgs : s.groupSet = some gs) (hc : gs.Consistent) {groupId : Int}
    (h : gs.Valid groupId) :
    ActsOnGroup M B s gs groupId ↔
      ¬s.control.InState groupId.toNat .start ∧ ¬Startable B s gs groupId.toNat := by
  obtain ⟨h0, hlt⟩ := h
  have hexists : groupId.toNat < gs.groups.length := by
    have := hc.length
    have := hc.added
    omega
  obtain ⟨es, hes⟩ : ∃ es, s.group? groupId.toNat = some es :=
    ⟨gs.groups[groupId.toNat], by simp [Perfmon.group?, hgs, hexists]⟩
  have hstate : ∀ state, s.control.InState groupId.toNat state ↔ es.state = state := fun state =>
    ⟨fun h => (control_inState hes).unique h, fun h => h ▸ control_inState hes⟩
  have hvalid : gs.Valid groupId := ⟨h0, hlt⟩
  have hstart := startGroupCounters_valid (M := M) (B := B) hgs hvalid
  have hstop := stopGroupCounters_valid (M := M) (B := B) hgs hvalid
  have hread := readGroupCounters_valid (B := B) hgs hvalid
  unfold Startable
  rw [hstate, hstate]
  constructor
  · intro h
    obtain ⟨h1, h2, -⟩ := h.valid hvalid
    rw [hstart] at h1
    rw [hstop] at h2
    refine ⟨(stopOn_refused h0 hes).mp h2.symm, fun hsetup => ?_⟩
    rcases (startOn_refused hgs h0 hes).mp h1.symm with hne | hsilent
    · exact hne hsetup.1
    · exact hsetup.2 hsilent
  · rintro ⟨hrun, hsetup⟩
    have h1 : perfmonStartCountersOf M B groupId s = .ret (-einval) s := by
      refine (startOn_refused hgs h0 hes).mpr ?_
      by_cases h : es.state = .setup
      · exact Or.inr (not_not.mp fun hloud => hsetup ⟨h, hloud⟩)
      · exact Or.inl h
    have h2 : stopOn M B groupId s = .ret (-einval) s := (stopOn_refused h0 hes).mpr hrun
    refine ⟨fun _ => ⟨hstart.trans h1.symm, hstop.trans h2.symm, hread⟩,
      fun h => absurd hvalid h, fun ha => ?_⟩
    subst ha
    have hpos : ¬gs.activeGroup < 0 := by omega
    refine ⟨?_, ?_, ?_⟩
    · rw [hstart, ← h1]
      unfold perfmonStartCounters
      rw [Prog.bind_of_done (requireInit_some hgs), Prog.when_of_neg hpos]
      rfl
    · rw [hstop, ← h2]
      unfold perfmonStopCounters
      rw [Prog.bind_of_done (requireInit_some hgs), Prog.when_of_neg hpos]
      rfl
    · rw [hread]
      unfold perfmonReadCounters perfmonReadCountersOf readOn
      rw [Prog.bind_of_done (requireInit_some hgs), Prog.bind_of_done (theGroupSet_some hgs),
        if_pos ⟨Or.inl (by decide), h0⟩]
      rfl

theorem actsOnGroup_of_not_valid (hgs : s.groupSet = some gs) (hc : gs.Consistent) {groupId : Int}
    (h : ¬gs.Valid groupId) : ActsOnGroup M B s gs groupId := by
  obtain ⟨h1, h2, h3⟩ := groupCounters_otherwise (M := M) (B := B) hgs h
  refine ⟨fun hv => absurd hv h, fun _ => ⟨h1, h2, h3⟩, fun ha => ⟨h1, h2, ?_⟩⟩
  subst ha
  rcases hc.active with hneg | hadded
  · unfold perfmonReadGroupCounters perfmonReadCounters
    rw [hneg]
  · exact absurd hadded h

/-- **In every reachable state, the three functions act on the group they are
given if and only if it is not one that runs or can be started.** -/
theorem actsOnGroup_iff {s0 : Perfmon} (h0 : Booted s0)
    (hrun : Run (Step M B) (fun _ _ => True) s0 s) (hgs : s.groupSet = some gs) (groupId : Int) :
    ActsOnGroup M B s gs groupId ↔
      ¬(gs.Valid groupId ∧
        (s.control.InState groupId.toNat .start ∨ Startable B s gs groupId.toNat)) := by
  have hc : gs.Consistent :=
    consistent_of_control (consistent_of_run h0 hrun gs.control (control_groupSet hgs))
  by_cases h : gs.Valid groupId
  · rw [actsOnGroup_valid_iff hgs hc h]
    simp [h]
  · simp [h, actsOnGroup_of_not_valid hgs hc h]

/-- The first of two groups is set up. -/
def firstSetUp : Perfmon :=
  (Perfmon.after haswellMachine (haswell haswellMachine)
    [.init [0], .addEventSet "INSTR_RETIRED_ANY:FIXC0".toList 0,
      .addEventSet "CPU_CLK_UNHALTED_CORE:FIXC1".toList 0, .setupCounters 0] Perfmon.boot).get
    (by decide +kernel)

theorem run_firstSetUp :
    Run (Step haswellMachine (haswell haswellMachine)) (fun _ _ => True) Perfmon.boot
      firstSetUp :=
  Run.of_afterIf (Option.some_get _).symm

theorem isSome_firstSetUp : firstSetUp.groupSet.isSome = true := by decide +kernel

theorem actsOnGroup_iff_one :
    let gs := firstSetUp.groupSet.get isSome_firstSetUp
    ActsOnGroup haswellMachine (haswell haswellMachine) firstSetUp gs 1 ↔
      ¬(gs.Valid 1 ∧ (firstSetUp.control.InState 1 .start ∨
        Startable (haswell haswellMachine) firstSetUp gs 1)) :=
  actsOnGroup_iff booted_boot run_firstSetUp (Option.some_get _).symm 1

/-- Group 0 is set up, and `perfmon_startGroupCounters(0)` refuses to start it. -/
theorem not_actsOnGroup_zero :
    ∃ s gs, Run (Step haswellMachine (haswell haswellMachine)) (fun _ _ => True) Perfmon.boot s ∧
      s.groupSet = some gs ∧ ¬ActsOnGroup haswellMachine (haswell haswellMachine) s gs 0 := by
  let gs := firstSetUp.groupSet.get (by decide +kernel)
  have hvalid : gs.Valid 0 := by decide +kernel
  have hvariant : (returns (perfmonStartGroupCounters haswellMachine (haswell haswellMachine) 0)
      firstSetUp).map Prod.fst = some (-22) := by decide +kernel
  have hgroup : (returns (perfmonStartCountersOf haswellMachine (haswell haswellMachine) 0)
      firstSetUp).map Prod.fst = some 0 := by decide +kernel
  refine ⟨firstSetUp, gs, run_firstSetUp, (Option.some_get _).symm, fun h => ?_⟩
  have hsame := (h.valid hvalid).1
  unfold returns at hvariant hgroup
  rw [hsame, hgroup] at hvariant
  cases hvariant

end Likwid
