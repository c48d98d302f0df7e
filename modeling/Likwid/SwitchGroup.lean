import Likwid.ActiveGroup

/-!
# Switching to a group that does not exist

`perfmon_switchActiveGroup` stops the old group before `perfmon_setupCounters`
looks at the number of the new one. `rejectsSwitch_iff` says in which states a
switch to an unknown group returns an error and changes nothing.
-/

namespace Likwid

variable {M : Machine} {B : Backend} {s s' : Perfmon} {g : ℕ}

/-! ## What a rejected switch may not change -/

/-- The state, the run time and the counter records of a group. -/
def PerfmonEventSet.measured (es : PerfmonEventSet) :
    GroupState × ℚ × List (Option (ℕ → PerfmonCounter)) :=
  (es.state, es.runTime, es.events.map (Option.map PerfmonEventSetEntry.threadCounter))

/-- The active group and the measurements of all groups. -/
def Perfmon.measured (s : Perfmon) :
    Option (Int × List (GroupState × ℚ × List (Option (ℕ → PerfmonCounter)))) :=
  s.groupSet.map fun gs => (gs.activeGroup, gs.groups.map PerfmonEventSet.measured)

/-- A switch to `newGroup` returns an error and leaves everything as it was, the
registers of the counters that run included. -/
def RejectsSwitch (M : Machine) (B : Backend) (s : Perfmon) (newGroup : Int) : Prop :=
  ∃ r s', returns (perfmonSwitchActiveGroup M B newGroup) s = some (r, s') ∧ r ≠ 0 ∧
    s'.measured = s.measured ∧ s'.core.regs = s.core.regs

theorem measured_group {es : PerfmonEventSet} (h : s'.measured = s.measured)
    (hes : s.group? g = some es) :
    ∃ es', s'.group? g = some es' ∧ es'.measured = es.measured := by
  obtain ⟨gs, hgs, hes⟩ := Option.bind_eq_some_iff.mp hes
  simp only [Perfmon.measured, hgs, Option.map_some] at h
  obtain ⟨gs', hgs', hpair⟩ := Option.map_eq_some_iff.mp h
  have hgroups := congrArg (fun p => p.2[g]?) hpair
  simp only [List.getElem?_map, hes, Option.map_some] at hgroups
  obtain ⟨es', hes', heq⟩ := Option.map_eq_some_iff.mp hgroups
  exact ⟨es', by simp [Perfmon.group?, hgs', hes'], heq⟩

/-- A change of one group shows in the measurements of that group. -/
theorem measured_modifyGroup_iff {es : PerfmonEventSet} {f : PerfmonEventSet → PerfmonEventSet}
    (hes : s.group? g = some es) :
    (s.modifyGroup g f).measured = s.measured ↔ (f es).measured = es.measured := by
  obtain ⟨gs, hgs, hes'⟩ := Option.bind_eq_some_iff.mp hes
  have hgroup : (s.modifyGroup g f).group? g = some (f es) := by
    simp [Perfmon.group?, Perfmon.modifyGroup, Perfmon.modifyGroupSet, hgs, hes']
  constructor
  · intro h
    obtain ⟨es', hes', heq⟩ := measured_group h.symm hgroup
    rw [← heq, Option.some.inj (hes'.symm.trans hes)]
  · intro h
    simp only [Perfmon.measured, Perfmon.modifyGroup, Perfmon.modifyGroupSet, hgs, Option.map_some,
      Option.some.injEq, Prod.mk.injEq, true_and]
    refine List.ext_getElem? fun i => ?_
    simp only [List.getElem?_map, List.getElem?_modify]
    cases hi : gs.groups[i]? with
    | none => rfl
    | some ei =>
        by_cases hgi : g = i
        · subst hgi
          obtain rfl : es = ei := Option.some.inj (hes'.symm.trans hi)
          simp [h]
        · simp [hgi]

/-! ## Leaving the old group -/

/-- What `clearInit` makes of the first `n` slots, if they are all initialised. -/
def clearSlots (threadId : ℕ) : ℕ → List Slot → Option (List Slot)
  | 0, slots => some slots
  | n + 1, some e :: slots =>
      (clearSlots threadId n slots).map (some (e.setInit threadId false) :: ·)
  | _, _ => none

theorem forCells_clearInit (threadId : ℕ) (c : Core) :
    ∀ (n : ℕ) (slots : List Slot),
      Prog.forCells (clearInit threadId) n () (c, slots) =
        match clearSlots threadId n slots with
        | some slots' => .done () (c, slots')
        | none => .halt .outOfBounds
  | 0, _ => rfl
  | _ + 1, [] => rfl
  | _ + 1, none :: _ => rfl
  | n + 1, some e :: slots => by
      have ih := forCells_clearInit threadId c n slots
      have hhead : Prog.head (clearInit threadId ()) (c, some e :: slots) =
          .done () (c, some (e.setInit threadId false) :: slots) := rfl
      rw [Prog.forCells, Prog.bind_of_done hhead]
      simp only [Prog.tail, ih, clearSlots]
      cases clearSlots threadId n slots <;> rfl

/-- Clearing the flags of a thread changes no record exactly when they are all
cleared already. -/
theorem clearSlots_records_iff (threadId : ℕ) :
    ∀ (n : ℕ) (slots : List Slot),
      (∃ slots', clearSlots threadId n slots = some slots' ∧
        slots'.map (Option.map PerfmonEventSetEntry.threadCounter) =
          slots.map (Option.map PerfmonEventSetEntry.threadCounter)) ↔
        ∀ i < n, ∃ e, slots[i]? = some (some e) ∧ (e.threadCounter threadId).init = false
  | 0, slots => by simp [clearSlots]
  | n + 1, [] => by
      simp only [clearSlots]
      constructor
      · rintro ⟨_, h, -⟩
        cases h
      · intro h
        obtain ⟨e, he, -⟩ := h 0 (Nat.succ_pos n)
        simp at he
  | n + 1, none :: slots => by
      simp only [clearSlots]
      constructor
      · rintro ⟨_, h, -⟩
        cases h
      · intro h
        obtain ⟨e, he, -⟩ := h 0 (Nat.succ_pos n)
        simp at he
  | n + 1, some e :: slots => by
      have ih := clearSlots_records_iff threadId n slots
      have hsame : (e.setInit threadId false).threadCounter = e.threadCounter ↔
          (e.threadCounter threadId).init = false := by
        constructor
        · intro h
          rw [← h]
          simp [PerfmonEventSetEntry.setInit]
        · intro h
          funext t
          by_cases ht : t = threadId
          · subst ht
            simp [PerfmonEventSetEntry.setInit, ← h]
          · exact PerfmonEventSetEntry.onCounter_of_ne _ _ _ ht
      constructor
      · rintro ⟨slots', hclear, hrec⟩ i hi
        obtain ⟨rest, hrest, rfl⟩ := Option.map_eq_some_iff.mp hclear
        simp only [List.map_cons, List.cons.injEq, Option.map_some, Option.some.injEq] at hrec
        cases i with
        | zero => exact ⟨e, rfl, hsame.mp hrec.1⟩
        | succ i => simpa using ih.mp ⟨rest, hrest, hrec.2⟩ i (by omega)
      · intro h
        obtain ⟨rest, hrest, hrec⟩ := ih.mpr fun i hi => by simpa using h (i + 1) (by omega)
        obtain ⟨e', he', hinit⟩ := h 0 (Nat.succ_pos n)
        obtain rfl : e = e' := by simpa using he'
        refine ⟨some (e.setInit threadId false) :: rest, by simp [clearSlots, hrest], ?_⟩
        simp [hrec, hsame.mpr hinit]

theorem frame_leave (a : ℕ) : (s.leave M a).control.frame = s.control.frame := by
  rw [control_leave]
  exact (Control.frame_modifyGroup _ _ _).trans (Control.frame_modifyGroup s.control _ _)

theorem frame_stopCounters :
    (perfmonStopCounters M B).wp (fun _ s' => s'.control.frame = s.control.frame)
      (fun _ s' => s'.control.frame = s.control.frame) s := by
  refine Prog.wp_mono (perfmonStopCounters_control s) (fun _ s1 h => ?_) fun _ s1 h => ?_
  · obtain ⟨a, -, -, interval, -, -, hk⟩ := h
    rw [hk]
    exact (Control.frame_modifyGroup _ _ _).trans ((Control.frame_modifyGroup _ _ _).trans
      (Control.frame_modifyGroup s.control _ _))
  · rcases h.2 with hk | ⟨a, -, -, hk⟩
    · rw [hk]
    · rw [hk]
      exact Control.frame_modifyGroup s.control _ _

/-! ## A group number beyond the last one -/

section Unknown

variable {newGroup : Int} {gs : PerfmonGroupSet} {es : PerfmonEventSet}

theorem perfmonSetupCounters_unknown (hgs : s.groupSet = some gs)
    (hge : gs.numberOfActiveGroups ≤ newGroup) :
    perfmonSetupCounters M B newGroup s = .ret (-enoent) s := by
  unfold perfmonSetupCounters
  rw [Prog.bind_of_done (requireInit_some hgs), Prog.when_of_pos hge]
  exact Prog.bind_of_ret rfl

theorem switch_unknown (hgs : s.groupSet = some gs) (hge : gs.numberOfActiveGroups ≤ newGroup)
    (rest : PerfmonProg Unit) :
    returns (do
      let ret ← Prog.call 0 (perfmonSetupCounters M B newGroup)
      Prog.when (ret ≠ 0) (Prog.ret ret)
      rest) s = some (-enoent, s) := by
  have hcall := Prog.call_of_ret (ρ := Int) (z := 0)
    (perfmonSetupCounters_unknown (M := M) (B := B) hgs hge)
  have hret : (Prog.ret (-enoent) : PerfmonProg Unit) s = .ret (-enoent) s := rfl
  unfold returns
  rw [Prog.bind_of_done hcall, Prog.when_of_pos (by decide), Prog.bind_of_ret hret]

/-- The state a switch has reached when it turns to the new group. -/
def switchLeft (M : Machine) (B : Backend) (s : Perfmon) (threadId a : ℕ)
    (es : PerfmonEventSet) : Option Perfmon :=
  match es.state with
  | .none => some (s.leave M a)
  | .setup => (clearSlots threadId es.numberOfEvents es.events).map fun slots =>
      (s.leave M a).putSlots a (s.core, slots)
  | .start => (returns (perfmonStopCounters M B) (s.leave M a)).map Prod.snd

theorem group?_modifyGroup (s : Perfmon) (g : ℕ) (f : PerfmonEventSet → PerfmonEventSet) :
    (s.modifyGroup g f).group? g = (s.group? g).map f := by
  unfold Perfmon.group? Perfmon.modifyGroup Perfmon.modifyGroupSet
  cases s.groupSet with
  | none => rfl
  | some gs => simp

theorem group?_leave {a : ℕ} (hes : s.group? a = some es) :
    (s.leave M a).group? a =
      some ({ es with timer := { es.timer with stop := M.tsc s.stamps } }.addRunTime M) := by
  have hes' : ({ s with stamps := s.stamps + 1 } : Perfmon).group? a = some es := hes
  unfold Perfmon.leave Perfmon.stopTimer
  rw [group?_modifyGroup, group?_modifyGroup, hes']
  rfl

section OnSlots

variable {ρ α : Type} {m : Prog ρ (Core × List Slot) α}

theorem onSlots_of_done {a : α} {p : Core × List Slot} (hes : s.group? g = some es)
    (h : m (s.core, es.events) = .done a p) : onSlots g m s = .done a (s.putSlots g p) := by
  refine Prog.zoom_of_done (t := p) ?_
  show m (s.core, ((s.group? g).map PerfmonEventSet.events).getD []) = _
  rw [hes]
  exact h

theorem onSlots_of_halt {k : Prog.Halt} (hes : s.group? g = some es)
    (h : m (s.core, es.events) = .halt k) : onSlots g m s = .halt k := by
  refine Prog.zoom_of_halt ?_
  show m (s.core, ((s.group? g).map PerfmonEventSet.events).getD []) = _
  rw [hes]
  exact h

end OnSlots

/-- A thread's switch to an unknown group leaves the old group and returns the
error of the set-up. -/
theorem perfmonSwitchActiveGroupThread_unknown (threadId : ℕ) (hgs : s.groupSet = some gs)
    (hge : gs.numberOfActiveGroups ≤ newGroup) (h0 : 0 ≤ gs.activeGroup)
    (hes : s.group? gs.activeGroup.toNat = some es) :
    returns (perfmonSwitchActiveGroupThread M B threadId newGroup) s =
      (switchLeft M B s threadId gs.activeGroup.toNat es).map fun s' => (-enoent, s') := by
  have hunknown : ∀ {s1 : Perfmon},
      s1.control.frame = (s.leave M gs.activeGroup.toNat).control.frame →
      ∀ rest, returns (do
        let ret ← Prog.call 0 (perfmonSetupCounters M B newGroup)
        Prog.when (ret ≠ 0) (Prog.ret ret)
        rest) s1 = some (-enoent, s1) := by
    intro s1 h1 rest
    obtain ⟨gs1, hgs1, hcount, -⟩ := groupSet_of_frame (h1.trans (frame_leave _)) hgs
    exact switch_unknown hgs1 (hcount ▸ hge) rest
  have hreturns : ∀ {α : Type} {m : PerfmonProg α} {f : α → PerfmonProg Unit} {s1 s2 : Perfmon}
      {x : α}, m s1 = .done x s2 → returns (m >>= f) s1 = returns (f x) s2 := by
    intro α m f s1 s2 x h
    unfold returns
    rw [Prog.bind_of_done h]
  have hhalts : ∀ {α : Type} {m : PerfmonProg α} {f : α → PerfmonProg Unit} {s1 : Perfmon}
      {x : Prog.Halt}, m s1 = .halt x → returns (m >>= f) s1 = none := by
    intro α m f s1 x h
    unfold returns
    rw [Prog.bind_of_halt h]
  have htimer : (timerStop M gs.activeGroup.toNat : PerfmonProg Unit) s =
      .done () (s.stopTimer M gs.activeGroup.toNat) := rfl
  have hadd : (Prog.modify (·.modifyGroup gs.activeGroup.toNat (PerfmonEventSet.addRunTime M)) :
      PerfmonProg Unit) (s.stopTimer M gs.activeGroup.toNat) =
      .done () (s.leave M gs.activeGroup.toNat) := rfl
  have hskip : ∀ s1 : Perfmon, (pure () : PerfmonProg Unit) s1 = .done () s1 := fun _ => rfl
  unfold perfmonSwitchActiveGroupThread
  rw [hreturns (requireInit_some hgs), hreturns (groupAt_some h0 hes)]
  dsimp only
  rw [hreturns htimer, hreturns hadd]
  unfold switchLeft
  cases hstate : es.state with
  | none =>
      rw [Prog.when_of_neg (by decide), hreturns (hskip _), Prog.when_of_neg (by decide),
        hreturns (hskip _), hunknown rfl]
      rfl
  | setup =>
      rw [Prog.when_of_neg (by decide), hreturns (hskip _), Prog.when_of_pos rfl]
      have hslots := forCells_clearInit threadId s.core es.numberOfEvents es.events
      cases hclear : clearSlots threadId es.numberOfEvents es.events with
      | none =>
          rw [hclear] at hslots
          rw [hhalts (onSlots_of_halt (group?_leave hes) hslots)]
          rfl
      | some slots =>
          rw [hclear] at hslots
          rw [hreturns (onSlots_of_done (group?_leave hes) hslots),
            hunknown (by rw [control_putSlots])]
          rfl
  | start =>
      rw [Prog.when_of_pos rfl]
      have hstopped := frame_stopCounters (M := M) (B := B) (s := s.leave M gs.activeGroup.toNat)
      cases hstop : perfmonStopCounters M B (s.leave M gs.activeGroup.toNat) with
      | done u s1 =>
          have hframe := Prog.wp_done hstopped hstop
          have hleft : (do
              let _ ← Prog.call (0 : Int) (perfmonStopCounters M B)
              pure () : PerfmonProg Unit) (s.leave M gs.activeGroup.toNat) = .done () s1 :=
            Prog.bind_of_done (Prog.call_of_done hstop)
          rw [hreturns hleft, Prog.when_of_neg (by decide), hreturns (hskip _),
            hunknown hframe]
          simp [returns, hstop]
      | ret r s1 =>
          have hframe := Prog.wp_returned hstopped hstop
          have hleft : (do
              let _ ← Prog.call (0 : Int) (perfmonStopCounters M B)
              pure () : PerfmonProg Unit) (s.leave M gs.activeGroup.toNat) = .done () s1 :=
            Prog.bind_of_done (Prog.call_of_ret hstop)
          rw [hreturns hleft, Prog.when_of_neg (by decide), hreturns (hskip _),
            hunknown hframe]
          simp [returns, hstop]
      | halt k =>
          have hleft : (do
              let _ ← Prog.call (0 : Int) (perfmonStopCounters M B)
              pure () : PerfmonProg Unit) (s.leave M gs.activeGroup.toNat) = .halt k :=
            Prog.bind_of_halt (Prog.call_of_halt hstop)
          rw [hhalts hleft]
          simp [returns, hstop]

theorem eq_ret_of_returns {m : PerfmonProg Unit} {r : Int} (hr : r ≠ 0)
    (h : returns m s = some (r, s')) : m s = .ret r s' := by
  unfold returns at h
  cases hm : m s with
  | done u s1 =>
      simp only [hm, Option.some.injEq, Prod.mk.injEq] at h
      exact absurd h.1.symm hr
  | ret r1 s1 =>
      simp only [hm, Option.some.injEq, Prod.mk.injEq] at h
      obtain ⟨rfl, rfl⟩ := h
      rfl
  | halt k => simp [hm] at h

theorem halts_of_returns {m : PerfmonProg Unit} (h : returns m s = none) :
    ∃ k, m s = .halt k := by
  unfold returns at h
  cases hm : m s with
  | done u s1 => simp [hm] at h
  | ret r1 s1 => simp [hm] at h
  | halt k => exact ⟨k, rfl⟩

/-- The first thread's error ends the loop over the threads. -/
theorem perfmonSwitchActiveGroup_unknown {th : PerfmonThread} {rest : List PerfmonThread}
    (hgs : s.groupSet = some gs) (hth : gs.threads = th :: rest)
    (hge : gs.numberOfActiveGroups ≤ newGroup) (h0 : 0 ≤ gs.activeGroup)
    (hes : s.group? gs.activeGroup.toNat = some es) :
    returns (perfmonSwitchActiveGroup M B newGroup) s =
      (switchLeft M B s th.threadId gs.activeGroup.toNat es).map fun s' => (-enoent, s') := by
  have hthread := perfmonSwitchActiveGroupThread_unknown (M := M) (B := B)
    th.threadId hgs hge h0 hes
  have hset : (theGroupSet : PerfmonProg PerfmonGroupSet) s = .done gs s := theGroupSet_some hgs
  unfold perfmonSwitchActiveGroup
  unfold returns
  rw [Prog.bind_of_done hset, hth, List.foldlM_cons]
  cases hleft : switchLeft M B s th.threadId gs.activeGroup.toNat es with
  | none =>
      rw [hleft] at hthread
      obtain ⟨k, hk⟩ := halts_of_returns hthread
      rw [Prog.bind_of_halt (Prog.bind_of_halt (Prog.call_of_halt hk))]
      rfl
  | some s1 =>
      rw [hleft] at hthread
      have hret := eq_ret_of_returns (by decide) hthread
      have herror : (Prog.ret (-enoent) : PerfmonProg Unit) s1 = .ret (-enoent) s1 := rfl
      have hfirst : (do
          let ret ← Prog.call 0 (perfmonSwitchActiveGroupThread M B th.threadId newGroup)
          Prog.when (ret ≠ 0) (Prog.ret ret) : PerfmonProg Unit) s = .ret (-enoent) s1 := by
        rw [Prog.bind_of_done (Prog.call_of_ret hret), Prog.when_of_pos (by decide), herror]
      rw [Prog.bind_of_ret hfirst]
      rfl

end Unknown

/-! ## Other group numbers and states -/

/-- A negative group number passes the check of the set-up, and the thread
routine reads `groups[groupId]`. -/
theorem perfmonSetupCounters_negative {newGroup : Int} (hneg : newGroup < 0)
    {gs : PerfmonGroupSet} (hgs : s.groupSet = some gs) (hth : gs.threads ≠ []) :
    (perfmonSetupCounters M B newGroup).wp (fun _ _ => False) (fun _ _ => False) s := by
  unfold perfmonSetupCounters
  simp only [Prog.wp_bind, wp_requireInit, Prog.wp_when, Prog.wp_ret]
  refine ⟨fun gs' hgs' => ?_, fun hnone => by simp [hgs] at hnone⟩
  obtain rfl : gs = gs' := Option.some.inj (hgs.symm.trans hgs')
  refine ⟨fun hge => by omega, fun _ => ?_⟩
  obtain ⟨th, rest, hcons⟩ := List.exists_cons_of_ne_nil hth
  rw [hcons, List.foldlM_cons]
  simp only [Prog.wp_bind, Prog.wp_call, perfmonSetupCountersThread, wp_theGroupSet, wp_groupAt,
    Prog.wp_when, Prog.wp_ret]
  intro gs2 hgs2
  obtain rfl : gs = gs2 := Option.some.inj (hgs.symm.trans hgs2)
  exact ⟨fun hge => by omega, fun _ h0 => by omega⟩

/-- With a negative number no thread comes through its switch. -/
theorem switch_negative {threadId : ℕ} {newGroup : Int} (hneg : newGroup < 0)
    {gs : PerfmonGroupSet} (hgs : s.groupSet = some gs) (hth : gs.threads ≠ []) :
    (perfmonSwitchActiveGroupThread M B threadId newGroup).wp (fun _ _ => False)
      (fun _ _ => False) s := by
  unfold perfmonSwitchActiveGroupThread
  rw [Prog.wp_bind, wp_requireInit]
  refine ⟨fun gs' hgs' => ?_, fun hnone => by simp [hgs] at hnone⟩
  obtain rfl : gs = gs' := Option.some.inj (hgs.symm.trans hgs')
  rw [Prog.wp_bind, wp_groupAt]
  intro h0 es hes
  dsimp only
  rw [Prog.wp_bind, wp_timerStop, Prog.wp_bind, Prog.wp_modify]
  show Prog.wp _ _ _ (s.leave M gs.activeGroup.toNat)
  -- neither the stop nor the loop over the flags touches the threads
  rw [Prog.wp_bind]
  refine Prog.wp_mono (?_ : Prog.wp _ (fun _ (s1 : Perfmon) => s1.control.frame = s.control.frame)
    (fun _ _ => False) _) (fun _ s1 h1 => ?_) fun _ _ h => h
  · rw [Prog.wp_when, Prog.wp_bind, Prog.wp_call]
    refine ⟨fun _ => ?_, fun _ => frame_leave _⟩
    exact Prog.wp_mono frame_stopCounters (fun _ _ h => h.trans (frame_leave _))
      fun _ _ h => h.trans (frame_leave _)
  rw [Prog.wp_bind]
  refine Prog.wp_mono (?_ : Prog.wp _ (fun _ (s2 : Perfmon) => s2.control.frame = s.control.frame)
    (fun _ _ => False) _) (fun _ s2 h2 => ?_) fun _ _ h => h
  · rw [Prog.wp_when]
    refine ⟨fun _ => ?_, fun _ => h1⟩
    exact Prog.wp_mono (clearInit_control _ _ _ s1)
      (fun _ _ h => (congrArg Control.frame h).trans h1) fun _ _ h => h
  obtain ⟨gs2, hgs2, -, hth2⟩ := groupSet_of_frame h2 hgs
  rw [Prog.wp_bind, Prog.wp_call]
  exact Prog.wp_mono (perfmonSetupCounters_negative hneg hgs2 (hth2 ▸ hth))
    (fun _ _ h => h.elim) fun _ _ h => h.elim

/-- A switch that returns an error was issued with threads, an active group and
a number beyond the last group. -/
theorem perfmonSwitchActiveGroup_needs {newGroup : Int} (hg : ¬s.control.Added newGroup) :
    (perfmonSwitchActiveGroup M B newGroup).wp (fun _ _ => True)
      (fun _ _ => ∃ gs th rest es, s.groupSet = some gs ∧ gs.threads = th :: rest ∧
        gs.numberOfActiveGroups ≤ newGroup ∧ 0 ≤ gs.activeGroup ∧
        s.group? gs.activeGroup.toNat = some es) s := by
  unfold perfmonSwitchActiveGroup
  rw [Prog.wp_bind, wp_theGroupSet]
  intro gs hgs
  cases hth : gs.threads with
  | nil => trivial
  | cons th rest =>
      have hthread : (perfmonSwitchActiveGroupThread M B th.threadId newGroup).wp
          (fun _ _ => ∃ es, gs.numberOfActiveGroups ≤ newGroup ∧ 0 ≤ gs.activeGroup ∧
            s.group? gs.activeGroup.toNat = some es)
          (fun _ _ => ∃ es, gs.numberOfActiveGroups ≤ newGroup ∧ 0 ≤ gs.activeGroup ∧
            s.group? gs.activeGroup.toNat = some es) s := by
        rcases Int.lt_or_le newGroup 0 with hneg | hnonneg
        · exact Prog.wp_mono (switch_negative hneg hgs (by simp [hth])) (fun _ _ h => h.elim)
            fun _ _ h => h.elim
        have hge : gs.numberOfActiveGroups ≤ newGroup := by
          by_contra hlt
          exact hg (control_added hgs hnonneg (Int.not_le.mp hlt))
        unfold perfmonSwitchActiveGroupThread
        rw [Prog.wp_bind, wp_requireInit]
        refine ⟨fun gs' hgs' => ?_, fun hnone => by simp [hgs] at hnone⟩
        obtain rfl : gs = gs' := Option.some.inj (hgs.symm.trans hgs')
        rw [Prog.wp_bind, wp_groupAt]
        intro h0 es hes
        exact Prog.wp_mono (Prog.wp_trivial _) (fun _ _ _ => ⟨es, hge, h0, hes⟩)
          fun _ _ _ => ⟨es, hge, h0, hes⟩
      rw [List.foldlM_cons]
      simp only [Prog.wp_bind, Prog.wp_call, Prog.wp_when, Prog.wp_ret]
      refine Prog.wp_mono hthread (fun _ s1 h => ?_) fun r s1 h => ?_
      · obtain ⟨es, h1, h2, h3⟩ := h
        exact ⟨fun _ => ⟨gs, th, rest, es, hgs, hth, h1, h2, h3⟩, fun _ =>
          Prog.wp_mono (Prog.wp_trivial _) (fun _ _ _ => trivial)
            fun _ _ _ => ⟨gs, th, rest, es, hgs, hth, h1, h2, h3⟩⟩
      · obtain ⟨es, h1, h2, h3⟩ := h
        exact ⟨fun _ => ⟨gs, th, rest, es, hgs, hth, h1, h2, h3⟩, fun _ =>
          Prog.wp_mono (Prog.wp_trivial _) (fun _ _ _ => trivial)
            fun _ _ _ => ⟨gs, th, rest, es, hgs, hth, h1, h2, h3⟩⟩

/-! ## The stop of the running group -/

/-- The stop routines of the architecture, on the slots of a group and for one thread
after the other, up to the first that fails. -/
def stopThreads (B : Backend) (threads : List PerfmonThread) (es : PerfmonEventSet) :
    Prog Int (Core × List Slot) Unit :=
  threads.foldlM (fun _ th => do
    let thread ← Prog.orOutOfBounds threads[th.threadId]?
    let ret ← Prog.call 0
      (B.stopCountersThread th.threadId thread.processorId es.regTypeMask es.numberOfEvents)
    Prog.when (ret ≠ 0) (Prog.ret (-(th.threadId : Int) - 1))) ()

section Stop

variable {gs : PerfmonGroupSet} {es : PerfmonEventSet} {a : ℕ}

theorem group?_putSlots_same (hes : s.group? a = some es) (q : Core × List Slot) :
    (s.putSlots a q).group? a = some { es with events := q.2 } := by
  rw [group?_putSlots, hes, Option.map_some, if_pos rfl]

theorem onSlots_putSlots {ρ α : Type} {m : Prog ρ (Core × List Slot) α}
    (hes : s.group? a = some es) : Prog.Carries (s.putSlots a) (onSlots a m) m := by
  intro q
  have hslots : (((s.putSlots a q).group? a).map PerfmonEventSet.events).getD [] = q.2 := by
    rw [group?_putSlots_same hes]
    rfl
  show (m ((s.putSlots a q).core, _)).onState (fun p => (s.putSlots a q).putSlots a p) = _
  rw [hslots]
  exact congrArg (fun f => Prog.Outcome.onState f (m q)) (funext (putSlots_putSlots a q))

/-- A thread routine sees the slots of its group. -/
theorem callThread_carries (r : ThreadRoutine) (threadId : ℕ) (hgs : s.groupSet = some gs)
    (hes : s.group? a = some es) :
    Prog.Carries (s.putSlots a) (callThread r threadId a : PerfmonProg Int) (do
      let thread ← Prog.orOutOfBounds gs.threads[threadId]?
      Prog.call 0 (r threadId thread.processorId es.regTypeMask es.numberOfEvents)) := by
  intro q
  have hset : (theGroupSet : PerfmonProg PerfmonGroupSet) (s.putSlots a q) =
      .done { gs with groups := gs.groups.modify a fun es => { es with events := q.2 } }
        (s.putSlots a q) := by
    refine theGroupSet_some ?_
    show Option.map _ s.groupSet = _
    rw [hgs, Option.map_some]
  have hgroup : (groupAt (a : Int) : PerfmonProg _) (s.putSlots a q) =
      .done (a, { es with events := q.2 }) (s.putSlots a q) :=
    groupAt_some (Int.natCast_nonneg a) (group?_putSlots_same hes q)
  unfold callThread
  rw [Prog.bind_of_done hset]
  cases hth : gs.threads[threadId]? with
  | none => rfl
  | some thread =>
      rw [Prog.orOutOfBounds, Prog.bind_pure_left, Prog.bind_of_done hgroup, Prog.orOutOfBounds,
        Prog.bind_pure_left]
      exact onSlots_putSlots hes q

theorem stopThreads_carries (hgs : s.groupSet = some gs) (hes : s.group? a = some es) :
    Prog.Carries (s.putSlots a)
      (gs.threads.foldlM (fun _ th => do
        let ret ← callThread B.stopCountersThread th.threadId a
        Prog.when (ret ≠ 0) (Prog.ret (-(th.threadId : Int) - 1))) () : PerfmonProg Unit)
      (stopThreads B gs.threads es) := by
  unfold stopThreads
  refine Prog.Carries.foldlM (fun _ th _ => ?_) ()
  have hcall := callThread_carries B.stopCountersThread th.threadId hgs hes
  have hbody := hcall.bind fun ret => Prog.Carries.when (c := ret ≠ 0)
      (Prog.Carries.ret (α := Unit) (-(th.threadId : Int) - 1))
  rw [Prog.bind_assoc] at hbody
  exact hbody

theorem stopTimer_groupSet (hgs : s.groupSet = some gs) (a : ℕ) :
    ∃ gs', (s.stopTimer M a).groupSet = some gs' ∧ gs'.threads = gs.threads := by
  refine ⟨{ gs with groups := gs.groups.modify a fun es =>
    { es with timer := { es.timer with stop := M.tsc s.stamps } } }, ?_, rfl⟩
  show Option.map _ s.groupSet = _
  rw [hgs, Option.map_some]

theorem group?_stopTimer (hes : s.group? a = some es) :
    (s.stopTimer M a).group? a =
      some { es with timer := { es.timer with stop := M.tsc s.stamps } } := by
  have hes' : ({ s with stamps := s.stamps + 1 } : Perfmon).group? a = some es := hes
  unfold Perfmon.stopTimer
  rw [group?_modifyGroup, hes']
  rfl

/-- A stop of a running group fails as its threads do. -/
theorem stopCounters_ret_iff (hgs : s.groupSet = some gs) (h0 : 0 ≤ gs.activeGroup)
    (hes : s.group? gs.activeGroup.toNat = some es) (hstart : es.state = .start) {r : Int} :
    perfmonStopCounters M B s = .ret r s' ↔
      ∃ p, stopThreads B gs.threads es (s.core, es.events) = .ret r p ∧
        s' = (s.stopTimer M gs.activeGroup.toNat).putSlots gs.activeGroup.toNat p := by
  obtain ⟨gs1, hgs1, hthreads⟩ := stopTimer_groupSet (M := M) hgs gs.activeGroup.toNat
  have hes1 := group?_stopTimer (M := M) hes
  have htimer : (timerStop M gs.activeGroup.toNat : PerfmonProg Unit) s =
      .done () (s.stopTimer M gs.activeGroup.toNat) := rfl
  have hloop := stopThreads_carries (B := B) hgs1 hes1 (s.core, es.events)
  have hself := putSlots_self hes1
  change (s.stopTimer M gs.activeGroup.toNat).putSlots gs.activeGroup.toNat
    (s.core, es.events) = s.stopTimer M gs.activeGroup.toNat at hself
  rw [hself, hthreads] at hloop
  have hsame : stopThreads B gs.threads
      { es with timer := { es.timer with stop := M.tsc s.stamps } } =
      stopThreads B gs.threads es := rfl
  rw [hsame] at hloop
  unfold perfmonStopCounters
  rw [Prog.bind_of_done (requireInit_some hgs), Prog.when_of_neg (by omega), Prog.bind_pure_left,
    Prog.bind_of_done (groupAt_some h0 hes)]
  dsimp only
  rw [Prog.when_of_neg (by simp [hstart]), Prog.bind_pure_left]
  unfold perfmonStopCountersOf
  rw [Prog.bind_of_done (theGroupSet_some hgs), Prog.bind_of_done (groupAt_some h0 hes)]
  dsimp only
  rw [Prog.bind_of_done htimer]
  cases hstop : stopThreads B gs.threads es (s.core, es.events) with
  | ret r1 p =>
      rw [hstop] at hloop
      rw [Prog.bind_of_ret hloop]
      constructor
      · intro hret
        obtain ⟨rfl, rfl⟩ := Prog.Outcome.ret.inj hret
        exact ⟨p, rfl, rfl⟩
      · rintro ⟨p', hp, rfl⟩
        obtain ⟨rfl, rfl⟩ := Prog.Outcome.ret.inj hp
        rfl
  | halt k =>
      rw [hstop] at hloop
      rw [Prog.bind_of_halt hloop]
      simp
  | done u p =>
      rw [hstop] at hloop
      rw [Prog.bind_of_done hloop]
      refine iff_of_false (fun hret => ?_) (by simp)
      refine Prog.wp_returned (Q := fun _ _ => True) (R := fun _ _ => False) ?_ hret
      simp only [Prog.wp_bind, wp_groupAt]
      intro _ es2 _
      refine Prog.wp_mono (accumulate_control _ _ _ _) (fun _ s3 _ => ?_) fun _ _ h => h
      simp only [setState, Prog.wp_modify]

end Stop

/-! ## When nothing changes -/

/-- The time since the last start, added to the run time, is lost in rounding
or zero. -/
def AddsNoTime (M : Machine) (s : Perfmon) (es : PerfmonEventSet) : Prop :=
  M.fl (es.runTime + timerPrint M ⟨es.timer.start, M.tsc s.stamps⟩) = es.runTime

/-- What leaving the active group does to nothing but its run time: a group that
was never set up, one whose `init` flags are already off, or a running one, where
the stop routine of a thread fails before any has changed a register or a record. -/
def LeavesRecords (B : Backend) (s : Perfmon) (gs : PerfmonGroupSet) (threadId : ℕ)
    (es : PerfmonEventSet) : Prop :=
  match es.state with
  | .none => True
  | .setup => ∀ i < es.numberOfEvents, ∃ e, es.events[i]? = some (some e) ∧
      (e.threadCounter threadId).init = false
  | .start => ∃ r p, stopThreads B gs.threads es (s.core, es.events) = .ret r p ∧
      p.1.regs = s.core.regs ∧ p.2.map (Option.map PerfmonEventSetEntry.threadCounter) =
        es.events.map (Option.map PerfmonEventSetEntry.threadCounter)

/-- There is an active group, the number is beyond the last group, and leaving
the active group adds no time and changes no record and no register. -/
def SwitchHarmless (M : Machine) (B : Backend) (s : Perfmon) (newGroup : Int) : Prop :=
  ∃ gs th rest es, s.groupSet = some gs ∧ gs.threads = th :: rest ∧
    gs.numberOfActiveGroups ≤ newGroup ∧ 0 ≤ gs.activeGroup ∧
    s.group? gs.activeGroup.toNat = some es ∧ AddsNoTime M s es ∧
    LeavesRecords B s gs th.threadId es

section Iff

variable {a : ℕ} {es : PerfmonEventSet} {newGroup : Int}

theorem modifyGroup_modifyGroup (s : Perfmon) (g : ℕ) (f f' : PerfmonEventSet → PerfmonEventSet) :
    (s.modifyGroup g f).modifyGroup g f' = s.modifyGroup g (f' ∘ f) := by
  simp only [Perfmon.modifyGroup, Perfmon.modifyGroupSet, Option.map_map, Function.comp_def,
    List.modify_modify_eq]

/-- The stop stamp and the time a switch writes to the group it leaves. -/
def PerfmonEventSet.leave (M : Machine) (stamps : ℕ) (es : PerfmonEventSet) : PerfmonEventSet :=
  { es with timer := { es.timer with stop := M.tsc stamps } }.addRunTime M

theorem leave_eq (s : Perfmon) (a : ℕ) :
    s.leave M a = ({ s with stamps := s.stamps + 1 } : Perfmon).modifyGroup a
      (PerfmonEventSet.leave M s.stamps) :=
  modifyGroup_modifyGroup _ _ _ _

theorem measured_leave_iff (hes : s.group? a = some es) :
    (s.leave M a).measured = s.measured ↔ AddsNoTime M s es := by
  have hsame : ({ s with stamps := s.stamps + 1 } : Perfmon).measured = s.measured := rfl
  have hgroup : ({ s with stamps := s.stamps + 1 } : Perfmon).group? a = some es := hes
  rw [leave_eq, ← hsame]
  refine (measured_modifyGroup_iff hgroup).trans ?_
  simp [PerfmonEventSet.leave, PerfmonEventSet.measured, PerfmonEventSet.addRunTime, AddsNoTime]

theorem measured_leave_putSlots_iff (hes : s.group? a = some es) (slots : List Slot) :
    ((s.leave M a).putSlots a (s.core, slots)).measured = s.measured ↔
      AddsNoTime M s es ∧ slots.map (Option.map PerfmonEventSetEntry.threadCounter) =
        es.events.map (Option.map PerfmonEventSetEntry.threadCounter) := by
  have hput : (s.leave M a).putSlots a (s.core, slots) =
      ({ s with stamps := s.stamps + 1 } : Perfmon).modifyGroup a
        ((fun es => { es with events := slots }) ∘ PerfmonEventSet.leave M s.stamps) := by
    rw [← modifyGroup_modifyGroup, ← leave_eq]
    rfl
  have hsame : ({ s with stamps := s.stamps + 1 } : Perfmon).measured = s.measured := rfl
  have hgroup : ({ s with stamps := s.stamps + 1 } : Perfmon).group? a = some es := hes
  rw [hput, ← hsame]
  refine (measured_modifyGroup_iff hgroup).trans ?_
  simp [PerfmonEventSet.leave, PerfmonEventSet.measured, PerfmonEventSet.addRunTime, AddsNoTime]

theorem measured_leave_stopped_iff (hes : s.group? a = some es) (p : Core × List Slot) :
    (((s.leave M a).stopTimer M a).putSlots a p).measured = s.measured ↔
      AddsNoTime M s es ∧ p.2.map (Option.map PerfmonEventSetEntry.threadCounter) =
        es.events.map (Option.map PerfmonEventSetEntry.threadCounter) := by
  have hput : ((s.leave M a).stopTimer M a).putSlots a p =
      ({ s with core := p.1, stamps := s.stamps + 2 } : Perfmon).modifyGroup a
        ((fun es => { es with events := p.2 }) ∘
          (fun es => { es with timer := { es.timer with stop := M.tsc (s.stamps + 1) } }) ∘
            PerfmonEventSet.leave M s.stamps) := by
    rw [← modifyGroup_modifyGroup, ← modifyGroup_modifyGroup]
    unfold Perfmon.stopTimer
    rw [leave_eq]
    rfl
  have hsame : ({ s with core := p.1, stamps := s.stamps + 2 } : Perfmon).measured =
      s.measured := rfl
  have hgroup : ({ s with core := p.1, stamps := s.stamps + 2 } : Perfmon).group? a = some es := hes
  rw [hput, ← hsame]
  refine (measured_modifyGroup_iff hgroup).trans ?_
  simp [PerfmonEventSet.leave, PerfmonEventSet.measured, PerfmonEventSet.addRunTime, AddsNoTime]

theorem perfmonStopCounters_leave (hes : s.group? a = some es)
    (hactive : s.control.active = some a) :
    (perfmonStopCounters M B).wp (fun _ s1 => s1.control.InState a .setup) (fun r _ => r ≠ 0)
      (s.leave M a) := by
  have hgroup : (s.leave M a).control.group? a = some ({ es with
      timer := { es.timer with stop := M.tsc s.stamps } }.addRunTime M).control := by
    rw [control_group?, group?_leave hes]
    rfl
  have hleft : (s.leave M a).control.active = some a := active_leave.trans hactive
  refine Prog.wp_mono (perfmonStopCounters_control _) (fun _ s1 h => ?_) fun r s1 h => h.1
  obtain ⟨b, hb, -, interval, -, -, hk⟩ := h
  obtain rfl : a = b := Option.some.inj (hleft.symm.trans hb)
  refine ⟨?_, ?_, ?_⟩
  rotate_left
  · rw [hk]
    show Control.group? (Control.modifyGroup _ _ _) a = _
    rw [Control.group?_modifyGroup, if_pos rfl, Control.setState, Control.group?_modifyGroup,
      if_pos rfl]
    show Option.map _ (Option.map _ (Control.group? (Control.modifyGroup _ _ _) a)) = _
    rw [Control.group?_modifyGroup, if_pos rfl, hgroup]
    rfl
  · rfl

theorem leave_groupSet {gs : PerfmonGroupSet} (hgs : s.groupSet = some gs) (a : ℕ) :
    ∃ gs', (s.leave M a).groupSet = some gs' ∧ gs'.threads = gs.threads ∧
      gs'.activeGroup = gs.activeGroup := by
  refine ⟨{ gs with groups := gs.groups.modify a (PerfmonEventSet.leave M s.stamps) }, ?_, rfl, rfl⟩
  rw [leave_eq]
  show Option.map _ s.groupSet = _
  rw [hgs, Option.map_some]

/-- A switch that has left the old group has changed nothing when no time was
added and the records and the registers stayed as they were. -/
theorem switchLeft_measured_iff {gs : PerfmonGroupSet} (threadId : ℕ)
    (hgs : s.groupSet = some gs) (h0 : 0 ≤ gs.activeGroup)
    (hes : s.group? gs.activeGroup.toNat = some es) :
    (∃ s', switchLeft M B s threadId gs.activeGroup.toNat es = some s' ∧
        s'.measured = s.measured ∧ s'.core.regs = s.core.regs) ↔
      AddsNoTime M s es ∧ LeavesRecords B s gs threadId es := by
  unfold switchLeft LeavesRecords
  cases hstate : es.state with
  | none =>
      dsimp only
      constructor
      · rintro ⟨s', hs', hsame, -⟩
        obtain rfl := Option.some.inj hs'
        exact ⟨(measured_leave_iff hes).mp hsame, trivial⟩
      · rintro ⟨htime, -⟩
        exact ⟨_, rfl, (measured_leave_iff hes).mpr htime, rfl⟩
  | setup =>
      dsimp only
      rw [← clearSlots_records_iff]
      constructor
      · rintro ⟨s', hs', hsame, -⟩
        obtain ⟨slots, hclear, rfl⟩ := Option.map_eq_some_iff.mp hs'
        obtain ⟨htime, hrecords⟩ := (measured_leave_putSlots_iff hes slots).mp hsame
        exact ⟨htime, slots, hclear, hrecords⟩
      · rintro ⟨htime, slots, hclear, hrecords⟩
        exact ⟨_, by rw [hclear]; rfl, (measured_leave_putSlots_iff hes slots).mpr
          ⟨htime, hrecords⟩, rfl⟩
  | start =>
      dsimp only
      obtain ⟨gs1, hgs1, hthreads, hactive⟩ := leave_groupSet (M := M) hgs gs.activeGroup.toNat
      have h1 : 0 ≤ gs1.activeGroup := by rw [hactive]; exact h0
      have hes1 : (s.leave M gs.activeGroup.toNat).group? gs1.activeGroup.toNat =
          some (PerfmonEventSet.leave M s.stamps es) := by
        rw [hactive]
        exact group?_leave hes
      have hret {r : Int} {s' : Perfmon} :
          perfmonStopCounters M B (s.leave M gs.activeGroup.toNat) = .ret r s' ↔
            ∃ p, stopThreads B gs.threads es (s.core, es.events) = .ret r p ∧
              s' = ((s.leave M gs.activeGroup.toNat).stopTimer M gs.activeGroup.toNat).putSlots
                gs.activeGroup.toNat p := by
        have h : perfmonStopCounters M B (s.leave M gs.activeGroup.toNat) = .ret r s' ↔ _ :=
          stopCounters_ret_iff hgs1 h1 hes1 hstate
        rw [hthreads, hactive] at h
        exact h
      constructor
      · rintro ⟨s', hs', hsame, hregs⟩
        obtain ⟨⟨r, s1⟩, hr, rfl⟩ := Option.map_eq_some_iff.mp hs'
        -- a stop that succeeds has set the group up, so this one failed
        have hfails : r ≠ 0 := by
          refine of_returns (P := fun r s1 => s1.measured = s.measured → r ≠ 0)
            (Prog.wp_mono (perfmonStopCounters_leave hes (control_active hgs h0))
              (fun _ s1 hsetup hsame => ?_) fun r s1 h _ => h) hr hsame
          obtain ⟨es1, hes1, heq⟩ := measured_group hsame hes
          obtain ⟨ec, hec, hset⟩ := hsetup
          obtain ⟨es2, hes2, rfl⟩ := group?_of_control hec
          obtain rfl : es1 = es2 := Option.some.inj (hes1.symm.trans hes2)
          have hstart := (congrArg Prod.fst heq).trans hstate
          exact absurd (hset.symm.trans hstart) (by decide)
        obtain ⟨p, hstop, rfl⟩ := hret.mp (eq_ret_of_returns hfails hr)
        obtain ⟨htime, hrecords⟩ := (measured_leave_stopped_iff hes p).mp hsame
        exact ⟨htime, r, p, hstop, hregs, hrecords⟩
      · rintro ⟨htime, r, p, hstop, hregs, hrecords⟩
        have hrun := hret.mpr ⟨p, hstop, rfl⟩
        refine ⟨_, ?_, (measured_leave_stopped_iff hes p).mpr ⟨htime, hrecords⟩, hregs⟩
        rw [returns, hrun]
        rfl

end Iff

/-- Group 0 runs, and there is a second group. -/
def groupZeroRuns : Perfmon :=
  (Perfmon.after haswellMachine (haswell haswellMachine)
    (twoGroups ++ [.setupCounters 0, .startCounters]) Perfmon.boot).get (by decide +kernel)

end Likwid
