import Likwid.Control

/-!
# Group sets

What holds of the group set in every reachable state (`PerfmonGroupSet.Consistent`):
there are threads and they are numbered, the group array is as long as it is
said to be, and the active group is one that was added. With it, what the
transitions do to the running groups.
-/

namespace Likwid

variable {M : Machine} {B : Backend} {k k' : Control} {g i : ℕ}

structure PerfmonGroupSet.Consistent (gs : PerfmonGroupSet) : Prop where
  threads : gs.threads ≠ []
  threadId : ∀ (i : ℕ) (th : PerfmonThread), gs.threads[i]? = some th → th.threadId = i
  length : gs.groups.length = gs.numberOfGroups
  added : gs.numberOfActiveGroups ≤ gs.numberOfGroups
  active : gs.activeGroup = -1 ∨
    0 ≤ gs.activeGroup ∧ gs.activeGroup < gs.numberOfActiveGroups

theorem consistent_of_control {gs : PerfmonGroupSet} (h : gs.control.Consistent) :
    gs.Consistent where
  threads := h.threads
  threadId := h.threadId
  length := by simpa [PerfmonGroupSet.control] using h.length
  added := h.added
  active := h.active

namespace Control

def Consistent (k : Control) : Prop := ∀ gs, k.groupSet = some gs → gs.Consistent

/-- Group `i` is an added group in `STATE_START`. -/
def Running (k : Control) (i : ℕ) : Prop :=
  ∃ gs, k.groupSet = some gs ∧ i < gs.numberOfActiveGroups ∧ k.InState i .start

instance (k : Control) (i : ℕ) (state : GroupState) : Decidable (k.InState i state) :=
  match h : k.group? i with
  | some es => decidable_of_iff (es.state = state) (by simp [InState, h])
  | none => isFalse (by simp [InState, h])

instance (k : Control) (i : ℕ) : Decidable (k.Running i) :=
  match h : k.groupSet with
  | none => isFalse (by simp [Running, h])
  | some gs =>
      decidable_of_iff (i < gs.numberOfActiveGroups ∧ k.InState i .start) (by simp [Running, h])

/-- Whether every running group meets `P` is decided by looking at the groups
that were added. -/
instance (k : Control) (P : ℕ → Prop) [DecidablePred P] :
    Decidable (∀ i, k.Running i → P i) :=
  match h : k.groupSet with
  | none => isTrue fun i hi => by obtain ⟨gs, hgs, -⟩ := hi; simp [h] at hgs
  | some gs =>
      decidable_of_iff (∀ i < gs.numberOfActiveGroups, k.InState i .start → P i) (by
        constructor
        · rintro hall i ⟨gs', hgs', hlt, hstart⟩
          obtain rfl : gs = gs' := Option.some.inj (h.symm.trans hgs')
          exact hall i hlt hstart
        · exact fun hall i hlt hstart => hall i ⟨gs, h, hlt, hstart⟩)

instance (k : Control) (g : Int) : Decidable (k.Added g) :=
  match h : k.groupSet with
  | none => isFalse (by simp [Added, h])
  | some gs => decidable_of_iff (0 ≤ g ∧ g < gs.numberOfActiveGroups) (by simp [Added, h])

theorem Consistent.modifyGroup (h : k.Consistent) (g : ℕ)
    (f : PerfmonEventSet → PerfmonEventSet) : (k.modifyGroup g f).Consistent := by
  intro gs' hgs'
  obtain ⟨gs, hgs, rfl⟩ := Option.map_eq_some_iff.mp hgs'
  obtain ⟨h1, h2, h3, h4, h5⟩ := h gs hgs
  exact ⟨h1, h2, by simpa using h3, h4, h5⟩

theorem Consistent.setActive {g : Int} (h : k.Consistent) (hadd : k.Added g) :
    (k.setActive g).Consistent := by
  intro gs' hgs'
  obtain ⟨gs, hgs, rfl⟩ := Option.map_eq_some_iff.mp hgs'
  obtain ⟨gs0, hgs0, h0, hlt⟩ := hadd
  obtain rfl : gs0 = gs := Option.some.inj (hgs0.symm.trans hgs)
  obtain ⟨h1, h2, h3, h4, -⟩ := h gs0 hgs
  exact ⟨h1, h2, h3, h4, Or.inr ⟨h0, hlt⟩⟩

theorem Consistent.active_added (h : k.Consistent) {a : ℕ} (ha : k.active = some a) :
    ∃ gs, k.groupSet = some gs ∧ a < gs.numberOfActiveGroups := by
  obtain ⟨gs, hgs, hif⟩ := Option.bind_eq_some_iff.mp ha
  obtain ⟨h0, heq⟩ := Option.ite_none_right_eq_some.mp hif
  have heq := Option.some.inj heq
  refine ⟨gs, hgs, ?_⟩
  rcases (h gs hgs).active with hneg | ⟨-, hlt⟩
  · omega
  · omega

/-- The number of groups and the threads, which only an init, a finalize and an
added event set change. -/
def frame (k : Control) : Option (ℕ × List PerfmonThread) :=
  k.groupSet.map fun gs => (gs.numberOfActiveGroups, gs.threads)

theorem frame_modifyGroup (k : Control) (g : ℕ) (f : PerfmonEventSet → PerfmonEventSet) :
    (k.modifyGroup g f).frame = k.frame := by
  simp only [frame, modifyGroup, modifyGroupSet]
  cases k.groupSet <;> rfl

/-! ## Lookups after an update -/

theorem group?_modifyGroup (k : Control) (g : ℕ) (f : PerfmonEventSet → PerfmonEventSet)
    (i : ℕ) :
    (k.modifyGroup g f).group? i = if g = i then (k.group? i).map f else k.group? i := by
  unfold group? modifyGroup modifyGroupSet
  cases k.groupSet with
  | none => simp
  | some gs =>
      simp only [Option.map_some, Option.bind_some, List.getElem?_modify]
      split
      · cases gs.groups[i]? <;> simp
      · cases gs.groups[i]? <;> simp

theorem inState_modifyGroup {f : PerfmonEventSet → PerfmonEventSet}
    (hf : ∀ es, (f es).state = es.state) {state : GroupState} :
    (k.modifyGroup g f).InState i state ↔ k.InState i state := by
  unfold InState
  rw [group?_modifyGroup]
  split
  · cases k.group? i <;> simp [hf]
  · rfl

theorem InState.of_setState {state state' : GroupState}
    (h : (k.setState g state').InState i state) :
    (g = i ∧ state' = state) ∨ (g ≠ i ∧ k.InState i state) := by
  obtain ⟨es, hes, hstate⟩ := h
  unfold Control.setState at hes
  rw [group?_modifyGroup] at hes
  split at hes
  · next hg =>
      obtain ⟨es0, -, rfl⟩ := Option.map_eq_some_iff.mp hes
      exact Or.inl ⟨hg, hstate⟩
  · next hg => exact Or.inr ⟨hg, es, hes, hstate⟩

theorem InState.unique {state state' : GroupState} (h : k.InState i state)
    (h' : k.InState i state') : state = state' := by
  obtain ⟨es, hes, rfl⟩ := h
  obtain ⟨es', hes', rfl⟩ := h'
  rw [Option.some.inj (hes.symm.trans hes')]

theorem active_modifyGroup {f : PerfmonEventSet → PerfmonEventSet} :
    (k.modifyGroup g f).active = k.active := by
  simp only [active, modifyGroup, modifyGroupSet]
  cases k.groupSet <;> rfl

theorem added_modifyGroup {f : PerfmonEventSet → PerfmonEventSet} {g' : Int} :
    (k.modifyGroup g f).Added g' ↔ k.Added g' := by
  simp [Added, modifyGroup, modifyGroupSet]

theorem active_setActive {g : Int} (hadd : k.Added g) : (k.setActive g).active = some g.toNat := by
  obtain ⟨gs, hgs, h0, -⟩ := hadd
  simp [active, setActive, modifyGroupSet, hgs, h0]

theorem running_modifyGroup {f : PerfmonEventSet → PerfmonEventSet}
    (hf : ∀ es, (f es).state = es.state) :
    (k.modifyGroup g f).Running i ↔ k.Running i := by
  have hgs : ∀ n, (∃ gs, (k.modifyGroup g f).groupSet = some gs ∧ n < gs.numberOfActiveGroups) ↔
      ∃ gs, k.groupSet = some gs ∧ n < gs.numberOfActiveGroups := by
    intro n
    simp only [Control.modifyGroup, modifyGroupSet]
    cases k.groupSet <;> simp
  constructor
  · rintro ⟨gs', hgs', hlt, hstate⟩
    obtain ⟨gs, hgs, hlt⟩ := (hgs i).mp ⟨gs', hgs', hlt⟩
    exact ⟨gs, hgs, hlt, (inState_modifyGroup hf).mp hstate⟩
  · rintro ⟨gs, hgs', hlt, hstate⟩
    obtain ⟨gs', hgs', hlt⟩ := (hgs i).mpr ⟨gs, hgs', hlt⟩
    exact ⟨gs', hgs', hlt, (inState_modifyGroup hf).mpr hstate⟩

theorem running_startTimer : (k.startTimer M g).Running i ↔ k.Running i :=
  running_modifyGroup (k := k) (g := g) fun _ => rfl

theorem running_stopTimer : (k.stopTimer M g).Running i ↔ k.Running i :=
  running_modifyGroup (k := k) (g := g) fun _ => rfl

theorem running_addRunTime :
    (k.modifyGroup g (PerfmonEventSet.addRunTime M)).Running i ↔ k.Running i :=
  running_modifyGroup fun _ => rfl

/-- A group that runs after its state was set is the one set to run, or ran
before. -/
theorem Running.of_setState {state : GroupState} (h : (k.setState g state).Running i) :
    (g = i ∧ state = .start) ∨ (g ≠ i ∧ k.Running i) := by
  obtain ⟨gs', hgs', hlt, hstate⟩ := h
  obtain ⟨gs, hgs, rfl⟩ := Option.map_eq_some_iff.mp hgs'
  rcases hstate.of_setState with h | ⟨hne, hstate⟩
  · exact Or.inl h
  · exact Or.inr ⟨hne, gs, hgs, hlt, hstate⟩

theorem running_setActive {g : Int} : (k.setActive g).Running i ↔ k.Running i := by
  unfold Running InState group? setActive modifyGroupSet
  cases k.groupSet <;> simp

/-! ## Steps -/

theorem Started.consistent (h : k.Started M k') (hk : k.Consistent) : k'.Consistent := by
  obtain ⟨a, -, -, rfl⟩ := h
  exact (hk.modifyGroup a _).modifyGroup a _

theorem StoppedActive.consistent (h : k.StoppedActive M k') (hk : k.Consistent) :
    k'.Consistent := by
  obtain ⟨a, -, -, interval, -, -, rfl⟩ := h
  exact ((hk.modifyGroup a _).modifyGroup a _).modifyGroup a _

theorem StopFailed.consistent (h : k.StopFailed M k') (hk : k.Consistent) : k'.Consistent := by
  rcases h with rfl | ⟨a, -, -, rfl⟩
  · exact hk
  · exact hk.modifyGroup a _

theorem StopFailed.running (h : k.StopFailed M k') : k'.Running i ↔ k.Running i := by
  rcases h with rfl | ⟨a, -, -, rfl⟩
  · rfl
  · exact running_stopTimer

theorem StopFailed.added {g : Int} (h : k.StopFailed M k') : k'.Added g ↔ k.Added g := by
  rcases h with rfl | ⟨a, -, -, rfl⟩
  · rfl
  · exact added_modifyGroup (k := k)

theorem SetUp.eq {g : Int} (h : k.SetUp g k') (hk : k.Consistent) :
    k' = (k.setActive g).setState g.toNat .setup := by
  obtain ⟨gs, hgs, -⟩ := h.1
  exact h.2 gs hgs (hk gs hgs).threads

theorem SetUp.consistent {g : Int} (h : k.SetUp g k') (hk : k.Consistent) : k'.Consistent := by
  rw [h.eq hk]
  exact (hk.setActive h.1).modifyGroup _ _

theorem Initialised.consistent (h : k.Initialised k') : k'.Consistent := by
  obtain ⟨-, gs, rfl, h1, h2, h3, h4, h5, h6⟩ := h
  intro gs' hgs'
  obtain rfl : gs = gs' := Option.some.inj hgs'
  exact ⟨h5, h6, by simp [h1, h4], by omega, Or.inl h3⟩

/-- What `allocate` makes of a consistent group set has room for one more. -/
theorem allocate_consistent {gs : PerfmonGroupSet} (h : gs.Consistent) :
    (gs.allocate M).Consistent ∧
      (gs.allocate M).numberOfActiveGroups = gs.numberOfActiveGroups ∧
      gs.numberOfActiveGroups < (gs.allocate M).numberOfGroups ∧
      ∀ i < gs.numberOfActiveGroups, (gs.allocate M).groups[i]? = gs.groups[i]? := by
  obtain ⟨h1, h2, h3, h4, h5⟩ := h
  unfold PerfmonGroupSet.allocate
  dsimp only
  split
  · next h0 =>
      refine ⟨⟨h1, h2, rfl, ?_, Or.inl rfl⟩, rfl, ?_, ?_⟩
      · simp [h0]
      · simp [h0]
      · intro i hi
        omega
  split
  · next heq =>
      refine ⟨⟨h1, h2, by simp [h3], ?_, h5⟩, rfl, ?_, ?_⟩
      · dsimp only
        omega
      · dsimp only
        omega
      · intro i hi
        rw [List.getElem?_append_left (by omega)]
  · next hne => exact ⟨⟨h1, h2, h3, h4, h5⟩, rfl, by omega, fun _ _ => rfl⟩

theorem AddedEventSet.consistent (h : k.AddedEventSet M k') (hk : k.Consistent) :
    k'.Consistent := by
  rcases h with rfl | ⟨gs, n, mask, hgs, h⟩
  · exact hk
  obtain ⟨hall, hsame, hroom, -⟩ := allocate_consistent (M := M) (hk gs hgs)
  have hallocated : (k.allocated M gs.numberOfActiveGroups n mask).Consistent := by
    refine Consistent.modifyGroup (fun gs' hgs' => ?_) _ _
    obtain ⟨gs0, hgs0, rfl⟩ := Option.map_eq_some_iff.mp hgs'
    obtain rfl : gs = gs0 := Option.some.inj (hgs.symm.trans hgs0)
    exact hall
  rcases h with rfl | rfl
  · exact hallocated
  intro gs' hgs'
  obtain ⟨gs1, hgs1, rfl⟩ := Option.map_eq_some_iff.mp hgs'
  obtain ⟨h1, h2, h3, h4, h5⟩ := (hallocated.modifyGroup _ _) gs1 hgs1
  have hcount : gs1.numberOfActiveGroups < gs1.numberOfGroups := by
    simp only [setState, allocated, modifyGroup, modifyGroupSet, hgs, Option.map_some,
      Option.some.injEq] at hgs1
    subst hgs1
    exact hsame ▸ hroom
  refine ⟨h1, h2, h3, hcount, h5.imp_right fun h => ⟨h.1, ?_⟩⟩
  dsimp only
  omega

theorem AddedEventSet.added (h : k.AddedEventSet M k') (hk : k.Consistent) {i : Int}
    (hi : k.Added i) : k'.Added i := by
  rcases h with rfl | ⟨gs, n, mask, hgs, h⟩
  · exact hi
  obtain ⟨-, hcount, -, -⟩ := allocate_consistent (M := M) (hk gs hgs)
  obtain ⟨gs', hgs', h0, hlt⟩ := hi
  obtain rfl : gs = gs' := Option.some.inj (hgs.symm.trans hgs')
  have hallocated : ∃ gs', (k.allocated M gs.numberOfActiveGroups n mask).groupSet = some gs' ∧
      gs'.numberOfActiveGroups = gs.numberOfActiveGroups := by
    simp [allocated, modifyGroup, modifyGroupSet, hgs, hcount]
  obtain ⟨gs1, hgs1, hcount1⟩ := hallocated
  rcases h with rfl | rfl
  · exact ⟨gs1, hgs1, h0, hcount1 ▸ hlt⟩
  · have hadmitted : ∃ gs', ((k.allocated M gs.numberOfActiveGroups n mask).commit
        gs.numberOfActiveGroups).groupSet = some gs' ∧
        gs'.numberOfActiveGroups = gs1.numberOfActiveGroups + 1 := by
      simp [commit, setState, modifyGroup, modifyGroupSet, hgs1]
    obtain ⟨gs2, hgs2, hcount2⟩ := hadmitted
    exact ⟨gs2, hgs2, h0, by omega⟩

theorem group?_allocated {gs : PerfmonGroupSet} (hgs : k.groupSet = some gs)
    (hk : k.Consistent) (n : ℕ) (mask : BitVec 128) {i : ℕ} (hi : i < gs.numberOfActiveGroups) :
    (k.allocated M gs.numberOfActiveGroups n mask).group? i = k.group? i := by
  obtain ⟨-, -, -, hsame⟩ := allocate_consistent (M := M) (hk gs hgs)
  unfold allocated
  rw [group?_modifyGroup, if_neg (by omega)]
  simp [group?, modifyGroupSet, hgs, hsame i hi]

/-- Adding an event set starts no group, and the active group stays the one it
was as long as some group runs. -/
theorem AddedEventSet.running (h : k.AddedEventSet M k') (hk : k.Consistent)
    (hrun : k'.Running i) : k.Running i ∧ k'.active = k.active := by
  rcases h with rfl | ⟨gs, n, mask, hgs, h⟩
  · exact ⟨hrun, rfl⟩
  obtain ⟨-, hcount, -, -⟩ := allocate_consistent (M := M) (hk gs hgs)
  have hactive : 0 < gs.numberOfActiveGroups →
      (k.allocated M gs.numberOfActiveGroups n mask).active = k.active := by
    intro hpos
    unfold allocated
    rw [active_modifyGroup]
    have hkept : (gs.allocate M).activeGroup = gs.activeGroup := by
      unfold PerfmonGroupSet.allocate
      dsimp only
      rw [if_neg (by omega)]
      split <;> rfl
    simp [active, modifyGroupSet, hgs, hkept]
  have hstate : ∀ j < gs.numberOfActiveGroups,
      (k.allocated M gs.numberOfActiveGroups n mask).InState j .start → k.InState j .start := by
    rintro j hj ⟨es, hes, hst⟩
    rw [group?_allocated hgs hk n mask hj] at hes
    exact ⟨es, hes, hst⟩
  obtain ⟨gs', hgs', hlt, hstart⟩ := hrun
  rcases h with rfl | rfl
  · simp only [allocated, modifyGroup, modifyGroupSet, hgs, Option.map_some, Option.some.injEq]
      at hgs'
    subst hgs'
    have hi : i < gs.numberOfActiveGroups := hcount ▸ hlt
    exact ⟨⟨gs, hgs, hi, hstate i hi hstart⟩, hactive (by omega)⟩
  · simp only [commit, setState, allocated, modifyGroup, modifyGroupSet, hgs, Option.map_some,
      Option.some.injEq] at hgs'
    subst hgs'
    have hi : i < gs.numberOfActiveGroups + 1 := hcount ▸ hlt
    have hset : ((k.allocated M gs.numberOfActiveGroups n mask).setState
        gs.numberOfActiveGroups .none).InState i .start := by
      obtain ⟨es, hes, hst⟩ := hstart
      refine ⟨es, ?_, hst⟩
      unfold commit group? modifyGroupSet at hes
      rw [Option.bind_map] at hes
      exact hes
    rcases hset.of_setState with ⟨-, h⟩ | ⟨hne, h⟩
    · cases h
    have hi' : i < gs.numberOfActiveGroups := by omega
    refine ⟨⟨gs, hgs, hi', hstate i hi' h⟩, ?_⟩
    rw [← hactive (by omega)]
    unfold commit setState
    simp only [active, modifyGroupSet, Control.modifyGroup, Option.map_map, Option.bind_map]
    rfl

end Control

section Frame

variable {s s' : Perfmon}

theorem control_frame {gs : PerfmonGroupSet} (h : s.groupSet = some gs) :
    s.control.frame = some (gs.numberOfActiveGroups, gs.threads) := by
  simp [Control.frame, control_groupSet h, PerfmonGroupSet.control]

theorem groupSet_of_frame {gs : PerfmonGroupSet} (h : s'.control.frame = s.control.frame)
    (hgs : s.groupSet = some gs) :
    ∃ gs', s'.groupSet = some gs' ∧ gs'.numberOfActiveGroups = gs.numberOfActiveGroups ∧
      gs'.threads = gs.threads := by
  rw [control_frame hgs] at h
  cases hgs' : s'.groupSet with
  | none => simp [Control.frame, Perfmon.control, hgs'] at h
  | some gs' =>
      rw [control_frame hgs'] at h
      simp only [Option.some.injEq, Prod.mk.injEq] at h
      exact ⟨gs', rfl, h⟩

end Frame

end Likwid
