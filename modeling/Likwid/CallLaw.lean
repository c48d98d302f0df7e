import Likwid.EventArrays

/-!
# Invariants along a call

What a thread routine keeps may depend on the group it runs on, on the mask and the events of this
group and on the thread. A `CallLaw` says of each group what holds of its mask and its events, which
groups may be active and which may run; a call keeps it (`CallLaw.Holds`) as long as the routines it
runs, on the groups it runs them on, do (`CallLaw.Keeps`).
-/

namespace Likwid

variable {M : Machine} {B : Backend} {s : Perfmon} {g : ℕ} {groupId : Int}

/-! ## What a call works on -/

/-- The group a read works on -/
def PerfmonGroupSet.readGroup (gs : PerfmonGroupSet) (groupId : Int) : Int :=
  if (groupId < 0 ∨ gs.numberOfActiveGroups ≤ groupId) ∧ 0 ≤ gs.activeGroup then gs.activeGroup
  else groupId

/-- The thread of a CPU, and the first one for a CPU that has none -/
def PerfmonGroupSet.threadOfCpu (gs : PerfmonGroupSet) (cpu : Int) : ℕ :=
  ((gs.threads.find? (fun th => (th.processorId : Int) = cpu)).map PerfmonThread.threadId).getD 0

/-! ## Laws -/

/-- What holds of the shared state, of the active group, of the groups in the state `START`, and of
the mask and the events of each group. The results and the flags of an event may change. -/
structure CallLaw (M : Machine) where
  core : Core → Prop
  threads : List PerfmonThread
  active : ℕ → Prop
  started : ℕ → Prop
  mask : ℕ → BitVec 128 → Prop
  entry : ℕ → BitVec 128 → PerfmonEventSetEntry → Prop
  addResult : ∀ g mask e type j, entry g mask e → entry g mask (e.addResult M type j)
  setInit : ∀ g mask e j, entry g mask e → entry g mask (e.setInit j false)

namespace CallLaw

variable {U : CallLaw M}

structure Holds (U : CallLaw M) (s : Perfmon) : Prop where
  core : U.core s.core
  threads : ∀ gs, s.groupSet = some gs → gs.threads = U.threads
  active : ∀ gs, s.groupSet = some gs → 0 ≤ gs.activeGroup → U.active gs.activeGroup.toNat
  started : ∀ g es, s.group? g = some es → es.state = .start → U.started g
  mask : ∀ g es, s.group? g = some es → U.mask g es.regTypeMask
  entry : ∀ g es, s.group? g = some es → ∀ e, some e ∈ es.events → U.entry g es.regTypeMask e

abbrev flow (U : CallLaw M) : Prog.Flow Perfmon := Prog.Flow.inv U.Holds

/-- The slots of a group along a routine -/
abbrev slots (U : CallLaw M) (g : ℕ) (mask : BitVec 128) (p : Core × List Slot) : Prop :=
  U.core p.1 ∧ ∀ e, some e ∈ p.2 → U.entry g mask e

/-- The routine keeps the law when thread `i` runs it on group `g`. -/
def Keeps (U : CallLaw M) (r : ThreadRoutine) (g i : ℕ) : Prop :=
  ∀ th mask n, U.threads[i]? = some th → U.mask g mask →
    Prog.Respects (Prog.Flow.inv (U.slots g mask)) (r i th.processorId mask n)

/-! ## Bookkeeping -/

theorem Holds.modifyGroup (h : U.Holds s) {f : PerfmonEventSet → PerfmonEventSet}
    (hf : ∀ es, (f es).events = es.events ∧ (f es).regTypeMask = es.regTypeMask ∧
      ((f es).state = .start → es.state = .start ∨ U.started g)) : U.Holds (s.modifyGroup g f) := by
  have hgroup : ∀ i es, (s.modifyGroup g f).group? i = some es → ∃ es0, s.group? i = some es0 ∧
      es.events = es0.events ∧ es.regTypeMask = es0.regTypeMask ∧
        (es.state = .start → es0.state = .start ∨ U.started i) := by
    intro i es hes
    rw [EventsKept.group?_modifyGroup, Option.map_eq_some_iff] at hes
    obtain ⟨es0, hes0, rfl⟩ := hes
    by_cases hi : g = i
    · subst hi
      rw [if_pos rfl]
      exact ⟨es0, hes0, hf es0⟩
    · rw [if_neg hi]
      exact ⟨es0, hes0, rfl, rfl, Or.inl⟩
  refine ⟨h.core, fun gs hgs => ?_, fun gs hgs => ?_, fun i es hes hstart => ?_,
    fun i es hes => ?_, fun i es hes => ?_⟩
  · obtain ⟨gs0, hgs0, rfl⟩ := Option.map_eq_some_iff.mp hgs
    exact h.threads gs0 hgs0
  · obtain ⟨gs0, hgs0, rfl⟩ := Option.map_eq_some_iff.mp hgs
    exact h.active gs0 hgs0
  · obtain ⟨es0, hes0, -, -, hstate⟩ := hgroup i es hes
    exact (hstate hstart).elim (h.started i es0 hes0) id
  · obtain ⟨es0, hes0, -, hmask, -⟩ := hgroup i es hes
    exact hmask ▸ h.mask i es0 hes0
  · obtain ⟨es0, hes0, hevents, hmask, -⟩ := hgroup i es hes
    rw [hevents, hmask]
    exact h.entry i es0 hes0

theorem setState (g : ℕ) {state : GroupState} (hstate : state = .start → U.started g) :
    Prog.Respects U.flow (setState g state : PerfmonProg Unit) :=
  .modify fun _ h => h.modifyGroup fun _ => ⟨rfl, rfl, fun heq => Or.inr (hstate heq)⟩

theorem timerStart (g : ℕ) : Prog.Respects U.flow (timerStart M g : PerfmonProg Unit) :=
  .bind (fun _ h => ⟨h.core, h.threads, h.active, h.started, h.mask, h.entry⟩) fun _ =>
    .modify fun _ h => h.modifyGroup fun _ => ⟨rfl, rfl, Or.inl⟩

theorem timerStop (g : ℕ) : Prog.Respects U.flow (timerStop M g : PerfmonProg Unit) :=
  .bind (fun _ h => ⟨h.core, h.threads, h.active, h.started, h.mask, h.entry⟩) fun _ =>
    .modify fun _ h => h.modifyGroup fun _ => ⟨rfl, rfl, Or.inl⟩

theorem addRunTime (g : ℕ) : Prog.Respects U.flow
    (Prog.modify (·.modifyGroup g (PerfmonEventSet.addRunTime M)) : PerfmonProg Unit) :=
  .modify fun _ h => h.modifyGroup fun _ => ⟨rfl, rfl, Or.inl⟩

theorem ret {α : Type} (r : Int) : Prog.Respects U.flow (Prog.ret r : PerfmonProg α) :=
  .ret fun _ h => h

theorem call {m : PerfmonProg Unit} (h : Prog.Respects U.flow m) :
    Prog.Respects U.flow (Prog.call (0 : Int) m : PerfmonProg Int) := .call fun s => h s

/-! ## Groups and threads -/

theorem requireInit_bind {f : PerfmonGroupSet → PerfmonProg Unit}
    (h : ∀ gs, (0 ≤ gs.activeGroup → U.active gs.activeGroup.toNat) →
      Prog.Respects U.flow (f gs)) : Prog.Respects U.flow (requireInit >>= f) := by
  refine .of_inv fun s hs => ?_
  rw [Prog.wp_bind, wp_requireInit]
  exact ⟨fun gs hgs => (h gs (hs.active gs hgs)).inv hs, fun _ => hs⟩

theorem theGroupSet_bind {f : PerfmonGroupSet → PerfmonProg Unit}
    (h : ∀ gs, Prog.Respects U.flow (f gs)) : Prog.Respects U.flow (theGroupSet >>= f) := by
  refine .of_inv fun s hs => ?_
  rw [Prog.wp_bind, wp_theGroupSet]
  exact fun gs _ => (h gs).inv hs

theorem groupAt_bind {f : ℕ × PerfmonEventSet → PerfmonProg Unit}
    (h : 0 ≤ groupId → ∀ es, (es.state = .start → U.started groupId.toNat) →
      Prog.Respects U.flow (f (groupId.toNat, es))) :
    Prog.Respects U.flow (groupAt groupId >>= f) := by
  refine .of_inv fun s hs => ?_
  rw [Prog.wp_bind, wp_groupAt]
  exact fun h0 es hes => (h h0 es (hs.started _ es hes)).inv hs

/-- A routine on the slots of a group -/
theorem onSlots_wp {α : Type} {m : Prog Int (Core × List Slot) α} (hs : U.Holds s)
    (hm : ∀ mask, (∀ es, s.group? g = some es → es.regTypeMask = mask) →
      Prog.Respects (Prog.Flow.inv (U.slots g mask)) m) :
    (onSlots g m : PerfmonProg α).wp (fun _ t => U.Holds t) (fun _ t => U.Holds t) s := by
  obtain ⟨mask, hmask⟩ : ∃ mask, ∀ es, s.group? g = some es → es.regTypeMask = mask := by
    cases s.group? g with
    | none => exact ⟨0, fun es h => by cases h⟩
    | some es => exact ⟨es.regTypeMask, fun es' h => congrArg _ (Option.some.inj h).symm⟩
  have hput : ∀ p : Core × List Slot, U.slots g mask p → U.Holds (s.putSlots g p) := by
    intro p hp
    have hgroup : ∀ i es', (s.putSlots g p).group? i = some es' → ∃ es0, s.group? i = some es0 ∧
        es'.regTypeMask = es0.regTypeMask ∧ es'.state = es0.state ∧
          (es'.events = es0.events ∨ i = g ∧ es0.regTypeMask = mask ∧ es'.events = p.2) := by
      intro i es' hes'
      rw [group?_putSlots, Option.map_eq_some_iff] at hes'
      obtain ⟨es0, hes0, rfl⟩ := hes'
      refine ⟨es0, hes0, ?_⟩
      split
      · next hi =>
          subst hi
          exact ⟨rfl, rfl, Or.inr ⟨rfl, hmask es0 hes0, rfl⟩⟩
      · exact ⟨rfl, rfl, Or.inl rfl⟩
    refine ⟨hp.1, fun gs hgs => ?_, fun gs hgs => ?_, fun i es' hes' hstart => ?_,
      fun i es' hes' => ?_, fun i es' hes' e he => ?_⟩
    · obtain ⟨gs0, hgs0, rfl⟩ := Option.map_eq_some_iff.mp hgs
      exact hs.threads gs0 hgs0
    · obtain ⟨gs0, hgs0, rfl⟩ := Option.map_eq_some_iff.mp hgs
      exact hs.active gs0 hgs0
    · obtain ⟨es0, hes0, -, hstate, -⟩ := hgroup i es' hes'
      exact hs.started i es0 hes0 (hstate ▸ hstart)
    · obtain ⟨es0, hes0, hsame, -⟩ := hgroup i es' hes'
      exact hsame ▸ hs.mask i es0 hes0
    · obtain ⟨es0, hes0, hsame, -, hevents | ⟨rfl, rfl, hevents⟩⟩ := hgroup i es' hes'
      · rw [hsame]
        exact hs.entry i es0 hes0 e (hevents ▸ he)
      · rw [hsame]
        exact hp.2 e (hevents ▸ he)
  have hview : U.slots g mask (s.core, ((s.group? g).map PerfmonEventSet.events).getD []) := by
    refine ⟨hs.core, fun e he => ?_⟩
    cases hes : s.group? g with
    | none =>
        rw [hes] at he
        cases he
    | some es =>
        rw [hes] at he
        exact hmask es hes ▸ hs.entry g es hes e he
  unfold onSlots
  rw [Prog.wp_zoom]
  exact Prog.wp_mono ((hm mask hmask).inv hview) (fun _ p hp => hput p hp) fun _ p hp => hput p hp

theorem callThread {r : ThreadRoutine} {threadId : ℕ} (h : U.Keeps r g threadId) :
    Prog.Respects U.flow (callThread r threadId g) := by
  refine .of_inv fun s hs => ?_
  unfold Likwid.callThread
  rw [Prog.wp_bind, wp_theGroupSet]
  intro gs hgs
  rw [Prog.wp_bind, Prog.wp_orOutOfBounds]
  intro th hth
  rw [Prog.wp_bind, wp_groupAt]
  intro _ es hes
  refine onSlots_wp hs fun mask hmask => ?_
  obtain rfl := hmask es hes
  refine .call fun p => h th es.regTypeMask es.numberOfEvents ?_ (hs.mask g es hes) p
  rw [← hs.threads gs hgs]
  exact hth

theorem callThreads {ι : Type} {r : ThreadRoutine} (h : ∀ i, U.Keeps r g i) (threads : List ι)
    (f : ι → ℕ) (code : ι → Int) :
    Prog.Respects U.flow (threads.foldlM (fun _ th => do
      let ret ← Likwid.callThread r (f th) g
      Prog.when (ret ≠ 0) (Prog.ret (code th))) () : PerfmonProg Unit) :=
  .foldlM (fun _ th _ => .bind (callThread (h (f th))) fun _ => .when fun _ => ret _) ()

/-! ## The exported functions -/

theorem setupCounters (h : 0 ≤ groupId → (∀ i, U.Keeps B.setupCountersThread groupId.toNat i) ∧
    U.active groupId.toNat) : Prog.Respects U.flow (perfmonSetupCounters M B groupId) := by
  refine requireInit_bind fun gs _ => .bind (.when fun _ => ret _) fun _ =>
    .bind (.foldlM (fun _ th _ => ?_) ()) fun _ => groupAt_bind fun _ _ _ =>
      setState _ fun h => by cases h
  refine .bind (call ?_) fun _ => .when fun _ => ret _
  refine theGroupSet_bind fun _ => .bind (.when fun _ => ret _) fun _ => groupAt_bind fun h0 _ _ =>
    .bind (callThread ((h h0).1 _)) fun _ => .bind .get fun _ => .bind (.when fun _ => ret _)
      fun _ => .modify fun s hs => ?_
  have hgroups : ∀ i, (s.modifyGroupSet fun gs => { gs with activeGroup := groupId }).group? i =
      s.group? i := by
    intro i
    unfold Perfmon.group? Perfmon.modifyGroupSet
    cases s.groupSet <;> rfl
  refine ⟨hs.core, fun gs hgs => ?_, fun gs hgs _ => ?_, fun i es hes => ?_, fun i es hes => ?_,
    fun i es hes => ?_⟩
  · obtain ⟨gs0, hgs0, rfl⟩ := Option.map_eq_some_iff.mp hgs
    exact hs.threads gs0 hgs0
  · obtain ⟨gs0, hgs0, rfl⟩ := Option.map_eq_some_iff.mp hgs
    exact (h h0).2
  · exact hs.started i es (hgroups i ▸ hes)
  · exact hs.mask i es (hgroups i ▸ hes)
  · exact hs.entry i es (hgroups i ▸ hes)

/-- What a start asks for -/
def Starts (U : CallLaw M) (B : Backend) (g : ℕ) : Prop :=
  (∀ i, U.Keeps B.startCountersThread g i) ∧ U.started g

theorem startCountersOf (h : 0 ≤ groupId → U.Starts B groupId.toNat) :
    Prog.Respects U.flow (perfmonStartCountersOf M B groupId) :=
  theGroupSet_bind fun _ => groupAt_bind fun h0 _ _ => .bind (.when fun _ => ret _) fun _ =>
    .bind (callThreads (h h0).1 _ _ _) fun _ => .bind (setState _ fun _ => (h h0).2) fun _ =>
      timerStart _

theorem startCounters (h : ∀ g, U.active g → U.Starts B g) :
    Prog.Respects U.flow (perfmonStartCounters M B) :=
  requireInit_bind fun _ hactive => .bind (.when fun _ => ret _) fun _ =>
    startCountersOf fun h0 => h _ (hactive h0)

theorem groupArgument_bind {gs : PerfmonGroupSet} {f : Int → PerfmonProg Unit}
    (h : 0 ≤ gs.activeGroup → Prog.Respects U.flow (f gs.activeGroup)) :
    Prog.Respects U.flow (groupArgument gs groupId >>= f) := by
  unfold groupArgument
  split
  · next hin =>
      rw [Prog.bind_pure_left]
      exact h hin.2
  · refine .of_inv fun s hs => ?_
    rw [Prog.wp_bind, Prog.wp_ret]
    exact hs

theorem startGroupCounters (h : ∀ g, U.active g → U.Starts B g) :
    Prog.Respects U.flow (perfmonStartGroupCounters M B groupId) :=
  requireInit_bind fun _ hactive => groupArgument_bind fun h0 =>
    startCountersOf fun _ => h _ (hactive h0)

theorem readCountersOf {threadId : Int} (hs : U.Holds s) (h : ∀ gs, s.groupSet = some gs →
    0 ≤ gs.readGroup groupId → U.started (gs.readGroup groupId).toNat →
      ∀ i : ℕ, threadId = -1 ∨ threadId = i →
        U.Keeps B.readCountersThread (gs.readGroup groupId).toNat i) :
    (perfmonReadCountersOf B groupId threadId).wp (fun _ t => U.Holds t) (fun _ t => U.Holds t)
      s := by
  unfold perfmonReadCountersOf
  rw [Prog.wp_bind, wp_requireInit]
  refine ⟨fun gs hgs => ?_, fun _ => hs⟩
  show Prog.wp (groupAt (gs.readGroup groupId) >>= _) _ _ s
  rw [Prog.wp_bind, wp_groupAt]
  intro h0 es hes
  rw [Prog.wp_bind, Prog.wp_when]
  refine ⟨fun _ => hs, fun hstate => ?_⟩
  have hread := h gs hgs h0 (hs.started _ es hes (not_not.mp hstate))
  refine Prog.Respects.inv ?_ hs
  refine .ite (fun hall => ?_) fun _ => .when fun hin => ?_
  · exact callThreads (fun i => hread i (Or.inl hall)) _ id _
  · refine .bind (callThread (hread _ (Or.inr ?_))) fun _ => .when fun _ => ret _
    exact (Int.toNat_of_nonneg hin.1).symm

theorem readCountersCpu {cpu : Int} (hs : U.Holds s) (h : ∀ gs, s.groupSet = some gs →
    0 ≤ gs.activeGroup → U.Keeps B.readCountersThread gs.activeGroup.toNat (gs.threadOfCpu cpu)) :
    (perfmonReadCountersCpu B cpu).wp (fun _ t => U.Holds t) (fun _ t => U.Holds t) s := by
  unfold perfmonReadCountersCpu
  rw [Prog.wp_bind, wp_requireInit]
  refine ⟨fun gs hgs => ?_, fun _ => hs⟩
  rw [Prog.wp_bind, wp_groupAt]
  intro h0 _ _
  exact (Prog.Respects.bind (callThread (h gs hgs h0)) fun _ => ret _).inv hs

theorem accumulate {mask : BitVec 128} (numberOfThreads n : ℕ) :
    Prog.Respects (Prog.Flow.inv (U.slots g mask))
      (Prog.forCells (accumulateEvent M numberOfThreads) n () : Prog Int _ Unit) := by
  refine .forCells_inv (fun _ => ?_) n ()
  refine .bind .get fun p => .bind (.orUndefined _) fun row => .of_inv fun q hq => ⟨hq.1, ?_⟩
  exact List.foldlRecOn (List.range numberOfThreads) _ hq.2 fun e he j _ =>
    U.addResult g mask e _ j he

theorem stopCountersOf (h : 0 ≤ groupId → ∀ i, U.Keeps B.stopCountersThread groupId.toNat i) :
    Prog.Respects U.flow (perfmonStopCountersOf M B groupId) := by
  refine theGroupSet_bind fun gs => groupAt_bind fun h0 _ _ => .bind (timerStop _) fun _ =>
    .bind (callThreads (h h0) _ _ _) fun _ => .of_inv fun s hs => ?_
  rw [Prog.wp_bind, wp_groupAt]
  intro _ es hes
  rw [Prog.wp_bind]
  refine Prog.wp_mono (onSlots_wp hs fun _ _ => accumulate _ _) (fun _ t ht => ?_) fun _ _ ht => ht
  refine Prog.Respects.inv ?_ ht
  exact .bind (setState _ fun h => by cases h) fun _ => .bind (addRunTime _) fun _ =>
    .modify fun _ h => ⟨h.core, h.threads, h.active, h.started, h.mask, h.entry⟩

/-- What a stop asks for -/
def Stops (U : CallLaw M) (B : Backend) : Prop :=
  ∀ g, U.active g → U.started g → ∀ i, U.Keeps B.stopCountersThread g i

theorem stopRunning (h : U.Stops B) (hactive : 0 ≤ groupId → U.active groupId.toNat) :
    Prog.Respects U.flow (do
      let (_, es) ← groupAt groupId
      Prog.when (es.state ≠ .start) (Prog.ret (-einval))
      perfmonStopCountersOf M B groupId : PerfmonProg Unit) := by
  refine groupAt_bind fun h0 es hstarted => .of_inv fun s hs => ?_
  rw [Prog.wp_bind, Prog.wp_when]
  refine ⟨fun _ => hs, fun hstate => ?_⟩
  exact (stopCountersOf fun _ => h _ (hactive h0) (hstarted (not_not.mp hstate))).inv hs

theorem stopCounters (h : U.Stops B) : Prog.Respects U.flow (perfmonStopCounters M B) :=
  requireInit_bind fun _ hactive => .bind (.when fun _ => ret _) fun _ => stopRunning h hactive

theorem stopGroupCounters (h : U.Stops B) :
    Prog.Respects U.flow (perfmonStopGroupCounters M B groupId) :=
  requireInit_bind fun _ hactive => groupArgument_bind fun _ => stopRunning h hactive

theorem switchActiveGroup {newGroup : Int} (hstop : U.Stops B)
    (hsetup : 0 ≤ newGroup → (∀ i, U.Keeps B.setupCountersThread newGroup.toNat i) ∧
      U.active newGroup.toNat)
    (hstart : ∀ g0, U.active g0 → U.started g0 → ∀ g, U.active g → U.Starts B g) :
    Prog.Respects U.flow (perfmonSwitchActiveGroup M B newGroup) := by
  refine theGroupSet_bind fun _ => .foldlM (fun _ th _ => ?_) ()
  refine .bind (call ?_) fun _ => .when fun _ => ret _
  refine requireInit_bind fun gs hactive => groupAt_bind fun h0 es hstarted =>
    .bind (timerStop _) fun _ => .bind (addRunTime _) fun _ =>
      .bind (.when fun _ => .bind (call (stopCounters hstop)) fun _ => .pure _) fun _ =>
        .bind (.when fun _ => ?_) fun _ => .bind (call (setupCounters hsetup)) fun _ =>
          .bind (.when fun _ => ret _) fun _ => .when fun hstate =>
            .bind (call (startCounters (hstart _ (hactive h0) (hstarted hstate)))) fun _ =>
              .when fun _ => ret _
  refine .of_inv fun s hs => onSlots_wp hs fun mask _ => .forCells_inv (fun _ => ?_) _ _
  exact .of_inv fun q hq => ⟨hq.1, U.setInit _ mask q.2 th.threadId hq.2⟩

end CallLaw

end Likwid
