import Likwid.StartThread

/-!
# What a failing start leaves behind

A start runs the threads one after the other and returns at the first that fails. It takes nothing
back: the threads before it count on (`not_nothingLeft_second`), the failing thread may have
unfrozen the uncore before its last writes, and what an earlier start left enabled stays enabled.
Nothing is left enabled exactly when none of this applies (`nothingLeft_iff`).
-/

namespace Likwid

variable {M : Machine} {cpu : ℕ} {mask : BitVec 128}

/-! ## The threads in a row -/

/-- The start of a thread -/
abbrev threadStart (M : Machine) (mask : BitVec 128) (n : ℕ) (th : PerfmonThread) :
    Prog Int (Core × List Slot) Unit :=
  (haswell M).startCountersThread th.threadId th.processorId mask n

/-- A thread, and what its start finds: the registers and the events -/
abbrev ThreadStep := PerfmonThread × Core × List Slot

/-- The starts of the threads, one after the other -/
def threadSteps (M : Machine) (mask : BitVec 128) (n : ℕ) :
    List PerfmonThread → Core × List Slot → List ThreadStep
  | [], _ => []
  | th :: ths, p => (th, p) :: match threadStart M mask n th p with
      | .done _ p' => threadSteps M mask n ths p'
      | .ret _ p' => threadSteps M mask n ths p'
      | .halt _ => []

section Loop

variable {n : ℕ} {p q q' : Core × List Slot} {steps : List ThreadStep} {x : ThreadStep}

/-- No access makes the start return early. -/
def completes (M : Machine) (mask : BitVec 128) (n : ℕ) (x : ThreadStep) : Bool :=
  match threadStart M mask n x.1 x.2 with
  | .done _ _ => true
  | _ => false

/-- The last start on `owner` that completes -/
def lastOn (M : Machine) (mask : BitVec 128) (n : ℕ) (owner : ℕ) (steps : List ThreadStep) :
    Option ThreadStep :=
  (steps.filter fun x => x.1.processorId = owner ∧ completes M mask n x).getLast?

theorem mem_lastOn {owner : ℕ} (h : lastOn M mask n owner steps = some x) :
    x ∈ steps ∧ x.1.processorId = owner := by
  obtain ⟨hx, hp⟩ := List.mem_filter.mp (List.mem_of_getLast? h)
  exact ⟨hx, (of_decide_eq_true hp).1⟩

/-- An access before the last two writes makes the start return early. -/
def LeftBefore (M : Machine) (mask : BitVec 128) (n : ℕ) (x : ThreadStep) : Prop :=
  ∃ r q, threadStart M mask n x.1 x.2 = .ret r q ∧ ¬CoreWriteFailed x.2.1 q.1

/-- The steps lead from `p` to `q`. -/
inductive Steps (M : Machine) (mask : BitVec 128) (n : ℕ) (p : Core × List Slot) :
    List ThreadStep → Core × List Slot → Prop
  | nil : Steps M mask n p [] p
  | done {steps q q' th} : Steps M mask n p steps q → threadStart M mask n th q = .done () q' →
      Steps M mask n p (steps ++ [(th, q)]) q'
  | ret {steps q q' th r} : Steps M mask n p steps q → threadStart M mask n th q = .ret r q' →
      Steps M mask n p (steps ++ [(th, q)]) q'

/-- What the start of `th` made of `q`: it was done, or it was left. -/
theorem threadStart_done {th : PerfmonThread} (h : threadStart M mask n th q = .done () q') :
    ThreadStarted M th.threadId th.processorId mask n q q' :=
  Prog.wp_done (Q := fun _ q' => ThreadStarted M th.threadId th.processorId mask n q q')
    (haswellStart_run n q) h

theorem threadStart_ret {th : PerfmonThread} {r : Int}
    (h : threadStart M mask n th q = .ret r q') : ThreadLeft M th.processorId mask q q' :=
  Prog.wp_returned (R := fun _ q' => ThreadLeft M th.processorId mask q q')
    (haswellStart_run n q) h

namespace Steps

/-- The steps are those of the threads. -/
theorem threadSteps_eq (h : Steps M mask n p steps q) (ths : List PerfmonThread) :
    threadSteps M mask n (steps.map Prod.fst ++ ths) p =
      steps ++ threadSteps M mask n ths q := by
  induction h generalizing ths with
  | nil => rfl
  | done _ hrun ih | ret _ hrun ih =>
      rw [List.map_append, List.append_assoc, ih, List.append_assoc]
      simp only [List.map_cons, List.map_nil, List.cons_append, List.nil_append, threadSteps, hrun]

theorem made (h : Steps M mask n p steps q) : Made (fun _ => True) p.1 q.1 := by
  induction h with
  | nil => exact Made.refl _
  | done _ hrun ih => exact ih.trans ((threadStart_done hrun).made.mono fun _ _ => trivial)
  | ret _ hrun ih => exact ih.trans ((threadStart_ret hrun).made.mono fun _ _ => trivial)

theorem haveLock_eq (h : Steps M mask n p steps q) (cpu : ℕ) :
    haveLock M q.1 cpu = haveLock M p.1 cpu := by
  have hlock : q.1.socketLock = p.1.socketLock := by
    induction h with
    | nil => rfl
    | done _ hrun ih => exact (threadStart_done hrun).socketLock.trans ih
    | ret _ hrun ih => exact (threadStart_ret hrun).socketLock.trans ih
  unfold haveLock
  rw [hlock]

theorem slots (h : Steps M mask n p steps q) :
    SlotsKept p.2 q.2 ∧ ∀ x ∈ steps, SlotsKept p.2 x.2.2 := by
  have htrans := Prog.CellsRel.trans StartKept.trans
  have hsnoc : ∀ {steps : List ThreadStep} {q q' : Core × List Slot} {th : PerfmonThread},
      SlotsKept q.2 q'.2 → (SlotsKept p.2 q.2 ∧ ∀ x ∈ steps, SlotsKept p.2 x.2.2) →
        SlotsKept p.2 q'.2 ∧ ∀ x ∈ steps ++ [(th, q)], SlotsKept p.2 x.2.2 := by
    rintro steps q q' th hlast ⟨hq, hsteps⟩
    refine ⟨htrans _ _ _ hq hlast, fun x hx => ?_⟩
    rcases List.mem_append.mp hx with hx | hx
    · exact hsteps x hx
    · rw [List.mem_singleton.mp hx]
      exact hq
  induction h with
  | nil => exact ⟨Prog.CellsRel.refl StartKept.refl _, fun _ hx => absurd hx List.not_mem_nil⟩
  | done _ hrun ih => exact hsnoc (threadStart_done hrun).slots ih
  | ret _ hrun ih => exact hsnoc (threadStart_ret hrun).slots ih

/-- **The counters of a CPU** are those of its last start that completes. -/
theorem enabled (h : Steps M mask n p steps q) (hM : CountersApart M)
    (hnonpos : Nonpositive p.1 q.1) (hcore : hasCore mask) (owner b : ℕ) :
    CounterEnabled owner b q.1 ↔ match lastOn M mask n owner steps with
      | some x => (startFlags M x.1.threadId mask n x.2.2).getLsbD b = true
      | none => CounterEnabled owner b p.1 := by
  have hother : ∀ {q q' : Core × List Slot} {th : PerfmonThread}, th.processorId ≠ owner →
      ThreadRun M th.processorId q q' →
        (CounterEnabled owner b q'.1 ↔ CounterEnabled owner b q.1) := by
    intro q q' th hne hrun
    unfold CounterEnabled
    rw [hrun.others owner fun heq => hne heq.symm]
  induction h with
  | nil => rfl
  | @done steps q q' th hsteps hrun ih =>
      have hstarted := threadStart_done hrun
      obtain ⟨h1, h2⟩ := hnonpos.split hsteps.made.1 hstarted.made.1
      have hcompletes : completes M mask n (th, q) = true := by
        unfold completes
        rw [hrun]
      unfold lastOn
      rw [List.filter_append]
      by_cases howner : th.processorId = owner
      · simp only [List.filter_cons, howner, hcompletes, and_self, decide_true, if_true,
          List.filter_nil, List.getLast?_append, List.getLast?_singleton, Option.some_or]
        rw [← howner]
        exact hstarted.enabled h2 hcore b
      · simp only [List.filter_cons, howner, false_and, decide_false, Bool.false_eq_true, if_false,
          List.filter_nil, List.append_nil]
        exact (hother howner hstarted.toThreadRun).trans (ih h1)
  | @ret steps q q' th r hsteps hrun ih =>
      have hleft := threadStart_ret hrun
      obtain ⟨h1, -⟩ := hnonpos.split hsteps.made.1 hleft.made.1
      have hcompletes : completes M mask n (th, q) = false := by
        unfold completes
        rw [hrun]
      have hlast : lastOn M mask n owner (steps ++ [(th, q)]) = lastOn M mask n owner steps := by
        unfold lastOn
        rw [List.filter_append]
        simp [hcompletes]
      rw [hlast]
      refine Iff.trans ?_ (ih h1)
      by_cases howner : th.processorId = owner
      · rw [← howner]
        exact hleft.enabled hM b
      · exact hother howner hleft.toThreadRun

/-- **The uncore** is unfrozen by a start with the lock that comes to its last two writes. -/
theorem unfrozen (h : Steps M mask n p steps q) (hM : CountersApart M)
    (hnonpos : Nonpositive p.1 q.1) (huncore : hasUncore mask) (owner : ℕ) :
    Unfrozen M owner q.1 ↔ Unfrozen M owner p.1 ∨ ∃ x ∈ steps, x.1.processorId = owner ∧
      haveLock M p.1 owner = true ∧ ¬LeftBefore M mask n x := by
  have hsnoc : ∀ {steps : List ThreadStep} {q q' : Core × List Slot} {th : PerfmonThread},
      Steps M mask n p steps q → ThreadRun M th.processorId q q' →
      (Unfrozen M th.processorId q'.1 ↔ Unfrozen M th.processorId q.1 ∨
        haveLock M q.1 th.processorId = true ∧ ¬LeftBefore M mask n (th, q)) →
      (Unfrozen M owner q.1 ↔ Unfrozen M owner p.1 ∨ ∃ x ∈ steps, x.1.processorId = owner ∧
        haveLock M p.1 owner = true ∧ ¬LeftBefore M mask n x) →
      (Unfrozen M owner q'.1 ↔ Unfrozen M owner p.1 ∨
        ∃ x ∈ steps ++ [(th, q)], x.1.processorId = owner ∧
          haveLock M p.1 owner = true ∧ ¬LeftBefore M mask n x) := by
    intro steps q q' th hsteps hrun hlast hbefore
    have hmem : (∃ x ∈ steps ++ [(th, q)], x.1.processorId = owner ∧
        haveLock M p.1 owner = true ∧ ¬LeftBefore M mask n x) ↔
        (∃ x ∈ steps, x.1.processorId = owner ∧ haveLock M p.1 owner = true ∧
          ¬LeftBefore M mask n x) ∨ th.processorId = owner ∧ haveLock M p.1 owner = true ∧
            ¬LeftBefore M mask n (th, q) := by
      simp only [List.mem_append, List.mem_singleton, or_and_right, exists_or, exists_eq_left]
    rw [hmem, ← or_assoc, ← hbefore]
    by_cases howner : th.processorId = owner
    · subst howner
      rw [hlast, hsteps.haveLock_eq]
      simp only [true_and]
    · unfold Unfrozen
      rw [hrun.others owner fun heq => howner heq.symm]
      simp only [howner, false_and, or_false]
  induction h with
  | nil => simp
  | @done steps q q' th hsteps hrun ih =>
      have hstarted := threadStart_done hrun
      obtain ⟨h1, h2⟩ := hnonpos.split hsteps.made.1 hstarted.made.1
      refine hsnoc hsteps hstarted.toThreadRun ⟨fun hfree => ?_, ?_⟩ (ih h1)
      · refine (hstarted.unfrozen hfree).imp_right fun hlock => ⟨hlock.1, ?_⟩
        rintro ⟨r, q1, hret, -⟩
        rw [hrun] at hret
        cases hret
      · rintro (hfree | ⟨hlock, -⟩)
        · exact hstarted.unfrozenKept hM hfree
        · exact hstarted.unfreezes h2 hlock huncore
  | @ret steps q q' th r hsteps hrun ih =>
      have hleft := threadStart_ret hrun
      obtain ⟨h1, h2⟩ := hnonpos.split hsteps.made.1 hleft.made.1
      refine hsnoc hsteps hleft.toThreadRun ⟨fun hfree => ?_, ?_⟩ (ih h1)
      · refine (hleft.unfrozen hfree).imp_right fun hlock => ⟨hlock.1, ?_⟩
        rintro ⟨r1, q1, hret, hnot⟩
        rw [hrun] at hret
        cases hret
        exact hnot hlock.2.2
      · rintro (hfree | ⟨hlock, hnot⟩)
        · exact hleft.unfrozenKept hM hfree
        · refine hleft.unfreezes hM h2 hlock huncore ?_
          by_contra hfailed
          exact hnot ⟨r, q', hrun, hfailed⟩

end Steps

end Loop

/-! ## The call -/

section Call

variable {s s' : Perfmon} {gs : PerfmonGroupSet} {es : PerfmonEventSet} {g k : ℕ}

/-- A thread routine that is called while its group has the slots `q.2` -/
theorem callThread_putSlots {th : PerfmonThread} {r : ThreadRoutine} {q : Core × List Slot}
    {Q : Int → Perfmon → Prop} {R : Int → Perfmon → Prop} (hgs : s.groupSet = some gs)
    (hth : gs.threads[th.threadId]? = some th) (hes : s.group? g = some es)
    (h : (r th.threadId th.processorId es.regTypeMask es.numberOfEvents).wp
      (fun _ q' => Q 0 (s.putSlots g q')) (fun ret q' => Q ret (s.putSlots g q')) q) :
    (callThread r th.threadId g).wp Q R (s.putSlots g q) := by
  have hset : (s.putSlots g q).groupSet =
      some { gs with groups := gs.groups.modify g fun es => { es with events := q.2 } } := by
    show Option.map _ s.groupSet = _
    rw [hgs, Option.map_some]
  have hgroup : (s.putSlots g q).group? g = some { es with events := q.2 } := by
    have hput := EventsKept.group?_modifyGroup (g := g)
      (fun es : PerfmonEventSet => { es with events := q.2 }) { s with core := q.1 } g
    have hcore : ({ s with core := q.1 } : Perfmon).group? g = some es := hes
    rw [hcore, Option.map_some, if_pos rfl] at hput
    exact hput
  unfold callThread onSlots
  simp only [Prog.wp_bind, wp_theGroupSet, wp_groupAt, Prog.wp_orOutOfBounds, Prog.wp_zoom,
    Prog.wp_call]
  intro gs1 hgs1 th1 hth1 _ es1 hes1
  obtain rfl := Option.some.inj (hset.symm.trans hgs1)
  obtain rfl : th = th1 := Option.some.inj (hth.symm.trans hth1)
  obtain rfl := Option.some.inj (hgroup.symm.trans hes1)
  have hslots : (((s.putSlots g q).group? g).map PerfmonEventSet.events).getD [] = q.2 := by
    rw [hgroup]
    rfl
  have hput : ∀ q', (s.putSlots g q).putSlots g q' = s.putSlots g q' := putSlots_putSlots g q
  rw [hslots]
  refine Prog.wp_mono h (fun _ q' hq' => ?_) fun ret q' hq' => ?_
  · rw [← hput q'] at hq'
    exact hq'
  · rw [← hput q'] at hq'
    exact hq'

/-- **The starts of a call** up to the one that fails -/
theorem startThreads_steps (hgs : s.groupSet = some gs)
    (hids : ∀ (i : ℕ) (th : PerfmonThread), gs.threads[i]? = some th → th.threadId = i)
    (hes : s.group? g = some es) :
    (gs.threads.foldlM (fun _ th => do
        let ret ← callThread (haswell M).startCountersThread th.threadId g
        Prog.when (ret ≠ 0) (Prog.ret (-(th.threadId : Int) - 1))) () : PerfmonProg Unit).wp
      (fun _ _ => True)
      (fun r s' => ∃ seen th rest steps q, gs.threads = seen ++ th :: rest ∧
        r = -(th.threadId : Int) - 1 ∧ s' = s.putSlots g q ∧ steps.map Prod.fst = seen ++ [th] ∧
        Steps M es.regTypeMask es.numberOfEvents (s.core, es.events) steps q) s := by
  refine Prog.wp_mono (Prog.wp_foldlM (I := fun seen s1 => ∃ steps q, s1 = s.putSlots g q ∧
    steps.map Prod.fst = seen ∧
      Steps M es.regTypeMask es.numberOfEvents (s.core, es.events) steps q) ?_ ?_)
    (fun _ _ _ => trivial) fun _ _ h => h
  · rintro seen th rest _ hsplit ⟨steps, q, rfl, hseen, hsteps⟩
    have hth : gs.threads[th.threadId]? = some th := by
      have hget : gs.threads[seen.length]? = some th := by
        rw [hsplit]
        simp
      rw [hids _ _ hget, hget]
    have hmap : (steps ++ [(th, q)]).map Prod.fst = seen ++ [th] := by
      rw [List.map_append, hseen]
      rfl
    rw [Prog.wp_bind]
    refine callThread_putSlots hgs hth hes (Prog.wp_mono (Prog.wp_outcome (threadStart M
      es.regTypeMask es.numberOfEvents th) (s := q)) (fun _ q' hrun => ?_) fun ret q' hrun => ?_)
    · rw [Prog.wp_when]
      exact ⟨fun hne => absurd rfl hne, fun _ => ⟨_, q', rfl, hmap, hsteps.done hrun⟩⟩
    · rw [Prog.wp_when]
      exact ⟨fun _ => ⟨seen, th, rest, _, q', hsplit, rfl, rfl, hmap, hsteps.ret hrun⟩,
        fun _ => ⟨_, q', rfl, hmap, hsteps.ret hrun⟩⟩
  · exact ⟨[], _, (putSlots_self hes).symm, rfl, .nil⟩

/-- A start of the active group, which is set up, returns the error value for thread `k`. -/
structure FailedStart (M : Machine) (s : Perfmon) (gs : PerfmonGroupSet) (es : PerfmonEventSet)
    (k : ℕ) (s' : Perfmon) : Prop where
  groupSet : s.groupSet = some gs
  active : 0 ≤ gs.activeGroup
  group : s.group? gs.activeGroup.toNat = some es
  setup : es.state = .setup
  fails : returns (perfmonStartCounters M (haswell M)) s = some (-(k : Int) - 1, s')

/-- The group is still set up, and on no thread that was started or failed a core counter of the
group is enabled or its uncore unfrozen. -/
structure NothingLeft (M : Machine) (s : Perfmon) (gs : PerfmonGroupSet) (es : PerfmonEventSet)
    (k : ℕ) (s' : Perfmon) : Prop where
  setup : s'.control.InState gs.activeGroup.toNat .setup
  disabled : hasCore es.regTypeMask → ∀ th ∈ gs.threads.take (k + 1), ∀ b,
    (startFlags M th.threadId es.regTypeMask es.numberOfEvents es.events).getLsbD b = true →
      ¬CounterEnabled th.processorId b s'.core
  frozen : hasUncore es.regTypeMask → ∀ th ∈ gs.threads.take (k + 1),
    ¬Unfrozen M th.processorId s'.core

/-- The starts of the call, with what each of them finds -/
def startSteps (M : Machine) (s : Perfmon) (gs : PerfmonGroupSet) (es : PerfmonEventSet) (k : ℕ) :
    List ThreadStep :=
  threadSteps M es.regTypeMask es.numberOfEvents (gs.threads.take (k + 1)) (s.core, es.events)

/-- No start that completes finds a counter to enable, unless a later one on its CPU completes; no
start that holds the lock comes to its last two writes; and nothing of the group was enabled or
unfrozen before the call where no start completes. -/
structure NothingToEnable (M : Machine) (s : Perfmon) (gs : PerfmonGroupSet) (es : PerfmonEventSet)
    (k : ℕ) : Prop where
  core : hasCore es.regTypeMask → ∀ owner x,
    lastOn M es.regTypeMask es.numberOfEvents owner (startSteps M s gs es k) = some x →
      ∀ b, (startFlags M x.1.threadId es.regTypeMask es.numberOfEvents x.2.2).getLsbD b = false
  disabled : hasCore es.regTypeMask → ∀ th ∈ gs.threads.take (k + 1),
    lastOn M es.regTypeMask es.numberOfEvents th.processorId (startSteps M s gs es k) = none →
      ∀ b, (startFlags M th.threadId es.regTypeMask es.numberOfEvents es.events).getLsbD b = true →
        ¬CounterEnabled th.processorId b s.core
  uncore : hasUncore es.regTypeMask → ∀ x ∈ startSteps M s gs es k,
    haveLock M s.core x.1.processorId = true → LeftBefore M es.regTypeMask es.numberOfEvents x
  frozen : hasUncore es.regTypeMask → ∀ th ∈ gs.threads.take (k + 1),
    ¬Unfrozen M th.processorId s.core

/-- How a start fails at thread `k` -/
theorem FailedStart.steps (h : FailedStart M s gs es k s') (hc : s.control.Consistent) :
    ∃ q, s' = s.putSlots gs.activeGroup.toNat q ∧
      (startSteps M s gs es k).map Prod.fst = gs.threads.take (k + 1) ∧
      Steps M es.regTypeMask es.numberOfEvents (s.core, es.events) (startSteps M s gs es k) q := by
  have hids := (consistent_of_control (hc _ (control_groupSet h.groupSet))).threadId
  have hwp : (perfmonStartCounters M (haswell M)).wp (fun _ _ => True)
      (fun r s' => ∃ seen th rest steps q, gs.threads = seen ++ th :: rest ∧
        r = -(th.threadId : Int) - 1 ∧ s' = s.putSlots gs.activeGroup.toNat q ∧
        steps.map Prod.fst = seen ++ [th] ∧
        Steps M es.regTypeMask es.numberOfEvents (s.core, es.events) steps q) s := by
    unfold perfmonStartCounters perfmonStartCountersOf
    rw [Prog.wp_bind, wp_requireInit]
    refine ⟨fun gs1 hgs1 => ?_, fun hnone => ?_⟩
    · obtain rfl : gs = gs1 := Option.some.inj (h.groupSet.symm.trans hgs1)
      rw [Prog.wp_bind, Prog.wp_when]
      refine ⟨fun hneg => absurd h.active (Int.not_le.mpr hneg), fun _ => ?_⟩
      rw [Prog.wp_bind, wp_theGroupSet]
      intro gs1 hgs1
      obtain rfl : gs = gs1 := Option.some.inj (h.groupSet.symm.trans hgs1)
      rw [Prog.wp_bind, wp_groupAt]
      intro _ es1 hes1
      obtain rfl : es = es1 := Option.some.inj (h.group.symm.trans hes1)
      rw [Prog.wp_bind, Prog.wp_when]
      refine ⟨fun hne => absurd h.setup hne, fun _ => ?_⟩
      rw [Prog.wp_bind]
      refine Prog.wp_mono (startThreads_steps hgs1 hids h.group) (fun _ _ _ => ?_) fun _ _ h => h
      rw [Prog.wp_bind, setState, Prog.wp_modify, wp_timerStart]
      trivial
    · rw [h.groupSet] at hnone
      cases hnone
  obtain ⟨seen, th, rest, steps, q, hsplit, hr, hs', hmap, hsteps⟩ :=
    of_returns (P := fun r s' => r < 0 → ∃ seen th rest steps q,
        gs.threads = seen ++ th :: rest ∧ r = -(th.threadId : Int) - 1 ∧
        s' = s.putSlots gs.activeGroup.toNat q ∧ steps.map Prod.fst = seen ++ [th] ∧
        Steps M es.regTypeMask es.numberOfEvents (s.core, es.events) steps q)
      (Prog.wp_mono hwp (fun _ _ _ hneg => absurd hneg (by decide)) fun _ _ h _ => h) h.fails
      (by omega)
  have hk : k = seen.length := by
    have hid := hids seen.length th (by rw [hsplit]; simp)
    omega
  have htake : gs.threads.take (k + 1) = steps.map Prod.fst := by
    rw [hmap, hsplit, hk, List.take_length_add_append]
    rfl
  have hstart : startSteps M s gs es k = steps := by
    have heq := hsteps.threadSteps_eq []
    rw [List.append_nil, threadSteps, List.append_nil] at heq
    rw [startSteps, htake, heq]
  exact ⟨q, hs', hstart ▸ htake.symm, hstart ▸ hsteps⟩

/-- **A failing start leaves nothing enabled exactly if there is nothing to enable** and nothing
was enabled before. -/
theorem nothingLeft_iff {s0 : Perfmon} (h0 : Booted s0)
    (hrun : Run (Step M (haswell M)) (fun _ _ => True) s0 s) (h : FailedStart M s gs es k s')
    (hM : CountersApart M) (hnonpos : Nonpositive s.core s'.core) :
    NothingLeft M s gs es k s' ↔ NothingToEnable M s gs es k := by
  obtain ⟨q, rfl, hmap, hsteps⟩ := h.steps (consistent_of_run h0 hrun)
  have hmem : ∀ x ∈ startSteps M s gs es k, x.1 ∈ gs.threads.take (k + 1) :=
    fun x hx => hmap ▸ List.mem_map_of_mem hx
  constructor
  · intro hnothing
    refine ⟨fun hcore owner x hx b => ?_, fun hcore th hth hnone b hflag hb => ?_,
      fun huncore x hx hlock => ?_, fun huncore th hth hfree => ?_⟩
    · obtain ⟨hin, howner⟩ := mem_lastOn hx
      subst howner
      by_contra hflag
      have hflag := Bool.not_eq_false _ ▸ hflag
      refine hnothing.disabled hcore x.1 (hmem x hin) b
        (startFlags_le (hsteps.slots.2 x hin) hflag)
        ((hsteps.enabled hM hnonpos hcore _ b).mpr ?_)
      rw [hx]
      exact hflag
    · refine hnothing.disabled hcore th hth b hflag
        ((hsteps.enabled hM hnonpos hcore _ b).mpr ?_)
      rw [hnone]
      exact hb
    · by_contra hnot
      exact hnothing.frozen huncore x.1 (hmem x hx)
        ((hsteps.unfrozen hM hnonpos huncore _).mpr (Or.inr ⟨x, hx, rfl, hlock, hnot⟩))
    · exact hnothing.frozen huncore th hth
        ((hsteps.unfrozen hM hnonpos huncore _).mpr (Or.inl hfree))
  · intro hnone
    refine ⟨?_, fun hcore th hth b hflag hb => ?_, fun huncore th hth hfree => ?_⟩
    · rw [control_putSlots, ← h.setup]
      exact control_inState h.group
    · have hb := (hsteps.enabled hM hnonpos hcore _ b).mp hb
      cases hlast : lastOn M es.regTypeMask es.numberOfEvents th.processorId
          (startSteps M s gs es k) with
      | none =>
          rw [hlast] at hb
          exact hnone.disabled hcore th hth hlast b hflag hb
      | some x =>
          rw [hlast] at hb
          exact Bool.false_ne_true ((hnone.core hcore _ x hlast b).symm.trans hb)
    · rcases (hsteps.unfrozen hM hnonpos huncore _).mp hfree with
        hbefore | ⟨x, hx, howner, hlock, hnot⟩
      · exact hnone.frozen huncore th hth hbefore
      · exact hnot (hnone.uncore huncore x hx (howner ▸ hlock))

end Call

/-- Every write to the first core counter of CPU `cpu` fails. -/
def counterFailing (cpu : ℕ) : Machine :=
  { haswellMachine with
    accessWrite := fun _ _ cpu' reg _ => if cpu' = cpu ∧ reg = msrPmc0 then -eio else 0
    errno := fun _ => 5 }

theorem counterFailing_apart (cpu : ℕ) : CountersApart (counterFailing cpu) := by
  show ∀ row ∈ haswellMachine.counterMap, row.device = msrDev →
    row.counterRegister ∉ startControls haswellMachine ∧
      row.counterRegister2 ∉ startControls haswellMachine
  decide +kernel

/-- The only thread fails. -/
theorem nothingLeft_first :
    ∃ s gs es s', FailedStart (counterFailing 0) s gs es 0 s' ∧
      NothingLeft (counterFailing 0) s gs es 0 s' ∧
      NothingToEnable (counterFailing 0) s gs es 0 := by
  have hrun : ((Perfmon.after (counterFailing 0) (haswell (counterFailing 0))
      [.init [0], .addEventSet "UOPS_ISSUED_ANY:PMC0".toList 0, .setupCounters 0]
      Perfmon.boot).bind fun s =>
        (returns (perfmonStartCounters (counterFailing 0) (haswell (counterFailing 0))) s).bind
          fun p => s.groupSet.bind fun gs => (s.group? gs.activeGroup.toNat).map fun es =>
        decide (p.1 = -1 ∧ 0 ≤ gs.activeGroup ∧ es.state = .setup ∧
          ¬hasUncore es.regTypeMask ∧ gs.threads = [⟨0, 0⟩] ∧
          (startSteps (counterFailing 0) s gs es 0).all (fun x =>
            !completes (counterFailing 0) es.regTypeMask es.numberOfEvents x) = true ∧
          s.core.regs 0 msrDev msrPerfGlobalCtrl = 0 ∧
          ∀ a ∈ newAccesses s.core p.2.core, a.err ≤ 0)) = some true := by
    decide +kernel
  obtain ⟨s, hs, hrun⟩ := Option.bind_eq_some_iff.mp hrun
  obtain ⟨⟨code, s'⟩, hstart, hrun⟩ := Option.bind_eq_some_iff.mp hrun
  obtain ⟨gs, hgs, hrun⟩ := Option.bind_eq_some_iff.mp hrun
  obtain ⟨es, hes, hholds⟩ := Option.map_eq_some_iff.mp hrun
  obtain ⟨rfl, hactive, hstate, hcoreOnly, hthreads, hcompletes, hreg, hnonpos⟩ :=
    of_decide_eq_true hholds
  have hfails : FailedStart (counterFailing 0) s gs es 0 s' := ⟨hgs, hactive, hes, hstate, hstart⟩
  have hiff := nothingLeft_iff booted_boot (Run.of_afterIf hs) hfails (counterFailing_apart 0)
    hnonpos
  have hnone : NothingToEnable (counterFailing 0) s gs es 0 := by
    refine ⟨fun _ owner x hx => ?_, fun _ th hth _ b _ hb => ?_,
      fun huncore => absurd huncore hcoreOnly, fun huncore => absurd huncore hcoreOnly⟩
    · obtain ⟨hx, hp⟩ := List.mem_filter.mp (List.mem_of_getLast? hx)
      have hnot := List.all_eq_true.mp hcompletes x hx
      rw [(of_decide_eq_true hp).2] at hnot
      cases hnot
    · rw [hthreads] at hth
      obtain rfl := List.mem_singleton.mp hth
      unfold CounterEnabled at hb
      rw [hreg] at hb
      simp at hb
  exact ⟨s, gs, es, s', hfails, hiff.mpr hnone, hnone⟩

/-- The second of two threads fails, and the counter of the first one counts on. -/
theorem not_nothingLeft_second :
    ∃ s gs es s', Run (Step (counterFailing 1) (haswell (counterFailing 1))) (fun _ _ => True)
        Perfmon.boot s ∧ FailedStart (counterFailing 1) s gs es 1 s' ∧
      ¬NothingLeft (counterFailing 1) s gs es 1 s' := by
  have hrun : ((Perfmon.after (counterFailing 1) (haswell (counterFailing 1))
      [.init [0, 1], .addEventSet "UOPS_ISSUED_ANY:PMC0".toList 0, .setupCounters 0]
      Perfmon.boot).bind fun s =>
        (returns (perfmonStartCounters (counterFailing 1) (haswell (counterFailing 1))) s).bind
          fun p => s.groupSet.bind fun gs => (s.group? gs.activeGroup.toNat).bind fun es =>
        (gs.threads.take 2)[0]?.map fun th =>
        decide (p.1 = -2 ∧ 0 ≤ gs.activeGroup ∧ es.state = .setup ∧ hasCore es.regTypeMask ∧
          (startFlags (counterFailing 1) th.threadId es.regTypeMask es.numberOfEvents
            es.events).getLsbD 0 = true ∧
          (p.2.core.regs th.processorId msrDev msrPerfGlobalCtrl).getLsbD 0 = true)) =
      some true := by decide +kernel
  obtain ⟨s, hs, hrun⟩ := Option.bind_eq_some_iff.mp hrun
  obtain ⟨⟨code, s'⟩, hstart, hrun⟩ := Option.bind_eq_some_iff.mp hrun
  obtain ⟨gs, hgs, hrun⟩ := Option.bind_eq_some_iff.mp hrun
  obtain ⟨es, hes, hrun⟩ := Option.bind_eq_some_iff.mp hrun
  obtain ⟨th, hth, hholds⟩ := Option.map_eq_some_iff.mp hrun
  obtain ⟨rfl, hactive, hstate, hcore, hflag, hafter⟩ := of_decide_eq_true hholds
  exact ⟨s, gs, es, s', Run.of_afterIf hs, ⟨hgs, hactive, hes, hstate, hstart⟩,
    fun h => h.disabled hcore th (List.mem_of_getElem? hth) 0 hflag hafter⟩

end Likwid
