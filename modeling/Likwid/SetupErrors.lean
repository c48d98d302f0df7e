import Likwid.Lib.Agree
import Likwid.Backends
import Likwid.Frames
import Likwid.Reachable
import Likwid.Tables

/-!
# Failing register accesses in a set-up

The set-up drops what its box helpers return, and a thread routine returns
`errno` where its caller tests for a negative code. So `perfmon_setupCounters`
returns 0 and leaves the group set up whatever the access layer answers.

The writes a set-up needs are those it makes on the machine that answers every
access. A set-up whose accesses all succeed makes the same run
(`perfmonSetupCounters_agrees`).
-/

namespace Likwid

variable {M : Machine} {cpu thread : ℕ} {mask : BitVec 128} {lock : Bool}

/-! ## Answered accesses -/

theorem newAccesses_self (c : Core) : newAccesses c c = [] := by
  simp [newAccesses]

theorem newAccesses_log {c c' : Core} (h : c'.trace = c.trace) (a : Access) :
    newAccesses c (c'.log a) = [a] :=
  newAccesses_append (by simp [h])

/-- The steps of the shared state, good when every access was answered. -/
def answered : Prog.Steps Core where
  step := Grows
  good := Answered
  refl := Grows.refl
  trans := Grows.trans _ _ _
  split := by
    intro a b c hab hbc hac
    unfold Answered at *
    rw [newAccesses_trans hab hbc] at hac
    exact ⟨fun x hx => hac x (List.mem_append_right _ hx),
      fun x hx => hac x (List.mem_append_left _ hx)⟩

/-- What a read that succeeds delivers does not depend on the error codes of
the access layer. -/
theorem readAnswer_answering {c : Core} {dev : PciDeviceIndex} {reg : ℕ}
    (h : (readAnswer M c cpu dev reg).1 = 0) :
    readAnswer M.answering c cpu dev reg = readAnswer M c cpu dev reg := by
  have hthreads : M.answering.numHWThreads = M.numHWThreads := rfl
  unfold readAnswer at *
  rw [hthreads]
  split_ifs at h ⊢
  · rfl
  · rfl
  · rfl
  · exact Prod.ext h.symm rfl

theorem writeError_answering {c : Core} {dev : PciDeviceIndex} {reg : ℕ} {data : Word}
    (h : writeError M c cpu dev reg data = 0) :
    writeError M.answering c cpu dev reg data = 0 := by
  have hthreads : M.answering.numHWThreads = M.numHWThreads := rfl
  unfold writeError at *
  rw [hthreads]
  split_ifs at h ⊢
  · exact h
  · exact h
  · exact h
  · rfl

/-- The judgement of the runs whose accesses all succeed. -/
theorem answered_logic : CoreLogic M cpu (fun _ _ => True) (fun _ => True)
    (fun (α : Type) (m m' : Prog Int Core α) => Prog.Agrees answered m m') where
  toClosed := Prog.Agrees.closed
  read dev reg := by
    intro c
    refine ⟨List.suffix_cons _ _, fun hgood => ?_⟩
    have herr : (readAnswer M c cpu dev reg).1 = 0 :=
      hgood _ (by rw [newAccesses_log rfl]; exact List.mem_singleton_self _)
    unfold hpmRead
    rw [readAnswer_answering herr]
  write dev reg data _ := by
    intro c
    have htrace : (if writeError M c cpu dev reg data = 0 then
        c.setReg (regOwner M cpu dev) dev reg (stored dev data) else c).trace = c.trace := by
      split <;> rfl
    refine ⟨?_, fun hgood => ?_⟩
    · show c.trace <:+ _ :: Core.trace _
      rw [htrace]
      exact List.suffix_cons _ _
    · have herr : writeError M c cpu dev reg data = 0 :=
        hgood _ (by rw [newAccesses_log htrace]; exact List.mem_singleton_self _)
      unfold hpmWrite
      rw [herr, writeError_answering herr]
      rfl
  save _ _ _ := Prog.Agrees.self fun _ => List.suffix_refl _

/-! ## The thread routine -/

theorem agrees_counterMap {σ α : Type} {G : Prog.Steps σ} {index : RegisterIndex}
    {f f' : RegisterMap → Prog Int σ α}
    (h : ∀ row, M.counterMap[index]? = some row → Prog.Agrees G (f row) (f' row)) :
    Prog.Agrees G (counterMap M index >>= f) (counterMap M.answering index >>= f') := by
  have hrows : M.answering.counterMap = M.counterMap := rfl
  unfold counterMap
  rw [hrows]
  cases hrow : M.counterMap[index]? with
  | none => exact fun _ => trivial
  | some row => exact h row hrow

theorem haswellSetupEvent_agrees (flags : Word) :
    Prog.Agrees (answered.comap Prod.fst) (haswellSetupEvent M thread cpu mask lock flags)
      (haswellSetupEvent M.answering thread cpu mask lock flags) := by
  have C : Prog.Closed fun (α : Type) (m m' : Prog Int (Core × PerfmonEventSetEntry) α) =>
    Prog.Agrees (answered.comap Prod.fst) m m' := Prog.Agrees.closed
  refine C.bind C.get fun p => Prog.Agrees.ite (fun _ => ?_) fun _ => C.pure _
  refine agrees_counterMap fun row hrow => C.bind (Prog.Agrees.onSnd _) fun _ => ?_
  exact C.bind (Prog.Agrees.onFst
    (answered_logic.haswellSetupCase (boxAllowed_true _) lock hrow _ _)) fun _ => C.pure _

theorem haswellSetup_agrees (n : ℕ) :
    Prog.Agrees (answered.comap Prod.fst) (perfmonSetupCounterThreadHaswell M thread cpu mask n)
      (perfmonSetupCounterThreadHaswell M.answering thread cpu mask n) := by
  have C : Prog.Closed fun (α : Type) (m m' : Prog Int (Core × List Slot) α) =>
    Prog.Agrees (answered.comap Prod.fst) m m' := Prog.Agrees.closed
  refine C.bind C.get fun p => C.bind (Prog.Agrees.onFst ?_) fun _ =>
    C.bind (Prog.Agrees.forCells haswellSetupEvent_agrees n 0) fun _ =>
      C.when fun _ => Prog.Agrees.onFst ?_
  · exact answered_logic.haswellSetupFreeze _ _ (fun _ _ => trivial) trivial trivial
  · exact answered_logic.checkWrite _ trivial

/-! ## `perfmon_setupCounters` -/

/-- The steps of the module's state, good when every access was answered. -/
abbrev answeredCalls : Prog.Steps Perfmon := answered.comap Perfmon.core

theorem callThread_agrees (threadId g : ℕ) :
    Prog.Agrees answeredCalls (callThread (haswell M).setupCountersThread threadId g)
      (callThread (haswell M.answering).setupCountersThread threadId g) := by
  have C : Prog.Closed fun (α : Type) (m m' : PerfmonProg α) => Prog.Agrees answeredCalls m m' :=
    Prog.Agrees.closed
  refine C.bind (C.bind C.get fun s => C.orUndefined _) fun gs =>
    C.bind (Prog.Agrees.orOutOfBounds _) fun th => C.bind (Prog.Agrees.self fun s => ?_) fun p => ?_
  · rw [wp_groupAt]
    exact fun _ _ _ => answeredCalls.refl s
  · exact Prog.Agrees.zoom (fun _ _ h => h) (fun _ _ h => h)
      (Prog.Agrees.closed.call 0 (haswellSetup_agrees _))

theorem perfmonSetupCountersThread_agrees (threadId : ℕ) (groupId : Int) :
    Prog.Agrees answeredCalls (perfmonSetupCountersThread M (haswell M) threadId groupId)
      (perfmonSetupCountersThread M.answering (haswell M.answering) threadId groupId) := by
  have C : Prog.Closed fun (α : Type) (m m' : PerfmonProg α) => Prog.Agrees answeredCalls m m' :=
    Prog.Agrees.closed
  refine C.bind (C.bind C.get fun s => C.orUndefined _) fun gs => C.bind (C.when fun _ => C.ret _)
    fun _ => C.bind (Prog.Agrees.self fun s => ?_) fun p => C.bind (callThread_agrees _ _)
    fun err => C.bind C.get fun s => C.bind (C.when fun _ => C.ret _) fun _ => ?_
  · rw [wp_groupAt]
    exact fun _ _ _ => answeredCalls.refl s
  · exact Prog.Agrees.modify fun s => answeredCalls.refl s

/-- A set-up whose accesses all succeed makes the run of the machine that answers
every access. -/
theorem perfmonSetupCounters_agrees (groupId : Int) :
    Prog.Agrees answeredCalls (perfmonSetupCounters M (haswell M) groupId)
      (perfmonSetupCounters M.answering (haswell M.answering) groupId) := by
  have C : Prog.Closed fun (α : Type) (m m' : PerfmonProg α) => Prog.Agrees answeredCalls m m' :=
    Prog.Agrees.closed
  refine C.bind (Prog.Agrees.self fun s => ?_) fun gs => C.bind (C.when fun _ => C.ret _) fun _ =>
    C.bind (C.foldlM (fun _ th _ => ?_) _) fun _ => C.bind (Prog.Agrees.self fun s => ?_)
    fun p => Prog.Agrees.modify fun s => answeredCalls.refl s
  · rw [wp_requireInit]
    exact ⟨fun _ _ => answeredCalls.refl s, fun _ => answeredCalls.refl s⟩
  · exact C.bind (C.call 0 (perfmonSetupCountersThread_agrees _ _)) fun ret =>
      C.when fun _ => C.ret _
  · rw [wp_groupAt]
    exact fun _ _ _ => answeredCalls.refl s

/-! ## The code it returns -/

/-- Group `groupId` is below the number of groups that were added. -/
def BelowGroups (groupId : Int) (s : Perfmon) : Prop :=
  ∀ gs ∈ s.control.groupSet, groupId < gs.numberOfActiveGroups

theorem perfmonSetupCountersThread_returns {B : Backend} {groupId : Int} {s : Perfmon}
    (h : BelowGroups groupId s) (threadId : ℕ) :
    (perfmonSetupCountersThread M B threadId groupId).wp (fun _ s' => BelowGroups groupId s')
      (fun _ _ => False) s := by
  unfold perfmonSetupCountersThread
  simp only [Prog.wp_bind, wp_theGroupSet, wp_groupAt, Prog.wp_when, Prog.wp_ret]
  refine fun gs hgs => ⟨fun hge => ?_, fun _ h0 es _ => ?_⟩
  · exact absurd (h _ (control_groupSet hgs)) (Int.not_lt.mpr hge)
  refine Prog.wp_mono (callThread_setup_nonneg threadId groupId.toNat s) ?_ fun _ _ h => h
  rintro err s1 ⟨hnonneg, hk⟩
  rw [Prog.wp_get]
  refine ⟨fun hneg => absurd hnonneg (Int.not_le.mpr hneg), fun _ => ?_⟩
  have hactive : (s1.modifyGroupSet fun gs => { gs with activeGroup := groupId }).control =
      s.control.setActive groupId := by
    rw [← hk]
    refine control_modifyGroupSet (fun _ => ?_) s1
    rfl
  rw [Prog.wp_modify]
  intro k hmem
  rw [hactive] at hmem
  obtain ⟨k', hk', rfl⟩ := Option.map_eq_some_iff.mp hmem
  exact h k' hk'

/-- A set-up that returns a code has not begun. -/
theorem perfmonSetupCounters_returns {B : Backend} (groupId : Int) (s : Perfmon) :
    (perfmonSetupCounters M B groupId).wp (fun _ _ => True) (fun _ s' => s' = s) s := by
  unfold perfmonSetupCounters
  simp only [Prog.wp_bind, wp_requireInit, Prog.wp_when, Prog.wp_ret]
  refine ⟨fun gs hgs => ⟨fun _ => trivial, fun hlt => ?_⟩, fun _ => trivial⟩
  refine Prog.wp_mono (Prog.wp_foldlM (I := fun _ s1 => BelowGroups groupId s1)
    (R := fun _ _ => False) ?_ ?_) ?_ fun _ _ h => h.elim
  · intro _ th _ s1 _ h1
    rw [Prog.wp_bind, Prog.wp_call]
    refine Prog.wp_mono (perfmonSetupCountersThread_returns h1 th.threadId) ?_ fun _ _ h => h.elim
    intro _ s2 h2
    rw [Prog.wp_when]
    exact ⟨fun h => absurd rfl h, fun _ => h2⟩
  · intro k hk
    obtain rfl : gs.control = k := Option.some.inj ((control_groupSet hgs).symm.trans hk)
    exact Int.not_le.mp hlt
  · intro _ s1 _
    rw [wp_groupAt]
    exact fun _ _ _ => trivial

/-! ## What a set-up reports -/

/-- A register write the set-up of group `groupId` needs: it is made on the
machine that answers every access. -/
def NeededWrite (M : Machine) (groupId : Int) (s : Perfmon) (a : Access) : Prop :=
  ∃ r t, returns (perfmonSetupCounters M.answering (haswell M.answering) groupId) s = some (r, t) ∧
    a ∈ newAccesses s.core t.core ∧ a.kind = .write

def InSetup (groupId : Int) (s : Perfmon) : Prop :=
  ∃ es, s.group? groupId.toNat = some es ∧ es.state = .setup

/-- A set-up that returns `r` and leaves `s'` reports the accesses that failed:
success means that every write it needs was made, and a failed write gives an
error code and no group that is set up. -/
structure SetupReports (M : Machine) (groupId : Int) (s : Perfmon) (r : Int) (s' : Perfmon) :
    Prop where
  success : r = 0 → InSetup groupId s' → ∀ a, NeededWrite M groupId s a →
    { a with err := 0 } ∈ newAccesses s.core s'.core
  failure : (∃ a ∈ newAccesses s.core s'.core, a.kind = .write ∧ a.err ≠ 0) →
    r ≠ 0 ∧ ¬InSetup groupId s'

variable {groupId r : Int} {s s' : Perfmon}

/-- Nothing fails: the run is the one that makes the needed writes. -/
theorem returns_answering
    (h : returns (perfmonSetupCounters M (haswell M) groupId) s = some (r, s'))
    (hans : Answered s.core s'.core) :
    returns (perfmonSetupCounters M.answering (haswell M.answering) groupId) s = some (r, s') := by
  have hsame := of_returns (P := fun r t => Answered s.core t.core →
      returns (perfmonSetupCounters M.answering (haswell M.answering) groupId) s = some (r, t))
    (Prog.wp_mono (perfmonSetupCounters_agrees groupId s) ?_ ?_) h
  · exact hsame hans
  · rintro _ t ⟨-, hrun⟩ hgood
    simp only [returns, hrun hgood]
  · rintro r t ⟨-, hrun⟩ hgood
    simp only [returns, hrun hgood]

/-- **A set-up reports what failed exactly as long as nothing fails**: when every
access succeeds it has made all the writes it needs, and when it does report
what failed then no write did. -/
theorem setupReports_of_answered
    (h : returns (perfmonSetupCounters M (haswell M) groupId) s = some (r, s')) :
    (Answered s.core s'.core → SetupReports M groupId s r s') ∧
      (SetupReports M groupId s r s' →
        ∀ a ∈ newAccesses s.core s'.core, a.kind = .write → a.err = 0) := by
  refine ⟨fun hans => ⟨fun _ _ a hneeded => ?_, ?_⟩, fun hreports a hmem hkind => ?_⟩
  · obtain ⟨r0, t, hrun, hmem, -⟩ := hneeded
    have hsame := (returns_answering h hans).symm.trans hrun
    obtain ⟨rfl, rfl⟩ := Prod.mk.inj (Option.some.inj hsame)
    have herr := hans a hmem
    rw [← herr]
    exact hmem
  · rintro ⟨a, hmem, -, herr⟩
    exact absurd (hans a hmem) herr
  · by_contra herr
    -- a code other than 0 comes from a check made before the first access
    have hr : r ≠ 0 := (hreports.failure ⟨a, hmem, hkind, herr⟩).1
    have hbegun := of_returns (P := fun r t => r ≠ 0 → t = s)
      (Prog.wp_mono (perfmonSetupCounters_returns groupId s) (fun _ _ _ h => absurd rfl h)
        fun _ _ h _ => h) h hr
    rw [hbegun, newAccesses_self] at hmem
    exact absurd hmem List.not_mem_nil

/-- A core counter on the machine on which every access succeeds. -/
theorem setupReports_core :
    ∃ s s', Run (Step haswellMachine (haswell haswellMachine)) (fun _ _ => True) Perfmon.boot s ∧
      returns (perfmonSetupCounters haswellMachine (haswell haswellMachine) 0) s = some (0, s') ∧
      SetupReports haswellMachine 0 s 0 s' := by
  have hrun : ((Perfmon.after haswellMachine (haswell haswellMachine)
      [.init [0], .addEventSet "UOPS_ISSUED_ANY:PMC0".toList 0] Perfmon.boot).bind fun s =>
        (returns (perfmonSetupCounters haswellMachine (haswell haswellMachine) 0) s).map fun p =>
        decide (p.1 = 0 ∧ Answered s.core p.2.core)) = some true := by decide +kernel
  obtain ⟨s, hs, hrun⟩ := Option.bind_eq_some_iff.mp hrun
  obtain ⟨⟨code, s'⟩, hsetup, hholds⟩ := Option.map_eq_some_iff.mp hrun
  obtain ⟨rfl, hans⟩ := of_decide_eq_true hholds
  exact ⟨s, s', Run.of_afterIf hs, hsetup, (setupReports_of_answered hsetup).1 hans⟩

/-- Every write to the global control register fails. -/
def globalCtrlFailing : Machine :=
  { haswellMachine with
    accessWrite := fun _ _ _ reg _ => if reg = msrPerfGlobalCtrl then -eio else 0
    errno := fun _ => 5 }

/-- The failed write ends the set-up of the thread before any event is looked at,
and the group is set up all the same. -/
theorem not_setupReports_failing :
    ∃ s s', Run (Step globalCtrlFailing (haswell globalCtrlFailing)) (fun _ _ => True)
        Perfmon.boot s ∧
      returns (perfmonSetupCounters globalCtrlFailing (haswell globalCtrlFailing) 0) s =
        some (0, s') ∧
      InSetup 0 s' ∧ ¬SetupReports globalCtrlFailing 0 s 0 s' := by
  have hrun : ((Perfmon.after globalCtrlFailing (haswell globalCtrlFailing)
      [.init [0], .addEventSet "UOPS_ISSUED_ANY:PMC0".toList 0] Perfmon.boot).bind fun s =>
        (returns (perfmonSetupCounters globalCtrlFailing (haswell globalCtrlFailing) 0) s).bind
          fun p => (p.2.group? 0).map fun es =>
        decide (p.1 = 0 ∧ es.state = .setup ∧
          ∃ a ∈ newAccesses s.core p.2.core, a.kind = .write ∧ a.err ≠ 0)) = some true := by
    decide +kernel
  obtain ⟨s, hs, hrun⟩ := Option.bind_eq_some_iff.mp hrun
  obtain ⟨⟨code, s'⟩, hsetup, hrun⟩ := Option.bind_eq_some_iff.mp hrun
  obtain ⟨es, hes, hholds⟩ := Option.map_eq_some_iff.mp hrun
  obtain ⟨rfl, hstate, hfailed⟩ := of_decide_eq_true hholds
  exact ⟨s, s', Run.of_afterIf hs, hsetup, ⟨es, hes, hstate⟩,
    fun hreports => (hreports.failure hfailed).1 rfl⟩

end Likwid
