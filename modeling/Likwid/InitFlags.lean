import Likwid.EventArrays
import Likwid.SetupErrors

/-!
# The `init` flags of groups that are set up

A start, a read and a stop skip the events whose `init` flag is not set. A set-up sets the flag
of every configured event of its group; a stop takes the flags away, and leaves the group in the
state `SETUP` (`not_initLaw_stopped`). As long as no started group is stopped and no set-up is
left early, the groups in that state have their flags (`initLaw_of_run`).
-/

namespace Likwid

variable {M : Machine} {cpu thread : ℕ} {mask : BitVec 128} {lock : Bool}

/-! ## Set-ups that are left early -/

/-- The registers of which an error ends the set-up of a thread: those that freeze the counters,
and the control registers of the fixed counters of the boxes. -/
def SetupChecks (M : Machine) (dev : PciDeviceIndex) (reg : ℕ) : Prop :=
  (dev = msrDev ∧ reg ∈ [msrPerfGlobalCtrl, msrPerfGlobalOvfCtrl, msrPebsEnable,
    msrUncV3UPmonGlobalCtl, msrUncorePerfGlobalCtrl]) ∨
  ∃ row ∈ M.counterMap, reg = row.configRegister ∧
    ((haswellUnit row.type = .uboxfix ∧ dev = msrDev) ∨
      (haswellUnit row.type = .mboxfix ∧ dev = row.device))

instance (M : Machine) (dev : PciDeviceIndex) (reg : ℕ) : Decidable (SetupChecks M dev reg) :=
  inferInstanceAs (Decidable (_ ∨ _))

/-- On the way from `c` to `c'` an access failed whose error ends a set-up. -/
def LeftEarly (M : Machine) (c c' : Core) : Prop :=
  ∃ a ∈ newAccesses c c', SetupChecks M a.dev a.reg ∧ a.err < 0

instance (M : Machine) (c c' : Core) : Decidable (LeftEarly M c c') :=
  inferInstanceAs (Decidable (∃ a ∈ newAccesses c c', _ ∧ _))

theorem LeftEarly.of_right {a b c : Core} (h : LeftEarly M b c) (hab : Grows a b)
    (hbc : Grows b c) : LeftEarly M a c := by
  obtain ⟨x, hx, hfailed⟩ := h
  refine ⟨x, ?_, hfailed⟩
  rw [newAccesses_trans hab hbc]
  exact List.mem_append_left _ hx

theorem LeftEarly.of_left {a b c : Core} (h : LeftEarly M a b) (hab : Grows a b)
    (hbc : Grows b c) : LeftEarly M a c := by
  obtain ⟨x, hx, hfailed⟩ := h
  refine ⟨x, ?_, hfailed⟩
  rw [newAccesses_trans hab hbc]
  exact List.mem_append_right _ hx

/-- Only a failed access ends a routine early. -/
def leftEarly (M : Machine) : Prog.Flow Core where
  done := Grows
  exit c c' := Grows c c' ∧ LeftEarly M c c'
  refl := Grows.refl
  trans := Grows.trans _ _ _
  absorb h h' := ⟨Grows.trans _ _ _ h h'.1, h'.2.of_right h h'.1⟩

section Checked

variable {dev : PciDeviceIndex} {reg : ℕ}

theorem checkWrite_leftEarly (h : SetupChecks M dev reg) (data : Word) :
    Prog.Respects (leftEarly M) (checkWrite M cpu dev reg data) := by
  intro c
  have htrace : (if writeError M c cpu dev reg data = 0 then
      c.setReg (regOwner M cpu dev) dev reg (stored dev data) else c).trace = c.trace := by
    split <;> rfl
  let c' : Core := (if writeError M c cpu dev reg data = 0 then
    c.setReg (regOwner M cpu dev) dev reg (stored dev data) else c).log
      ⟨.write, cpu, dev, reg, data, writeError M c cpu dev reg data⟩
  have hnew : newAccesses c c' =
      [⟨.write, cpu, dev, reg, data, writeError M c cpu dev reg data⟩] :=
    newAccesses_log htrace _
  have hgrows : Grows c c' := by
    show c.trace <:+ _ :: Core.trace _
    rw [htrace]
    exact List.suffix_cons _ _
  show Prog.wp (checkAndReturnError M (writeError M c cpu dev reg data)) _ _ c'
  unfold checkAndReturnError
  rw [Prog.wp_bind, Prog.wp_get, Prog.wp_when, Prog.wp_ret]
  have hmem : _ ∈ newAccesses c c' := hnew ▸ List.mem_singleton_self _
  exact ⟨fun herr => ⟨hgrows, _, hmem, h, herr⟩, fun _ => hgrows⟩

theorem checkRead_leftEarly (h : SetupChecks M dev reg) :
    Prog.Respects (leftEarly M) (checkRead M cpu dev reg) := by
  intro c
  let answer := readAnswer M c cpu dev reg
  let c' : Core := c.log ⟨.read, cpu, dev, reg, answer.2, answer.1⟩
  have hgrows : Grows c c' := List.suffix_cons _ _
  have hnew : newAccesses c c' = [⟨.read, cpu, dev, reg, answer.2, answer.1⟩] :=
    newAccesses_log rfl _
  have hrest : (checkAndReturnError M answer.1).wp (fun _ => (leftEarly M).done c)
      (fun _ => (leftEarly M).exit c) c' := by
    unfold checkAndReturnError
    rw [Prog.wp_bind, Prog.wp_get, Prog.wp_when, Prog.wp_ret]
    have hmem : _ ∈ newAccesses c c' := hnew ▸ List.mem_singleton_self _
    exact ⟨fun herr => ⟨hgrows, _, hmem, h, herr⟩, fun _ => hgrows⟩
  show Prog.wp (checkAndReturnError M answer.1 >>= fun _ => pure answer.2) _ _ c'
  rw [Prog.wp_bind]
  exact hrest

end Checked

/-! ## The set-up of a thread -/

theorem setupChecks_global {reg : ℕ} (h : reg ∈ [msrPerfGlobalCtrl, msrPerfGlobalOvfCtrl,
    msrPebsEnable, msrUncV3UPmonGlobalCtl, msrUncorePerfGlobalCtrl]) : SetupChecks M msrDev reg :=
  Or.inl ⟨rfl, h⟩

theorem haswellSetupFreeze_leftEarly :
    Prog.Respects (leftEarly M) (haswellSetupFreeze M cpu mask lock) := by
  refine .bind (.when fun _ => ?_) fun _ => ?_
  · exact .bind (checkWrite_leftEarly (setupChecks_global (by simp)) _) fun _ =>
      .bind (checkWrite_leftEarly (setupChecks_global (by simp)) _) fun _ =>
        checkWrite_leftEarly (setupChecks_global (by simp)) _
  · refine .ite (fun _ => checkWrite_leftEarly (setupChecks_global (by simp)) _) fun _ =>
      .when fun _ => .bind (checkRead_leftEarly (setupChecks_global (by simp))) fun _ =>
        .when fun _ => checkWrite_leftEarly (setupChecks_global (by simp)) _

theorem dropped_leftEarly {m : Prog Int Core Unit} (h : Prog.Respects Grows.flow m) :
    Prog.Respects (leftEarly M) (dropped m) :=
  .bind (.call fun c => h c) fun _ => .pure _

/-- The switch of the set-up, for an event of the type of its counter -/
theorem haswellSetupCase_leftEarly {e : PerfmonEventSetEntry} {row : RegisterMap}
    (hrow : M.counterMap[e.index]? = some row) (htype : e.type ≠ .notype → row.type = e.type) :
    Prog.Respects (leftEarly M)
      (haswellSetupCase M cpu lock e.index row e.event (haswellUnit e.type)) := by
  have hB := boxAllowed_true (M := M) e.index
  have hmem := List.mem_of_getElem? hrow
  have hconfigured : haswellUnit e.type ≠ .other → row.type = e.type := by
    intro hunit
    refine htype ?_
    rintro heq
    rw [heq] at hunit
    exact hunit rfl
  cases hunit : haswellUnit e.type with
  | pmc => exact dropped_leftEarly (Grows.logic.hasepPmcSetup hB _)
  | fixed =>
      exact .bind .get fun _ => .ite (fun _ => .bind (.modify fun _ => List.suffix_refl _)
        fun _ => .pure _) fun _ => .pure _
  | cbox =>
      refine .bind .get fun c => ?_
      rcases c.haswellCboxSetup with _ | _ | _
      · exact .halt _
      · exact dropped_leftEarly (Grows.logic.hasCboxSetup hB _)
      · exact dropped_leftEarly (Grows.logic.hasepCboxSetup hB _)
  | ubox => exact dropped_leftEarly (Grows.logic.hasepUboxSetup hB _)
  | uboxfix =>
      have hsame := hconfigured (by rw [hunit]; exact nofun)
      have hfixed : haswellUnit row.type = .uboxfix := by rw [hsame, hunit]
      exact .bind (.when fun _ => checkWrite_leftEarly
        (Or.inr ⟨row, hmem, rfl, Or.inl ⟨hfixed, rfl⟩⟩) _) fun _ => .pure _
  | sbox => exact dropped_leftEarly (Grows.logic.hasepSboxSetup hB _)
  | bbox => exact dropped_leftEarly (Grows.logic.hasepBboxSetup hB _)
  | wbox => exact dropped_leftEarly (Grows.logic.hasepWboxSetup hB _)
  | mboxfix =>
      have hsame := hconfigured (by rw [hunit]; exact nofun)
      refine .bind .get fun c => .bind (.when fun _ =>
        checkWrite_leftEarly (Or.inr ⟨row, hmem, rfl, Or.inr ⟨?_, rfl⟩⟩) _) fun _ => .pure _
      rw [hsame, hunit]
  | mbox | pbox | rbox | ibox0 | ibox1 => exact dropped_leftEarly (Grows.logic.pciBoxSetup hB _)
  | qbox0 | qbox1 => exact dropped_leftEarly (Grows.logic.hasepQboxSetup hB _ _)
  | power | thermal | wbox0fix | qboxfix | other => exact .pure _

/-- The flag of the thread is set, if the type of the event is in the mask. -/
def FlagSet (thread : ℕ) (mask : BitVec 128) (e e' : PerfmonEventSetEntry) : Prop :=
  e'.type = e.type ∧ (hasType mask e.type → (e'.threadCounter thread).init = true)

theorem haswellSetupEvent_flag {e : PerfmonEventSetEntry} (he : e.Typed M) (flags : Word)
    (c : Core) :
    (haswellSetupEvent M thread cpu mask lock flags).wp
      (fun _ p => Grows c p.1 ∧ FlagSet thread mask e p.2)
      (fun _ p => Grows c p.1 ∧ LeftEarly M c p.1) (c, e) := by
  unfold haswellSetupEvent counterMap
  simp only [Prog.wp_bind, Prog.wp_get]
  split
  · next hmask =>
      simp only [Prog.wp_bind, Prog.wp_orUndefined, Prog.wp_zoom, Prog.wp_modify, Prog.wp_pure]
      intro row hrow
      have htype : e.type ≠ .notype → row.type = e.type := by
        intro hne
        obtain ⟨row', hrow', heq⟩ := he hne
        obtain rfl := Option.some.inj (hrow.symm.trans hrow')
        exact heq
      refine Prog.wp_mono (haswellSetupCase_leftEarly hrow htype c) (fun _ c' hgrows => ?_)
        fun _ _ h => h
      refine ⟨hgrows, rfl, fun _ => ?_⟩
      simp [PerfmonEventSetEntry.setInit]
  · next hmask => exact ⟨Grows.refl c, rfl, fun h => absurd h hmask⟩

/-- The set-up of a thread sets its flags, unless it is left early. -/
theorem haswellSetup_flags {slots : List Slot} (htyped : ∀ e, some e ∈ slots → e.Typed M) (n : ℕ)
    (c : Core) :
    (perfmonSetupCounterThreadHaswell M thread cpu mask n).wp
      (fun _ p => Grows c p.1 ∧ Prog.CellsDone (FlagSet thread mask) n slots p.2)
      (fun _ p => Grows c p.1 ∧
        (LeftEarly M c p.1 ∨ Prog.CellsDone (FlagSet thread mask) n slots p.2)) (c, slots) := by
  unfold perfmonSetupCounterThreadHaswell
  rw [Prog.wp_bind, Prog.wp_get, Prog.wp_bind, Prog.wp_zoom]
  refine Prog.wp_mono (haswellSetupFreeze_leftEarly c) (fun _ c1 h1 => ?_)
    fun _ c1 h1 => ⟨h1.1, Or.inl h1.2⟩
  rw [Prog.wp_bind]
  refine Prog.wp_mono (Prog.forCells_typed (F := leftEarly M) (fun flags c e he =>
    haswellSetupEvent_flag he flags c) n 0 c1 slots htyped) ?_ ?_
  · rintro flags ⟨c2, slots'⟩ ⟨h2, hdone⟩
    have h12 := Grows.trans _ _ _ h1 h2
    rw [Prog.wp_when]
    refine ⟨fun _ => ?_, fun _ => ⟨h12, hdone⟩⟩
    rw [Prog.wp_zoom]
    refine Prog.wp_mono (Grows.logic.checkWrite (W := fun _ _ => True) _ trivial c2)
      (fun _ c3 h3 => ?_) fun _ c3 h3 => ?_
    · exact ⟨Grows.trans _ _ _ h12 h3, hdone⟩
    · exact ⟨Grows.trans _ _ _ h12 h3, Or.inr hdone⟩
  · rintro r ⟨c2, slots'⟩ ⟨h2, hearly⟩
    exact ⟨Grows.trans _ _ _ h1 h2, Or.inl (hearly.of_right h1 h2)⟩

/-! ## Entries between two set-ups -/

/-- An entry keeps its counter and its flags; its event may become unusable. -/
structure FlagsKept (e e' : PerfmonEventSetEntry) : Prop where
  index : e'.index = e.index
  type : e'.type = e.type ∨ e'.type = .notype
  init : ∀ t, (e.threadCounter t).init = true → (e'.threadCounter t).init = true

namespace FlagsKept

theorem refl (e : PerfmonEventSetEntry) : FlagsKept e e := ⟨rfl, Or.inl rfl, fun _ h => h⟩

theorem trans (a b c : PerfmonEventSetEntry) (h : FlagsKept a b) (h' : FlagsKept b c) :
    FlagsKept a c := by
  refine ⟨h'.index.trans h.index, ?_, fun t ht => h'.init t (h.init t ht)⟩
  rcases h'.type with heq | hno
  · rw [heq]
    exact h.type
  · exact Or.inr hno

theorem onCounter {e : PerfmonEventSetEntry} {f : PerfmonCounter → PerfmonCounter}
    (h : ∀ r, r.init = true → (f r).init = true) : FlagsKept e (e.onCounter thread f) := by
  refine ⟨rfl, Or.inl rfl, fun t ht => ?_⟩
  by_cases heq : t = thread
  · subst heq
    rw [PerfmonEventSetEntry.onCounter_self]
    exact h _ ht
  · rw [PerfmonEventSetEntry.onCounter_of_ne _ _ _ heq]
    exact ht

theorem entryRel : EntryRel thread FlagsKept where
  refl := refl
  trans := trans
  counter _ _ h := onCounter fun r hr => (h r).1.trans hr

theorem order : EntryOrder FlagsKept := ⟨refl, trans⟩

theorem configured {e e' : PerfmonEventSetEntry} (h : FlagsKept e e') (he : e'.type ≠ .notype) :
    e'.type = e.type := h.type.resolve_right he

end FlagsKept

theorem haswell_setup_flagsKept (thread cpu : ℕ) (mask : BitVec 128) (n : ℕ) :
    Prog.Respects FlagsKept.order.slots ((haswell M).setupCountersThread thread cpu mask n) :=
  haswellSetup_entries FlagsKept.entryRel (fun _ => FlagsKept.onCounter fun _ _ => rfl) n

theorem haswell_start_flagsKept (thread cpu : ℕ) (mask : BitVec 128) (n : ℕ) :
    Prog.Respects FlagsKept.order.slots ((haswell M).startCountersThread thread cpu mask n) :=
  haswellStart_entries FlagsKept.entryRel (fun _ _ => FlagsKept.onCounter fun _ h => h)
    (fun _ => ⟨rfl, Or.inr rfl, fun _ h => h⟩) n

theorem haswell_read_flagsKept (thread cpu : ℕ) (mask : BitVec 128) (n : ℕ) :
    Prog.Respects FlagsKept.order.slots ((haswell M).readCountersThread thread cpu mask n) :=
  haswellRead_entries FlagsKept.entryRel n

/-! ## Groups -/

/-- The entries have the types of their counters, and these are in the mask. -/
structure PerfmonEventSet.WellTyped (M : Machine) (es : PerfmonEventSet) : Prop where
  typed : ∀ e, some e ∈ es.events → e.Typed M
  masked : ∀ e, some e ∈ es.events → e.type ≠ .notype → hasType es.regTypeMask e.type

/-- Every configured event has the flag of the thread. -/
def PerfmonEventSet.Flagged (es : PerfmonEventSet) (threadId : ℕ) : Prop :=
  ∀ i < es.numberOfEvents, ∀ e, es.events[i]? = some (some e) → e.type ≠ .notype →
    (e.threadCounter threadId).init = true

namespace PerfmonEventSet

variable {es es' : PerfmonEventSet} {threadId : ℕ}

theorem WellTyped.kept (h : es.WellTyped M) (hkept : es.EventsRel FlagsKept es') :
    es'.WellTyped M := by
  have hold : ∀ e', some e' ∈ es'.events → ∃ e, some e ∈ es.events ∧ FlagsKept e e' := by
    intro e' he'
    obtain ⟨i, hi⟩ := List.mem_iff_getElem?.mp he'
    obtain ⟨e, he, hrel⟩ := hkept.events.get hi
    exact ⟨e, List.mem_of_getElem? he, hrel⟩
  refine ⟨fun e' he' hne => ?_, fun e' he' hne => ?_⟩
  · obtain ⟨e, he, hrel⟩ := hold e' he'
    rw [hrel.index, hrel.configured hne]
    exact h.typed e he (hrel.configured hne ▸ hne)
  · obtain ⟨e, he, hrel⟩ := hold e' he'
    rw [hkept.regTypeMask, hrel.configured hne]
    exact h.masked e he (hrel.configured hne ▸ hne)

theorem Flagged.kept (h : es.Flagged threadId) (hkept : es.EventsRel FlagsKept es') :
    es'.Flagged threadId := by
  intro i hi e' he' hne
  obtain ⟨e, he, hrel⟩ := hkept.events.get he'
  exact hrel.init _ (h i (hkept.numberOfEvents ▸ hi) e he (hrel.configured hne ▸ hne))

theorem Flagged.of_done {slots : List Slot} (h : es.WellTyped M)
    (hdone : Prog.CellsDone (FlagSet threadId es.regTypeMask) es.numberOfEvents es.events slots) :
    ({ es with events := slots } : PerfmonEventSet).Flagged threadId := by
  intro i hi e' he' hne
  obtain ⟨e, e'', he, he'', htype, hinit⟩ := hdone.get_lt hi
  obtain rfl : e'' = e' := Option.some.inj (Option.some.inj (he''.symm.trans he'))
  exact hinit (h.masked e (List.mem_of_getElem? he) (htype ▸ hne))

end PerfmonEventSet

/-- **The law of the flags**: in a group that is set up, every configured event has its flag, for
every thread. -/
def InitLaw (s : Perfmon) : Prop :=
  ∀ gs, s.groupSet = some gs → ∀ g < gs.numberOfActiveGroups, ∀ es, gs.groups[g]? = some es →
    es.state = .setup → ∀ th ∈ gs.threads, es.Flagged th.threadId

section Law

variable {s s' : Perfmon} {g : ℕ} {groupId : Int}

/-- What a call keeps of the law: a group in the state `SETUP` was in it before, or has its
flags. -/
theorem InitLaw.kept (h : InitLaw s) (hkept : EventsKept FlagsKept s s')
    (hstate : ∀ g, s'.control.InState g .setup → s.control.InState g .setup ∨
      ∀ gs', s'.groupSet = some gs' → ∀ es', s'.group? g = some es' →
        ∀ th ∈ gs'.threads, es'.Flagged th.threadId) : InitLaw s' := by
  intro gs' hgs' g hg es' hes' hsetup th hth
  have hgroup' : s'.group? g = some es' := by
    rw [Perfmon.group?, hgs', Option.bind_some, hes']
  have hin : s'.control.InState g .setup := hsetup ▸ control_inState hgroup'
  rcases hstate g hin with ⟨ec, hec, hstate'⟩ | hflagged
  · obtain ⟨gs, hgs, hcount, hthreads⟩ := groupSet_of_frame hkept.frame.symm hgs'
    obtain ⟨es, hes, hrel⟩ := hkept.old hgroup'
    rw [control_group?, hes] at hec
    obtain rfl := Option.some.inj hec
    rw [Perfmon.group?, hgs, Option.bind_some] at hes
    exact (h gs hgs g (hcount ▸ hg) es hes hstate' th (hthreads ▸ hth)).kept hrel
  · exact hflagged gs' hgs' es' hgroup' th hth

theorem InitLaw.of_none (h : s.groupSet = none) : InitLaw s := by
  intro gs hgs
  rw [h] at hgs
  cases hgs

/-! ## Set-up -/

/-- The set-up of a thread in `s` gives the group its flags, unless it is left early. -/
theorem callThread_flagged (htyped : ∀ es, s.group? g = some es → es.WellTyped M) (threadId : ℕ) :
    (callThread (haswell M).setupCountersThread threadId g).wp
      (fun _ s' => Grows s.core s'.core ∧ (LeftEarly M s.core s'.core ∨
        ∀ es', s'.group? g = some es' → es'.Flagged threadId)) (fun _ _ => False) s := by
  unfold callThread onSlots
  simp only [Prog.wp_bind, wp_theGroupSet, wp_groupAt, Prog.wp_orOutOfBounds, Prog.wp_zoom,
    Prog.wp_call]
  intro gs _ th _ _ es hes
  have hslots : ((s.group? g).map PerfmonEventSet.events).getD [] = es.events :=
    congrArg (fun o => (Option.map PerfmonEventSet.events o).getD []) hes
  rw [hslots]
  have hput : ∀ p : Core × List Slot, Grows s.core p.1 →
      (LeftEarly M s.core p.1 ∨
        Prog.CellsDone (FlagSet threadId es.regTypeMask) es.numberOfEvents es.events p.2) →
      Grows s.core (s.putSlots g p).core ∧ (LeftEarly M s.core (s.putSlots g p).core ∨
        ∀ es', (s.putSlots g p).group? g = some es' → es'.Flagged threadId) := by
    intro p hgrows hp
    refine ⟨hgrows, hp.imp_right fun hdone es' hes' => ?_⟩
    have hgroup : (s.putSlots g p).group? g = some { es with events := p.2 } := by
      have hput := EventsKept.group?_modifyGroup (g := g)
        (fun es : PerfmonEventSet => { es with events := p.2 }) { s with core := p.1 } g
      have hcore : ({ s with core := p.1 } : Perfmon).group? g = some es := hes
      rw [hcore, Option.map_some, if_pos rfl] at hput
      exact hput
    obtain rfl := Option.some.inj (hgroup.symm.trans hes')
    exact .of_done (htyped es hes) hdone
  exact Prog.wp_mono (haswellSetup_flags (htyped es hes).typed es.numberOfEvents s.core)
    (fun _ p hp => hput p hp.1 (Or.inr hp.2)) fun _ p hp => hput p hp.1 hp.2

theorem setupThread_flagged
    (htyped : 0 ≤ groupId → ∀ es, s.group? groupId.toNat = some es → es.WellTyped M)
    (threadId : ℕ) :
    (perfmonSetupCountersThread M (haswell M) threadId groupId).wp
      (fun _ s' => Grows s.core s'.core ∧ (LeftEarly M s.core s'.core ∨
        ∀ es', s'.group? groupId.toNat = some es' → es'.Flagged threadId))
      (fun r _ => r ≠ 0) s := by
  unfold perfmonSetupCountersThread
  simp only [Prog.wp_bind, wp_theGroupSet, wp_groupAt, Prog.wp_when, Prog.wp_ret]
  refine fun gs _ => ⟨fun _ => by decide, fun _ h0 es _ => ?_⟩
  refine Prog.wp_mono (Prog.wp_and (callThread_flagged (htyped h0) threadId)
    (callThread_setup_nonneg threadId groupId.toNat s)) ?_ fun _ _ h => h.1.elim
  rintro err s1 ⟨h1, hnonneg, -⟩
  rw [Prog.wp_get]
  refine ⟨fun hneg => absurd hnonneg (Int.not_le.mpr hneg), fun _ => ?_⟩
  have hgroup : (s1.modifyGroupSet fun gs => { gs with activeGroup := groupId }).group?
      groupId.toNat = s1.group? groupId.toNat := by
    unfold Perfmon.group? Perfmon.modifyGroupSet
    cases s1.groupSet <;> rfl
  rw [Prog.wp_modify, hgroup]
  exact h1

/-- **A set-up** that is not left early gives its group all flags. -/
theorem perfmonSetupCounters_flagged (h : s.EachGroup (PerfmonEventSet.WellTyped M))
    (groupId : Int) :
    (perfmonSetupCounters M (haswell M) groupId).wp
      (fun _ s' => LeftEarly M s.core s'.core ∨
        ∀ gs', s'.groupSet = some gs' → ∀ es', s'.group? groupId.toNat = some es' →
          ∀ th ∈ gs'.threads, es'.Flagged th.threadId)
      (fun _ _ => True) s := by
  unfold perfmonSetupCounters
  simp only [Prog.wp_bind, wp_requireInit, Prog.wp_when, Prog.wp_ret]
  refine ⟨fun gs hgs => ⟨fun _ => trivial, fun hlt => ?_⟩, fun _ => trivial⟩
  have htyped : 0 ≤ groupId → ∀ es, s.group? groupId.toNat = some es → es.WellTyped M := by
    intro h0 es hes
    rw [Perfmon.group?, hgs, Option.bind_some] at hes
    exact h gs hgs groupId.toNat (by omega) es hes
  refine Prog.wp_mono (Prog.wp_foldlM
    (I := fun seen s1 => EventsKept FlagsKept s s1 ∧ Grows s.core s1.core ∧
      (LeftEarly M s.core s1.core ∨
        ∀ th ∈ seen, ∀ es', s1.group? groupId.toNat = some es' → es'.Flagged th.threadId))
    (R := fun _ _ => True) ?_ ?_) ?_ fun _ _ h => h
  · rintro seen th _ s1 - ⟨hkept, hgrows, hseen⟩
    have htyped1 : 0 ≤ groupId → ∀ es, s1.group? groupId.toNat = some es → es.WellTyped M := by
      intro h0 es hes
      obtain ⟨es0, hes0, hrel⟩ := hkept.old hes
      exact (htyped h0 es0 hes0).kept hrel
    rw [Prog.wp_bind, Prog.wp_call]
    refine Prog.wp_mono (Prog.wp_and (setupThread_flagged htyped1 th.threadId)
      (FlagsKept.order.calls.perfmonSetupCountersThread (B := haswell M) (M := M)
        haswell_setup_flagsKept th.threadId groupId s1)) ?_ ?_
    · rintro _ s2 ⟨⟨hgrows2, hth⟩, hkept2⟩
      rw [Prog.wp_when]
      refine ⟨fun h => absurd rfl h, fun _ => ⟨EventsKept.trans FlagsKept.trans _ _ _ hkept hkept2,
        Grows.trans _ _ _ hgrows hgrows2, ?_⟩⟩
      rcases hseen with hearly | hseen
      · exact Or.inl (hearly.of_left hgrows hgrows2)
      rcases hth with hearly | hth
      · exact Or.inl (hearly.of_right hgrows hgrows2)
      · refine Or.inr fun th' hmem es' hes' => ?_
        rcases List.mem_append.mp hmem with hbefore | hlast
        · obtain ⟨es1, hes1, hrel⟩ := hkept2.old hes'
          exact (hseen th' hbefore es1 hes1).kept hrel
        · obtain rfl := List.mem_singleton.mp hlast
          exact hth es' hes'
    · rintro r s2 ⟨hne, -⟩
      rw [Prog.wp_when]
      exact ⟨fun _ => trivial, fun hzero => absurd hne hzero⟩
  · exact ⟨.refl FlagsKept.refl s, Grows.refl _, Or.inr fun _ h => absurd h List.not_mem_nil⟩
  · rintro _ s1 ⟨hkept, -, hseen⟩
    rw [wp_groupAt]
    intro _ es hes
    unfold setState
    rw [Prog.wp_modify]
    refine hseen.imp_right fun hflags gs' hgs' es' hes' th hth => ?_
    have hframe : (s1.modifyGroup groupId.toNat fun es =>
        { es with state := .setup }).control.frame = s.control.frame :=
      (EventsKept.frame_modifyGroup _ s1).trans hkept.frame
    obtain ⟨gs1, hgs1, -, hthreads⟩ := groupSet_of_frame hframe hgs
    obtain rfl : gs1 = gs' := Option.some.inj (hgs1.symm.trans hgs')
    rw [EventsKept.group?_modifyGroup, hes, Option.map_some, if_pos rfl] at hes'
    obtain rfl := Option.some.inj hes'
    exact hflags th (hthreads ▸ hth) es hes

/-! ## The other calls -/

theorem wellTyped_added {eventString : List Char} {force : Int} {es : PerfmonEventSet}
    (h : AddedGroup M s eventString force es) : es.WellTyped M := by
  obtain ⟨gs, cpu, c, parsed, hparsed, -, hevents, -, hmask⟩ := h.parsed
  have hempty : Fresh M [] 0 := ⟨by simp, by simp, by simp⟩
  have hwp := addEvents_fresh M (ρ := Int) cpu force gs.numberOfActiveGroups
    (eventString.splitOn ',') 0 ⟨[], 0, 0⟩ s.core hempty
  have hfresh := Prog.wp_done hwp hparsed.events
  rw [← hevents, ← hmask] at hfresh
  exact ⟨hfresh.typed, hfresh.masked⟩

/-- A new group is not set up yet. -/
theorem InitLaw.addEventSet (h : InitLaw s) (hc : s.control.Consistent) {eventString : List Char}
    {force r : Int} (hs : AddOutcome M s eventString force r s') : InitLaw s' := by
  rcases hs with ⟨-, rfl⟩ | ⟨gs, cpu, c, parsed, hread, hend⟩
  · exact h
  have hgs := consistent_of_control (hc _ (control_groupSet hread.groupSet))
  obtain ⟨-, hcount, -, -⟩ := Control.allocate_consistent (M := M) hgs
  have hthreads : (gs.allocate M).threads = gs.threads := by
    unfold PerfmonGroupSet.allocate
    split
    · rfl
    · split <;> rfl
  have hold : ∀ g < gs.numberOfActiveGroups, ∀ es, gs.groups[g]? = some es → es.state = .setup →
      ∀ th ∈ (gs.allocate M).threads, es.Flagged th.threadId := by
    intro g hg es hes hsetup th hth
    exact h gs hread.groupSet g hg es hes hsetup th (hthreads ▸ hth)
  rcases hend with ⟨-, -, rfl⟩ | ⟨-, -, rfl⟩
  · intro gs' hgs' g hg es' hes'
    obtain rfl : gs.filled M parsed = gs' := Option.some.inj hgs'
    have hlt : g < gs.numberOfActiveGroups := hcount ▸ hg
    rw [filled_of_lt hgs hlt] at hes'
    exact hold g hlt es' hes'
  · intro gs' hgs' g hg es' hes' hsetup
    obtain rfl : (gs.filled M parsed).committed gs.numberOfActiveGroups = gs' :=
      Option.some.inj hgs'
    have hle : g < gs.numberOfActiveGroups + 1 := hcount ▸ hg
    rcases Nat.lt_or_ge g gs.numberOfActiveGroups with hlt | hge
    · rw [committed_of_ne (by omega), filled_of_lt hgs hlt] at hes'
      exact hold g hlt es' hes' hsetup
    · obtain rfl : gs.numberOfActiveGroups = g := by omega
      obtain ⟨es, hes, -⟩ := filled_self (M := M) parsed hgs
      rw [committed_self hes] at hes'
      obtain rfl := Option.some.inj hes'
      cases hsetup

theorem InitLaw.init (h : InitLaw s) {B : Backend} (cpus : List ℕ) :
    (perfmonInit M B cpus).wp (fun _ s' => InitLaw s') (fun _ s' => InitLaw s') s := by
  cases hgs : s.groupSet with
  | some gs =>
      unfold perfmonInit
      rw [Prog.wp_bind, Prog.wp_get, hgs]
      exact h
  | none =>
      refine Prog.wp_mono (perfmonInit_control cpus s) (fun _ s1 h1 => ?_) fun _ s1 h1 => ?_
      · obtain ⟨-, gs, hk, -, hn, -⟩ := h1
        intro gs' hgs' g hg
        have hsame := congrArg Control.groupSet hk
        rw [control_groupSet hgs'] at hsame
        have hcount : gs'.control.numberOfActiveGroups = gs.numberOfActiveGroups := by
          rw [Option.some.inj hsame]
        have hlt : g < gs'.control.numberOfActiveGroups := hg
        omega
      · have hnone : s.control.groupSet = none := by simp [Perfmon.control, hgs]
        exact .of_none (groupSet_of_control_none (by rw [h1, hnone]))

theorem inState_setActive {k : Control} {state : GroupState} :
    (k.setActive groupId).InState g state ↔ k.InState g state := by
  unfold Control.InState Control.group? Control.setActive Control.modifyGroupSet
  cases k.groupSet <;> rfl

theorem InitLaw.setup (h : InitLaw s) (htyped : s.EachGroup (PerfmonEventSet.WellTyped M))
    (hc : s.control.Consistent) (groupId : Int) :
    (perfmonSetupCounters M (haswell M) groupId).wp
      (fun _ s' => ¬LeftEarly M s.core s'.core → InitLaw s') (fun _ s' => InitLaw s') s := by
  refine Prog.wp_mono (Prog.wp_and (Prog.wp_and (perfmonSetupCounters_control groupId s)
    (perfmonSetupCounters_flagged htyped groupId)) (Prog.wp_and
      (FlagsKept.order.calls.perfmonSetupCounters haswell_setup_flagsKept groupId s)
      (perfmonSetupCounters_returns groupId s))) ?_ ?_
  · rintro _ s' ⟨⟨hsetup, hflags⟩, hkept, -⟩ hnot
    refine h.kept hkept fun g hin => ?_
    by_cases hg : g = groupId.toNat
    · subst hg
      exact Or.inr (hflags.resolve_left hnot)
    · left
      rw [hsetup.eq hc] at hin
      rcases hin.of_setState with ⟨heq, -⟩ | ⟨-, hin⟩
      · exact absurd heq.symm hg
      · exact inState_setActive.mp hin
  · rintro r s' ⟨-, -, rfl⟩
    exact h

theorem started_setup {k k' : Control} (h : k.Started M k') (hin : k'.InState g .setup) :
    k.InState g .setup := by
  obtain ⟨a, -, -, rfl⟩ := h
  have hset : (k.setState a .start).InState g .setup :=
    (Control.inState_modifyGroup (k := k.setState a .start) (g := a)
      (f := fun es => { es with timer := { es.timer with start := M.tsc k.stamps } })
      fun _ => rfl).mp hin
  rcases hset.of_setState with ⟨-, hstate⟩ | ⟨-, hin⟩
  · cases hstate
  · exact hin

theorem InitLaw.start (h : InitLaw s) :
    (perfmonStartCounters M (haswell M)).wp (fun _ s' => InitLaw s' ∧ EventsKept FlagsKept s s')
      (fun _ s' => InitLaw s' ∧ EventsKept FlagsKept s s') s := by
  refine Prog.wp_mono (Prog.wp_and (perfmonStartCounters_control s)
    (FlagsKept.order.calls.perfmonStartCounters haswell_start_flagsKept s)) ?_ ?_
  · rintro _ s' ⟨hstarted, hkept⟩
    exact ⟨h.kept hkept fun g hin => Or.inl (started_setup hstarted hin), hkept⟩
  · rintro r s' ⟨⟨-, hk⟩, hkept⟩
    exact ⟨h.kept hkept fun g hin => Or.inl (hk ▸ hin), hkept⟩

theorem InitLaw.read (h : InitLaw s) (groupId threadId : Int) :
    (perfmonReadCountersOf (haswell M) groupId threadId).wp
      (fun _ s' => InitLaw s' ∧ EventsKept FlagsKept s s')
      (fun _ s' => InitLaw s' ∧ EventsKept FlagsKept s s') s := by
  refine Prog.wp_mono (Prog.wp_and (perfmonReadCountersOf_control groupId threadId s)
    (FlagsKept.order.calls.perfmonReadCountersOf haswell_read_flagsKept groupId threadId s)) ?_ ?_
  · rintro _ s' ⟨hk, hkept⟩
    exact ⟨h.kept hkept fun g hin => Or.inl (hk ▸ hin), hkept⟩
  · rintro r s' ⟨hk, hkept⟩
    exact ⟨h.kept hkept fun g hin => Or.inl (hk ▸ hin), hkept⟩

end Law

/-! ## Runs -/

/-- The active group is started. -/
def Perfmon.ActiveStarted (s : Perfmon) : Prop :=
  ∃ a ∈ s.control.active, s.control.InState a .start

instance (s : Perfmon) : Decidable s.ActiveStarted :=
  inferInstanceAs (Decidable (∃ a ∈ s.control.active, s.control.InState a .start))

/-- The set-up of group `g` in `s` does not fail where an error ends it. -/
def SetsUpWhole (M : Machine) (s : Perfmon) (g : Int) : Prop :=
  ∀ p ∈ returns (perfmonSetupCounters M (haswell M) g) s, ¬LeftEarly M s.core p.2.core

instance (M : Machine) (s : Perfmon) (g : Int) : Decidable (SetsUpWhole M s g) :=
  inferInstanceAs (Decidable (∀ p ∈ returns (perfmonSetupCounters M (haswell M) g) s, _))

/-- The calls of one measurement that keep the flags: no started group is stopped, and no set-up
is left early. -/
def KeepsFlags (M : Machine) (s : Perfmon) : Call → Prop
  | .init _ | .addEventSet _ _ | .startCounters | .readCounters => True
  | .setupCounters groupId => SetsUpWhole M s groupId
  | .stopCounters => ¬s.ActiveStarted
  | _ => False

instance (M : Machine) (s : Perfmon) : (call : Call) → Decidable (KeepsFlags M s call)
  | .init _ | .addEventSet _ _ | .startCounters | .readCounters => inferInstanceAs (Decidable True)
  | .setupCounters groupId => inferInstanceAs (Decidable (SetsUpWhole M s groupId))
  | .stopCounters => inferInstanceAs (Decidable ¬s.ActiveStarted)
  | .finalize | .startGroupCounters _ | .readGroupCounters _ => inferInstanceAs (Decidable False)
  | .readGroupThreadCounters _ _ | .readCountersCpu _ => inferInstanceAs (Decidable False)
  | .stopGroupCounters _ | .switchActiveGroup _ => inferInstanceAs (Decidable False)

/-- What the flags rest on in every state -/
structure FlagsInv (M : Machine) (s : Perfmon) : Prop where
  consistent : s.control.Consistent
  wellTyped : s.EachGroup (PerfmonEventSet.WellTyped M)
  law : InitLaw s

theorem eventsKept_wellTyped {s s' : Perfmon} (h : s.EachGroup (PerfmonEventSet.WellTyped M))
    (hkept : EventsKept FlagsKept s s') : s'.EachGroup (PerfmonEventSet.WellTyped M) :=
  h.kept (fun _ _ hes => hes.kept) hkept

theorem perfmonStopCounters_unstarted {B : Backend} {s : Perfmon} (h : ¬s.ActiveStarted) :
    (perfmonStopCounters M B).wp (fun _ s' => s' = s) (fun _ s' => s' = s) s := by
  unfold perfmonStopCounters
  simp only [Prog.wp_bind, wp_requireInit, wp_groupAt, Prog.wp_when, Prog.wp_ret]
  refine ⟨fun gs hgs => ⟨fun _ => trivial, fun h0 _ es hes => ⟨fun _ => trivial, fun hstart => ?_⟩⟩,
    fun _ => trivial⟩
  have hstate : es.state = .start := not_not.mp hstart
  have hactive := control_active hgs (Int.not_lt.mp h0)
  exact absurd ⟨_, hactive, hstate ▸ control_inState hes⟩ h

/-- **One step** of a run that keeps the flags -/
theorem FlagsInv.step {s s' : Perfmon} {call : Call} (h : FlagsInv M s)
    (hguard : KeepsFlags M s call) (hs : Step M (haswell M) s call s') : FlagsInv M s' := by
  have hc : s'.control.Consistent :=
    hs.moves.invariant (fun _ _ hk hm => hm.consistent hk) h.consistent
  have hkeeps : ∀ p : Perfmon, InitLaw p ∧ EventsKept FlagsKept s p →
      p.control.Consistent → FlagsInv M p :=
    fun p hp hcp => ⟨hcp, eventsKept_wellTyped h.wellTyped hp.2, hp.1⟩
  cases call with
  | init cpus =>
      have hlaw := hs.wp (P := fun s' => InitLaw s') (h.law.init cpus)
      have htyped := hs.wp (P := fun s' => s'.EachGroup (PerfmonEventSet.WellTyped M))
        (perfmonInit_eachGroup h.wellTyped cpus)
      exact ⟨hc, htyped, hlaw⟩
  | addEventSet eventString force =>
      obtain ⟨r, hr⟩ := hs
      have hadd := perfmonAddEventSet_returns hr
      exact ⟨hc, h.wellTyped.addEventSet h.consistent (fun _ => wellTyped_added) hadd,
        h.law.addEventSet h.consistent hadd⟩
  | setupCounters groupId =>
      have hkept := hs.wp (P := fun s' => EventsKept FlagsKept s s')
        (FlagsKept.order.calls.perfmonSetupCounters haswell_setup_flagsKept groupId s)
      obtain ⟨r, hr⟩ := hs
      have hlaw := of_returns (P := fun _ s' => ¬LeftEarly M s.core s'.core → InitLaw s')
        (Prog.wp_mono (h.law.setup h.wellTyped h.consistent groupId) (fun _ _ h => h)
          fun _ _ h _ => h) hr
      exact ⟨hc, eventsKept_wellTyped h.wellTyped hkept, hlaw (hguard _ hr)⟩
  | startCounters =>
      exact hkeeps s' (hs.wp (P := fun s' => InitLaw s' ∧ EventsKept FlagsKept s s') h.law.start) hc
  | readCounters =>
      exact hkeeps s' (hs.wp (P := fun s' => InitLaw s' ∧ EventsKept FlagsKept s s')
        (h.law.read _ _)) hc
  | stopCounters =>
      have hsame := hs.wp (P := fun s' => s' = s) (perfmonStopCounters_unstarted hguard)
      rw [hsame]
      exact h
  | finalize | startGroupCounters _ | readGroupCounters _ | readGroupThreadCounters _ _
  | readCountersCpu _ | stopGroupCounters _ | switchActiveGroup _ => exact hguard.elim

/-- **The groups in `SETUP` have their flags in every state a run reaches**, as long as no started
group is stopped and no set-up is left early. -/
theorem initLaw_of_run {s t : Perfmon} (h0 : Booted s)
    (h : Run (Step M (haswell M)) (KeepsFlags M) s t) : InitLaw t := by
  have hbooted : FlagsInv M s := ⟨h0.consistent, .of_none h0.groupSet, .of_none h0.groupSet⟩
  have hstep : ∀ (u : Perfmon) (call : Call) (v : Perfmon), FlagsInv M u → KeepsFlags M u call →
      Step M (haswell M) u call v → FlagsInv M v := fun _ _ _ hu hguard hs => hu.step hguard hs
  exact (Run.invariant (t := t) hbooted hstep h).law

theorem initLaw_setup :
    InitLaw ((Perfmon.afterIf haswellMachine (haswell haswellMachine) (KeepsFlags haswellMachine)
      [.init [0], .addEventSet "UOPS_ISSUED_ANY:PMC0".toList 0, .setupCounters 0, .stopCounters]
      Perfmon.boot).get (by decide +kernel)) :=
  initLaw_of_run booted_boot (Run.of_afterIf (Option.some_get _).symm)

/-- One set-up and one measured interval -/
def measuredOnce : List Call :=
  [.init [0], .addEventSet "UOPS_ISSUED_ANY:PMC0".toList 0, .setupCounters 0, .startCounters,
    .stopCounters]

/-- After a stop the group is set up and its event has no flag. A second start and stop measure
nothing. -/
theorem not_initLaw_stopped :
    ∃ s t, Run (Step haswellMachine (haswell haswellMachine)) (fun _ _ => True) Perfmon.boot s ∧
      Run (Step haswellMachine (haswell haswellMachine)) (fun _ _ => True) s t ∧
      ¬InitLaw s ∧ t.intervals.map (·.init 0 0) = [true, false] := by
  have hrun : ((Perfmon.after haswellMachine (haswell haswellMachine) measuredOnce
      Perfmon.boot).bind fun s => (Perfmon.after haswellMachine (haswell haswellMachine)
        [.startCounters, .stopCounters] s).bind fun t => s.groupSet.bind fun gs =>
        gs.groups[0]?.bind fun es => es.events[0]?.bind fun slot => slot.bind fun e =>
        gs.threads[0]?.map fun th =>
        decide (0 < gs.numberOfActiveGroups ∧ es.state = .setup ∧ 0 < es.numberOfEvents ∧
          e.type ≠ .notype ∧ (e.threadCounter th.threadId).init = false ∧
          t.intervals.map (·.init 0 0) = [true, false])) = some true := by decide +kernel
  obtain ⟨s, hs, hrun⟩ := Option.bind_eq_some_iff.mp hrun
  obtain ⟨t, ht, hrun⟩ := Option.bind_eq_some_iff.mp hrun
  obtain ⟨gs, hgs, hrun⟩ := Option.bind_eq_some_iff.mp hrun
  obtain ⟨es, hes, hrun⟩ := Option.bind_eq_some_iff.mp hrun
  obtain ⟨_, hevent, hrun⟩ := Option.bind_eq_some_iff.mp hrun
  obtain ⟨e, rfl, hrun⟩ := Option.bind_eq_some_iff.mp hrun
  obtain ⟨th, hth, hholds⟩ := Option.map_eq_some_iff.mp hrun
  obtain ⟨hgroup, hstate, hnumber, htype, hflag, hintervals⟩ := of_decide_eq_true hholds
  refine ⟨s, t, Run.of_afterIf hs, Run.of_afterIf ht, fun hlaw => ?_, hintervals⟩
  have hset := hlaw gs hgs 0 hgroup es hes hstate th (List.mem_of_getElem? hth) 0 hnumber e hevent
    htype
  rw [hflag] at hset
  cases hset

end Likwid
