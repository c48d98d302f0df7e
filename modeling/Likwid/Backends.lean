import Likwid.Perfmon

/-!
# The Haswell and the Nehalem backend

The thread routines of the two architectures meet what `Backend` asks of them:
no set-up returns a negative code, and no routine but a start touches the
results of an event.
-/

namespace Likwid

variable {M : Machine} {thread cpu : ℕ} {mask : BitVec 128} {lock : Bool}

/-! ## Set-up -/

/-- A routine whose early returns are not negative. -/
def ReturnsNonneg {σ α : Type} (m : Prog Int σ α) : Prop :=
  ∀ s, m.wp (fun _ _ => True) (fun r _ => 0 ≤ r) s

namespace ReturnsNonneg

variable {σ τ α β : Type}

theorem pure (a : α) : ReturnsNonneg (Pure.pure a : Prog Int σ α) := Prog.ReturnsIn.pure a

theorem get : ReturnsNonneg (Prog.get : Prog Int σ σ) := Prog.ReturnsIn.get

theorem halt (h : Prog.Halt) : ReturnsNonneg (Prog.halt h : Prog Int σ α) := Prog.ReturnsIn.halt h

theorem bind {m : Prog Int σ β} {f : β → Prog Int σ α} (hm : ReturnsNonneg m)
    (hf : ∀ b, ReturnsNonneg (f b)) : ReturnsNonneg (m >>= f) :=
  Prog.ReturnsIn.bind hm hf

theorem when {c : Prop} [Decidable c] {m : Prog Int σ Unit} (h : ReturnsNonneg m) :
    ReturnsNonneg (Prog.when c m) :=
  Prog.ReturnsIn.when fun _ => h

theorem call {m : Prog Int σ Unit} : ReturnsNonneg (Prog.call (0 : Int) m : Prog Int σ Int) :=
  Prog.ReturnsIn.call

theorem onFst {m : Prog Int σ α} (h : ReturnsNonneg m) :
    ReturnsNonneg (Prog.onFst m : Prog Int (σ × τ) α) :=
  Prog.ReturnsIn.onFst h

theorem forCells {body : β → Prog Int (σ × τ) β} (h : ∀ b, ReturnsNonneg (body b)) :
    ∀ (n : ℕ) (b : β), ReturnsNonneg (Prog.forCells body n b) :=
  Prog.ReturnsIn.forCells h

end ReturnsNonneg

theorem check_nonneg (err : Int) : ReturnsNonneg (checkAndReturnError M err) :=
  ReturnsNonneg.bind ReturnsNonneg.get fun _ => ReturnsNonneg.when fun _ => Int.natCast_nonneg _

theorem checkRead_nonneg (dev : PciDeviceIndex) (reg : ℕ) :
    ReturnsNonneg (checkRead M cpu dev reg) :=
  ReturnsNonneg.bind (fun _ => trivial) fun _ =>
    ReturnsNonneg.bind (check_nonneg _) fun _ => ReturnsNonneg.pure _

theorem checkWrite_nonneg (dev : PciDeviceIndex) (reg : ℕ) (data : Word) :
    ReturnsNonneg (checkWrite M cpu dev reg data) :=
  ReturnsNonneg.bind (fun _ => trivial) fun _ => check_nonneg _

theorem dropped_nonneg (m : Prog Int Core Unit) : ReturnsNonneg (dropped m) :=
  ReturnsNonneg.bind ReturnsNonneg.call fun _ => ReturnsNonneg.pure _

theorem fixedSetup_nonneg (index : RegisterIndex) (event : PerfmonEvent) :
    ReturnsNonneg (fixedSetup cpu index event) := by
  refine ReturnsNonneg.bind ReturnsNonneg.get fun c => ?_
  split
  · exact ReturnsNonneg.bind (fun _ => trivial) fun _ => ReturnsNonneg.pure _
  · exact ReturnsNonneg.pure _

theorem hasepFreezeUncore_nonneg : ReturnsNonneg (hasepFreezeUncore M cpu mask lock) := by
  unfold hasepFreezeUncore
  split
  · exact checkWrite_nonneg _ _ _
  · exact ReturnsNonneg.when (ReturnsNonneg.bind (checkRead_nonneg _ _) fun _ =>
      ReturnsNonneg.when (checkWrite_nonneg _ _ _))

theorem haswellSetupCase_nonneg (index : RegisterIndex) (row : RegisterMap)
    (event : PerfmonEvent) (unit : HaswellUnit) :
    ReturnsNonneg (haswellSetupCase M cpu lock index row event unit) := by
  cases unit with
  | fixed => exact fixedSetup_nonneg index event
  | cbox =>
      refine ReturnsNonneg.bind ReturnsNonneg.get fun c => ?_
      rcases c.haswellCboxSetup with _ | _ | _
      · exact ReturnsNonneg.halt _
      · exact dropped_nonneg _
      · exact dropped_nonneg _
  | uboxfix =>
      exact ReturnsNonneg.bind (ReturnsNonneg.when (checkWrite_nonneg _ _ _)) fun _ =>
        ReturnsNonneg.pure _
  | mboxfix =>
      exact ReturnsNonneg.bind ReturnsNonneg.get fun _ =>
        ReturnsNonneg.bind (ReturnsNonneg.when (checkWrite_nonneg _ _ _)) fun _ =>
          ReturnsNonneg.pure _
  | power | thermal | wbox0fix | qboxfix | other => exact ReturnsNonneg.pure _
  | _ => exact dropped_nonneg _

theorem haswellSetup_nonneg (n : ℕ) :
    ReturnsNonneg (perfmonSetupCounterThreadHaswell M thread cpu mask n) := by
  refine ReturnsNonneg.bind ReturnsNonneg.get fun p => ReturnsNonneg.bind (.onFst ?_) fun _ =>
    ReturnsNonneg.bind (.forCells (fun flags => ?_) n 0) fun _ =>
      .when (.onFst (checkWrite_nonneg _ _ _))
  · refine .bind (.when (.bind (checkWrite_nonneg _ _ _) fun _ => ?_)) fun _ =>
      hasepFreezeUncore_nonneg
    exact .bind (checkWrite_nonneg _ _ _) fun _ => checkWrite_nonneg _ _ _
  · refine .bind .get fun p => ?_
    dsimp only
    split
    · exact .bind (fun _ => by simp [counterMap]) fun row => .bind (fun _ => trivial) fun _ =>
        .bind (.onFst (haswellSetupCase_nonneg _ _ _ _)) fun _ => .pure _
    · exact .pure _

theorem nehalemSetupCase_nonneg (index : RegisterIndex) (event : PerfmonEvent)
    (type : RegisterType) :
    ReturnsNonneg (nehalemSetupCase M cpu lock index event type) := by
  unfold nehalemSetupCase
  cases type with
  | pmc => exact dropped_nonneg _
  | fixed => exact fixedSetup_nonneg index event
  | uncore =>
      dsimp only
      split
      · split
        · exact dropped_nonneg _
        · exact .bind (checkWrite_nonneg _ _ _) fun _ => .pure _
      · exact .pure _
  | _ => exact .pure _

theorem nehalemSetup_nonneg (n : ℕ) :
    ReturnsNonneg (perfmonSetupCounterThreadNehalem M thread cpu mask n) := by
  refine .bind .get fun p => .bind (.onFst ?_) fun _ =>
    .bind (.forCells (fun flags => ?_) n 0) fun _ => .when (.onFst (checkWrite_nonneg _ _ _))
  · exact .bind (.when (.bind (checkWrite_nonneg _ _ _) fun _ => checkWrite_nonneg _ _ _)) fun _ =>
      .when (checkWrite_nonneg _ _ _)
  · refine .bind .get fun p => ?_
    dsimp only
    split
    · exact .bind (fun _ => trivial) fun _ =>
        .bind (.onFst (nehalemSetupCase_nonneg _ _ _)) fun _ => .pure _
    · exact .pure _

/-! ## Dropped events

The reset of the uncore counters at a start touches no record: at most it marks
an event as unusable. -/

section Dropped

variable {R : PerfmonEventSetEntry → PerfmonEventSetEntry → Prop}
  (hr : ∀ e, R e e) (ht : ∀ a b c, R a b → R b c → R a c)
  (hnotype : ∀ e : PerfmonEventSetEntry, R e { e with type := .notype })

include hnotype

theorem markNotype_slots (index : RegisterIndex) :
    Prog.Respects ((Prog.Flow.of (Prog.CellsRel R) (Prog.CellsRel.refl hr)
      (Prog.CellsRel.trans ht)).snd : Prog.Flow (Core × List Slot)) (markNotype index) := by
  rintro ⟨c, slots⟩
  unfold markNotype Prog.wp
  by_cases hlt : index < slots.length
  · simp only [hlt, if_true]
    intro i
    rw [List.getElem?_modify]
    cases hi : slots[i]? with
    | none => exact .none
    | some o =>
        refine .some ?_
        cases o with
        | none => split <;> exact .none
        | some e =>
            split
            · exact .some (hnotype e)
            · exact .some (hr e)
  · simp [hlt]

theorem resetCtr_slots (n : ℕ) (lock : Bool) :
    Prog.Respects ((Prog.Flow.of (Prog.CellsRel R) (Prog.CellsRel.refl hr)
      (Prog.CellsRel.trans ht)).snd : Prog.Flow (Core × List Slot))
      (hasepUnfreezeUncoreAndResetCtr M cpu mask n lock) := by
  refine .when fun _ => .bind (.foldlM (fun _ i _ => ?_) ()) fun _ => .onFst_snd _
  refine .bind .get fun p => .bind (.orOutOfBounds _) fun e => .bind (.orUndefined _) fun row =>
    .when fun _ => .bind (.onFst_snd _) fun err =>
      .ite (fun _ => markNotype_slots hr ht hnotype _) fun _ => .when fun _ =>
        .bind (.onFst_snd _) fun _ => .when fun _ => markNotype_slots hr ht hnotype _

end Dropped

/-! ## Entries

A relation that the assignments to a record keep is kept by the routines made
of them. `EntryRel` lists the assignments all routines share; a start, a stop
and a set-up ask for one more each. -/

structure EntryRel (thread : ℕ) (R : PerfmonEventSetEntry → PerfmonEventSetEntry → Prop) :
    Prop where
  refl : ∀ e, R e e
  trans : ∀ a b c, R a b → R b c → R a c
  /-- The counts of a record may change. -/
  counter : ∀ e (f : PerfmonCounter → PerfmonCounter),
    (∀ r, (f r).init = r.init ∧ (f r).fullData = r.fullData) → R e (e.onCounter thread f)

section Routines

variable {R : PerfmonEventSetEntry → PerfmonEventSetEntry → Prop}

/-- The flow of a routine on one entry, and that of one on all slots. -/
abbrev EntryRel.flow (h : EntryRel thread R) : Prog.Flow (Core × PerfmonEventSetEntry) :=
  (Prog.Flow.of R h.refl h.trans).snd

abbrev EntryRel.slots (h : EntryRel thread R) : Prog.Flow (Core × List Slot) :=
  (Prog.Flow.of (Prog.CellsRel R) (Prog.CellsRel.refl h.refl) (Prog.CellsRel.trans h.trans)).snd

variable (h : EntryRel thread R)

include h

theorem EntryRel.setStart (v : Word) :
    Prog.Respects h.flow (Prog.onSnd (Prog.modify (·.setStart thread v)) : EventProg Unit) :=
  Prog.Respects.onSnd_modify fun e => h.counter e _ fun _ => ⟨rfl, rfl⟩

theorem EntryRel.setCounter (v : Word) :
    Prog.Respects h.flow (Prog.onSnd (Prog.modify (·.setCounter thread v)) : EventProg Unit) :=
  Prog.Respects.onSnd_modify fun e => h.counter e _ fun _ => ⟨rfl, rfl⟩

theorem EntryRel.addOverflow :
    Prog.Respects h.flow (Prog.onSnd (Prog.modify (·.addOverflow thread)) : EventProg Unit) :=
  Prog.Respects.onSnd_modify fun e => h.counter e _ fun _ => ⟨rfl, rfl⟩

/-! ### Set-up -/

section Setup

variable (hinit : ∀ e, R e (e.setInit thread true))

include hinit

theorem haswellSetup_entries (n : ℕ) :
    Prog.Respects h.slots (perfmonSetupCounterThreadHaswell M thread cpu mask n) := by
  refine .bind .get fun p => .bind (.onFst_snd _) fun _ =>
    .bind (.forCells_snd h.refl h.trans (fun flags => ?_) n 0) fun _ => .when fun _ => .onFst_snd _
  refine .bind .get fun p => .ite (fun _ => ?_) fun _ => .pure _
  exact .bind (.orUndefined _) fun row => .bind (.onSnd_modify hinit) fun _ =>
    .bind (.onFst_snd _) fun _ => .pure _

theorem nehalemSetup_entries (n : ℕ) :
    Prog.Respects h.slots (perfmonSetupCounterThreadNehalem M thread cpu mask n) := by
  refine .bind .get fun p => .bind (.onFst_snd _) fun _ =>
    .bind (.forCells_snd h.refl h.trans (fun flags => ?_) n 0) fun _ => .when fun _ => .onFst_snd _
  refine .bind .get fun p => .ite (fun _ => ?_) fun _ => .pure _
  exact .bind (.onSnd_modify hinit) fun _ => .bind (.onFst_snd _) fun _ => .pure _

end Setup

/-! ### Read and stop -/

theorem hasepCheckCoreOverflow_entries (offset : ℕ) (result : Word) :
    Prog.Respects h.flow (hasepCheckCoreOverflow M thread cpu offset result) :=
  .bind .get fun _ => .when fun _ => .bind (.onFst_snd _) fun _ =>
    .bind (.when fun _ => h.addOverflow) fun _ => .onFst_snd _

theorem sampleCounter_entries (result stored : Word) :
    Prog.Respects h.flow (sampleCounter thread result stored) :=
  .bind .get fun _ => .bind (.when fun _ => h.addOverflow) fun _ => h.setCounter _

theorem hasUncoreRead_entries (index : RegisterIndex) (clear : Bool) (boxOffset : ℕ) :
    Prog.Respects h.flow (hasUncoreRead M thread cpu index clear boxOffset) := by
  refine .bind (.orUndefined _) fun row => .bind (.onFst_snd _) fun _ => .bind (.onFst_snd _)
    fun counter => .bind .get fun p => .bind (.when fun _ => ?_) fun _ => h.setCounter _
  refine .bind (.onFst_snd _) fun _ => .when fun _ => .bind (.onFst_snd _) fun _ =>
    .when fun _ => ?_
  exact .bind h.addOverflow fun _ => .onFst_snd _

theorem haswellCountCase_entries (clear : Bool) (e : PerfmonEventSetEntry) (row : RegisterMap)
    (unit : HaswellUnit) :
    Prog.Respects h.flow (haswellCountCase M thread cpu mask lock clear e row unit) := by
  have huncore : ∀ offset,
      Prog.Respects h.flow (haswellCountCase.uncore M thread cpu clear e offset) :=
    fun offset => .bind (.call fun s => hasUncoreRead_entries h _ _ _ s) fun _ => .pure _
  cases unit with
  | pmc | fixed =>
      exact .bind (.onFst_snd _) fun _ => .bind (hasepCheckCoreOverflow_entries h _ _) fun _ =>
        h.setCounter _
  | power =>
      exact .when fun _ => .bind (.onFst_snd _) fun _ => .bind (.onFst_snd _) fun _ =>
        sampleCounter_entries h _ _
  | thermal =>
      exact .bind (.onFst_snd _) fun _ => .bind (.onFst_snd _) fun _ => h.setCounter _
  | wbox0fix =>
      exact .when fun _ => .bind (.onFst_snd _) fun _ => sampleCounter_entries h _ _
  | qboxfix =>
      unfold haswellCountCase
      refine .ite (fun _ => ?_) fun _ => .ite (fun _ => ?_) fun _ => h.setCounter _
      · exact .bind (.onFst_snd _) fun _ => h.setCounter _
      · exact .bind (.onFst_snd _) fun _ => h.setCounter _
  | other => exact .pure _
  | _ => exact huncore _

theorem haswellRead_entries (n : ℕ) :
    Prog.Respects h.slots (perfmonReadCountersThreadHaswell M thread cpu mask n) := by
  refine .bind .get fun p => .bind (.onFst_snd _) fun _ => .bind (.onFst_snd _) fun _ =>
    .bind (.forCells_snd h.refl h.trans (fun _ => ?_) n ()) fun _ =>
      .bind (.onFst_snd _) fun _ => .when fun _ => .onFst_snd _
  exact .bind .get fun p => .when fun _ => .bind (.orUndefined _) fun row =>
    haswellCountCase_entries h _ _ _ _

theorem haswellStop_entries (hinit : ∀ e, R e (e.setInit thread false)) (n : ℕ) :
    Prog.Respects h.slots (perfmonStopCountersThreadHaswell M thread cpu mask n) := by
  refine .bind .get fun p => .bind (.when fun _ => .onFst_snd _) fun _ => .bind (.onFst_snd _)
    fun _ => .forCells_snd h.refl h.trans (fun _ => ?_) n ()
  refine .bind .get fun p => .bind (.when fun _ => ?_) fun _ =>
    .when fun _ => .onSnd_modify hinit
  exact .bind (.orUndefined _) fun row => haswellCountCase_entries h _ _ _ _

theorem nehCheckOverflow_entries (status ovfCtrl offset : ℕ) (result : Word) :
    Prog.Respects h.flow (nehCheckOverflow M thread cpu status ovfCtrl offset result) :=
  .bind .get fun _ => .when fun _ => .bind (.onFst_snd _) fun _ => .when fun _ =>
    .bind h.addOverflow fun _ => .onFst_snd _

theorem nehalemCountEvent_entries :
    Prog.Respects h.flow (nehalemCountEvent M thread cpu mask lock ()) := by
  refine .bind .get fun p => .when fun _ => .bind (.orUndefined _) fun row => .bind ?_ fun _ =>
    h.setCounter _
  have hread : ∀ status ovfCtrl offset, Prog.Respects h.flow
      (do
        let result ← Prog.onFst (checkRead M cpu msrDev row.counterRegister)
        nehCheckOverflow M thread cpu status ovfCtrl offset result
        pure result : EventProg Word) :=
    fun _ _ _ => .bind (.onFst_snd _) fun _ => .bind (nehCheckOverflow_entries h _ _ _ _)
      fun _ => .pure _
  unfold nehalemCountCase
  cases p.2.type with
  | pmc | fixed => exact hread _ _ _
  | uncore => exact .ite (fun _ => hread _ _ _) fun _ => .pure _
  | _ => exact .pure _

theorem nehalemRead_entries (n : ℕ) :
    Prog.Respects h.slots (perfmonReadCountersThreadNehalem M thread cpu mask n) :=
  .bind .get fun _ => .bind (.onFst_snd _) fun _ => .bind (.onFst_snd _) fun _ =>
    .bind (.forCells_snd h.refl h.trans (fun _ => nehalemCountEvent_entries h) n ()) fun _ =>
      .bind (.onFst_snd _) fun _ => .onFst_snd _

theorem nehalemStop_entries (n : ℕ) :
    Prog.Respects h.slots (perfmonStopCountersThreadNehalem M thread cpu mask n) :=
  .bind .get fun _ => .bind (.onFst_snd _) fun _ => .bind (.onFst_snd _) fun _ =>
    .forCells_snd h.refl h.trans (fun _ => nehalemCountEvent_entries h) n ()

/-! ### Start -/

section Start

variable (hclear : ∀ e : PerfmonEventSetEntry, (e.threadCounter thread).init = true →
  R e (e.clearData thread))

include hclear

/-- A round of a start loop: nothing for a record that is not set up, else the
resets and then some further assignments. -/
theorem start_round {α : Type} {c : Core} {e : PerfmonEventSetEntry} {index : RegisterIndex}
    {rest : RegisterMap → EventProg α} (hrest : ∀ row, Prog.Respects h.flow (rest row))
    (hinit : (e.threadCounter thread).init = true) :
    (do
      let row ← counterMap M index
      Prog.onSnd (Prog.modify (·.clearData thread))
      rest row : EventProg α).wp (fun _ p => R e p.2) (fun _ p => R e p.2) (c, e) := by
  simp only [Prog.wp_bind, counterMap, Prog.wp_orUndefined, Prog.wp_zoom, Prog.wp_modify]
  intro row _
  exact Prog.wp_mono (hrest row (c, e.clearData thread))
    (fun _ _ h' => h.trans _ _ _ (hclear e hinit) h')
    fun _ _ h' => h.trans _ _ _ (hclear e hinit) h'

omit hclear in
theorem haswellStartCase_entries (e : PerfmonEventSetEntry) (row : RegisterMap)
    (unit : HaswellUnit) :
    Prog.Respects h.flow (haswellStartCase M thread cpu lock e row unit) := by
  cases unit with
  | pmc | fixed => exact .bind (.onFst_snd _) fun _ => .pure _
  | power =>
      exact .bind (.when fun _ => .bind (.onFst_snd _) fun _ => .bind (.onFst_snd _) fun _ =>
        h.setStart _) fun _ => .pure _
  | wbox0fix =>
      exact .bind (.when fun _ => .bind (.onFst_snd _) fun _ => h.setStart _) fun _ => .pure _
  | qboxfix =>
      exact .bind .get fun _ => .bind (.when fun _ => .bind (.onFst_snd _) fun _ => h.setStart _)
        fun _ => .pure _
  | _ => exact .pure _

theorem haswellStartEvent_entries (flags : Word) :
    Prog.Respects h.flow (haswellStartEvent M thread cpu mask lock flags) := by
  rintro ⟨c, e⟩
  unfold haswellStartEvent
  simp only [Prog.wp_bind, Prog.wp_get]
  split
  · next hinit =>
      exact start_round h hclear (fun row => .bind (haswellStartCase_entries h _ _ _) fun _ =>
        .pure _) hinit.1
  · exact h.refl e

theorem haswellStart_entries
    (hnotype : ∀ e : PerfmonEventSetEntry, R e { e with type := .notype }) (n : ℕ) :
    Prog.Respects h.slots (perfmonStartCountersThreadHaswell M thread cpu mask n) :=
  .bind .get fun _ => .bind (.forCells_snd h.refl h.trans
    (haswellStartEvent_entries h hclear) n 0) fun _ =>
      .bind (resetCtr_slots h.refl h.trans hnotype _ _) fun _ =>
        .when fun _ => .bind (.onFst_snd _) fun _ => .onFst_snd _

theorem nehalemStart_entries (n : ℕ) :
    Prog.Respects h.slots (perfmonStartCountersThreadNehalem M thread cpu mask n) := by
  refine .bind .get fun p => .bind (.forCells_snd h.refl h.trans (fun flags => ?_) n (0, 0))
    fun _ => .bind (.onFst_snd _) fun _ => .onFst_snd _
  rintro ⟨c, e⟩
  unfold nehalemStartEvent
  simp only [Prog.wp_bind, Prog.wp_get]
  split
  · next hinit =>
      exact start_round h hclear (fun row => .bind (.onFst_snd _) fun _ => .pure _) hinit.1
  · exact h.refl e

end Start

end Routines

/-! ## Results -/

theorem onCounter_fullDataKept (e : PerfmonEventSetEntry) (f : PerfmonCounter → PerfmonCounter)
    (h : ∀ r, (f r).fullData = r.fullData) : FullDataKept e (e.onCounter thread f) := by
  intro t
  by_cases ht : t = thread
  · subst ht
    rw [PerfmonEventSetEntry.onCounter_self, h]
  · rw [PerfmonEventSetEntry.onCounter_of_ne _ _ _ ht]

theorem entryRel_fullDataKept : EntryRel thread FullDataKept where
  refl := FullDataKept.refl
  trans := FullDataKept.trans
  counter e f h := onCounter_fullDataKept e f fun r => (h r).2

theorem setInit_fullDataKept (b : Bool) (e : PerfmonEventSetEntry) :
    FullDataKept e (e.setInit thread b) :=
  onCounter_fullDataKept e _ fun _ => rfl

theorem entryRel_fullDataStarted : EntryRel thread (FullDataStarted thread) where
  refl := FullDataStarted.refl
  trans := FullDataStarted.trans
  counter e f h := by
    intro t
    by_cases ht : t = thread
    · subst ht
      rw [PerfmonEventSetEntry.onCounter_self]
      exact ⟨(h _).1, Or.inl (h _).2⟩
    · rw [PerfmonEventSetEntry.onCounter_of_ne _ _ _ ht]
      exact ⟨rfl, Or.inl rfl⟩

/-- The resets at the top of a start come after the test of the `init` flag. -/
theorem clearData_fullDataStarted {e : PerfmonEventSetEntry}
    (h : (e.threadCounter thread).init = true) : FullDataStarted thread e (e.clearData thread) := by
  intro t
  by_cases ht : t = thread
  · subst ht
    simp [PerfmonEventSetEntry.clearData, h]
  · simp [PerfmonEventSetEntry.clearData, PerfmonEventSetEntry.onCounter_of_ne _ _ _ ht]

/-! ## The backends -/

def haswell (M : Machine) : Backend where
  initThreadArch := perfmonInitHaswell M
  setupCountersThread := perfmonSetupCounterThreadHaswell M
  startCountersThread := perfmonStartCountersThreadHaswell M
  readCountersThread := perfmonReadCountersThreadHaswell M
  stopCountersThread := perfmonStopCountersThreadHaswell M
  finalizeCountersThread := perfmonFinalizeCountersThreadHaswell M
  setup_nonneg := fun _ _ _ n p => haswellSetup_nonneg n p
  setup_fullData := fun _ _ _ n =>
    haswellSetup_entries entryRel_fullDataKept (setInit_fullDataKept true) n
  start_fullData := fun _ _ _ n => haswellStart_entries entryRel_fullDataStarted
    (fun _ => clearData_fullDataStarted) (fun _ _ => ⟨rfl, Or.inl rfl⟩) n
  read_fullData := fun _ _ _ n =>
    haswellRead_entries entryRel_fullDataKept n
  stop_fullData := fun _ _ _ n =>
    haswellStop_entries entryRel_fullDataKept (setInit_fullDataKept false) n

def nehalem (M : Machine) : Backend where
  initThreadArch := perfmonInitNehalem M
  setupCountersThread := perfmonSetupCounterThreadNehalem M
  startCountersThread := perfmonStartCountersThreadNehalem M
  readCountersThread := perfmonReadCountersThreadNehalem M
  stopCountersThread := perfmonStopCountersThreadNehalem M
  finalizeCountersThread := perfmonFinalizeCountersThreadNehalem M
  setup_nonneg := fun _ _ _ n p => nehalemSetup_nonneg n p
  setup_fullData := fun _ _ _ n =>
    nehalemSetup_entries entryRel_fullDataKept (setInit_fullDataKept true) n
  start_fullData := fun _ _ _ n => nehalemStart_entries entryRel_fullDataStarted
    (fun _ => clearData_fullDataStarted) n
  read_fullData := fun _ _ _ n => nehalemRead_entries entryRel_fullDataKept n
  stop_fullData := fun _ _ _ n => nehalemStop_entries entryRel_fullDataKept n

end Likwid
