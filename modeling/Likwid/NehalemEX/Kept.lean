import Likwid.Gains
import Likwid.Lib.Mask
import Likwid.NehalemEX.Start
import Likwid.RboxPorts

/-!
# Nehalem EX: a start after a set-up

The registers that `perfmon_startCountersThread_nehalemEX` writes, and those that
`perfmon_setupCounterThread_nehalemEX` writes before it. They meet in the two registers that switch
the counting. One of these, `MSR_U_PMON_GLOBAL_CTRL`, also enables the UBOX: the start clears it,
and sets it again with the flags of the UBOX.
-/

namespace Likwid

attribute [local instance] neZero_two neZero_four

/-! ## The registers -/

/-- The registers that a start writes: those that switch the counting, those of the boxes, and the
counters of the core -/
def nexStartRegisters (T : Tables) : List ℕ :=
  [msrUPmonGlobalCtrl, msrPerfGlobalCtrl, msrPerfGlobalOvfCtrl] ++
    (T.counterMap.flatMap fun row =>
      [(T.boxMap row.type).ctrlRegister, (T.boxMap row.type).ovflRegister]) ++
    (T.counterMap.filter fun row => row.type = .pmc ∨ row.type = .fixed).map (·.counterRegister)

/-- All registers behind the control registers of the memory and router boxes -/
def nexSubRegisters : List ℕ :=
  ([0, 1] : List (Fin 2)).flatMap fun number =>
    nexMboxRegisters number ++ nexRboxRegisters number ++
      [MboxReg.addrMatch, .addrMask].map (nexWexMboxRegs number)

/-- The registers that a set-up writes, but for those that switch the counting -/
def nexSetupRegisters (T : Tables) : List ℕ :=
  boxRegisters ++ [msrPerfFixedCtrCtrl, msrS0PmonMmCfg, msrS1PmonMmCfg] ++ nexSubRegisters ++
    T.counterMap.flatMap fun row => [row.configRegister, (T.boxMap row.type).filterRegister1,
      (T.boxMap row.type).filterRegister2]

/-- A register that switches the counting -/
def NexControl (reg : ℕ) : Prop := reg = msrUPmonGlobalCtrl ∨ reg = msrPerfGlobalCtrl

theorem nehalemEX_setup_start : ∀ reg ∈ nexSetupRegisters nehalemEXTables,
    reg ∉ nexStartRegisters nehalemEXTables :=
  Mask.disjoint_of_ofList (by decide +kernel)

theorem nehalemEX_ubox : ∀ row ∈ nehalemEXCounterMap, row.type = .ubox → row.index = 48 := by
  decide +kernel

theorem nehalemEX_ctrl : ∀ row ∈ nehalemEXCounterMap,
    (nehalemEXBoxMap row.type).ovflRegister ≠ msrUPmonGlobalCtrl ∧
      ((nehalemEXBoxMap row.type).ctrlRegister = msrUPmonGlobalCtrl ↔ row.type = .ubox) := by
  decide +kernel

theorem nehalemEX_wbox : ∃ row ∈ nehalemEXCounterMap, row.type = .wbox := by
  decide +kernel

/-! ## What the set-up writes -/

section Setup

variable {M : Machine} {cpu thread n : ℕ} {mask mask' : BitVec 128} {row : RegisterMap}
  {e : PerfmonEventSetEntry} {c : Core} {p p' : Core × List Slot}

/-- Every register that a start does not write, and those that switch the counting -/
def NexOffStart (M : Machine) (_ : PciDeviceIndex) (reg : ℕ) : Prop :=
  NexControl reg ∨ reg ∉ nexStartRegisters M.toTables

/-- What the set-up makes of an entry: an event of the set is marked as initialised. The set may
get events of `WBOX` on the way. -/
structure NexSetUp (thread : ℕ) (mask : BitVec 128) (e e' : PerfmonEventSetEntry) : Prop where
  cases : e' = e ∨ e' = e.setInit thread true
  init : e.type ≠ .wbox → hasType mask e.type → e' = e.setInit thread true

/-- What the set-up has done when its loop is at some entry -/
structure NexSettingUp (M : Machine) (mask : BitVec 128) (c₀ : Core) (st : NexSetup) (c : Core) :
    Prop where
  moved : Moved (NexOffStart M) c₀ c
  types : ∀ type, type ≠ .wbox → (hasType st.mask type ↔ hasType mask type)

variable (hM : M.toTables = nehalemEXTables)

include hM

theorem nexSetupRegisters_off {dev : PciDeviceIndex} {reg : ℕ}
    (h : reg ∈ nexSetupRegisters M.toTables) : NexOffStart M dev reg := by
  refine Or.inr ?_
  rw [hM] at h ⊢
  exact nehalemEX_setup_start reg h

theorem nexSubRegisters_off {reg : ℕ} (h : reg ∈ nexSubRegisters) (dev : PciDeviceIndex) :
    NexOffStart M dev reg :=
  nexSetupRegisters_off hM (List.mem_append_left _ (List.mem_append_right _ h))

theorem nexRow_off (hrow : row ∈ M.counterMap) (dev : PciDeviceIndex) : ∀ reg ∈
    [row.configRegister, (M.boxMap row.type).filterRegister1, (M.boxMap row.type).filterRegister2],
    NexOffStart M dev reg := fun _ hreg =>
  nexSetupRegisters_off hM (List.mem_append_right _ (List.mem_flatMap.mpr ⟨row, hrow, hreg⟩))

theorem nexBoxAllowed (index : RegisterIndex) :
    BoxAllowed M index (NexOffStart M) fun _ => True := by
  have hrows := fun row hrow => nexRow_off hM (List.mem_of_getElem? (a := row) (i := index) hrow)
  exact {
    config := fun row hrow => ⟨hrows row hrow _ _ (by simp), hrows row hrow _ _ (by simp)⟩
    filter := fun row hrow => ⟨hrows row hrow _ _ (by simp), hrows row hrow _ _ (by simp)⟩
    common := fun dev reg hreg => nexSetupRegisters_off hM (List.mem_append_left _
      (List.mem_append_left _ (List.mem_append_left _ hreg)))
    save := trivial }

theorem nexAllowed (hrow : row ∈ M.counterMap) : NexAllowed M row (NexOffStart M) := by
  have hrows := nexRow_off hM hrow msrDev
  have hcommon : ∀ reg ∈ boxRegisters ++ [msrPerfFixedCtrCtrl, msrS0PmonMmCfg, msrS1PmonMmCfg],
      NexOffStart M msrDev reg := fun _ hreg => nexSetupRegisters_off hM
    (List.mem_append_left _ (List.mem_append_left _ hreg))
  have hnumber := nehalemEX_number row (by rw [hM] at hrow; exact hrow)
  exact {
    config := hrows _ (by simp)
    filter := ⟨hrows _ (by simp), hrows _ (by simp)⟩
    offcore := hcommon _ (by simp [boxRegisters])
    mmCfg := ⟨hcommon _ (by simp), hcommon _ (by simp)⟩
    mbox := by
      intro number reg
      refine nexSubRegisters_off hM ?_ msrDev
      revert number
      cases reg <;> decide
    rbox := by
      intro hrbox
      refine ⟨?_, fun number type port => nexSubRegisters_off hM ?_ msrDev⟩
      · rcases hrbox with h | h
        · rw [h] at hnumber
          rw [hnumber.resolve_left (by decide)]
          rfl
        · rw [h] at hnumber
          rw [hnumber.resolve_left (by decide)]
          rfl
      · revert number port
        cases type <;> decide }

theorem nexSetupClear_moved (lock : Bool) :
    (nexSetupClear M cpu mask lock).wp (fun _ c' => Moved (NexOffStart M) c c')
      (fun _ _ => True) c := by
  have L : FrameLogic M cpu (NexOffStart M) (fun _ => True) (Moved (NexOffStart M)) Moved.refl
      fun _ _ _ => Moved.trans := Moved.logic
  have hclear : ∀ regs : List ℕ, (∀ reg ∈ regs, reg ∈ nexSubRegisters) →
      Prog.Respects (Prog.Flow.of (Moved (NexOffStart M)) Moved.refl fun _ _ _ => Moved.trans)
        (clearRegisters M cpu regs) := fun regs hregs =>
    L.clearRegisters fun reg hreg => nexSubRegisters_off hM (hregs reg hreg) msrDev
  have hflow : Prog.Respects
      (Prog.Flow.of (Moved (NexOffStart M)) Moved.refl fun _ _ _ => Moved.trans)
      (nexSetupClear M cpu mask lock) :=
    .bind (.when fun _ => L.checkWrite _ (Or.inl (Or.inr rfl))) fun _ =>
      .bind (.when fun _ => L.checkWrite _ (Or.inl (Or.inl rfl))) fun _ =>
        .bind (.when fun _ => hclear _ (by decide)) fun _ =>
          .bind (.when fun _ => hclear _ (by decide)) fun _ =>
            .bind (.when fun _ => hclear _ (by decide)) fun _ =>
              .when fun _ => hclear _ (by decide)
  exact Prog.wp_mono (hflow c) (fun _ _ h => h) fun _ _ _ => trivial

/-- **One round** of the set-up -/
theorem nexSetupEvent_settingUp {c₀ : Core} {st : NexSetup} (lock : Bool) (htyped : e.Typed M)
    (h : NexSettingUp M mask c₀ st c) :
    (nexSetupEvent M thread cpu lock st).wp
      (fun st' q => NexSettingUp M mask c₀ st' q.1 ∧ NexSetUp thread mask e q.2)
      (fun _ _ => True) (c, e) := by
  unfold nexSetupEvent
  rw [Prog.wp_bind, Prog.wp_get]
  by_cases hmask : hasType st.mask e.type
  · have hnotype : e.type ≠ .notype := fun heq => not_hasType_notype st.mask (heq ▸ hmask)
    obtain ⟨row, hrow, htype⟩ := htyped hnotype
    have L : FrameLogic M cpu (NexOffStart M) (fun _ => True) (Moved (NexOffStart M)) Moved.refl
        fun _ _ _ => Moved.trans := Moved.logic
    have hflow := L.nexSetupCase e.event (nexBoxAllowed hM e.index)
      (fun row' hrow' => nexAllowed hM (List.mem_of_getElem? hrow')) hrow lock st htype c
    have hcase := Prog.wp_and hflow (nexSetupCase_mask M cpu lock e.index row e.event st e.type c)
    rw [if_pos hmask]
    unfold counterMap
    simp only [Prog.wp_bind, Prog.wp_orUndefined, Prog.wp_zoom, Prog.wp_modify, hrow,
      Option.some.injEq, forall_eq']
    refine Prog.wp_mono hcase ?_ fun _ _ _ => trivial
    rintro st' c' ⟨hmoved, hst⟩
    refine ⟨⟨h.moved.trans hmoved, fun type hne => ?_⟩, ⟨Or.inr rfl, fun _ _ => rfl⟩⟩
    rcases hst with heq | heq
    · rw [heq]
      exact h.types type hne
    · rw [heq, hasType_or_wbox hne]
      exact h.types type hne
  · rw [if_neg hmask]
    exact ⟨h, Or.inl rfl, fun hne hin => absurd ((h.types _ hne).mpr hin) hmask⟩

/-- **A set-up that completes** -/
theorem nehalemEXSetup_settingUp (htyped : ∀ e, some e ∈ p.2 → e.Typed M)
    (h : perfmonSetupCounterThreadNehalemEX M thread cpu mask n p = .done mask' p') :
    Moved (NexOffStart M) p.1 p'.1 ∧
      (∀ type, type ≠ .wbox → (hasType mask' type ↔ hasType mask type)) ∧
      Prog.CellsDone (NexSetUp thread mask) n p.2 p'.2 := by
  have hlast : ∀ {a : Prop} [Decidable a] {reg : ℕ} (v : Word), NexOffStart M msrDev reg →
      ∀ (c : Core) (slots : List Slot),
      (Prog.when a (Prog.onFst (checkWrite M cpu msrDev reg v)) :
        Prog Int (Core × List Slot) Unit).wp
        (fun _ q => Moved (NexOffStart M) c q.1 ∧ q.2 = slots) (fun _ _ => True) (c, slots) := by
    intro a _ reg v hreg c slots
    have L : FrameLogic M cpu (NexOffStart M) (fun _ => True) (Moved (NexOffStart M)) Moved.refl
        fun _ _ _ => Moved.trans := Moved.logic
    have hwrite := L.checkWrite v hreg c
    rw [Prog.wp_when, Prog.wp_zoom]
    exact ⟨fun _ => Prog.wp_mono hwrite (fun _ _ hmoved => ⟨hmoved, rfl⟩) fun _ _ _ => trivial,
      fun _ => ⟨Moved.refl c, rfl⟩⟩
  have hfixed : NexOffStart M msrDev msrPerfFixedCtrCtrl :=
    nexSetupRegisters_off hM (List.mem_append_left _ (List.mem_append_left _
      (List.mem_append_right _ (by simp))))
  have hrun : (perfmonSetupCounterThreadNehalemEX M thread cpu mask n).wp
      (fun mask' q => Moved (NexOffStart M) p.1 q.1 ∧
        (∀ type, type ≠ .wbox → (hasType mask' type ↔ hasType mask type)) ∧
        Prog.CellsDone (NexSetUp thread mask) n p.2 q.2) (fun _ _ => True) p := by
    unfold perfmonSetupCounterThreadNehalemEX
    rw [Prog.wp_bind, Prog.wp_get, Prog.wp_bind, Prog.wp_zoom]
    refine Prog.wp_mono (nexSetupClear_moved hM _) (fun _ c1 h1 => ?_) fun _ _ _ => trivial
    have hstep : ∀ st (_ : List PerfmonEventSetEntry) c e, PerfmonEventSetEntry.Typed M e →
        NexSettingUp M mask p.1 st c →
        (nexSetupEvent M thread cpu (haveLock M p.1 cpu) st).wp
          (fun st' q => NexSettingUp M mask p.1 st' q.1 ∧ NexSetUp thread mask e q.2)
          (fun _ _ => True) (c, e) := fun st _ c e he hI => nexSetupEvent_settingUp hM _ he hI
    have hloop := Prog.forCells_steps (I := fun _ st c => NexSettingUp M mask p.1 st c) hstep n
      ⟨mask, 0, 0⟩ [] c1 p.2 htyped ⟨h1, fun _ _ => Iff.rfl⟩
    rw [Prog.wp_bind]
    refine Prog.wp_mono hloop ?_ fun _ _ _ => trivial
    rintro st ⟨c2, slots⟩ ⟨h2, hcells⟩
    rw [Prog.wp_bind]
    refine Prog.wp_mono (hlast st.fixedFlags hfixed c2 slots) ?_ fun _ _ _ => trivial
    rintro - ⟨c3, slots3⟩ ⟨h3, rfl⟩
    rw [Prog.wp_bind]
    refine Prog.wp_mono (hlast st.uboxFlags (Or.inl (Or.inl rfl)) c3 slots3) ?_
      fun _ _ _ => trivial
    rintro - ⟨c4, slots4⟩ ⟨h4, rfl⟩
    exact ⟨(h2.moved.trans h3).trans h4, h2.types, hcells⟩
  exact Prog.wp_done (Q := fun mask' q => Moved (NexOffStart M) p.1 q.1 ∧
    (∀ type, type ≠ .wbox → (hasType mask' type ↔ hasType mask type)) ∧
    Prog.CellsDone (NexSetUp thread mask) n p.2 q.2) hrun h

end Setup

/-! ## What the start writes -/

section Start

variable {M : Machine} {cpu thread n : ℕ} {mask : BitVec 128} {e : PerfmonEventSetEntry}
  {c₀ c : Core} {p p' : Core × List Slot}

def NexStarts (M : Machine) (dev : PciDeviceIndex) (reg : ℕ) : Prop :=
  dev = msrDev ∧ reg ∈ nexStartRegisters M.toTables

/-- What a start writes, but for the register of the whole uncore -/
def NexStartsOther (M : Machine) (dev : PciDeviceIndex) (reg : ℕ) : Prop :=
  NexStarts M dev reg ∧ reg ≠ msrUPmonGlobalCtrl

/-- The registers that a start writes were written, and no others have changed. -/
abbrev NexGained (M : Machine) : Core → Core → Prop := Gained (NexStarts M) fun _ _ => 0

/-- The register of the whole uncore has kept its value, too. -/
abbrev NexGainedOther (M : Machine) : Core → Core → Prop := Gained (NexStartsOther M) fun _ _ => 0

/-- A bit of the register of the whole uncore -/
def UncoreBit (cpu : ℕ) (c : Core) (i : ℕ) : Prop :=
  (c.regs cpu msrDev msrUPmonGlobalCtrl).getLsbD i = true

theorem NexGainedOther.starts {c' : Core} (h : NexGainedOther M c c') : NexGained M c c' :=
  h.mono fun _ _ hstarts => hstarts.1

theorem NexGainedOther.uncoreBit {c' : Core} {i : ℕ} (h : NexGainedOther M c c') :
    UncoreBit cpu c' i ↔ UncoreBit cpu c i := by
  have heq : c'.regs cpu msrDev msrUPmonGlobalCtrl = c.regs cpu msrDev msrUPmonGlobalCtrl :=
    h.eq (fun hstarts => hstarts.2 rfl) rfl cpu
  unfold UncoreBit
  rw [heq]

/-- An event of the UBOX is among those that the loop has started. -/
def UboxStarted (thread : ℕ) (mask : BitVec 128) (es : List PerfmonEventSetEntry) : Prop :=
  ∃ e ∈ es, ((e.threadCounter thread).init = true ∧ hasType mask e.type) ∧ e.type = .ubox

/-- What the loop of a start has done after it has started `es` -/
structure NexStarting (M : Machine) (thread : ℕ) (mask : BitVec 128) (c₀ : Core)
    (es : List PerfmonEventSetEntry) (st : NexStart) (c : Core) : Prop where
  gained : NexGained M c₀ c
  units : ∀ t, st.uflags t ≠ 0 → ∃ row ∈ M.counterMap, row.type = t
  ubox : UboxStarted thread mask es → (st.uflags .ubox).getLsbD 0 = true

variable (hM : M.toTables = nehalemEXTables)

include hM

theorem nexUboxOffset {index : RegisterIndex} {row : RegisterMap}
    (hrow : M.counterMap[index]? = some row) (htype : row.type = .ubox) :
    getCounterTypeOffset M index = 0 := by
  have hmap : M.counterMap = nehalemEXCounterMap := congrArg Tables.counterMap hM
  have hindex : index = 48 := by
    rw [← M.index_eq index row hrow]
    exact nehalemEX_ubox row (hmap ▸ List.mem_of_getElem? hrow) htype
  unfold getCounterTypeOffset
  rw [hrow]
  show typeRun M row.type index = 0
  rw [hindex, htype]
  show typeRun M .ubox (47 + 1) = 0
  unfold typeRun
  rw [hmap]
  rfl

/-- What a start writes to a box -/
theorem nexBox_starts {t : RegisterType} (ht : ∃ row ∈ M.counterMap, row.type = t) :
    NexStarts M msrDev (M.boxMap t).ctrlRegister ∧ NexStartsOther M msrDev (M.boxMap t).ovflRegister
      ∧ ((M.boxMap t).ctrlRegister = msrUPmonGlobalCtrl ↔ t = .ubox) := by
  obtain ⟨row, hrow, rfl⟩ := ht
  have hmem : ∀ reg ∈ [(M.boxMap row.type).ctrlRegister, (M.boxMap row.type).ovflRegister],
      reg ∈ nexStartRegisters M.toTables := fun reg hreg =>
    List.mem_append_left _ (List.mem_append_right _ (List.mem_flatMap.mpr ⟨row, hrow, hreg⟩))
  have hmap : M.counterMap = nehalemEXCounterMap := congrArg Tables.counterMap hM
  have hbox : M.boxMap = nehalemEXBoxMap := congrArg Tables.boxMap hM
  obtain ⟨hovfl, hctrl⟩ := nehalemEX_ctrl row (hmap ▸ hrow)
  refine ⟨⟨rfl, hmem _ (by simp)⟩, ⟨⟨rfl, hmem _ (by simp)⟩, ?_⟩, ?_⟩
  · rw [hbox]
    exact hovfl
  · rw [hbox]
    exact hctrl

omit hM in
theorem NexStarting.addUnit {es : List PerfmonEventSetEntry} {st : NexStart} {t : RegisterType}
    (h : NexStarting M thread mask c₀ es st c) (ht : ∃ row ∈ M.counterMap, row.type = t)
    (bits : BitVec 32)
    (hubox : UboxStarted thread mask (es ++ [e]) →
      UboxStarted thread mask es ∨ t = .ubox ∧ bits.getLsbD 0 = true) :
    NexStarting M thread mask c₀ (es ++ [e]) (st.addUnit t bits) c where
  gained := h.gained
  units t' hne := by
    by_cases heq : t' = t
    · exact heq ▸ ht
    · exact h.units t' (by simpa [NexStart.addUnit, heq] using hne)
  ubox hes := by
    show (if .ubox = t then st.uflags .ubox ||| bits else st.uflags .ubox).getLsbD 0 = true
    rcases hubox hes with hold | ⟨rfl, hbit⟩
    · split
      · rw [BitVec.getLsbD_or, h.ubox hold, Bool.true_or]
      · exact h.ubox hold
    · rw [if_pos rfl, BitVec.getLsbD_or, hbit, Bool.or_true]

omit hM in
theorem nexStartCase_box {cpu : ℕ} {lock : Bool} {index : RegisterIndex} {row : RegisterMap}
    {st : NexStart} {type : RegisterType} (hpmc : type ≠ .pmc) (hfixed : type ≠ .fixed)
    (hwbox : type ≠ .wbox0fix) :
    nexStartCase M cpu mask lock index row st type =
      pure (if lock = true ∧ hasType mask row.type then
        st.addUnit row.type (shiftLeft32 1 (getCounterTypeOffset M index)) else st) := by
  cases type with
  | pmc => exact absurd rfl hpmc
  | fixed => exact absurd rfl hfixed
  | wbox0fix => exact absurd rfl hwbox
  | _ => rfl

/-- **One round** of the start -/
theorem nexStartEvent_starting {es : List PerfmonEventSetEntry} {st : NexStart}
    (htyped : e.Typed M) (h : NexStarting M thread mask c₀ es st c) :
    (nexStartEvent M thread cpu mask true st).wp
      (fun st' q => NexStarting M thread mask c₀ (es ++ [e]) st' q.1) (fun _ _ => True) (c, e) := by
  -- an event that is not one of the UBOX, or is not started
  have hold : ¬(((e.threadCounter thread).init = true ∧ hasType mask e.type) ∧ e.type = .ubox) →
      UboxStarted thread mask (es ++ [e]) → UboxStarted thread mask es := by
    rintro hno ⟨e', he', hevent⟩
    rcases List.mem_append.mp he' with hmem | hmem
    · exact ⟨e', hmem, hevent⟩
    · rw [List.mem_singleton.mp hmem] at hevent
      exact absurd hevent hno
  unfold nexStartEvent
  rw [Prog.wp_bind, Prog.wp_get]
  by_cases hevent : (e.threadCounter thread).init = true ∧ hasType mask e.type
  · rw [if_pos hevent]
    unfold counterMap
    simp only [Prog.wp_bind, Prog.wp_orUndefined, Prog.wp_zoom, Prog.wp_modify]
    intro row hrow
    have hnotype : e.type ≠ .notype := fun heq => not_hasType_notype mask (heq ▸ hevent.2)
    obtain ⟨row', hrow', htype⟩ := htyped hnotype
    obtain rfl : row = row' := Option.some.inj (hrow.symm.trans hrow')
    have hmem := List.mem_of_getElem? hrow
    have hcore : e.type = .pmc ∨ e.type = .fixed → ∀ flags : Word,
        (do
          checkWrite M cpu msrDev row.counterRegister 0
          pure { st with coreCtrlFlags := flags } : Prog Int Core NexStart).wp
          (fun st' c' => NexStarting M thread mask c₀ (es ++ [e]) st' c') (fun _ _ => True) c := by
      intro hunit flags
      have hstarts : NexStarts M msrDev row.counterRegister := by
        refine ⟨rfl, List.mem_append_right _ (List.mem_map_of_mem (List.mem_filter.mpr ⟨hmem, ?_⟩))⟩
        rw [htype]
        exact decide_eq_true hunit
      have hgained : Prog.Respects (Gained.flow (NexStarts M) fun _ _ => 0)
          (checkWrite M cpu msrDev row.counterRegister 0) := Gained.logic.checkWrite 0 hstarts
      rw [Prog.wp_bind]
      refine Prog.wp_mono (hgained c) (fun _ c' hc' => ?_) fun _ _ _ => trivial
      refine ⟨h.gained.trans _ _ _ hc', h.units, fun hes => h.ubox (hold ?_ hes)⟩
      rintro ⟨-, hubox⟩
      rw [hubox] at hunit
      exact absurd hunit (by decide)
    by_cases hpmc : e.type = .pmc
    · rw [hpmc]
      exact hcore (Or.inl hpmc) _
    by_cases hfixed : e.type = .fixed
    · rw [hfixed]
      exact hcore (Or.inr hfixed) _
    by_cases hwbox : e.type = .wbox0fix
    · rw [hwbox]
      have hrow' : ∃ row ∈ M.counterMap, row.type = .wbox := by
        have hmap : M.counterMap = nehalemEXCounterMap := congrArg Tables.counterMap hM
        rw [hmap]
        exact nehalemEX_wbox
      have hno : UboxStarted thread mask (es ++ [e]) → UboxStarted thread mask es := by
        refine hold ?_
        rintro ⟨-, hubox⟩
        rw [hwbox] at hubox
        cases hubox
      show NexStarting M thread mask c₀ (es ++ [e]) (if true = true ∧ hasType mask .wbox0fix then
        st.addUnit .wbox ((bit 31).setWidth 32) else st) c
      split
      · exact h.addUnit hrow' _ fun hes => Or.inl (hno hes)
      · exact ⟨h.gained, h.units, fun hes => h.ubox (hno hes)⟩
    rw [nexStartCase_box hpmc hfixed hwbox, htype, if_pos ⟨rfl, hevent.2⟩]
    refine h.addUnit ⟨row, hmem, htype⟩ _ fun hes => ?_
    by_cases hubox : e.type = .ubox
    · refine Or.inr ⟨hubox, ?_⟩
      rw [nexUboxOffset hM hrow (htype.trans hubox)]
      rfl
    · exact Or.inl (hold (fun hno => hubox hno.2) hes)
  · rw [if_neg hevent]
    exact ⟨h.gained, h.units, fun hes => h.ubox (hold (fun hno => hevent hno.1) hes)⟩

/-- The macro writes the flags of the UBOX to the register of the whole uncore. -/
theorem nexUnfreezeBox_bits (hF : FaithfulControl M cpu msrUPmonGlobalCtrl) {id : RegisterType}
    {flags : BitVec 32} (hrow : ∃ row ∈ M.counterMap, row.type = id) :
    (nexUnfreezeBox M cpu mask true id flags).wp
      (fun _ c' => NexGained M c c' ∧
        (id ≠ .ubox → ∀ i, UncoreBit cpu c' i ↔ UncoreBit cpu c i) ∧
        (id = .ubox → hasType mask .ubox → flags.getLsbD 0 = true → UncoreBit cpu c' 0))
      (fun _ _ => True) c := by
  obtain ⟨hctrl, hovfl, hid⟩ := nexBox_starts hM hrow
  have hlast : ∀ c1, (checkWrite M cpu msrDev (M.boxMap id).ovflRegister (flags.setWidth 64)).wp
      (fun _ c2 => NexGainedOther M c1 c2) (fun _ _ => True) c1 := by
    intro c1
    have hgained : Prog.Respects (Gained.flow (NexStartsOther M) fun _ _ => 0)
        (checkWrite M cpu msrDev (M.boxMap id).ovflRegister (flags.setWidth 64)) :=
      Gained.logic.checkWrite _ hovfl
    exact Prog.wp_mono (hgained c1) (fun _ _ h => h) fun _ _ _ => trivial
  unfold nexUnfreezeBox
  rw [Prog.wp_when]
  constructor
  · intro hmask
    rw [Prog.wp_bind]
    by_cases hubox : id = .ubox
    · have hreg := hid.mpr hubox
      rw [hreg]
      refine Prog.wp_mono (checkWrite_sets hF c _) (fun _ c1 hset => ?_) fun _ _ _ => trivial
      refine Prog.wp_mono (hlast c1) (fun _ c2 h2 => ?_) fun _ _ _ => trivial
      have h1 : NexGained M c c1 := by
        intro owner dev reg hno
        have hne : ¬(owner = cpu ∧ dev = msrDev ∧ reg = msrUPmonGlobalCtrl) := by
          rintro ⟨-, rfl, rfl⟩
          exact hno (hreg ▸ hctrl)
        rw [hset]
        simp only [Core.setReg_regs, if_neg hne]
        exact AddsBits.refl _ _
      refine ⟨h1.trans _ _ _ h2.starts, fun hne => absurd hubox hne, fun _ _ hbit => ?_⟩
      rw [h2.uncoreBit]
      unfold UncoreBit
      rw [hset]
      simpa using hbit
    · have hother : NexStartsOther M msrDev (M.boxMap id).ctrlRegister :=
        ⟨hctrl, fun heq => hubox (hid.mp heq)⟩
      have hgained : Prog.Respects (Gained.flow (NexStartsOther M) fun _ _ => 0)
          (checkWrite M cpu msrDev (M.boxMap id).ctrlRegister (flags.setWidth 64)) :=
        Gained.logic.checkWrite _ hother
      refine Prog.wp_mono (hgained c) (fun _ c1 h1 => ?_) fun _ _ _ => trivial
      refine Prog.wp_mono (hlast c1) (fun _ c2 h2 => ?_) fun _ _ _ => trivial
      have h12 : NexGainedOther M c c2 := Gained.trans _ _ _ h1 h2
      exact ⟨h12.starts, fun _ i => h12.uncoreBit, fun heq => absurd heq hubox⟩
  · intro hmask
    refine ⟨Gained.refl c, fun _ _ => Iff.rfl, fun heq hin => absurd ⟨rfl, heq ▸ hin⟩ hmask⟩

omit hM in
/-- The uncore is let count, and keeps what is set. -/
theorem nexUnfreezeUncore_bits (hF : FaithfulControl M cpu msrUPmonGlobalCtrl) :
    (nexUnfreezeUncore M cpu mask true).wp
      (fun _ c' => NexGained M c c' ∧ (∀ i, UncoreBit cpu c i → UncoreBit cpu c' i) ∧
        (hasUncoreNehalem mask → UncoreBit cpu c' 28)) (fun _ _ => True) c := by
  have hstarts : NexStarts M msrDev msrUPmonGlobalCtrl := ⟨rfl, by simp [nexStartRegisters]⟩
  unfold nexUnfreezeUncore
  rw [Prog.wp_when]
  constructor
  · intro _
    rw [Prog.wp_bind]
    refine Prog.wp_mono (checkRead_control hF c) ?_ fun _ _ _ => trivial
    rintro tmp c1 ⟨rfl, hsame⟩
    refine Prog.wp_mono (checkWrite_sets hF c1 _) (fun _ c2 hset => ?_) fun _ _ _ => trivial
    have hbits : ∀ i, UncoreBit cpu c2 i ↔
        (c.regs cpu msrDev msrUPmonGlobalCtrl ||| bit 28).getLsbD i = true := by
      intro i
      unfold UncoreBit
      rw [hset]
      simp
    refine ⟨fun owner dev reg hno => ?_, fun i hi => ?_, fun _ => ?_⟩
    · have hne : ¬(owner = cpu ∧ dev = msrDev ∧ reg = msrUPmonGlobalCtrl) := by
        rintro ⟨-, rfl, rfl⟩
        exact hno hstarts
      rw [hset]
      simp only [Core.setReg_regs, if_neg hne, hsame]
      exact AddsBits.refl _ _
    · rw [hbits, BitVec.getLsbD_or]
      unfold UncoreBit at hi
      rw [hi, Bool.true_or]
    · rw [hbits, BitVec.getLsbD_or, show (bit 28).getLsbD 28 = true by decide, Bool.or_true]
  · intro hno
    exact ⟨Gained.refl c, fun _ hi => hi, fun huncore => absurd ⟨rfl, huncore⟩ hno⟩

/-- What comes after the loop -/
theorem nexStartEnable_bits (hF : FaithfulControl M cpu msrUPmonGlobalCtrl) {st : NexStart}
    (hunits : ∀ t, st.uflags t ≠ 0 → ∃ row ∈ M.counterMap, row.type = t) :
    (nexStartEnable M cpu mask true st).wp
      (fun _ c' => NexGained M c c' ∧
        (hasType mask .ubox → (st.uflags .ubox).getLsbD 0 = true → UncoreBit cpu c' 0) ∧
        (hasUncoreNehalem mask → UncoreBit cpu c' 28)) (fun _ _ => True) c := by
  have hboxes : (nexUnits.foldlM (fun _ id => Prog.when (st.uflags id ≠ 0)
      (nexUnfreezeBox M cpu mask true id (st.uflags id))) () : Prog Int Core Unit).wp
      (fun _ c' => NexGained M c c' ∧ (RegisterType.ubox ∈ nexUnits →
        hasType mask .ubox → (st.uflags .ubox).getLsbD 0 = true → UncoreBit cpu c' 0))
      (fun _ _ => True) c := by
    refine Prog.wp_foldlM (I := fun seen c' => NexGained M c c' ∧ (RegisterType.ubox ∈ seen →
      hasType mask .ubox → (st.uflags .ubox).getLsbD 0 = true → UncoreBit cpu c' 0))
      (fun seen id rest c1 _ h1 => ?_)
      ⟨Gained.refl c, fun hmem => absurd hmem List.not_mem_nil⟩
    rw [Prog.wp_when]
    constructor
    · intro hne
      refine Prog.wp_mono (nexUnfreezeBox_bits hM hF (hunits id hne)) ?_ fun _ _ _ => trivial
      rintro - c2 ⟨h2, hother, hubox⟩
      refine ⟨h1.1.trans _ _ _ h2, fun hmem hmask hbit => ?_⟩
      by_cases hid : id = .ubox
      · exact hubox hid hmask (hid ▸ hbit)
      · rw [hother hid 0]
        refine h1.2 ?_ hmask hbit
        rcases List.mem_append.mp hmem with hseen | hlast
        · exact hseen
        · exact absurd (List.mem_singleton.mp hlast).symm hid
    · intro hzero
      refine ⟨h1.1, fun hmem hmask hbit => ?_⟩
      rcases List.mem_append.mp hmem with hseen | hlast
      · exact h1.2 hseen hmask hbit
      · rw [List.mem_singleton.mp hlast] at hbit
        rw [not_not.mp hzero] at hbit
        cases hbit
  have hcore : ∀ c1, (Prog.when (hasCore mask) do
      checkWrite M cpu msrDev msrPerfGlobalCtrl st.coreCtrlFlags
      checkWrite M cpu msrDev msrPerfGlobalOvfCtrl ((bit 63 ||| bit 62) ||| st.coreCtrlFlags) :
        Prog Int Core Unit).wp (fun _ c2 => NexGainedOther M c1 c2) (fun _ _ => True) c1 := by
    intro c1
    have hflow : Prog.Respects (Gained.flow (NexStartsOther M) fun _ _ => 0)
        (Prog.when (hasCore mask) do
          checkWrite M cpu msrDev msrPerfGlobalCtrl st.coreCtrlFlags
          checkWrite M cpu msrDev msrPerfGlobalOvfCtrl
            ((bit 63 ||| bit 62) ||| st.coreCtrlFlags)) :=
      .when fun _ => .bind (Gained.logic.checkWrite _
        ⟨⟨rfl, by simp [nexStartRegisters]⟩, by decide⟩) fun _ => Gained.logic.checkWrite _
          ⟨⟨rfl, by simp [nexStartRegisters]⟩, by decide⟩
    exact Prog.wp_mono (hflow c1) (fun _ _ h => h) fun _ _ _ => trivial
  unfold nexStartEnable
  rw [Prog.when_of_pos rfl, Prog.wp_bind]
  refine Prog.wp_mono hboxes ?_ fun _ _ _ => trivial
  rintro - c1 ⟨h1, hubox⟩
  rw [Prog.wp_bind]
  refine Prog.wp_mono (nexUnfreezeUncore_bits hF) ?_ fun _ _ _ => trivial
  rintro - c2 ⟨h2, hkept, hglobal⟩
  refine Prog.wp_mono (hcore c2) (fun _ c3 h3 => ?_) fun _ _ _ => trivial
  refine ⟨(h1.trans _ _ _ h2).trans _ _ _ h3.starts, fun hmask hbit => ?_, fun huncore => ?_⟩
  · exact h3.uncoreBit.mpr (hkept 0 (hubox (by decide) hmask hbit))
  · exact h3.uncoreBit.mpr (hglobal huncore)

/-- **A start that completes** -/
theorem nehalemEXStart_bits (hF : FaithfulControl M cpu msrUPmonGlobalCtrl)
    (hlock : haveLock M p.1 cpu = true) (htyped : ∀ e, some e ∈ p.2 → e.Typed M)
    (h : perfmonStartCountersThreadNehalemEX M thread cpu mask n p = .done () p') :
    NexGained M p.1 p'.1 ∧
      (UboxStarted thread mask (setEvents n p.2) → UncoreBit cpu p'.1 0) ∧
      (hasUncoreNehalem mask → UncoreBit cpu p'.1 28) := by
  have L : FrameLogic M cpu (NexStarts M) (fun _ => True) (NexGained M) Gained.refl Gained.trans :=
    Gained.logic
  have hctrl : NexStarts M msrDev msrUPmonGlobalCtrl := ⟨rfl, by simp [nexStartRegisters]⟩
  have hreset : Prog.Respects (Gained.flow (NexStarts M) fun _ _ => 0)
      (nexResetAllUncoreCounters M cpu mask true) :=
    .when fun _ => .bind (L.checkRead _ _) fun _ => .bind (L.checkWrite _ hctrl) fun _ =>
      L.checkWrite _ hctrl
  have hrun : (perfmonStartCountersThreadNehalemEX M thread cpu mask n).wp
      (fun _ q => NexGained M p.1 q.1 ∧
        (UboxStarted thread mask (setEvents n p.2) → UncoreBit cpu q.1 0) ∧
        (hasUncoreNehalem mask → UncoreBit cpu q.1 28)) (fun _ _ => True) p := by
    unfold perfmonStartCountersThreadNehalemEX
    rw [Prog.wp_bind, Prog.wp_get, Prog.wp_bind, Prog.wp_zoom, hlock]
    refine Prog.wp_mono (hreset p.1) (fun _ c1 h1 => ?_) fun _ _ _ => trivial
    have hnone : ¬UboxStarted thread mask [] := by
      rintro ⟨e, he, -⟩
      cases he
    have hstep : ∀ st es c e, PerfmonEventSetEntry.Typed M e →
        NexStarting M thread mask p.1 es st c →
        (nexStartEvent M thread cpu mask true st).wp
          (fun st' q => NexStarting M thread mask p.1 (es ++ [e]) st' q.1 ∧ True)
          (fun _ _ => True) (c, e) := fun st es c e he hI =>
      Prog.wp_mono (nexStartEvent_starting hM he hI) (fun _ _ hq => ⟨hq, trivial⟩) fun _ _ hr => hr
    have hloop := Prog.forCells_steps (I := NexStarting M thread mask p.1) (S := fun _ _ => True)
      hstep n ⟨0, fun _ => 0⟩ [] c1 p.2 htyped
      ⟨h1, fun _ hne => absurd rfl hne, fun hsome => absurd hsome hnone⟩
    rw [Prog.wp_bind]
    refine Prog.wp_mono hloop ?_ fun _ _ _ => trivial
    rintro st ⟨c2, slots⟩ ⟨h2, -⟩
    rw [List.nil_append] at h2
    rw [Prog.wp_zoom]
    refine Prog.wp_mono (nexStartEnable_bits hM hF h2.units) ?_ fun _ _ _ => trivial
    rintro - c3 ⟨h3, hubox, hglobal⟩
    refine ⟨h2.gained.trans _ _ _ h3, fun hstarted => ?_, hglobal⟩
    obtain ⟨e, -, hevent, htype⟩ := id hstarted
    exact hubox (htype ▸ hevent.2) (h2.ubox hstarted)
  exact Prog.wp_done (Q := fun _ q => NexGained M p.1 q.1 ∧
    (UboxStarted thread mask (setEvents n p.2) → UncoreBit cpu q.1 0) ∧
    (hasUncoreNehalem mask → UncoreBit cpu q.1 28)) hrun h

end Start

end Likwid
