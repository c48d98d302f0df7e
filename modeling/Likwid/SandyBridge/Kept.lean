import Likwid.Gains
import Likwid.Lib.Mask
import Likwid.SandyBridge.Setup

/-!
# Sandy Bridge: a start after a set-up

The registers that `perfmon_startCountersThread_sandybridge` writes, and those that
`perfmon_setupCounterThread_sandybridge` writes before it. They meet in the registers that switch
the counting, in the control registers of `UBOX` and `UBOXFIX`, where the start adds enable bits,
and in the filter register of `WBOX`, which the start clears.
-/

namespace Likwid

/-! ## The registers -/

/-- The counters that a start clears -/
def snbCounters (rows : List RegisterMap) : List (PciDeviceIndex × ℕ) :=
  rows.flatMap fun row => (msrDev, row.counterRegister) ::
    match sandyBridgeUnit row.type with
    | .mbox | .bbox0 => [(row.device, row.counterRegister), (row.device, row.counterRegister2)]
    | _ => []

/-- The control registers of `UBOX` and `UBOXFIX` -/
def snbUboxConfigs (rows : List RegisterMap) : List ℕ :=
  (rows.filter fun row =>
    sandyBridgeUnit row.type = .ubox ∨ sandyBridgeUnit row.type = .uboxfix).map (·.configRegister)

/-- The registers that switch the counting: those of the core, and those of the macros or of the
client's uncore -/
def snbControls (M : Machine) : List (PciDeviceIndex × ℕ) :=
  [(msrDev, msrPerfGlobalCtrl), (msrDev, msrPerfGlobalOvfCtrl)] ++
    if M.model = sandybridgeEP then
      (snbFreezeList M ++ snbStartList M).map fun b => (b.device, b.register)
    else [(msrDev, msrUncorePerfGlobalCtrl), (msrDev, msrUncUPmonGlobalCtl)]

/-- The registers that a set-up writes -/
def snbSetupRegisters (M : Machine) : List ℕ :=
  boxRegisters ++ [msrUncPcuPmonBoxFilter, msrPerfFixedCtrCtrl, pciUncQpiPmonMatch0,
    pciUncQpiPmonMatch1, pciUncQpiPmonMask0, pciUncQpiPmonMask1] ++
    (snbControls M).map Prod.snd ++
      M.counterMap.flatMap fun row => [row.configRegister, (M.boxMap row.type).filterRegister1,
        (M.boxMap row.type).filterRegister2]

theorem snbControls_box {M : Machine} (hmodel : M.model = sandybridgeEP) {b : BoxWrite}
    (hb : b ∈ snbFreezeList M ++ snbStartList M) : (b.device, b.register) ∈ snbControls M := by
  unfold snbControls
  rw [if_pos hmodel]
  exact List.mem_append_right _ (List.mem_map_of_mem hb)

theorem snbControls_client {M : Machine} (hmodel : M.model ≠ sandybridgeEP) {reg : ℕ}
    (hreg : reg = msrUncorePerfGlobalCtrl ∨ reg = msrUncUPmonGlobalCtl) :
    (msrDev, reg) ∈ snbControls M := by
  unfold snbControls
  rw [if_neg hmodel]
  rcases hreg with rfl | rfl <;> simp

/-- A machine of the source: the server part, or the client -/
def IsSandyBridge (M : Machine) : Prop :=
  (M.model = sandybridgeEP ∧ M.toTables = sandybridgeEPTables) ∨
    (M.model = sandybridge ∧ M.toTables = sandybridgeTables)

/-- What keeps the registers of the two routines apart -/
structure SnbApart (M : Machine) : Prop where
  setup : ∀ reg ∈ (snbCounters M.counterMap).map Prod.snd, reg ∉ snbSetupRegisters M
  pcuFilter : (msrDev, msrUncPcuPmonBoxFilter) ∉ snbControls M ∧
    msrUncPcuPmonBoxFilter ∉ snbUboxConfigs M.counterMap

/-- A machine with the tables of the server part -/
def sandyBridgeEPMachine : Machine :=
  { haswellMachine with
    toTables := sandybridgeEPTables
    model := sandybridgeEP }

def sandyBridgeClientMachine : Machine :=
  { haswellMachine with
    toTables := sandybridgeTables
    model := sandybridge }

theorem snbApart_ep : SnbApart sandyBridgeEPMachine where
  setup := Mask.disjoint_of_ofList (by decide +kernel)
  pcuFilter := by decide +kernel

theorem snbApart_client : SnbApart sandyBridgeClientMachine where
  setup := Mask.disjoint_of_ofList (by decide +kernel)
  pcuFilter := by decide +kernel

/-- Only the model and the tables matter. -/
theorem SnbApart.congr {M M' : Machine} (hmodel : M.model = M'.model)
    (htables : M.toTables = M'.toTables) (h : SnbApart M') : SnbApart M := by
  have hrows : M.counterMap = M'.counterMap := congrArg Tables.counterMap htables
  have hbox : M.boxMap = M'.boxMap := congrArg Tables.boxMap htables
  have hcontrols : snbControls M = snbControls M' := by
    simp only [snbControls, hmodel, snbFreezeList, snbStartList, snbFreezeBox, snbFreezePciBox,
      snbUnfreezeAndResetCtrBox, snbUnfreezeAndResetCtrPciBox, snbUnfreezePciBox, BoxWrite.msr,
      BoxWrite.pci, hbox]
  have hsetup : snbSetupRegisters M = snbSetupRegisters M' := by
    unfold snbSetupRegisters
    rw [hcontrols, hrows, hbox]
  constructor
  · rw [hrows, hsetup]
    exact h.setup
  · rw [hcontrols, hrows]
    exact h.pcuFilter

theorem IsSandyBridge.apart {M : Machine} (h : IsSandyBridge M) : SnbApart M := by
  rcases h with ⟨hmodel, htables⟩ | ⟨hmodel, htables⟩
  · exact snbApart_ep.congr hmodel htables
  · exact snbApart_client.congr hmodel htables

/-! ## What the set-up writes -/

section Setup

variable {M : Machine} {cpu thread n numberOfNumaDomains : ℕ} {mask : BitVec 128}
  {cbox : Option SandyCboxSetup} {p p' : Core × List Slot}

/-- Every register but the counters that a start clears -/
def OffCounters (M : Machine) (_ : PciDeviceIndex) (reg : ℕ) : Prop :=
  reg ∉ (snbCounters M.counterMap).map Prod.snd

variable (hA : SnbApart M)

include hA

theorem SnbApart.offCounters {dev : PciDeviceIndex} {reg : ℕ} (h : reg ∈ snbSetupRegisters M) :
    OffCounters M dev reg := fun hyes => hA.setup reg hyes h

theorem SnbApart.allowed (index : RegisterIndex) :
    SnbAllowed M index (OffCounters M) fun _ => True := by
  have hrows : ∀ row, M.counterMap[index]? = some row → ∀ reg ∈ [row.configRegister,
      (M.boxMap row.type).filterRegister1, (M.boxMap row.type).filterRegister2],
      ∀ dev, OffCounters M dev reg := by
    intro row hrow reg hreg dev
    refine hA.offCounters (List.mem_append_right _ (List.mem_flatMap.mpr ⟨row, ?_, hreg⟩))
    exact List.mem_of_getElem? hrow
  have hcommon : ∀ reg ∈ boxRegisters ++ [msrUncPcuPmonBoxFilter, msrPerfFixedCtrCtrl,
      pciUncQpiPmonMatch0, pciUncQpiPmonMatch1, pciUncQpiPmonMask0, pciUncQpiPmonMask1],
      ∀ dev, OffCounters M dev reg := fun reg hreg dev =>
    hA.offCounters (List.mem_append_left _ (List.mem_append_left _ hreg))
  exact {
    config := fun row hrow => ⟨hrows row hrow _ (by simp) _, hrows row hrow _ (by simp) _⟩
    filter := fun row hrow => ⟨hrows row hrow _ (by simp) _, hrows row hrow _ (by simp) _⟩
    common := fun dev reg hreg => hcommon reg (List.mem_append_left _ hreg) dev
    save := trivial
    occupancy := hcommon _ (by simp) _
    link := by
      intro type q hq dev
      refine hcommon q.1 (List.mem_append_right _ ?_) dev
      cases type with
      | match0 | match1 | mask0 | mask1 =>
          cases hq
          simp
      | _ => cases hq }

theorem SnbApart.control {x : PciDeviceIndex × ℕ} (h : x ∈ snbControls M) (dev : PciDeviceIndex) :
    OffCounters M dev x.2 :=
  hA.offCounters (List.mem_append_left _ (List.mem_append_right _ (List.mem_map_of_mem h)))

/-- **A set-up that completes** has written no counter, and holds the lock as before. -/
theorem sandyBridgeSetup_moved
    (h : perfmonSetupCounterThreadSandybridge M cbox numberOfNumaDomains thread cpu mask n p =
      .done () p') : Moved (OffCounters M) p.1 p'.1 := by
  have hcore : ∀ reg, (msrDev, reg) ∈ snbControls M → OffCounters M msrDev reg :=
    fun reg hreg => hA.control hreg msrDev
  have L : FrameLogic M cpu (OffCounters M) (fun _ => True) (Moved (OffCounters M)) Moved.refl
      fun _ _ _ => Moved.trans := Moved.logic
  have hflow := CoreLogic.perfmonSetupCounterThreadSandybridge L hA.allowed
    ⟨hcore _ (by simp [snbControls]), hcore _ (by simp [snbControls])⟩ ?_ ?_ ?_ cbox
    numberOfNumaDomains thread n mask p
  · exact Prog.wp_done (Q := fun _ q => Moved (OffCounters M) p.1 q.1) hflow h
  · exact fun hmodel b hb =>
      hA.control (snbControls_box hmodel (List.mem_append_left _ hb)) b.device
  · exact fun hmodel => hcore _ (snbControls_client hmodel (Or.inl rfl))
  · exact hA.offCounters (List.mem_append_left _ (List.mem_append_left _
      (List.mem_append_right _ (by simp))))

end Setup

/-! ## What the start writes -/

section Start

variable {M : Machine} {cpu thread n : ℕ} {mask : BitVec 128} {lock : Bool}
  {e : PerfmonEventSetEntry} {row : RegisterMap} {c₀ c : Core} {p p' : Core × List Slot}

/-- What a start writes at will, but for the filter of `WBOX` -/
def SnbStarts (M : Machine) (dev : PciDeviceIndex) (reg : ℕ) : Prop :=
  (dev, reg) ∈ snbCounters M.counterMap ∨ (dev, reg) ∈ snbControls M

/-- The enable bits that a start adds -/
def snbEnables (M : Machine) (dev : PciDeviceIndex) (reg : ℕ) : Word :=
  if dev = msrDev ∧ reg ∈ snbUboxConfigs M.counterMap then bit 22 ||| bit 17 else 0

/-- The registers that a start reads and writes back, and the filter of `WBOX`, hold what is
written to them. -/
def SnbFaithful (M : Machine) (cpu : ℕ) : Prop :=
  ∀ reg, reg = msrUncPcuPmonBoxFilter ∨ reg ∈ snbUboxConfigs M.counterMap →
    FaithfulControl M cpu reg

abbrev snbFlow (M : Machine) : Prog.Flow Core := Gained.flow (SnbStarts M) (snbEnables M)

theorem snbCounters_msr (hrow : row ∈ M.counterMap) : SnbStarts M msrDev row.counterRegister :=
  Or.inl (List.mem_flatMap.mpr ⟨row, hrow, List.mem_cons_self⟩)

theorem snbCounters_pci (hrow : row ∈ M.counterMap)
    (hunit : sandyBridgeUnit row.type = .mbox ∨ sandyBridgeUnit row.type = .bbox0) :
    SnbStarts M row.device row.counterRegister ∧ SnbStarts M row.device row.counterRegister2 := by
  have hmem : ∀ x ∈ [(row.device, row.counterRegister), (row.device, row.counterRegister2)],
      x ∈ snbCounters M.counterMap := by
    intro x hx
    refine List.mem_flatMap.mpr ⟨row, hrow, List.mem_cons_of_mem _ ?_⟩
    rcases hunit with h | h <;> rw [h] <;> exact hx
  exact ⟨Or.inl (hmem _ (by simp)), Or.inl (hmem _ (by simp))⟩

theorem snbUboxConfigs_mem (hrow : row ∈ M.counterMap)
    (hunit : sandyBridgeUnit row.type = .ubox ∨ sandyBridgeUnit row.type = .uboxfix) :
    row.configRegister ∈ snbUboxConfigs M.counterMap :=
  List.mem_map_of_mem (List.mem_filter.mpr ⟨hrow, decide_eq_true hunit⟩)

theorem SnbApart.pcuFilter_starts (hA : SnbApart M) :
    ¬SnbStarts M msrDev msrUncPcuPmonBoxFilter ∧
      snbEnables M msrDev msrUncPcuPmonBoxFilter = 0 := by
  constructor
  · rintro (hcounter | hcontrol)
    · refine hA.setup _ (List.mem_map_of_mem hcounter) ?_
      exact List.mem_append_left _ (List.mem_append_left _ (List.mem_append_right _ (by simp)))
    · exact hA.pcuFilter.1 hcontrol
  · exact if_neg fun h => hA.pcuFilter.2 h.2

variable (hF : SnbFaithful M cpu)

include hF

/-- The switch of the start, but for `WBOX` -/
theorem sandyBridgeStartCase_gained (hrow : row ∈ M.counterMap) {unit : SandyBridgeUnit}
    (hunit : sandyBridgeUnit row.type = unit) (hne : unit ≠ .wbox) :
    Prog.Respects (snbFlow M).fst
      (sandyBridgeStartCase M thread cpu mask lock e row unit) := by
  have L : FrameLogic M cpu (SnbStarts M) (fun _ => True) (Gained (SnbStarts M) (snbEnables M))
      Gained.refl Gained.trans := Gained.logic
  have hcounter := L.checkWrite 0 (snbCounters_msr hrow)
  have henable : ∀ {added : Word}, (∀ i, added.getLsbD i = true →
      (bit 22 ||| bit 17).getLsbD i = true) →
      sandyBridgeUnit row.type = .ubox ∨ sandyBridgeUnit row.type = .uboxfix →
      Prog.Respects (snbFlow M) (do
        let tmp ← checkRead M cpu msrDev row.configRegister
        checkWrite M cpu msrDev row.configRegister (tmp ||| added)) := by
    intro added hadded hubox
    have hmem := snbUboxConfigs_mem hrow hubox
    refine Gained.enable (hF _ (Or.inr hmem)) fun i hi => ?_
    unfold snbEnables
    rw [if_pos ⟨rfl, hmem⟩]
    exact hadded i hi
  cases unit with
  | pmc | fixed => exact .bind (.onFst hcounter) fun _ => .pure _
  | power =>
      exact .bind (.when fun _ => .bind (.onFst (L.powerRead _)) fun _ =>
        .bind (.onFst (L.check _)) fun _ => counting_record _) fun _ => .pure _
  | mbox =>
      obtain ⟨h1, h2⟩ := snbCounters_pci hrow (Or.inl hunit)
      exact .bind .get fun _ => .bind (.onFst (.when fun _ => .bind (L.checkWrite _ h1) fun _ =>
        L.checkWrite _ h2)) fun _ => .pure _
  | bbox0 =>
      obtain ⟨h1, h2⟩ := snbCounters_pci hrow (Or.inr hunit)
      exact .bind .get fun _ => .bind (.onFst (.when fun _ => .bind (L.checkWrite _ h1) fun _ =>
        L.checkWrite _ h2)) fun _ => .pure _
  | sbox0 | sbox1 | sboxfix | cbox =>
      exact .bind (.onFst (.when fun _ => hcounter)) fun _ => .pure _
  | ubox =>
      exact .bind (.onFst (.when fun _ => henable (fun _ h => h) (Or.inl hunit))) fun _ => .pure _
  | uboxfix =>
      refine .bind (.onFst hcounter) fun _ => .bind (.onFst (.when fun _ =>
        henable (fun i h => ?_) (Or.inr hunit))) fun _ => .pure _
      rw [BitVec.getLsbD_or, h, Bool.true_or]
  | wboxfix =>
      exact .bind (.when fun _ => .bind (.onFst (L.checkRead _ _)) fun _ => counting_record _)
        fun _ => .pure _
  | wbox => exact absurd rfl hne
  | thermal | mboxfix | rbox | pbox | other => exact .pure _

/-- Among the events that the loop has started is one of `WBOX`. -/
def WboxStarted (thread : ℕ) (mask : BitVec 128) (es : List PerfmonEventSetEntry) : Prop :=
  ∃ e ∈ es, ((e.threadCounter thread).init = true ∧ hasType mask e.type) ∧
    sandyBridgeUnit e.type = .wbox

/-- What a start has made of the registers after it has started `es` -/
structure SnbStarted (M : Machine) (thread cpu : ℕ) (mask : BitVec 128) (c₀ : Core)
    (es : List PerfmonEventSetEntry) (c : Core) : Prop where
  gained : Gained
    (fun dev reg => SnbStarts M dev reg ∨ (dev = msrDev ∧ reg = msrUncPcuPmonBoxFilter))
    (snbEnables M) c₀ c
  filter : WboxStarted thread mask es → c.regs cpu msrDev msrUncPcuPmonBoxFilter = 0

omit hF in
theorem SnbStarted.gain (hA : SnbApart M) {es : List PerfmonEventSetEntry} {c' : Core}
    (h : SnbStarted M thread cpu mask c₀ es c)
    (hgained : Gained (SnbStarts M) (snbEnables M) c c') :
    SnbStarted M thread cpu mask c₀ es c' where
  gained := h.gained.trans _ _ _ (hgained.mono fun _ _ => Or.inl)
  filter hwbox := by
    rw [hgained.eq hA.pcuFilter_starts.1 hA.pcuFilter_starts.2]
    exact h.filter hwbox

/-- The write of an event of `WBOX` -/
theorem SnbStarted.clearFilter {es : List PerfmonEventSetEntry}
    (h : SnbStarted M thread cpu mask c₀ es c) (e : PerfmonEventSetEntry) :
    (checkWrite M cpu msrDev msrUncPcuPmonBoxFilter 0).wp
      (fun _ c' => SnbStarted M thread cpu mask c₀ (es ++ [e]) c') (fun _ _ => True) c := by
  refine Prog.wp_mono (checkWrite_sets (hF _ (Or.inl rfl)) c 0) (fun _ c' hset => ?_)
    fun _ _ _ => trivial
  have hgained : Gained
      (fun dev reg => SnbStarts M dev reg ∨ (dev = msrDev ∧ reg = msrUncPcuPmonBoxFilter))
      (snbEnables M) c c' := by
    intro owner dev reg hno
    have hne : ¬(owner = cpu ∧ dev = msrDev ∧ reg = msrUncPcuPmonBoxFilter) :=
      fun heq => hno (Or.inr heq.2)
    rw [hset]
    simp only [Core.setReg_regs, if_neg hne]
    exact AddsBits.refl _ _
  refine ⟨h.gained.trans _ _ _ hgained, fun _ => ?_⟩
  rw [hset]
  simp

variable (hA : SnbApart M)

include hA

/-- **One round** of the start -/
theorem sandyBridgeStartEvent_started {es : List PerfmonEventSetEntry} (htyped : e.Typed M)
    (h : SnbStarted M thread cpu mask c₀ es c) (flags : Word) :
    (sandyBridgeStartEvent M thread cpu mask true flags).wp
      (fun _ q => SnbStarted M thread cpu mask c₀ (es ++ [e]) q.1) (fun _ _ => True) (c, e) := by
  have hother : ¬(((e.threadCounter thread).init = true ∧ hasType mask e.type) ∧
      sandyBridgeUnit e.type = .wbox) → ∀ {c'}, Gained (SnbStarts M) (snbEnables M) c c' →
      SnbStarted M thread cpu mask c₀ (es ++ [e]) c' := by
    intro hno c' hgained
    have hstarted := h.gain hA hgained
    refine ⟨hstarted.gained, fun hwbox => hstarted.filter ?_⟩
    obtain ⟨e', he', hevent⟩ := hwbox
    rcases List.mem_append.mp he' with hmem | hmem
    · exact ⟨e', hmem, hevent⟩
    · rw [List.mem_singleton.mp hmem] at hevent
      exact absurd hevent hno
  unfold sandyBridgeStartEvent
  rw [Prog.wp_bind, Prog.wp_get]
  by_cases hevent : (e.threadCounter thread).init = true ∧ hasType mask e.type
  · rw [if_pos hevent]
    unfold counterMap
    simp only [Prog.wp_bind, Prog.wp_orUndefined, Prog.wp_zoom, Prog.wp_modify]
    intro row hrow
    have hnotype : e.type ≠ .notype := fun heq => not_hasType_notype mask (heq ▸ hevent.2)
    obtain ⟨row', hrow', htype⟩ := htyped hnotype
    obtain rfl : row = row' := Option.some.inj (hrow.symm.trans hrow')
    by_cases hunit : sandyBridgeUnit e.type = .wbox
    · rw [hunit]
      simp only [sandyBridgeStartCase, Prog.wp_bind, Prog.wp_zoom, Prog.wp_when]
      exact ⟨fun _ => h.clearFilter hF e, fun hno => absurd trivial hno⟩
    · have htype' : sandyBridgeUnit row.type = sandyBridgeUnit e.type := by rw [htype]
      have hcase : Prog.Respects (snbFlow M).fst
          (sandyBridgeStartCase M thread cpu mask true e row (sandyBridgeUnit e.type)) :=
        sandyBridgeStartCase_gained hF (List.mem_of_getElem? hrow) htype' hunit
      exact Prog.wp_mono (hcase (c, e.clearData thread))
        (fun _ _ hgained => hother (fun hno => hunit hno.2) hgained) fun _ _ _ => trivial
  · rw [if_neg hevent]
    exact hother (fun hno => hevent hno.1) (Gained.refl c)

/-- **A start that completes** -/
theorem sandyBridgeStart_started (hlock : haveLock M p.1 cpu = true)
    (htyped : ∀ e, some e ∈ p.2 → e.Typed M)
    (h : perfmonStartCountersThreadSandybridge M thread cpu mask n p = .done () p') :
    SnbStarted M thread cpu mask p.1 (setEvents n p.2) p'.1 := by
  have L : FrameLogic M cpu (SnbStarts M) (fun _ => True) (Gained (SnbStarts M) (snbEnables M))
      Gained.refl Gained.trans := Gained.logic
  have hcontrol : ∀ {dev reg}, (dev, reg) ∈ snbControls M → SnbStarts M dev reg := Or.inr
  have hcore : ∀ flags, Prog.Respects (snbFlow M) (Prog.when (hasCore mask) do
      checkWrite M cpu msrDev msrPerfGlobalOvfCtrl 0
      checkWrite M cpu msrDev msrPerfGlobalCtrl flags) := fun flags =>
    .when fun _ => .bind (L.checkWrite _ (hcontrol (by simp [snbControls]))) fun _ =>
      L.checkWrite _ (hcontrol (by simp [snbControls]))
  have hboxes : Prog.Respects (snbFlow M)
      (snbBoxes M cpu mask true (snbStartList M) msrUncUPmonGlobalCtl (bit 29)) :=
    L.snbBoxes (fun hmodel b hb => hcontrol (snbControls_box hmodel (List.mem_append_right _ hb)))
      (fun hmodel => hcontrol (snbControls_client hmodel (Or.inr rfl))) _
  have hrun : (perfmonStartCountersThreadSandybridge M thread cpu mask n).wp
      (fun _ q => SnbStarted M thread cpu mask p.1 (setEvents n p.2) q.1) (fun _ _ => True) p := by
    unfold perfmonStartCountersThreadSandybridge
    rw [Prog.wp_bind, Prog.wp_get, Prog.wp_bind, hlock]
    have hnone : ¬∃ e ∈ ([] : List PerfmonEventSetEntry),
        ((e.threadCounter thread).init = true ∧ hasType mask e.type) ∧
          sandyBridgeUnit e.type = .wbox := by
      rintro ⟨e, he, -⟩
      cases he
    have hloop := Prog.wp_forCells (I := SnbStarted M thread cpu mask p.1)
      (fun flags es c e he hI => sandyBridgeStartEvent_started hF hA he hI flags) n 0 [] p.1 p.2
      htyped ⟨Gained.refl _, fun hsome => absurd hsome hnone⟩
    refine Prog.wp_mono hloop (fun flags q hq => ?_) fun _ _ _ => trivial
    rw [List.nil_append] at hq
    rw [Prog.wp_bind, Prog.wp_zoom]
    refine Prog.wp_mono (hcore flags q.1) (fun _ c1 h1 => ?_) fun _ _ _ => trivial
    rw [Prog.wp_zoom]
    exact Prog.wp_mono (hboxes c1) (fun _ c2 h2 => (hq.gain hA h1).gain hA h2)
      fun _ _ _ => trivial
  exact Prog.wp_done (Q := fun _ q => SnbStarted M thread cpu mask p.1 (setEvents n p.2) q.1)
    hrun h

end Start

end Likwid
