import Likwid.EventArrays

/-!
# The configuration cache

A set-up writes the control register of a core counter only when the flags
differ from those in `currentConfig`. That is right as long as the register
holds what is cached (`ConfigCoherent`). The set-up and the finalization see to
it; adding a group with the force flag clears the register of a counter and
leaves the cache as it is.
-/

namespace Likwid

variable {M : Machine} {cpu : ℕ}

/-! ## Coherence -/

/-- Where the configuration of a core counter is cached, its control register
holds it. -/
def ConfigCoherent (M : Machine) (c : Core) : Prop :=
  ∀ row ∈ M.counterMap, row.type = .pmc → ∀ cpu, c.currentConfig cpu row.index ≠ 0 →
    c.regs cpu msrDev row.configRegister = c.currentConfig cpu row.index

/-- Not the control register of a core counter. -/
def NoPmcConfig (M : Machine) (dev : PciDeviceIndex) (reg : ℕ) : Prop :=
  ∀ row ∈ M.counterMap, row.type = .pmc → ¬(dev = msrDev ∧ row.configRegister = reg)

/-- Not the index of a core counter. -/
def NoPmc (M : Machine) (j : RegisterIndex) : Prop :=
  ∀ row ∈ M.counterMap, row.type = .pmc → row.index ≠ j

theorem ConfigCoherent.log {c : Core} (h : ConfigCoherent M c) (a : Access) :
    ConfigCoherent M (c.log a) := h

theorem ConfigCoherent.setReg {c : Core} (h : ConfigCoherent M c) {dev : PciDeviceIndex} {reg : ℕ}
    (hreg : NoPmcConfig M dev reg) (owner : ℕ) (v : Word) :
    ConfigCoherent M (c.setReg owner dev reg v) := by
  intro row hmem ht p hne
  have hother : ¬(p = owner ∧ msrDev = dev ∧ row.configRegister = reg) :=
    fun heq => hreg row hmem ht ⟨heq.2.1.symm, heq.2.2⟩
  simpa [hother] using h row hmem ht p hne

theorem ConfigCoherent.setConfig {c : Core} (h : ConfigCoherent M c) {j : RegisterIndex}
    (hj : NoPmc M j) (p : ℕ) (v : Word) : ConfigCoherent M (c.setConfig p j v) := by
  intro row hmem ht p' hne
  have hother : ¬(p' = p ∧ row.index = j) := fun heq => hj row hmem ht heq.2
  simp only [Core.setConfig_currentConfig, hother, if_false, Core.setConfig_regs] at hne ⊢
  exact h row hmem ht p' hne

/-- Reads keep coherence, and so do writes and configurations that concern no
core counter. -/
theorem coherent_logic : CoreLogic M cpu (NoPmcConfig M) (NoPmc M)
    (fun (α : Type) (m _ : Prog Int Core α) =>
      Prog.Respects (Prog.Flow.inv (ConfigCoherent M)) m) where
  toClosed := Prog.Respects.closed
  read _ _ := fun _ h => h.log _
  write dev reg data hreg := by
    intro c h
    show ConfigCoherent M (Core.log _ _)
    refine ConfigCoherent.log ?_ _
    split
    · exact h.setReg hreg _ _
    · exact h
  save index flags hj := fun _ h => h.setConfig hj _ _

/-! ## The set-up of a core counter -/

theorem row_unique {row row' : RegisterMap} (hmem : row ∈ M.counterMap)
    (hmem' : row' ∈ M.counterMap) (hindex : row'.index = row.index) : row' = row := by
  obtain ⟨i, hi⟩ := List.mem_iff_getElem?.mp hmem
  obtain ⟨j, hj⟩ := List.mem_iff_getElem?.mp hmem'
  have hij : i = j := by rw [← M.index_eq i row hi, ← M.index_eq j row' hj, hindex]
  rw [hij, hj] at hi
  exact Option.some.inj hi

/-- The error codes of the access layer are zero or negative. -/
def ReportsErrors (M : Machine) : Prop :=
  ∀ n dev cpu reg v, M.accessWrite n dev cpu reg v ≤ 0

theorem writeError_le (hM : ReportsErrors M) (c : Core) (cpu : ℕ) (dev : PciDeviceIndex) (reg : ℕ)
    (data : Word) : writeError M c cpu dev reg data ≤ 0 := by
  unfold writeError
  split_ifs
  · decide
  · decide
  · decide
  · exact hM _ _ _ _ _

/-- A checked write that comes to its end has changed the register; one that does
not has changed none. -/
theorem checkWrite_stored (hM : ReportsErrors M) (dev : PciDeviceIndex) (reg : ℕ) (data : Word)
    (c : Core) :
    (checkWrite M cpu dev reg data).wp
      (fun _ c' => c'.regs = (c.setReg (regOwner M cpu dev) dev reg (stored dev data)).regs ∧
        c'.currentConfig = c.currentConfig)
      (fun _ c' => c'.regs = c.regs ∧ c'.currentConfig = c.currentConfig) c := by
  have hle := writeError_le hM c cpu dev reg data
  unfold checkWrite checkAndReturnError
  rw [Prog.wp_bind]
  show Prog.wp _ _ _ (Core.log _ _)
  simp only [Prog.wp_bind, Prog.wp_get, Prog.wp_when, Prog.wp_ret]
  constructor
  · intro hneg
    rw [if_neg (by omega)]
    exact ⟨rfl, rfl⟩
  · intro hnneg
    rw [if_pos (by omega)]
    exact ⟨rfl, rfl⟩

/-- A cached write keeps coherence: the cache follows the register. -/
theorem writeConfig_coherent (hM : ReportsErrors M) {index : RegisterIndex} {row : RegisterMap}
    (hrow : M.counterMap[index]? = some row) (ht : row.type = .pmc) (flags : Word) :
    Prog.Respects (Prog.Flow.inv (ConfigCoherent M)) (writeConfig M cpu index flags) := by
  have hmem := List.mem_of_getElem? hrow
  intro c
  unfold writeConfig
  simp only [Prog.wp_bind, Prog.wp_get, Prog.wp_when, counterMap, Prog.wp_orUndefined]
  refine ⟨fun _ row' hrow' => ?_, fun _ h => h⟩
  obtain rfl : row = row' := by simpa [hrow] using hrow'
  refine Prog.wp_mono (checkWrite_stored hM msrDev row.configRegister flags c) ?_ ?_
  · rintro _ c' ⟨hregs, hcache⟩
    simp only [saveConfig, Prog.wp_modify]
    intro h row' hmem' ht' p hne
    have hindex : row.index = index := M.index_eq index row hrow
    by_cases heq : row' = row
    · subst heq
      by_cases hp : p = cpu
      · simp [hregs, hp, hindex, regOwner, stored]
      · simp only [Core.setConfig_currentConfig, hp, false_and, if_false, hcache,
          Core.setConfig_regs, hregs, Core.setReg_regs, regOwner] at hne ⊢
        simpa [hp] using h row' hmem' ht' p hne
    · have hreg : row'.configRegister ≠ row.configRegister :=
        fun he => heq (row_unique hmem hmem' (M.pmc_private row hmem ht row' hmem' he))
      have hne' : row'.index ≠ index := fun he => heq (row_unique hmem hmem' (he.trans hindex.symm))
      simp only [Core.setConfig_currentConfig, hne', and_false, if_false, hcache,
        Core.setConfig_regs, hregs, Core.setReg_regs, hreg] at hne ⊢
      exact h row' hmem' ht' p hne
  · rintro _ c' ⟨hregs, hcache⟩ h row' hmem' ht' p hne
    rw [hcache] at hne ⊢
    rw [hregs]
    exact h row' hmem' ht' p hne

theorem noPmcConfig_common (dev : PciDeviceIndex) {reg : ℕ} (h : reg ∈ commonRegisters) :
    NoPmcConfig M dev reg := by
  rintro row hmem ht ⟨-, rfl⟩
  exact (M.pmc_row row hmem ht).2.2 h

/-- The set-up of any other counter touches nothing of a core counter. -/
theorem boxAllowed_noPmc {index : RegisterIndex} {row : RegisterMap}
    (hrow : M.counterMap[index]? = some row) (ht : row.type ≠ .pmc) :
    BoxAllowed M index (NoPmcConfig M) (NoPmc M) := by
  have hmem := List.mem_of_getElem? hrow
  have hne : ∀ row' ∈ M.counterMap, row'.type = .pmc → row'.index ≠ row.index :=
    fun row' hmem' ht' he => ht (row_unique hmem hmem' he ▸ ht')
  have hindex : row.index = index := M.index_eq index row hrow
  refine ⟨fun row' h => ?_, fun row' h => ?_, fun dev reg hreg => ?_, ?_⟩
  · obtain rfl : row = row' := by simpa [hrow] using h
    have hreg : ∀ row' ∈ M.counterMap, row'.type = .pmc →
        row'.configRegister ≠ row.configRegister :=
      fun row' hmem' ht' he =>
        hne row' hmem' ht' (M.pmc_private row' hmem' ht' row hmem he.symm).symm
    exact ⟨fun row' hmem' ht' h => hreg row' hmem' ht' h.2,
      fun row' hmem' ht' h => hreg row' hmem' ht' h.2⟩
  · exact ⟨fun row' hmem' ht' h => (M.pmc_filter _ row' hmem' ht').1 h.2.symm,
      fun row' hmem' ht' h => (M.pmc_filter _ row' hmem' ht').2 h.2.symm⟩
  · exact noPmcConfig_common dev (List.mem_append_right _ hreg)
  · exact fun row' hmem' ht' he => hne row' hmem' ht' (he.trans hindex.symm)

theorem haswellUnit_eq_pmc {t : RegisterType} : haswellUnit t = .pmc ↔ t = .pmc := by
  cases t <;> simp [haswellUnit]

/-- What a set-up keeps of the shared state and of an entry. -/
abbrev coherentEntry (M : Machine) : Prog.Flow (Core × PerfmonEventSetEntry) :=
  Prog.Flow.inv fun p => ConfigCoherent M p.1 ∧ p.2.Typed M

theorem haswellSetupCase_coherent (hM : ReportsErrors M) {e : PerfmonEventSetEntry}
    {row : RegisterMap} (hrow : M.counterMap[e.index]? = some row) (htype : row.type = e.type)
    (lock : Bool) : Prog.Respects (Prog.Flow.inv (ConfigCoherent M))
      (haswellSetupCase M cpu lock e.index row e.event (haswellUnit e.type)) := by
  by_cases ht : e.type = .pmc
  · rw [haswellUnit_eq_pmc.mpr ht]
    have hoffcore : Prog.Respects (Prog.Flow.inv (ConfigCoherent M))
        (hasepOffcoreSetup M cpu e.event) :=
      coherent_logic.hasepOffcoreSetup e.event
        fun dev reg hreg => noPmcConfig_common dev (List.mem_append_right _ hreg)
    exact .bind (.call fun c => Prog.Respects.bind hoffcore (fun _ =>
      writeConfig_coherent hM hrow (htype.trans ht) _) c) fun _ => .pure _
  · exact coherent_logic.haswellSetupCase (boxAllowed_noPmc hrow (by rwa [htype])) lock hrow _ _

theorem haswellSetupEvent_coherent (hM : ReportsErrors M) (thread : ℕ) (mask : BitVec 128)
    (lock : Bool) (flags : Word) :
    Prog.Respects (coherentEntry M) (haswellSetupEvent M thread cpu mask lock flags) := by
  rintro ⟨c, e⟩
  unfold haswellSetupEvent
  simp only [Prog.wp_bind, Prog.wp_get]
  split
  · next hmask =>
      simp only [Prog.wp_bind, counterMap, Prog.wp_orUndefined, Prog.wp_zoom, Prog.wp_modify,
        Prog.wp_pure]
      intro row hrow
      by_cases hty : e.Typed M
      · have hne : e.type ≠ .notype := fun h => not_hasType_notype mask (h ▸ hmask)
        obtain ⟨row', hrow', htype⟩ := hty hne
        obtain rfl : row' = row := Option.some.inj (hrow'.symm.trans hrow)
        exact Prog.wp_mono (haswellSetupCase_coherent hM hrow htype lock c)
          (fun _ c' hc h => ⟨hc h.1, hty⟩) fun _ c' hc h => ⟨hc h.1, hty⟩
      · exact Prog.wp_mono (Prog.wp_trivial _) (fun _ _ _ h => absurd h.2 hty)
          fun _ _ _ h => absurd h.2 hty
  · exact fun h => h

/-- What a thread routine keeps of the shared state and of the slots. -/
abbrev coherentSlots (M : Machine) : Prog.Flow (Core × List Slot) :=
  Prog.Flow.inv fun p => ConfigCoherent M p.1 ∧ ∀ e, some e ∈ p.2 → e.Typed M

theorem onFst_coherent {α : Type} {m : Prog Int Core α}
    (h : Prog.Respects (Prog.Flow.inv (ConfigCoherent M)) m) :
    Prog.Respects (coherentSlots M) (Prog.onFst m) :=
  Prog.Respects.zoom fun p => Prog.wp_mono (h p.1)
    (fun _ _ hc hp => ⟨hc hp.1, hp.2⟩) fun _ _ hc hp => ⟨hc hp.1, hp.2⟩

theorem haswellSetup_coherent (hM : ReportsErrors M) (thread cpu : ℕ) (mask : BitVec 128) (n : ℕ) :
    Prog.Respects (coherentSlots M) (perfmonSetupCounterThreadHaswell M thread cpu mask n) := by
  have hreg : ∀ reg ∈ commonRegisters, NoPmcConfig M msrDev reg :=
    fun reg hreg => noPmcConfig_common _ hreg
  refine .bind .get fun p => .bind (onFst_coherent ?_) fun _ => .bind ?_ fun _ =>
    .when fun _ => onFst_coherent (coherent_logic.checkWrite _ (hreg _ (by decide)))
  · refine coherent_logic.haswellSetupFreeze mask _ (fun reg hmem => hreg reg ?_)
      (hreg _ (by decide)) (hreg _ (by decide))
    revert reg
    decide
  · exact .forCells_inv (haswellSetupEvent_coherent hM thread mask _) n 0

/-! ## The test of a counter -/

/-- A control register that reads as zero is zero. -/
def ReadsConfig (M : Machine) : Prop :=
  ∀ row ∈ M.counterMap, row.type = .pmc → ∀ n cpu v,
    M.accessRead n msrDev cpu row.configRegister = 0 →
      M.accessData n msrDev cpu row.configRegister v = 0 → v = 0

/-- No core counter that a descriptor names is cached on `cpu`. -/
def NamedUncached (M : Machine) (cpu : ℕ) (descriptors : List (List Char)) (c : Core) : Prop :=
  ∀ row ∈ M.counterMap, row.type = .pmc → row.key.toList ∈ descriptors.filterMap namedCounter →
    c.currentConfig cpu row.index = 0

theorem ConfigCoherent.clear {c : Core} (h : ConfigCoherent M c) {dev : PciDeviceIndex} {reg : ℕ}
    (hfree : ∀ row ∈ M.counterMap, row.type = .pmc → dev = msrDev → row.configRegister = reg →
      c.currentConfig cpu row.index = 0) (v : Word) :
    ConfigCoherent M (c.setReg (regOwner M cpu dev) dev reg v) := by
  intro row hmem ht p hne
  have hother : ¬(p = regOwner M cpu dev ∧ msrDev = dev ∧ row.configRegister = reg) := by
    rintro ⟨hp, hdev, hreg⟩
    have hcpu : p = cpu := by simpa [regOwner, ← hdev] using hp
    exact hne (hcpu ▸ hfree row hmem ht hdev.symm hreg)
  simpa [hother] using h row hmem ht p hne

/-- The invariant of the descriptor loop. -/
abbrev AddInv (M : Machine) (testcpu : ℕ) (force : Int) (descriptors : List (List Char))
    (c : Core) : Prop :=
  ConfigCoherent M c ∧ (force = 1 → NamedUncached M testcpu descriptors c)

theorem clear_addInv {testcpu : ℕ} {force : Int} {descriptors : List (List Char)}
    {dev : PciDeviceIndex} {reg : ℕ} {c : Core} (h : AddInv M testcpu force descriptors c)
    (hfree : ∀ row ∈ M.counterMap, row.type = .pmc → dev = msrDev → row.configRegister = reg →
      c.currentConfig testcpu row.index = 0) (err : Int) (v : Word) (a : Access) :
    AddInv M testcpu force descriptors
      ((if err = 0 then c.setReg (regOwner M testcpu dev) dev reg v else c).log a) := by
  split
  · exact ⟨(h.1.clear hfree _).log _, h.2⟩
  · exact ⟨h.1.log _, h.2⟩

/-- Nothing is cached for a control register that reads as zero. -/
theorem uncached_of_reads_zero (hread : ReadsConfig M) {c : Core} (h : ConfigCoherent M c)
    {row : RegisterMap} (hmem : row ∈ M.counterMap) (ht : row.type = .pmc)
    (hok : (readAnswer M c cpu msrDev row.configRegister).1 = 0)
    (hzero : (readAnswer M c cpu msrDev row.configRegister).2 = 0) :
    c.currentConfig cpu row.index = 0 := by
  by_contra hne
  have hold := h row hmem ht cpu hne
  unfold readAnswer at hok hzero
  split_ifs at hok hzero
  · exact absurd hok (by decide)
  · exact absurd hok (by decide)
  · exact absurd hok (by decide)
  · have hcontent := hread row hmem ht _ _ _ hok hzero
    simp only [regOwner, if_true] at hcontent
    exact hne (hold.symm.trans hcontent)

theorem testCounter_addInv {ρ : Type} (hread : ReadsConfig M) {testcpu : ℕ} {force : Int}
    {descriptors : List (List Char)} {row : RegisterMap} (hmem : row ∈ M.counterMap)
    (hnamed : row.key.toList ∈ descriptors.filterMap namedCounter) :
    Prog.Respects (Prog.Flow.inv (AddInv M testcpu force descriptors))
      (testCounter M testcpu row force : Prog ρ Core Bool) := by
  unfold testCounter
  dsimp only
  generalize hreg : (if row.configRegister = 0 then row.counterRegister
    else row.configRegister) = reg
  -- only a core counter's own control register is at stake
  have hown : ∀ row' ∈ M.counterMap, row'.type = .pmc → row'.configRegister = reg → row' = row := by
    intro row' hmem' ht' heq
    by_cases hconfig : row.configRegister = 0
    · rw [← hreg, if_pos hconfig] at heq
      exact absurd heq.symm (M.pmc_counter row' hmem' ht' row hmem)
    · rw [← hreg, if_neg hconfig] at heq
      exact row_unique hmem hmem' (M.pmc_private row' hmem' ht' row hmem heq.symm).symm
  have hover : ∀ type, Prog.Respects (Prog.Flow.inv (AddInv M testcpu force descriptors))
      (overwriteSettings M testcpu row.device reg type force : Prog ρ Core Unit) := by
    intro type
    refine .ite (fun hforce => ?_) fun _ => .when fun _ => .halt _
    refine .bind (fun c => ?_) fun _ => .pure _
    exact fun h => clear_addInv h (fun row' hmem' ht' _ heq =>
      hown row' hmem' ht' heq ▸ h.2 hforce row' hmem' ht'
        ((hown row' hmem' ht' heq).symm ▸ hnamed)) _ _ _
  intro c
  rw [Prog.wp_bind]
  show Prog.wp _ _ _ (c.log _)
  have hlog : AddInv M testcpu force descriptors c → AddInv M testcpu force descriptors (c.log
      ⟨.read, testcpu, row.device, reg, (readAnswer M c testcpu row.device reg).2,
        (readAnswer M c testcpu row.device reg).1⟩) := fun h => ⟨h.1.log _, h.2⟩
  split
  · refine Prog.wp_mono (Prog.Respects.bind (.when fun _ => hover _) (fun _ => .pure _) _) ?_ ?_
    · exact fun _ _ hkept h => hkept (hlog h)
    · exact fun _ _ hkept h => hkept (hlog h)
  · next hok =>
    split
    · next hzero =>
        rw [Prog.wp_bind]
        refine fun h => clear_addInv (hlog h) (fun row' hmem' ht' hdev heq => ?_) _ _ _
        exact uncached_of_reads_zero hread h.1 hmem' ht' (hdev ▸ heq ▸ not_not.mp hok)
          (hdev ▸ heq ▸ hzero)
    · refine Prog.wp_mono (Prog.Respects.bind (.when fun _ => hover _) (fun _ => .pure _) _) ?_ ?_
      · exact fun _ _ hkept h => hkept (hlog h)
      · exact fun _ _ hkept h => hkept (hlog h)

/-! ## The exported functions -/

/-- The cache is coherent, and the entries of all groups have the types of their
rows. -/
structure CacheInv (M : Machine) (s : Perfmon) : Prop where
  coherent : ConfigCoherent M s.core
  typed : ∀ g es, s.group? g = some es → ∀ e, some e ∈ es.events → e.Typed M

section Functions

variable {s : Perfmon}

abbrev cacheFlow (M : Machine) : Prog.Flow Perfmon := Prog.Flow.inv (CacheInv M)

theorem CacheInv.modifyGroup (h : CacheInv M s) {f : PerfmonEventSet → PerfmonEventSet} {g : ℕ}
    (hf : ∀ es, s.group? g = some es → ∀ e, some e ∈ (f es).events → e.Typed M) :
    CacheInv M (s.modifyGroup g f) := by
  refine ⟨h.coherent, fun i es hes => ?_⟩
  rw [EventsKept.group?_modifyGroup, Option.map_eq_some_iff] at hes
  obtain ⟨es', hes', rfl⟩ := hes
  split
  · next hgi =>
      subst hgi
      exact hf es' hes'
  · exact h.typed i es' hes'

theorem CacheInv.modifyGroupSet (h : CacheInv M s) {f : PerfmonGroupSet → PerfmonGroupSet}
    (hf : ∀ gs, (f gs).groups = gs.groups) : CacheInv M (s.modifyGroupSet f) := by
  refine ⟨h.coherent, fun g es hes => h.typed g es ?_⟩
  rw [← hes]
  simp only [Perfmon.group?, Perfmon.modifyGroupSet]
  cases s.groupSet <;> simp [hf]

theorem CacheInv.core (h : CacheInv M s) {c : Core} (hc : ConfigCoherent M c) :
    CacheInv M { s with core := c } := ⟨hc, h.typed⟩

theorem onCore_cacheInv {α : Type} {m : Prog Int Core α}
    (hm : Prog.Respects (Prog.Flow.inv (ConfigCoherent M)) m) :
    Prog.Respects (cacheFlow M)
      (Prog.zoom Perfmon.core (fun c s => { s with core := c }) m : PerfmonProg α) :=
  Prog.Respects.zoom fun s => Prog.wp_mono (hm s.core) (fun _ _ hc h => h.core (hc h.coherent))
    fun _ _ hc h => h.core (hc h.coherent)

theorem onSlots_cacheInv {α : Type} {m : Prog Int (Core × List Slot) α}
    (hm : Prog.Respects (coherentSlots M) m) (g : ℕ) :
    Prog.Respects (cacheFlow M) (onSlots g m : PerfmonProg α) := by
  refine Prog.Respects.zoom fun s => ?_
  have hput : ∀ p : Core × List Slot, CacheInv M s →
      (ConfigCoherent M p.1 ∧ ∀ e, some e ∈ p.2 → e.Typed M) →
      CacheInv M ({ s with core := p.1 }.modifyGroup g fun es => { es with events := p.2 }) :=
    fun p h hp => (h.core hp.1).modifyGroup fun _ _ => hp.2
  have hview : CacheInv M s → ConfigCoherent M s.core ∧
      ∀ e, some e ∈ ((s.group? g).map PerfmonEventSet.events).getD [] → e.Typed M := by
    refine fun h => ⟨h.coherent, fun e he => ?_⟩
    cases hes : s.group? g with
    | none => simp [hes] at he
    | some es => exact h.typed g es hes e (by simpa [hes] using he)
  exact Prog.wp_mono (hm _) (fun _ p hp h => hput p h (hp (hview h)))
    fun _ p hp h => hput p h (hp (hview h))

theorem theGroupSet_cacheInv {ρ : Type} :
    Prog.Respects (cacheFlow M) (theGroupSet : Prog ρ Perfmon PerfmonGroupSet) :=
  .bind .get fun _ => .orUndefined _

theorem groupAt_cacheInv {ρ : Type} (groupId : Int) :
    Prog.Respects (cacheFlow M) (groupAt groupId : Prog ρ Perfmon (ℕ × PerfmonEventSet)) :=
  .bind .get fun _ => .ite (fun _ => .bind (.orOutOfBounds _) fun _ => .pure _) fun _ => .halt _

theorem requireInit_cacheInv :
    Prog.Respects (cacheFlow M) (requireInit : PerfmonProg PerfmonGroupSet) := by
  refine .bind .get fun s => ?_
  cases s.groupSet with
  | none => exact .ret fun _ h => h
  | some gs => exact .pure _

theorem perfmonSetupCounters_cacheInv (hM : ReportsErrors M) (groupId : Int) :
    Prog.Respects (cacheFlow M) (perfmonSetupCounters M (haswell M) groupId) := by
  refine .bind requireInit_cacheInv fun gs => .bind (.when fun _ => .ret fun _ h => h) fun _ =>
    .bind (.foldlM (fun _ th _ => ?_) ()) fun _ => .bind (groupAt_cacheInv _) fun g => ?_
  · refine .bind (.call fun s => ?_) fun _ => .when fun _ => .ret fun _ h => h
    refine Prog.Respects.bind theGroupSet_cacheInv (fun _ => .bind (.when fun _ =>
      .ret fun _ h => h) fun _ => .bind (groupAt_cacheInv _) fun g => .bind ?_ fun _ =>
        .bind .get fun _ => .bind (.when fun _ => .ret fun _ h => h) fun _ => ?_) s
    · exact .bind theGroupSet_cacheInv fun _ => .bind (.orOutOfBounds _) fun _ =>
        .bind (groupAt_cacheInv _) fun _ => onSlots_cacheInv
          (.call fun p => haswellSetup_coherent hM _ _ _ _ p) _
    · exact .modify fun s h => h.modifyGroupSet (f := fun gs => { gs with activeGroup := groupId })
        fun _ => rfl
  · exact .modify fun s h => h.modifyGroup (f := fun es => { es with state := .setup })
      fun es hes => h.typed _ es hes

theorem perfmonInitHaswell_coherent (cpu : ℕ) :
    Prog.Respects (Prog.Flow.inv (ConfigCoherent M)) (perfmonInitHaswell M cpu) := by
  have hreg : ∀ reg ∈ commonRegisters, NoPmcConfig M msrDev reg :=
    fun reg hreg => noPmcConfig_common _ hreg
  have hwrite : ∀ reg data, reg ∈ commonRegisters →
      Prog.Respects (Prog.Flow.inv (ConfigCoherent M)) (hpmWrite M cpu msrDev reg data) :=
    fun reg data h => coherent_logic.write msrDev reg data (hreg reg h)
  have hread : ∀ reg, Prog.Respects (Prog.Flow.inv (ConfigCoherent M))
      (hpmRead M cpu msrDev reg : Prog Int Core _) := fun reg => coherent_logic.read msrDev reg
  have hbox : ∀ f, Prog.Respects (Prog.Flow.inv (ConfigCoherent M))
      (setCboxSetup f : Prog Int Core Unit) := fun _ => .modify fun _ h => h
  exact .bind (.modify fun _ h => h) fun _ =>
    .bind (coherent_logic.checkWrite _ (hreg _ (by decide))) fun _ =>
      .bind (hwrite _ _ (by decide)) fun _ => .bind (hread _) fun _ =>
        .bind (hwrite _ _ (by decide)) fun _ => .bind (hread _) fun _ =>
          .ite (fun _ => hbox _) fun _ => .when fun _ => hbox _

theorem perfmonInit_cacheInv (threadsToCpu : List ℕ) :
    Prog.Respects (cacheFlow M) (perfmonInit M (haswell M) threadsToCpu) := by
  refine .bind .get fun s => ?_
  cases s.groupSet with
  | some _ => exact .ret fun _ h => h
  | none =>
      have hadd : ∀ cpu, Prog.Respects (Prog.Flow.inv (ConfigCoherent M))
          (hpmAddThread M cpu : Prog Int Core Unit) := by
        refine fun cpu => .modify fun c h => ?_
        show ConfigCoherent M (if _ then _ else _)
        split
        · exact h
        · exact h
      refine .bind (.when fun _ => .ret fun _ h => h) fun _ => .bind (.when fun _ =>
        .ret fun _ h => h) fun _ => .bind (.when fun _ => .ret fun _ h => h) fun _ =>
          .bind (.modify fun s h => h.core h.coherent) fun _ =>
            .bind (.foldlM (fun _ cpu _ => ?_) ()) fun _ => .modify fun s h => ?_
      · exact .bind (onCore_cacheInv (hadd cpu)) fun _ => .bind (onCore_cacheInv
          (.call fun c => perfmonInitHaswell_coherent cpu c)) fun _ => .pure _
      · exact ⟨h.coherent, fun g es hes => by simp [Perfmon.group?] at hes⟩

theorem CacheInv.of_cleared (hconfig : ∀ cpu index, s.core.currentConfig cpu index = 0)
    (hgroups : s.groupSet = none) : CacheInv M s :=
  ⟨fun row _ _ cpu hne => absurd (hconfig cpu row.index) hne,
    fun g es hes => by simp [Perfmon.group?, hgroups] at hes⟩

theorem perfmonFinalize_cacheInv :
    Prog.Respects (cacheFlow M) (perfmonFinalize (haswell M)) := by
  intro s
  unfold perfmonFinalize
  rw [Prog.wp_bind, Prog.wp_get]
  cases s.groupSet with
  | none => exact fun h => h
  | some gs =>
      have hloop : ((List.range gs.numberOfActiveGroups).foldlM (fun _ g =>
          gs.threads.foldlM (fun _ th => do
            let _ ← callThread (haswell M).finalizeCountersThread th.threadId g
            pure ()) ()) () : PerfmonProg Unit).wp (fun _ _ => True) (fun _ _ => False) s := by
        refine Prog.wp_foldlM (I := fun _ _ => True) (fun _ g _ s1 _ _ => ?_) trivial
        refine Prog.wp_foldlM (I := fun _ _ => True) (fun _ th _ s2 _ _ => ?_) trivial
        rw [Prog.wp_bind]
        exact Prog.wp_mono (callThread_control _ _ _ s2) (fun _ _ _ => trivial) fun _ _ h => h
      rw [Prog.wp_bind]
      exact Prog.wp_mono hloop (fun _ _ _ _ => .of_cleared (fun _ _ => rfl) rfl)
        fun _ _ h => h.elim

/-- A group is there before the allocation, or it has no events. -/
theorem mem_allocate {gs : PerfmonGroupSet} {es : PerfmonEventSet}
    (h : es ∈ (gs.allocate M).groups) : es ∈ gs.groups ∨ es.events = [] := by
  unfold PerfmonGroupSet.allocate at h
  dsimp only at h
  split_ifs at h
  · obtain rfl := List.mem_singleton.mp h
    exact Or.inr rfl
  · rcases List.mem_append.mp h with hold | hnew
    · exact Or.inl hold
    · obtain rfl := List.mem_singleton.mp hnew
      exact Or.inr rfl
  · exact Or.inl h

theorem CacheInv.allocate (h : CacheInv M s) :
    CacheInv M (s.modifyGroupSet (PerfmonGroupSet.allocate M)) := by
  refine ⟨h.coherent, fun g es hes e he => ?_⟩
  cases hgs : s.groupSet with
  | none => simp [Perfmon.group?, Perfmon.modifyGroupSet, hgs] at hes
  | some gs =>
      simp only [Perfmon.group?, Perfmon.modifyGroupSet, hgs, Option.map_some,
        Option.bind_some] at hes
      rcases mem_allocate (List.mem_of_getElem? hes) with hmem | hnil
      · obtain ⟨i, hi⟩ := List.mem_iff_getElem?.mp hmem
        exact h.typed i es (by simp [Perfmon.group?, hgs, hi]) e he
      · simp [hnil] at he

/-- No core counter an added set names is cached on the CPU that tests it, if
the set is added by force. -/
def ForceSafe (M : Machine) (s : Perfmon) (eventString : List Char) (force : Int) : Prop :=
  force = 1 → ∀ gs ∈ s.groupSet, ∀ th ∈ gs.threads.head?,
    NamedUncached M th.processorId (eventString.splitOn ',') s.core

theorem perfmonAddEventSet_cacheInv (hread : ReadsConfig M) {eventString : List Char} {force : Int}
    (hsafe : ForceSafe M s eventString force) (h : CacheInv M s) :
    (perfmonAddEventSet M eventString force).wp (fun _ s' => CacheInv M s')
      (fun _ s' => CacheInv M s') s := by
  unfold perfmonAddEventSet
  rw [Prog.wp_bind, wp_requireInit]
  refine ⟨fun gs hgs => ?_, fun _ => h⟩
  simp only [Prog.wp_bind, Prog.wp_when, Prog.wp_ret, Prog.wp_modify, Prog.wp_orUndefined,
    Prog.wp_zoom]
  refine ⟨fun _ => h, fun _ testcpu hcpu => ?_⟩
  obtain ⟨th, hth, rfl⟩ := Option.map_eq_some_iff.mp hcpu
  have hadd := addEvents_respects (F := Prog.Flow.inv
    (AddInv M th.processorId force (eventString.splitOn ',')))
    (fun dev reg c hc => ⟨hc.1.log _, hc.2⟩)
    (fun row hmem hnamed => testCounter_addInv (ρ := Int) hread hmem hnamed)
    gs.numberOfActiveGroups 0 ⟨[], 0, 0⟩ s.core
  have hfresh := addEvents_fresh M (ρ := Int) th.processorId force gs.numberOfActiveGroups
    (eventString.splitOn ',') 0 ⟨[], 0, 0⟩ s.core ⟨by simp, by simp, by simp⟩
  have hinv : AddInv M th.processorId force (eventString.splitOn ',') s.core :=
    ⟨h.coherent, fun hforce => hsafe hforce gs hgs th hth⟩
  refine Prog.wp_mono (Prog.wp_and hadd hfresh) ?_ ?_
  · rintro parsed c ⟨hkept, hnew⟩
    have hcore := (h.allocate.core (hkept hinv).1).modifyGroup (g := gs.numberOfActiveGroups)
      (f := fun es => { es with
        events := parsed.slots
        numberOfEvents := parsed.numberOfEvents
        regTypeMask := parsed.regTypeMask }) fun _ _ => hnew.typed
    split
    · simp only [Prog.wp_bind, Prog.wp_modify, Prog.wp_ret, setState]
      refine CacheInv.modifyGroupSet (f := fun gs => { gs with
        numberOfActiveGroups := gs.numberOfActiveGroups + 1 }) ?_ fun _ => rfl
      exact hcore.modifyGroup (f := fun es => { es with state := .none }) fun es hes =>
        hcore.typed _ es hes
    · exact hcore
  · rintro r c ⟨hkept, -⟩
    exact h.allocate.core (hkept hinv).1

end Functions

/-! ## Runs -/

theorem boxOption_enable {mask flags : Word} (option : PerfmonEventOption)
    (henable : flags.getLsbD 22 = true) : (boxOption mask flags option).getLsbD 22 = true := by
  unfold boxOption
  split <;> simp [henable]

/-- The flags of a core counter always have the enable bit. -/
theorem hasepPmcFlags_enable (event : PerfmonEvent) : (hasepPmcFlags event).getLsbD 22 = true := by
  unfold hasepPmcFlags
  dsimp only
  generalize hflags : (if event.cfgBits ≠ 0 ∧ event.eventId ≠ 0xB7 ∧ event.eventId ≠ 0xBB then
    ((bit 22 ||| bit 16) ||| eventBits event) ||| cfgFlags event
    else (bit 22 ||| bit 16) ||| eventBits event) = flags
  have hstart : flags.getLsbD 22 = true := by
    rw [← hflags]
    split <;> simp [bit]
  clear hflags
  induction event.optionList generalizing flags with
  | nil => exact hstart
  | cons option options ih =>
      refine ih _ ?_
      dsimp only
      split
      case h_5 => exact boxOption_enable option hstart
      all_goals simp [hstart]

theorem hasepPmcFlags_ne_zero (event : PerfmonEvent) : hasepPmcFlags event ≠ 0 := by
  intro hzero
  have henable := hasepPmcFlags_enable event
  rw [hzero] at henable
  exact absurd henable (by decide)

/-- A set-up of a core counter whose configuration is cached finds the register
as a full write would leave it. -/
def SkipsRight (M : Machine) (c : Core) : Prop :=
  ∀ row ∈ M.counterMap, row.type = .pmc → ∀ cpu event,
    c.currentConfig cpu row.index = hasepPmcFlags event →
      c.regs cpu msrDev row.configRegister = hasepPmcFlags event

theorem ConfigCoherent.skipsRight {c : Core} (h : ConfigCoherent M c) : SkipsRight M c := by
  intro row hmem ht cpu event heq
  rw [h row hmem ht cpu (heq ▸ hasepPmcFlags_ne_zero event), heq]

/-- The calls that configure counters, with no forced set on a cached one. -/
def ConfiguresSafely (M : Machine) (s : Perfmon) : Call → Prop
  | .init _ | .finalize | .setupCounters _ => True
  | .addEventSet eventString force => ForceSafe M s eventString force
  | _ => False

/-- **The cache is coherent in every state a run reaches** in which no set is
added by force while a counter it names is cached. -/
theorem configCoherent_of_run {s t : Perfmon} (hM : ReportsErrors M) (hread : ReadsConfig M)
    (h0 : Booted s) (h : Run (Step M (haswell M)) (ConfiguresSafely M) s t) :
    ConfigCoherent M t.core ∧ SkipsRight M t.core := by
  have hstep : ∀ (u : Perfmon) (call : Call) (v : Perfmon), CacheInv M u →
      ConfiguresSafely M u call → Step M (haswell M) u call v → CacheInv M v := by
    intro u call v hu hguard hs
    refine hs.wp (P := fun v => CacheInv M v) ?_
    cases call with
    | init threadsToCpu =>
        exact Prog.wp_mono (perfmonInit_cacheInv threadsToCpu u) (fun _ _ hk => hk hu)
          fun _ _ hk => hk hu
    | finalize =>
        exact Prog.wp_mono (perfmonFinalize_cacheInv u) (fun _ _ hk => hk hu) fun _ _ hk => hk hu
    | addEventSet eventString force => exact perfmonAddEventSet_cacheInv hread hguard hu
    | setupCounters groupId =>
        exact Prog.wp_mono (perfmonSetupCounters_cacheInv hM groupId u) (fun _ _ hk => hk hu)
          fun _ _ hk => hk hu
    | _ => exact hguard.elim
  have hinv := Run.invariant (t := t) (.of_cleared h0.currentConfig h0.groupSet) hstep h
  exact ⟨hinv.coherent, hinv.coherent.skipsRight⟩

theorem mem_iff_any {descriptors : List (List Char)} {name : List Char} :
    descriptors.any (· = name) = true ↔ name ∈ descriptors := by
  simp

instance (M : Machine) (cpu : ℕ) (descriptors : List (List Char)) (c : Core) :
    Decidable (NamedUncached M cpu descriptors c) :=
  @List.decidableBAll _ _ (fun _ => @instDecidableForall _ _ inferInstance
    (@instDecidableForall _ _ (decidable_of_iff _ mem_iff_any) inferInstance)) M.counterMap

instance (s : Perfmon) (eventString : List Char) (force : Int) :
    Decidable (ForceSafe M s eventString force) :=
  inferInstanceAs (Decidable (force = 1 → ∀ gs ∈ s.groupSet, ∀ th ∈ gs.threads.head?,
    NamedUncached M th.processorId (eventString.splitOn ',') s.core))

instance (s : Perfmon) : (call : Call) → Decidable (ConfiguresSafely M s call)
  | .init _ | .finalize | .setupCounters _ => inferInstanceAs (Decidable True)
  | .addEventSet eventString force => inferInstanceAs (Decidable (ForceSafe M s eventString force))
  | .startCounters | .startGroupCounters _ | .readCounters | .readGroupCounters _ =>
      inferInstanceAs (Decidable False)
  | .readGroupThreadCounters _ _ | .readCountersCpu _ | .stopCounters | .stopGroupCounters _ =>
      inferInstanceAs (Decidable False)
  | .switchActiveGroup _ => inferInstanceAs (Decidable False)

theorem configCoherent_setup :
    let t := (Perfmon.afterIf haswellMachine (haswell haswellMachine)
      (ConfiguresSafely haswellMachine)
      [.init [0], .addEventSet "UOPS_ISSUED_ANY:PMC0".toList 1, .setupCounters 0]
      Perfmon.boot).get (by decide +kernel)
    ConfigCoherent haswellMachine t.core ∧ SkipsRight haswellMachine t.core :=
  configCoherent_of_run (fun _ _ _ _ _ => Int.le_refl 0) (fun _ _ _ _ _ _ _ h => h) booted_boot
    (Run.of_afterIf (Option.some_get _).symm)

/-- Adding the same set again by force clears the register, and the cache still
holds its flags. -/
theorem not_configCoherent_forced :
    ∃ t, Run (Step haswellMachine (haswell haswellMachine)) (fun _ _ => True) Perfmon.boot t ∧
      ¬ConfigCoherent haswellMachine t.core := by
  have hrun : (Perfmon.after haswellMachine (haswell haswellMachine)
      [.init [0], .addEventSet "UOPS_ISSUED_ANY:PMC0".toList 0, .setupCounters 0,
        .addEventSet "UOPS_ISSUED_ANY:PMC0".toList 1] Perfmon.boot).map (fun t =>
        (t.core.currentConfig 0 3, t.core.regs 0 msrDev 0x186)) = some (0x41010E, 0) := by
    decide +kernel
  obtain ⟨t, ht, hvalues⟩ := Option.map_eq_some_iff.mp hrun
  obtain ⟨hcache, hreg⟩ := Prod.mk.inj hvalues
  refine ⟨t, Run.of_afterIf ht, fun h => ?_⟩
  have hrow := h ⟨"PMC0", 3, .pmc, 0x186, 0x0C1, 0, msrDev, hasValidOptionsPmc⟩
    (List.mem_of_getElem? (show haswellMachine.counterMap[3]? = _ from rfl)) rfl 0
  dsimp only at hrow
  rw [hcache, hreg] at hrow
  exact absurd (hrow (by decide)) (by decide)

end Likwid
