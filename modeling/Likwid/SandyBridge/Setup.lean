import Likwid.QpiSetup
import Likwid.CboxFilters
import Likwid.SandyBridge.Tables

/-!
# Sandy Bridge: setting up the counters of a thread

The `snb_*_setup` helpers and `perfmon_setupCounterThread_sandybridge`. A filter is not in the
control register of an event: `snb_bbox_setup`, `snb_wbox_setup` and `snb_sbox_setup` write it while
they go through the options.
-/

namespace Likwid

/-- What `sandy_cbox_setup` points to -/
inductive SandyCboxSetup where
  | snb | snbep
deriving DecidableEq, Repr

variable (M : Machine)

/-! ## Core counters -/

def snbFixedSetup (cpu : ℕ) (index : RegisterIndex) (event : PerfmonEvent) :
    Prog Int Core (BitVec 32) :=
  fixedSetup cpu index event

/-- `flags` has 32 bits, and `cmask` has more. -/
def snbPmcFlags (event : PerfmonEvent) : Word :=
  let flags := (bit 22 ||| bit 16) ||| eventBits event
  let flags :=
    if event.cfgBits ≠ 0 ∧ event.eventId ≠ 0xB7 ∧ event.eventId ≠ 0xBB then
      flags ||| ((cfgFlags event).setWidth 32).setWidth 64
    else flags
  event.optionList.foldl
    (fun flags option =>
      match option.type with
      | .countKernel => flags ||| bit 17
      | .anythread => flags ||| bit 21
      | _ => boxOption 0xFF flags option)
    flags

def snbOffcoreOptions (event : PerfmonEvent) : Word :=
  event.optionList.foldl
    (fun flags option =>
      match option.type with
      | .match0 => flags ||| (option.value &&& 0x8FFF)
      | .match1 => flags ||| (option.value <<< 16)
      | _ => flags)
    0

def snbOffcoreSetup (cpu : ℕ) (event : PerfmonEvent) : Prog Int Core Unit :=
  if event.eventId = 0xB7 then do
    let flags ← offcoreFlags event (snbOffcoreOptions event)
    checkWrite M cpu msrDev msrOffcoreResp0 flags
  else Prog.when (event.eventId = 0xBB) do
    let flags ← offcoreFlags event (snbOffcoreOptions event)
    checkWrite M cpu msrDev msrOffcoreResp1 flags

def snbPmcSetup (cpu : ℕ) (index : RegisterIndex) (event : PerfmonEvent) :
    Prog Int Core Unit := do
  snbOffcoreSetup M cpu event
  writeConfig M cpu index (snbPmcFlags event)

/-! ## Boxes among the model specific registers -/

/-- The helper of a box whose options are those every box knows -/
def snbMsrSetup (thresholdMask flags : Word) (cpu : ℕ) (index : RegisterIndex)
    (event : PerfmonEvent) : Prog Int Core Unit := do
  requireLock M cpu
  writeConfig M cpu index (event.optionList.foldl (boxOption thresholdMask) flags)

def snbCboxSetup (cpu : ℕ) (index : RegisterIndex) (event : PerfmonEvent) :
    Prog Int Core Unit :=
  snbMsrSetup M 0x1F ((bit 22 ||| bit 20) ||| eventBits event) cpu index event

def snbUboxSetup (cpu : ℕ) (index : RegisterIndex) (event : PerfmonEvent) :
    Prog Int Core Unit :=
  snbMsrSetup M 0x1F (bit 17 ||| eventBits event) cpu index event

/-- The case of the occupancy filter has no `break`, and the default behind it does nothing. -/
def snbWboxOption (cpu : ℕ) (flags : Word) (option : PerfmonEventOption) : Prog Int Core Word :=
  match option.type with
  | .occupancy => pure (flags ||| ((option.value &&& 0x3) <<< 14))
  | .occupancyEdge => pure (flags ||| bit 31)
  | .occupancyInvert => pure (flags ||| bit 30)
  | .occupancyFilter => do
      checkWrite M cpu msrDev msrUncPcuPmonBoxFilter (option.value &&& 0xFFFFFFFF)
      pure flags
  | _ => pure (boxOption 0x1F flags option)

def snbWboxSetup (cpu : ℕ) (index : RegisterIndex) (event : PerfmonEvent) :
    Prog Int Core Unit := do
  requireLock M cpu
  let flags ← event.optionList.foldlM (snbWboxOption M cpu)
    (bit 22 ||| (event.eventId.setWidth 64 &&& 0xFF))
  writeConfig M cpu index flags

/-- The call through the function pointer `sandy_cbox_setup` -/
def sandyCboxSetup (cbox : Option SandyCboxSetup) (numberOfNumaDomains cpu : ℕ)
    (index : RegisterIndex) (event : PerfmonEvent) : Prog Int Core (BitVec 32) :=
  match cbox with
  | some .snb => dropped (snbCboxSetup M cpu index event)
  | some .snbep => dropped (snbepCboxSetup M numberOfNumaDomains cpu index event)
  | none => Prog.halt .undefined

/-! ## PCI devices -/

/-- The helper of a box that is a PCI device, with what it does for an option -/
def snbPciSetup (onOption : Word → PerfmonEventOption → Prog Int Core Word) (flags : Word)
    (cpu : ℕ) (index : RegisterIndex) (row : RegisterMap) (event : PerfmonEvent) :
    Prog Int Core Unit := do
  requireLock M cpu
  requireDevice M row.device cpu
  let flags ← event.optionList.foldlM onOption flags
  let c ← Prog.get
  Prog.when (flags ≠ c.currentConfig cpu index) do
    checkWrite M cpu row.device row.configRegister flags
    saveConfig cpu index flags

/-- The options of a box without a filter -/
def snbPlainOption (flags : Word) (option : PerfmonEventOption) : Prog Int Core Word :=
  pure (boxOption 0xFF flags option)

def snbMboxSetup (cpu : ℕ) (index : RegisterIndex) (row : RegisterMap) (event : PerfmonEvent) :
    Prog Int Core Unit :=
  snbPciSetup M snbPlainOption (bit 22 ||| eventBits event) cpu index row event

def snbRboxSetup (cpu : ℕ) (index : RegisterIndex) (row : RegisterMap) (event : PerfmonEvent) :
    Prog Int Core Unit :=
  snbPciSetup M snbPlainOption (bit 22 ||| eventBits event) cpu index row event

def snbPboxSetup (cpu : ℕ) (index : RegisterIndex) (row : RegisterMap) (event : PerfmonEvent) :
    Prog Int Core Unit :=
  snbPciSetup M snbPlainOption (bit 22 ||| eventBits event) cpu index row event

def snbBboxOption (cpu : ℕ) (dev : PciDeviceIndex) (flags : Word) (option : PerfmonEventOption) :
    Prog Int Core Word :=
  match option.type with
  | .opcode => do
      checkWrite M cpu dev pciUncHaPmonOpcodematch (option.value &&& 0x3F)
      pure flags
  | .match0 => do
      checkWrite M cpu dev pciUncHaPmonAddrmatch0 (option.value &&& 0xFFFFFFC0)
      checkWrite M cpu dev pciUncHaPmonAddrmatch1 ((option.value >>> 32) &&& 0x3FFF)
      pure flags
  | _ => pure (boxOption 0xFF flags option)

def snbBboxSetup (cpu : ℕ) (index : RegisterIndex) (row : RegisterMap) (event : PerfmonEvent) :
    Prog Int Core Unit :=
  snbPciSetup M (snbBboxOption M cpu row.device) (bit 22 ||| eventBits event) cpu index row event

/-- The match and mask registers are those that `ivb_sbox_setup` writes, but on the filter
device. -/
def snbSboxOption (cpu : ℕ) (filterdev : PciDeviceIndex) (flags : Word)
    (option : PerfmonEventOption) : Prog Int Core Word :=
  match ivbSboxFilter option.type with
  | some (filterreg, mask) => do
      let c ← Prog.get
      Prog.when (hpmCheck M c filterdev cpu ≠ 0)
        (checkWrite M cpu filterdev filterreg (option.value &&& mask))
      pure flags
  | none => pure (boxOption 0xFF flags option)

def snbSboxSetup (cpu : ℕ) (index : RegisterIndex) (row : RegisterMap) (event : PerfmonEvent)
    (filterdev : PciDeviceIndex) : Prog Int Core Unit :=
  snbPciSetup M (snbSboxOption M cpu filterdev)
    ((bit 22 ||| event.cfgBits.setWidth 64) ||| eventBits event) cpu index row event

/-! ## The routine -/

/-- The switch of the loop, with the value it adds to `fixed_flags` -/
def sandyBridgeSetupCase (cbox : Option SandyCboxSetup) (numberOfNumaDomains cpu : ℕ)
    (index : RegisterIndex) (row : RegisterMap) (event : PerfmonEvent) :
    SandyBridgeUnit → Prog Int Core (BitVec 32)
  | .pmc => dropped (snbPmcSetup M cpu index event)
  | .fixed => snbFixedSetup cpu index event
  | .mbox => dropped (snbMboxSetup M cpu index row event)
  | .cbox => sandyCboxSetup M cbox numberOfNumaDomains cpu index event
  | .ubox => dropped (snbUboxSetup M cpu index event)
  | .uboxfix => do
      checkWrite M cpu msrDev row.configRegister
        (if M.model = sandybridgeEP then bit 22 else bit 20 ||| bit 22)
      pure 0
  | .sbox0 => dropped (snbSboxSetup M cpu index row event pciQpiMaskDevicePort0)
  | .sbox1 => dropped (snbSboxSetup M cpu index row event pciQpiMaskDevicePort1)
  | .bbox0 => dropped (snbBboxSetup M cpu index row event)
  | .wbox => dropped (snbWboxSetup M cpu index event)
  | .rbox => dropped (snbRboxSetup M cpu index row event)
  | .pbox => dropped (snbPboxSetup M cpu index row event)
  | .power | .thermal | .mboxfix | .sboxfix | .wboxfix | .other => pure 0

def sandyBridgeSetupEvent (cbox : Option SandyCboxSetup) (numberOfNumaDomains thread cpu : ℕ)
    (mask : BitVec 128) (fixedFlags : Word) : EventProg Word := do
  let p ← Prog.get
  let e := p.2
  if hasType mask e.type then do
    let row ← counterMap M e.index
    Prog.onSnd (Prog.modify (·.setInit thread true))
    let flags ← Prog.onFst (sandyBridgeSetupCase M cbox numberOfNumaDomains cpu e.index row
      e.event (sandyBridgeUnit e.type))
    pure (fixedFlags ||| flags.setWidth 64)
  else pure fixedFlags

/-- What comes before the loop -/
def sandyBridgeSetupFreeze (cpu : ℕ) (mask : BitVec 128) (lock : Bool) : Prog Int Core Unit := do
  Prog.when (hasCore mask) do
    checkWrite M cpu msrDev msrPerfGlobalCtrl 0
    checkWrite M cpu msrDev msrPerfGlobalOvfCtrl 0
  snbBoxes M cpu mask lock (snbFreezeList M) msrUncorePerfGlobalCtrl (bit 31)

def perfmonSetupCounterThreadSandybridge (cbox : Option SandyCboxSetup)
    (numberOfNumaDomains thread cpu : ℕ) (mask : BitVec 128) (numberOfEvents : ℕ) :
    Prog Int (Core × List Slot) Unit := do
  let p ← Prog.get
  let lock := haveLock M p.1 cpu
  Prog.onFst (sandyBridgeSetupFreeze M cpu mask lock)
  let fixedFlags ← Prog.forCells
    (sandyBridgeSetupEvent M cbox numberOfNumaDomains thread cpu mask) numberOfEvents 0
  Prog.when (0 < fixedFlags)
    (Prog.onFst (checkWrite M cpu msrDev msrPerfFixedCtrCtrl fixedFlags))

/-! ## What the set-up writes -/

section Logic

variable {M} {cpu : ℕ} {W : PciDeviceIndex → ℕ → Prop} {S : RegisterIndex → Prop}
  {R : Core → Core → Prop} {hr : ∀ c, R c c} {ht : ∀ a b c, R a b → R b c → R a c}
  (L : FrameLogic M cpu W S R hr ht)

/-- What the set-up of the counter at `index` must be allowed to write -/
structure SnbAllowed (M : Machine) (index : RegisterIndex) (W : PciDeviceIndex → ℕ → Prop)
    (S : RegisterIndex → Prop) : Prop extends BoxAllowed M index W S where
  occupancy : W msrDev msrUncPcuPmonBoxFilter
  link : ∀ type p, ivbSboxFilter type = some p → ∀ dev, W dev p.1

/-- What a macro must be allowed to write -/
def BoxesAllowed (W : PciDeviceIndex → ℕ → Prop) (boxes : List BoxWrite) : Prop :=
  ∀ b ∈ boxes, W b.device b.register

include L

namespace CoreLogic

theorem snbBoxes {mask : BitVec 128} {lock : Bool} {boxes : List BoxWrite} {clientRegister : ℕ}
    (hboxes : M.model = sandybridgeEP → BoxesAllowed W boxes)
    (hclient : M.model ≠ sandybridgeEP → W msrDev clientRegister) (clientValue : Word) :
    Prog.Respects (Prog.Flow.of R hr ht)
      (snbBoxes M cpu mask lock boxes clientRegister clientValue) := by
  refine .ite (fun hmodel => ?_) fun hmodel => L.checkWrite _ (hclient hmodel)
  refine .foldlM (fun _ b hb => ?_) ()
  unfold BoxWrite.run
  exact .bind .get fun _ => .when fun _ => L.checkWrite _ (hboxes hmodel b hb)

theorem sandyBridgeSetupFreeze {mask : BitVec 128} {lock : Bool}
    (hcore : W msrDev msrPerfGlobalCtrl ∧ W msrDev msrPerfGlobalOvfCtrl)
    (hboxes : M.model = sandybridgeEP → BoxesAllowed W (snbFreezeList M))
    (hclient : M.model ≠ sandybridgeEP → W msrDev msrUncorePerfGlobalCtrl) :
    Prog.Respects (Prog.Flow.of R hr ht) (sandyBridgeSetupFreeze M cpu mask lock) :=
  .bind (.when fun _ => .bind (L.checkWrite _ hcore.1) fun _ => L.checkWrite _ hcore.2)
    fun _ => L.snbBoxes hboxes hclient _

variable {index : RegisterIndex} (hS : SnbAllowed M index W S) (event : PerfmonEvent)

include hS

theorem snbOffcoreSetup :
    Prog.Respects (Prog.Flow.of R hr ht) (snbOffcoreSetup M cpu event) :=
  .ite (fun _ => .bind (L.offcoreFlags _ _) fun _ => L.checkWrite _ (hS.common _ _ (by decide)))
    fun _ => .when fun _ => .bind (L.offcoreFlags _ _) fun _ =>
      L.checkWrite _ (hS.common _ _ (by decide))

theorem snbMsrSetup (thresholdMask flags : Word) :
    Prog.Respects (Prog.Flow.of R hr ht) (snbMsrSetup M thresholdMask flags cpu index event) :=
  .bind L.requireLock fun _ => L.writeConfig hS.toBoxAllowed _

theorem snbWboxSetup :
    Prog.Respects (Prog.Flow.of R hr ht) (snbWboxSetup M cpu index event) := by
  refine .bind L.requireLock fun _ => .bind (.foldlM (fun flags option _ => ?_) _) fun _ =>
    L.writeConfig hS.toBoxAllowed _
  unfold snbWboxOption
  cases option.type with
  | occupancyFilter => exact .bind (L.checkWrite _ hS.occupancy) fun _ => .pure _
  | _ => exact .pure _

theorem snbepCboxSetup (numberOfNumaDomains : ℕ) :
    Prog.Respects (Prog.Flow.of R hr ht)
      (snbepCboxSetup M numberOfNumaDomains cpu index event) := by
  refine .bind L.requireLock fun _ => .bind (.when fun _ => ?_) fun _ =>
    L.writeConfig hS.toBoxAllowed _
  refine .bind (L.orUndefined _) fun optflags => ?_
  refine @counterMap_bind M cpu W S _ L Unit index _ (fun row => Prog.when (optflags ≠ 0)
    (Likwid.checkWrite M cpu msrDev (M.boxMap row.type).filterRegister1 optflags))
    fun row hrow => ?_
  exact .when fun _ => L.checkWrite _ (hS.filter row hrow).1

theorem snbPciSetup {row : RegisterMap} (hrow : M.counterMap[index]? = some row)
    {onOption : Word → PerfmonEventOption → Prog Int Core Word}
    (hoption : ∀ flags option, Prog.Respects (Prog.Flow.of R hr ht) (onOption flags option))
    (flags : Word) :
    Prog.Respects (Prog.Flow.of R hr ht) (snbPciSetup M onOption flags cpu index row event) :=
  .bind L.requireLock fun _ => .bind (L.requireDevice _) fun _ =>
    .bind (.foldlM (fun flags option _ => hoption flags option) _) fun _ => .bind .get fun _ =>
      .when fun _ => .bind (L.checkWrite _ (hS.config row hrow).2) fun _ => L.save _ _ hS.save

theorem snbBboxOption (dev : PciDeviceIndex) (flags : Word) (option : PerfmonEventOption) :
    Prog.Respects (Prog.Flow.of R hr ht) (snbBboxOption M cpu dev flags option) := by
  have hcommon : ∀ reg ∈ boxRegisters, W dev reg := hS.common dev
  unfold Likwid.snbBboxOption
  cases option.type with
  | opcode => exact .bind (L.checkWrite _ (hcommon _ (by decide))) fun _ => .pure _
  | match0 =>
      exact .bind (L.checkWrite _ (hcommon _ (by decide))) fun _ =>
        .bind (L.checkWrite _ (hcommon _ (by decide))) fun _ => .pure _
  | _ => exact .pure _

theorem snbSboxOption (filterdev : PciDeviceIndex) (flags : Word) (option : PerfmonEventOption) :
    Prog.Respects (Prog.Flow.of R hr ht) (snbSboxOption M cpu filterdev flags option) := by
  unfold Likwid.snbSboxOption
  cases hfilter : ivbSboxFilter option.type with
  | none => exact .pure _
  | some p =>
      exact .bind .get fun _ => .bind (.when fun _ =>
        L.checkWrite _ (hS.link _ p hfilter filterdev)) fun _ => .pure _

/-- The switch of the set-up -/
theorem sandyBridgeSetupCase {row : RegisterMap} (hrow : M.counterMap[index]? = some row)
    (cbox : Option SandyCboxSetup) (numberOfNumaDomains : ℕ) (unit : SandyBridgeUnit) :
    Prog.Respects (Prog.Flow.of R hr ht)
      (sandyBridgeSetupCase M cbox numberOfNumaDomains cpu index row event unit) := by
  have hplain : ∀ flags, Prog.Respects (Prog.Flow.of R hr ht)
      (Likwid.snbPciSetup M snbPlainOption flags cpu index row event) :=
    fun flags => L.snbPciSetup hS event hrow (fun _ _ => .pure _) flags
  have hdropped : ∀ {m : Prog Int Core Unit}, Prog.Respects (Prog.Flow.of R hr ht) m →
      Prog.Respects (Prog.Flow.of R hr ht) (Likwid.dropped m) :=
    fun h => .bind (.call h) fun _ => .pure _
  cases unit with
  | pmc =>
      exact hdropped (.bind (L.snbOffcoreSetup hS event) fun _ =>
        L.writeConfig hS.toBoxAllowed _)
  | fixed => exact L.fixedSetup hS.toBoxAllowed event
  | mbox | rbox | pbox => exact hdropped (hplain _)
  | cbox =>
      rcases cbox with _ | _ | _
      · exact .halt _
      · exact hdropped (L.snbMsrSetup hS event _ _)
      · exact hdropped (L.snbepCboxSetup hS event numberOfNumaDomains)
  | ubox => exact hdropped (L.snbMsrSetup hS event _ _)
  | uboxfix => exact .bind (L.checkWrite _ (hS.config row hrow).1) fun _ => .pure _
  | sbox0 => exact hdropped (L.snbPciSetup hS event hrow (L.snbSboxOption hS _) _)
  | sbox1 => exact hdropped (L.snbPciSetup hS event hrow (L.snbSboxOption hS _) _)
  | bbox0 => exact hdropped (L.snbPciSetup hS event hrow (L.snbBboxOption hS _) _)
  | wbox => exact hdropped (L.snbWboxSetup hS event)
  | power | thermal | mboxfix | sboxfix | wboxfix | other => exact .pure _

end CoreLogic

theorem CoreLogic.perfmonSetupCounterThreadSandybridge (hS : ∀ index, SnbAllowed M index W S)
    (hcore : W msrDev msrPerfGlobalCtrl ∧ W msrDev msrPerfGlobalOvfCtrl)
    (hboxes : M.model = sandybridgeEP → BoxesAllowed W (snbFreezeList M))
    (hclient : M.model ≠ sandybridgeEP → W msrDev msrUncorePerfGlobalCtrl)
    (hfixed : W msrDev msrPerfFixedCtrCtrl) (cbox : Option SandyCboxSetup)
    (numberOfNumaDomains thread n : ℕ) (mask : BitVec 128) :
    Prog.Respects (Prog.Flow.of R hr ht).fst
      (perfmonSetupCounterThreadSandybridge M cbox numberOfNumaDomains thread cpu mask n) := by
  refine .bind .get fun p => .bind (.onFst (L.sandyBridgeSetupFreeze hcore hboxes hclient))
    fun _ => .bind (.forCells_fst (fun flags => ?_) n 0) fun _ =>
      .when fun _ => .onFst (L.checkWrite _ hfixed)
  refine .bind .get fun q => .ite (fun _ => ?_) fun _ => .pure _
  exact counting_row fun row hrow => .bind (counting_record _) fun _ =>
    .bind (.onFst (L.sandyBridgeSetupCase (hS _) _ hrow cbox numberOfNumaDomains _)) fun _ =>
      .pure _

end Logic

/-- An event of the set is marked as initialised. -/
def PerfmonEventSetEntry.setUp (e : PerfmonEventSetEntry) (thread : ℕ) (mask : BitVec 128) :
    PerfmonEventSetEntry :=
  if hasType mask e.type then e.setInit thread true else e

theorem sandyBridgeSetup_slots {cbox : Option SandyCboxSetup}
    {numberOfNumaDomains thread cpu n : ℕ} {mask : BitVec 128} {p p' : Core × List Slot}
    (h : perfmonSetupCounterThreadSandybridge M cbox numberOfNumaDomains thread cpu mask n p =
      .done () p') :
    Prog.CellsDone (fun e e' => e' = e.setUp thread mask) n p.2 p'.2 := by
  have hround : ∀ (flags : Word) (c : Core) (e : PerfmonEventSetEntry),
      (sandyBridgeSetupEvent M cbox numberOfNumaDomains thread cpu mask flags).wp
        (fun _ q => q.2 = e.setUp thread mask) (fun _ _ => True) (c, e) := by
    intro flags c e
    unfold sandyBridgeSetupEvent PerfmonEventSetEntry.setUp
    rw [Prog.wp_bind, Prog.wp_get]
    by_cases hmask : hasType mask e.type
    · rw [if_pos hmask, if_pos hmask]
      unfold counterMap
      simp only [Prog.wp_bind, Prog.wp_orUndefined, Prog.wp_zoom, Prog.wp_modify]
      intro row _
      exact Prog.wp_mono (Prog.wp_trivial _) (fun _ _ _ => rfl) fun _ _ _ => trivial
    · rw [if_neg hmask, if_neg hmask]
      rfl
  have hrun : (perfmonSetupCounterThreadSandybridge M cbox numberOfNumaDomains thread cpu mask
      n).wp (fun _ q => Prog.CellsDone (fun e e' => e' = e.setUp thread mask) n p.2 q.2)
        (fun _ _ => True) p := by
    unfold perfmonSetupCounterThreadSandybridge
    rw [Prog.wp_bind, Prog.wp_get, Prog.wp_bind, Prog.wp_zoom]
    refine Prog.wp_mono (Prog.wp_trivial _) (fun _ c1 _ => ?_) fun _ _ _ => trivial
    rw [Prog.wp_bind]
    have hloop := Prog.forCells_cells (S := fun e e' => e' = e.setUp thread mask)
      (T := fun _ _ => True) hround n 0 c1 p.2
    refine Prog.wp_mono hloop (fun _ q hcells => ?_) fun _ _ _ => trivial
    rw [Prog.wp_when, Prog.wp_zoom]
    exact ⟨fun _ => Prog.wp_mono (Prog.wp_trivial _) (fun _ _ _ => hcells) fun _ _ _ => trivial,
      fun _ => hcells⟩
  exact Prog.wp_done (Q := fun _ q => Prog.CellsDone _ n p.2 q.2) hrun h

end Likwid
