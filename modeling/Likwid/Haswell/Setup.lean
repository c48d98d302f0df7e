import Likwid.Haswell.Boxes

/-!
# Haswell: setting up the counters of a thread

`perfmon_setupCounterThread_haswell`, with the freeze macro of the uncore.
The switches of the Haswell routines group the register types differently;
`HaswellUnit` is their common refinement, and every routine dispatches on it.
-/

namespace Likwid

abbrev haswellEP : ℕ := 0x3F

/-- The `case` labels of the Haswell switches. -/
inductive HaswellUnit where
  | pmc | fixed | power | thermal
  | cbox | ubox | uboxfix | sbox | bbox
  | wbox | wbox0fix | mbox | mboxfix
  | pbox | rbox | qbox0 | qbox1 | qboxfix
  | ibox0 | ibox1
  | other
deriving DecidableEq, Repr

def haswellUnit : RegisterType → HaswellUnit
  | .pmc => .pmc
  | .fixed => .fixed
  | .power => .power
  | .thermal => .thermal
  | .cbox0 | .cbox1 | .cbox2 | .cbox3 | .cbox4 | .cbox5 | .cbox6 | .cbox7 | .cbox8
  | .cbox9 | .cbox10 | .cbox11 | .cbox12 | .cbox13 | .cbox14 | .cbox15 | .cbox16
  | .cbox17 => .cbox
  | .ubox => .ubox
  | .uboxfix => .uboxfix
  | .sbox0 | .sbox1 | .sbox2 | .sbox3 => .sbox
  | .bbox0 | .bbox1 => .bbox
  | .wbox => .wbox
  | .wbox0fix => .wbox0fix
  | .mbox0 | .mbox1 | .mbox2 | .mbox3 | .mbox4 | .mbox5 | .mbox6 | .mbox7 => .mbox
  | .mbox0fix | .mbox1fix | .mbox2fix | .mbox3fix | .mbox4fix | .mbox5fix
  | .mbox6fix | .mbox7fix => .mboxfix
  | .pbox => .pbox
  | .rbox0 | .rbox1 => .rbox
  | .qbox0 => .qbox0
  | .qbox1 => .qbox1
  | .qbox0fix | .qbox1fix => .qboxfix
  | .ibox0 => .ibox0
  | .ibox1 => .ibox1
  | _ => .other

theorem haswellUnit_eq_fixed {t : RegisterType} : haswellUnit t = .fixed ↔ t = .fixed := by
  cases t <;> simp [haswellUnit]

variable (M : Machine)

/-! ## Freezing the uncore -/

/-- `HASEP_FREEZE_UNCORE`: one global register on the server parts, a bit of the
uncore control register on the client parts. -/
def hasepFreezeUncore (cpu : ℕ) (mask : BitVec 128) (lock : Bool) : Prog Int Core Unit :=
  if lock = true ∧ hasUncore mask ∧ M.model = haswellEP then
    checkWrite M cpu msrDev msrUncV3UPmonGlobalCtl (bit 31)
  else
    Prog.when (lock = true ∧ hasUncore mask) do
      let data ← checkRead M cpu msrDev msrUncorePerfGlobalCtrl
      Prog.when (data &&& bit 29 = 0)
        (checkWrite M cpu msrDev msrUncorePerfGlobalCtrl (data &&& ~~~(bit 29)))

/-- `HASEP_UNFREEZE_UNCORE` -/
def hasepUnfreezeUncore (cpu : ℕ) (mask : BitVec 128) (lock : Bool) : Prog Int Core Unit :=
  if lock = true ∧ hasUncore mask ∧ M.model = haswellEP then
    checkWrite M cpu msrDev msrUncV3UPmonGlobalCtl (bit 29)
  else
    Prog.when (lock = true ∧ hasUncore mask) do
      let data ← checkRead M cpu msrDev msrUncorePerfGlobalCtrl
      checkWrite M cpu msrDev msrUncorePerfGlobalCtrl (data ||| bit 29)

/-! ## Set-up -/

/-- Call a box helper and drop what it returns; it adds no fixed flags. -/
def dropped (m : Prog Int Core Unit) : Prog Int Core (BitVec 32) := do
  let _ ← Prog.call (0 : Int) m
  pure 0

/-- The call through the function pointer `haswell_cbox_setup`. -/
def haswellCboxSetup (cpu : ℕ) (index : RegisterIndex) (event : PerfmonEvent) :
    Prog Int Core (BitVec 32) := do
  let c ← Prog.get
  match c.haswellCboxSetup with
  | some .has => dropped (hasCboxSetup M cpu index event)
  | some .hasep => dropped (hasepCboxSetup M cpu index event)
  | none => Prog.halt .undefined

/-- The switch of `perfmon_setupCounterThread_haswell`, with the value it adds
to `fixed_flags`. -/
def haswellSetupCase (cpu : ℕ) (lock : Bool) (index : RegisterIndex) (row : RegisterMap)
    (event : PerfmonEvent) : HaswellUnit → Prog Int Core (BitVec 32)
  | .pmc => dropped (hasepPmcSetup M cpu index event)
  | .fixed => hasepFixedSetup cpu index event
  | .cbox => haswellCboxSetup M cpu index event
  | .ubox => dropped (hasepUboxSetup M cpu index event)
  | .uboxfix => do
      Prog.when (lock = true)
        (checkWrite M cpu msrDev row.configRegister (bit 22 ||| bit 20))
      pure 0
  | .sbox => dropped (hasepSboxSetup M cpu index event)
  | .bbox => dropped (hasepBboxSetup M cpu index event)
  | .wbox => dropped (hasepWboxSetup M cpu index event)
  | .mbox => dropped (hasepMboxSetup M cpu index event)
  | .mboxfix => do
      let c ← Prog.get
      Prog.when (lock = true ∧ hpmCheck M c row.device cpu ≠ 0)
        (checkWrite M cpu row.device row.configRegister (bit 20 ||| bit 22))
      pure 0
  | .pbox => dropped (hasepPboxSetup M cpu index event)
  | .rbox => dropped (hasepRboxSetup M cpu index event)
  | .qbox0 => dropped (hasepQboxSetup M cpu index event pciQpiMaskDevicePort0)
  | .qbox1 => dropped (hasepQboxSetup M cpu index event pciQpiMaskDevicePort1)
  | .ibox0 | .ibox1 => dropped (hasepIboxSetup M cpu index event)
  | .power | .thermal | .wbox0fix | .qboxfix | .other => pure 0

theorem dropped_value (m : Prog Int Core Unit) (c : Core) :
    (dropped m).wp (fun flags _ => flags = 0) (fun _ _ => True) c := by
  unfold dropped
  simp only [Prog.wp_bind, Prog.wp_call, Prog.wp_pure]
  exact Prog.wp_trivial m

/-- Only the fixed counters add to `fixed_flags`. -/
theorem haswellSetupCase_value {u : HaswellUnit} (h : u ≠ .fixed) (cpu : ℕ) (lock : Bool)
    (index : RegisterIndex) (row : RegisterMap) (event : PerfmonEvent) (c : Core) :
    (haswellSetupCase M cpu lock index row event u).wp (fun flags _ => flags = 0)
      (fun _ _ => True) c := by
  cases u with
  | fixed => exact absurd rfl h
  | cbox =>
      unfold haswellSetupCase haswellCboxSetup
      rw [Prog.wp_bind, Prog.wp_get]
      rcases c.haswellCboxSetup with _ | _ | _
      · trivial
      · exact dropped_value _ _
      · exact dropped_value _ _
  | uboxfix =>
      unfold haswellSetupCase
      rw [Prog.wp_bind]
      exact Prog.wp_mono (Prog.wp_trivial _) (fun _ _ _ => rfl) fun _ _ _ => trivial
  | mboxfix =>
      unfold haswellSetupCase
      simp only [Prog.wp_bind, Prog.wp_get]
      exact Prog.wp_mono (Prog.wp_trivial _) (fun _ _ _ => rfl) fun _ _ _ => trivial
  | power | thermal | wbox0fix | qboxfix | other => exact rfl
  | _ => exact dropped_value _ _

/-- One round of the event loop; the loop variable is `fixed_flags`. -/
def haswellSetupEvent (thread cpu : ℕ) (mask : BitVec 128) (lock : Bool) (fixedFlags : Word) :
    Prog Int (Core × PerfmonEventSetEntry) Word := do
  let p ← Prog.get
  let e := p.2
  if hasType mask e.type then do
    let row ← counterMap M e.index
    Prog.onSnd (Prog.modify (·.setInit thread true))
    let flags ← Prog.onFst (haswellSetupCase M cpu lock e.index row e.event (haswellUnit e.type))
    pure (fixedFlags ||| flags.setWidth 64)
  else pure fixedFlags

/-- The freeze in front of the event loop. -/
def haswellSetupFreeze (cpu : ℕ) (mask : BitVec 128) (lock : Bool) : Prog Int Core Unit := do
  Prog.when (hasCore mask) do
    checkWrite M cpu msrDev msrPerfGlobalCtrl 0
    checkWrite M cpu msrDev msrPerfGlobalOvfCtrl 0xC00000070000000F
    checkWrite M cpu msrDev msrPebsEnable 0
  hasepFreezeUncore M cpu mask lock

def perfmonSetupCounterThreadHaswell (thread cpu : ℕ) (mask : BitVec 128)
    (numberOfEvents : ℕ) : Prog Int (Core × List Slot) Unit := do
  let p ← Prog.get
  let lock := haveLock M p.1 cpu
  Prog.onFst (haswellSetupFreeze M cpu mask lock)
  let fixedFlags ← Prog.forCells (haswellSetupEvent M thread cpu mask lock) numberOfEvents 0
  Prog.when (0 < fixedFlags)
    (Prog.onFst (checkWrite M cpu msrDev msrPerfFixedCtrCtrl fixedFlags))

/-! ## Judgements along the set-up -/

section Logic

variable {M} {cpu : ℕ} {W : PciDeviceIndex → ℕ → Prop} {S : RegisterIndex → Prop}
  {J : (α : Type) → Prog Int Core α → Prog Int Core α → Prop} (L : CoreLogic M cpu W S J)

include L

theorem CoreLogic.dropped {m m' : Prog Int Core Unit} (h : J _ m m') :
    J _ (dropped m) (dropped m') :=
  L.bind (L.call 0 h) fun _ => L.pure _

theorem CoreLogic.hasepFreezeUncore (mask : BitVec 128) (lock : Bool)
    (hglobal : W msrDev msrUncV3UPmonGlobalCtl) (hctrl : W msrDev msrUncorePerfGlobalCtrl) :
    J _ (hasepFreezeUncore M cpu mask lock) (hasepFreezeUncore M.answering cpu mask lock) :=
  Prog.Closed.ite (fun _ => L.checkWrite _ hglobal)
    fun _ => L.when fun _ => L.bind (L.checkRead _ _) fun _ => L.when fun _ =>
      L.checkWrite _ hctrl

theorem CoreLogic.haswellSetupFreeze (mask : BitVec 128) (lock : Bool)
    (hcore : ∀ reg ∈ [msrPerfGlobalCtrl, msrPerfGlobalOvfCtrl, msrPebsEnable], W msrDev reg)
    (hglobal : W msrDev msrUncV3UPmonGlobalCtl) (hctrl : W msrDev msrUncorePerfGlobalCtrl) :
    J _ (haswellSetupFreeze M cpu mask lock) (haswellSetupFreeze M.answering cpu mask lock) :=
  L.bind
    (L.when fun _ => L.bind (L.checkWrite _ (hcore _ (by simp))) fun _ =>
      L.bind (L.checkWrite _ (hcore _ (by simp))) fun _ => L.checkWrite _ (hcore _ (by simp)))
    fun _ => L.hasepFreezeUncore mask lock hglobal hctrl

/-- The switch of the set-up: each case is a box helper, a plain write to the
event's own control register, or nothing. -/
theorem CoreLogic.haswellSetupCase {index : RegisterIndex} (hB : BoxAllowed M index W S)
    (lock : Bool) {row : RegisterMap} (hrow : M.counterMap[index]? = some row)
    (event : PerfmonEvent) (unit : HaswellUnit) :
    J _ (haswellSetupCase M cpu lock index row event unit)
      (haswellSetupCase M.answering cpu lock index row event unit) := by
  obtain ⟨hmsr, hdev⟩ := hB.config row hrow
  cases unit with
  | pmc => exact L.dropped (L.hasepPmcSetup hB event)
  | fixed => exact L.fixedSetup hB event
  | cbox =>
      refine L.bind L.get fun c => ?_
      rcases c.haswellCboxSetup with _ | _ | _
      · exact L.undefined
      · exact L.dropped (L.hasCboxSetup hB event)
      · exact L.dropped (L.hasepCboxSetup hB event)
  | ubox => exact L.dropped (L.hasepUboxSetup hB event)
  | uboxfix => exact L.bind (L.when fun _ => L.checkWrite _ hmsr) fun _ => L.pure _
  | sbox => exact L.dropped (L.hasepSboxSetup hB event)
  | bbox => exact L.dropped (L.hasepBboxSetup hB event)
  | wbox => exact L.dropped (L.hasepWboxSetup hB event)
  | mboxfix =>
      exact L.bind L.get fun _ => L.bind (L.when fun _ => L.checkWrite _ hdev) fun _ => L.pure _
  | mbox | pbox | rbox | ibox0 | ibox1 => exact L.dropped (L.pciBoxSetup hB event)
  | qbox0 | qbox1 => exact L.dropped (L.hasepQboxSetup hB event _)
  | power | thermal | wbox0fix | qboxfix | other => exact L.pure _

end Logic

end Likwid
