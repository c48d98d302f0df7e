import Likwid.Haswell.Count

/-!
# Nehalem

The thread routines of `perfmon_nehalem.h`. Unlike the Haswell stop routine,
the one here leaves the `init` flag of a counter alone.
-/

namespace Likwid

abbrev nehalemWestmereM : ℕ := 0x25
abbrev nehalemWestmere : ℕ := 0x2C
abbrev numCountersCoreNehalem : ℕ := 7
abbrev numCountersUncoreNehalem : ℕ := 16

/-- `regTypeMask & ~(0xF)`, with the `int` complement extended to the width of
the mask. -/
def hasUncoreNehalem (mask : BitVec 128) : Prop := mask &&& ~~~(0xF#128) ≠ 0#128

instance (mask : BitVec 128) : Decidable (hasUncoreNehalem mask) :=
  inferInstanceAs (Decidable (_ ≠ _))

variable (M : Machine)

/-! ## Set-up -/

def nehFixedSetup (cpu : ℕ) (index : RegisterIndex) (event : PerfmonEvent) :
    Prog Int Core (BitVec 32) :=
  fixedSetup cpu index event

def nehPmcFlags (event : PerfmonEvent) : Word :=
  let flags := (bit 22 ||| bit 16) ||| eventBits event
  let flags :=
    if event.cfgBits ≠ 0 ∧ event.eventId ≠ 0xB7 ∧ event.eventId ≠ 0xBB then
      flags ||| cfgFlags event
    else flags
  event.optionList.foldl
    (fun flags option =>
      match option.type with
      | .countKernel => flags ||| bit 17
      | .anythread => flags ||| bit 21
      | _ => boxOption 0xFF flags option)
    flags

def nehOffcoreOptions (event : PerfmonEvent) : Word :=
  event.optionList.foldl
    (fun flags option =>
      match option.type with
      | .match0 => flags ||| (option.value &&& 0xFF)
      | .match1 => flags ||| ((option.value &&& 0xF7) <<< 7)
      | _ => flags)
    0

/-- The Westmere models have a second offcore response register. -/
def isWestmere : Prop := M.model = nehalemWestmere ∨ M.model = nehalemWestmereM

instance : Decidable (isWestmere M) := inferInstanceAs (Decidable (_ ∨ _))

def nehPmcSetup (cpu : ℕ) (index : RegisterIndex) (event : PerfmonEvent) :
    Prog Int Core Unit := do
  Prog.when (event.eventId = 0xB7) do
    let flags ← offcoreFlags event (nehOffcoreOptions event)
    checkWrite M cpu msrDev msrOffcoreResp0 flags
  Prog.when (event.eventId = 0xBB ∧ isWestmere M) do
    let flags ← offcoreFlags event (nehOffcoreOptions event)
    checkWrite M cpu msrDev msrOffcoreResp1 flags
  writeConfig M cpu index (nehPmcFlags event)

/-- The flags and the address/opcode match of an uncore event. -/
def nehUncoreFlags (event : PerfmonEvent) : Word × Word :=
  let flags := bit 22 ||| eventBits event
  let start : Word × Word :=
    if event.cfgBits ≠ 0 ∧ event.eventId ≠ 0x35 then (flags ||| cfgFlags event, 0)
    else if event.cfgBits ≠ 0 then
      (flags, (event.cfgBits.setWidth 64 <<< 61) |||
        (if event.cmask ≠ 0 then event.cmask <<< 40 else 0))
    else (flags, 0)
  event.optionList.foldl
    (fun st option =>
      match option.type with
      | .anythread => (st.1 ||| bit 21, st.2)
      | .match0 => (st.1, st.2 ||| (field64 option.value 3 37 <<< 2))
      | .opcode => (st.1, st.2 ||| (field64 option.value 0 8 <<< 40))
      | _ => (boxOption 0xFF st.1 option, st.2))
    start

def nehUncoreSetup (cpu : ℕ) (index : RegisterIndex) (event : PerfmonEvent) :
    Prog Int Core Unit := do
  requireLock M cpu
  let (flags, maskFlags) := nehUncoreFlags event
  Prog.when (maskFlags ≠ 0 ∧ event.eventId = 0x35)
    (checkWrite M cpu msrDev msrUncoreAddrOpcodeMatch maskFlags)
  writeConfig M cpu index flags

def nehalemSetupCase (cpu : ℕ) (lock : Bool) (index : RegisterIndex) (event : PerfmonEvent) :
    RegisterType → Prog Int Core (BitVec 32)
  | .pmc => dropped (nehPmcSetup M cpu index event)
  | .fixed => nehFixedSetup cpu index event
  | .uncore =>
      if lock = true then
        if index < numCountersUncoreNehalem - 1 then dropped (nehUncoreSetup M cpu index event)
        else do
          checkWrite M cpu msrDev msrUncoreFixedCtrCtrl 1
          pure 0
      else pure 0
  | _ => pure 0

theorem nehalemSetupCase_value {type : RegisterType} (h : type ≠ .fixed) (cpu : ℕ)
    (lock : Bool) (index : RegisterIndex) (event : PerfmonEvent) (c : Core) :
    (nehalemSetupCase M cpu lock index event type).wp (fun flags _ => flags = 0)
      (fun _ _ => True) c := by
  unfold nehalemSetupCase
  cases type with
  | fixed => exact absurd rfl h
  | pmc => exact dropped_value _ _
  | uncore =>
      dsimp only
      split
      · split
        · exact dropped_value _ _
        · rw [Prog.wp_bind]
          exact Prog.wp_mono (Prog.wp_trivial _) (fun _ _ _ => rfl) fun _ _ _ => trivial
      · exact rfl
  | _ => exact rfl

def nehalemSetupEvent (thread cpu : ℕ) (mask : BitVec 128) (lock : Bool) (fixedFlags : Word) :
    EventProg Word := do
  let p ← Prog.get
  let e := p.2
  if hasType mask e.type then do
    Prog.onSnd (Prog.modify (·.setInit thread true))
    let flags ← Prog.onFst (nehalemSetupCase M cpu lock e.index e.event e.type)
    pure (fixedFlags ||| flags.setWidth 64)
  else pure fixedFlags

def nehalemSetupFreeze (cpu : ℕ) (mask : BitVec 128) (lock : Bool) : Prog Int Core Unit := do
  Prog.when (hasCore mask) do
    checkWrite M cpu msrDev msrPerfGlobalCtrl 0
    checkWrite M cpu msrDev msrPerfGlobalOvfCtrl 0
  Prog.when (lock = true ∧ hasUncoreNehalem mask)
    (checkWrite M cpu msrDev msrUncorePerfGlobalCtrl 0)

def perfmonSetupCounterThreadNehalem (thread cpu : ℕ) (mask : BitVec 128)
    (numberOfEvents : ℕ) : Prog Int (Core × List Slot) Unit := do
  let p ← Prog.get
  let lock := haveLock M p.1 cpu
  Prog.onFst (nehalemSetupFreeze M cpu mask lock)
  let fixedFlags ← Prog.forCells (nehalemSetupEvent M thread cpu mask lock) numberOfEvents 0
  Prog.when (fixedFlags ≠ 0)
    (Prog.onFst (checkWrite M cpu msrDev msrPerfFixedCtrCtrl fixedFlags))

/-! ## Judgements along the set-up -/

section Logic

variable {M} {cpu : ℕ} {W : PciDeviceIndex → ℕ → Prop} {S : RegisterIndex → Prop}
  {J : (α : Type) → Prog Int Core α → Prog Int Core α → Prop} (L : CoreLogic M cpu W S J)

include L

theorem CoreLogic.nehalemSetupFreeze (mask : BitVec 128) (lock : Bool)
    (hcore : ∀ reg ∈ [msrPerfGlobalCtrl, msrPerfGlobalOvfCtrl], W msrDev reg)
    (hctrl : W msrDev msrUncorePerfGlobalCtrl) :
    J _ (nehalemSetupFreeze M cpu mask lock) (nehalemSetupFreeze M.answering cpu mask lock) :=
  L.bind
    (L.when fun _ => L.bind (L.checkWrite _ (hcore _ (by simp))) fun _ =>
      L.checkWrite _ (hcore _ (by simp)))
    fun _ => L.when fun _ => L.checkWrite _ hctrl

theorem CoreLogic.nehPmcSetup {index : RegisterIndex} (hB : BoxAllowed M index W S)
    (event : PerfmonEvent) :
    J _ (nehPmcSetup M cpu index event) (nehPmcSetup M.answering cpu index event) := by
  refine L.bind (L.when fun _ => ?_) fun _ => L.bind (L.when fun _ => ?_) fun _ =>
    L.writeConfig hB _
  · exact L.bind (L.offcoreFlags event _) fun _ => L.checkWrite _ (hB.common _ _ (by decide))
  · exact L.bind (L.offcoreFlags event _) fun _ => L.checkWrite _ (hB.common _ _ (by decide))

theorem CoreLogic.nehUncoreSetup {index : RegisterIndex} (hB : BoxAllowed M index W S)
    (hmatch : W msrDev msrUncoreAddrOpcodeMatch) (event : PerfmonEvent) :
    J _ (nehUncoreSetup M cpu index event) (nehUncoreSetup M.answering cpu index event) :=
  L.bind L.requireLock fun _ => L.bind (L.when fun _ => L.checkWrite _ hmatch) fun _ =>
    L.writeConfig hB _

theorem CoreLogic.nehalemSetupCase {index : RegisterIndex} (hB : BoxAllowed M index W S)
    (hmatch : W msrDev msrUncoreAddrOpcodeMatch) (hfix : W msrDev msrUncoreFixedCtrCtrl)
    (lock : Bool) (event : PerfmonEvent) (type : RegisterType) :
    J _ (nehalemSetupCase M cpu lock index event type)
      (nehalemSetupCase M.answering cpu lock index event type) := by
  unfold Likwid.nehalemSetupCase
  cases type with
  | pmc => exact L.dropped (L.nehPmcSetup hB event)
  | fixed => exact L.fixedSetup hB event
  | uncore =>
      refine Prog.Closed.ite (fun _ => Prog.Closed.ite (fun _ => ?_) fun _ => ?_) fun _ => L.pure _
      · exact L.dropped (L.nehUncoreSetup hB hmatch event)
      · exact L.bind (L.checkWrite _ hfix) fun _ => L.pure _
  | _ => exact L.pure _

end Logic

/-! ## Start -/

/-- The switch of the start routine: the bits it adds to the core and to the
uncore enable flags. -/
def nehalemStartCase (cpu : ℕ) (lock : Bool) (index : RegisterIndex) (row : RegisterMap) :
    RegisterType → Prog Int Core (Word × Word)
  | .pmc => do
      checkWrite M cpu msrDev row.counterRegister 0
      pure (bit (index - M.perfNumFixedCtr), 0)
  | .fixed => do
      checkWrite M cpu msrDev row.counterRegister 0
      pure (bit (index + 32), 0)
  | .uncore =>
      if lock = true then do
        checkWrite M cpu msrDev row.counterRegister 0
        pure (0, if index < numCountersUncoreNehalem - 1 then
          bit (index - numCountersCoreNehalem) else bit 32)
      else pure (0, 0)
  | _ => pure (0, 0)

def nehalemStartEvent (thread cpu : ℕ) (mask : BitVec 128) (lock : Bool)
    (flags : Word × Word) : EventProg (Word × Word) := do
  let p ← Prog.get
  let e := p.2
  if (e.threadCounter thread).init = true ∧ hasType mask e.type then do
    let row ← counterMap M e.index
    Prog.onSnd (Prog.modify (·.clearData thread))
    let bits ← Prog.onFst (nehalemStartCase M cpu lock e.index row e.type)
    pure (flags.1 ||| bits.1, flags.2 ||| bits.2)
  else pure flags

def perfmonStartCountersThreadNehalem (thread cpu : ℕ) (mask : BitVec 128)
    (numberOfEvents : ℕ) : Prog Int (Core × List Slot) Unit := do
  let p ← Prog.get
  let lock := haveLock M p.1 cpu
  let flags ← Prog.forCells (nehalemStartEvent M thread cpu mask lock) numberOfEvents (0, 0)
  Prog.onFst (Prog.when (lock = true ∧ flags.2 ≠ 0 ∧ hasUncoreNehalem mask)
    (checkWrite M cpu msrDev msrUncorePerfGlobalCtrl flags.2))
  Prog.onFst (Prog.when (flags.1 ≠ 0 ∧ hasCore mask) do
    checkWrite M cpu msrDev msrPerfGlobalCtrl flags.1
    checkWrite M cpu msrDev msrPerfGlobalOvfCtrl ((bit 63 ||| bit 62) ||| flags.1))

/-! ## Read and stop -/

/-- `NEH_CHECK_OVERFLOW` and `NEH_CHECK_UNCORE_OVERFLOW`, which differ in the
status and the clear register. -/
def nehCheckOverflow (thread cpu status ovfCtrl offset : ℕ) (result : Word) :
    EventProg Unit := do
  let p ← Prog.get
  Prog.when (result < (p.2.threadCounter thread).counterData) do
    let tmp ← Prog.onFst (checkRead M cpu msrDev status)
    Prog.when (tmp &&& bit offset ≠ 0) do
      Prog.onSnd (Prog.modify (·.addOverflow thread))
      Prog.onFst (checkWrite M cpu msrDev ovfCtrl (tmp &&& bit offset))

/-- The switch of the read and stop routines, with the value the counter had. -/
def nehalemCountCase (thread cpu : ℕ) (lock : Bool) (index : RegisterIndex)
    (row : RegisterMap) : RegisterType → EventProg Word
  | .pmc => do
      let result ← Prog.onFst (checkRead M cpu msrDev row.counterRegister)
      nehCheckOverflow M thread cpu msrPerfGlobalStatus msrPerfGlobalOvfCtrl
        (index - M.perfNumFixedCtr) result
      pure result
  | .fixed => do
      let result ← Prog.onFst (checkRead M cpu msrDev row.counterRegister)
      nehCheckOverflow M thread cpu msrPerfGlobalStatus msrPerfGlobalOvfCtrl (index + 32) result
      pure result
  | .uncore =>
      if lock = true then do
        let result ← Prog.onFst (checkRead M cpu msrDev row.counterRegister)
        nehCheckOverflow M thread cpu msrUncorePerfGlobalStatus msrUncorePerfGlobalOvfCtrl
          (if index < numCountersUncoreNehalem - 1 then index - numCountersCoreNehalem else 32)
          result
        pure result
      else pure 0
  | _ => pure 0

def nehalemCountEvent (thread cpu : ℕ) (mask : BitVec 128) (lock : Bool) (_ : Unit) :
    EventProg Unit := do
  let p ← Prog.get
  let e := p.2
  Prog.when ((e.threadCounter thread).init = true ∧ hasType mask e.type) do
    let row ← counterMap M e.index
    let result ← nehalemCountCase M thread cpu lock e.index row e.type
    Prog.onSnd (Prog.modify
      (·.setCounter thread (field64 result 0 (M.boxMap e.type).regWidth)))

def perfmonStopCountersThreadNehalem (thread cpu : ℕ) (mask : BitVec 128)
    (numberOfEvents : ℕ) : Prog Int (Core × List Slot) Unit := do
  let p ← Prog.get
  let lock := haveLock M p.1 cpu
  Prog.onFst (Prog.when (hasCore mask) (checkWrite M cpu msrDev msrPerfGlobalCtrl 0))
  Prog.onFst (Prog.when (lock = true ∧ hasUncoreNehalem mask)
    (checkWrite M cpu msrDev msrUncorePerfGlobalCtrl 0))
  Prog.forCells (nehalemCountEvent M thread cpu mask lock) numberOfEvents ()

/-- Save and clear the enable flags of the uncore around a read. -/
def pauseUncoreNehalem (cpu : ℕ) (mask : BitVec 128) (lock : Bool) : Prog Int Core Word :=
  if lock = true ∧ hasUncoreNehalem mask then do
    let flags ← checkRead M cpu msrDev msrUncorePerfGlobalCtrl
    checkWrite M cpu msrDev msrUncorePerfGlobalCtrl 0
    pure flags
  else pure 0

def perfmonReadCountersThreadNehalem (thread cpu : ℕ) (mask : BitVec 128)
    (numberOfEvents : ℕ) : Prog Int (Core × List Slot) Unit := do
  let p ← Prog.get
  let lock := haveLock M p.1 cpu
  let pmcFlags ← Prog.onFst (pauseCore M cpu mask)
  let uncoreFlags ← Prog.onFst (pauseUncoreNehalem M cpu mask lock)
  Prog.forCells (nehalemCountEvent M thread cpu mask lock) numberOfEvents ()
  Prog.onFst (Prog.when (hasCore mask)
    (checkWrite M cpu msrDev msrPerfGlobalCtrl pmcFlags))
  Prog.onFst (Prog.when (lock = true ∧ hasUncoreNehalem mask)
    (checkWrite M cpu msrDev msrUncorePerfGlobalCtrl uncoreFlags))

/-! ## Finalize and init -/

/-- The extra registers a core event of the tile owner used. -/
def nehalemClearExtra (cpu : ℕ) (tile : Bool) (event : PerfmonEvent) : Prog Int Core Unit :=
  if tile = true ∧ event.eventId = 0xB7 then checkWrite M cpu msrDev msrOffcoreResp0 0
  else if tile = true ∧ event.eventId = 0xBB ∧ isWestmere M then
    checkWrite M cpu msrDev msrOffcoreResp1 0
  else Prog.when (tile = true ∧ event.eventId = 0x35 ∧ isWestmere M)
    (checkWrite M cpu msrDev msrUncoreAddrOpcodeMatch 0)

def nehalemFinalizeEvent (thread cpu : ℕ) (lock tile : Bool) (ovf : Word) :
    EventProg Word := do
  let p ← Prog.get
  let e := p.2
  if (e.threadCounter thread).init = true ∧ e.type ≠ .notype then do
    let row ← counterMap M e.index
    let bits ← match e.type with
      | .pmc => do
          Prog.onFst (nehalemClearExtra M cpu tile e.event)
          pure (bit (e.index - M.perfNumFixedCtr))
      | .fixed => pure (bit (e.index + 32))
      | _ => pure 0
    Prog.onFst (Prog.when (row.configRegister ≠ 0 ∧ (e.type = .pmc ∨ e.type = .fixed ∨
        (RegisterType.uncore.toNat ≤ e.type.toNat ∧ lock = true)))
      (checkWrite M cpu row.device row.configRegister 0))
    Prog.onSnd (Prog.modify (·.setInit thread false))
    pure (ovf ||| bits)
  else pure ovf

def perfmonFinalizeCountersThreadNehalem (thread cpu : ℕ) (mask : BitVec 128)
    (numberOfEvents : ℕ) : Prog Int (Core × List Slot) Unit := do
  let p ← Prog.get
  let lock := haveLock M p.1 cpu
  let tile : Bool := p.1.tileLock (M.thread2tile cpu) = cpu
  let ovf ← Prog.forCells (nehalemFinalizeEvent M thread cpu lock tile) numberOfEvents
    (bit 63 ||| bit 62)
  Prog.onFst (Prog.when (hasCore mask) do
    checkWrite M cpu msrDev msrPerfGlobalOvfCtrl ovf
    checkWrite M cpu msrDev msrPerfGlobalCtrl 0)
  Prog.onFst (Prog.when (lock = true ∧ hasUncore mask) do
    checkWrite M cpu msrDev msrUncorePerfGlobalOvfCtrl 0
    checkWrite M cpu msrDev msrUncorePerfGlobalCtrl 0)

def perfmonInitNehalem (cpu : ℕ) : Prog Int Core Unit := do
  acquireLocks M cpu
  checkWrite M cpu msrDev msrPebsEnable 0

end Likwid
