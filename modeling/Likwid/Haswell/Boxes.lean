import Likwid.CounterMap

/-!
# Haswell: configuring the counter boxes

The `hasep_*_setup` and `has_cbox_setup` helpers of `perfmon_haswell.h`. Each
computes the flags of one event, writes the registers that differ from
`currentConfig` and returns 0, `-ENODEV`, or the `errno` of a failed access.
-/

namespace Likwid

variable (M : Machine)

/-! ## Flags -/

/-- `(event->umask<<8) + event->eventId` -/
def eventBits (event : PerfmonEvent) : Word :=
  (event.umask.setWidth 64 <<< 8) + event.eventId.setWidth 64

/-- `((event->cmask<<8) + event->cfgBits)<<16` -/
def cfgFlags (event : PerfmonEvent) : Word :=
  ((event.cmask <<< 8) + event.cfgBits.setWidth 64) <<< 16

/-- The options every box knows: `EDGE`, `INVERT` and `THRESHOLD` with a mask. -/
def boxOption (thresholdMask : Word) (flags : Word) (option : PerfmonEventOption) : Word :=
  match option.type with
  | .edge => flags ||| bit 18
  | .invert => flags ||| bit 23
  | .threshold => flags ||| ((option.value &&& thresholdMask) <<< 24)
  | _ => flags

/-- The bits a fixed counter has in `MSR_PERF_FIXED_CTR_CTRL`. -/
def fixedFlags (index : RegisterIndex) (event : PerfmonEvent) : BitVec 32 :=
  event.optionList.foldl
    (fun flags option =>
      match option.type with
      | .countKernel => flags ||| (bit (index * 4)).setWidth 32
      | .anythread => flags ||| (bit (2 + index * 4)).setWidth 32
      | _ => flags)
    ((bit (1 + index * 4)).setWidth 32)

/-! ## Cached writes -/

/-- Write the configuration register when the flags differ from the cached
ones, then cache them. -/
def writeConfig (cpu : ℕ) (index : RegisterIndex) (flags : Word) : Prog Int Core Unit := do
  let c ← Prog.get
  Prog.when (flags ≠ c.currentConfig cpu index) do
    let row ← counterMap M index
    checkWrite M cpu msrDev row.configRegister flags
    saveConfig cpu index flags

/-- The boxes that hold a configuration only when it is written twice, without
and with the enable bit. -/
def writeConfigTwice (cpu : ℕ) (index : RegisterIndex) (flags : Word) :
    Prog Int Core Unit := do
  let c ← Prog.get
  Prog.when (flags ||| bit 22 ≠ c.currentConfig cpu index) do
    let row ← counterMap M index
    checkWrite M cpu row.device row.configRegister flags
    checkWrite M cpu row.device row.configRegister (flags ||| bit 22)
    saveConfig cpu index (flags ||| bit 22)

/-- The contribution of a fixed event to the shared control register: nothing
when the cached configuration has not changed. -/
def fixedSetup (cpu : ℕ) (index : RegisterIndex) (event : PerfmonEvent) :
    Prog Int Core (BitVec 32) := do
  let flags := fixedFlags index event
  let c ← Prog.get
  if flags.setWidth 64 ≠ c.currentConfig cpu index then do
    saveConfig cpu index (flags.setWidth 64)
    pure flags
  else pure 0

/-- `socket_lock[affinity_core2node_lookup[cpu_id]] != cpu_id`: leave with 0. -/
def requireLock (cpu : ℕ) : Prog Int Core Unit := do
  let c ← Prog.get
  Prog.when (haveLock M c cpu = false) (Prog.ret 0)

def requireDevice (dev : PciDeviceIndex) (cpu : ℕ) : Prog Int Core Unit := do
  let c ← Prog.get
  Prog.when (hpmCheck M c dev cpu = 0) (Prog.ret (-enodev))

/-! ## Core counters -/

def hasepFixedSetup (cpu : ℕ) (index : RegisterIndex) (event : PerfmonEvent) :
    Prog Int Core (BitVec 32) :=
  fixedSetup cpu index event

def hasepPmcFlags (event : PerfmonEvent) : Word :=
  let flags := (bit 22 ||| bit 16) ||| eventBits event
  let flags :=
    if event.cfgBits ≠ 0 ∧ event.eventId ≠ 0xB7 ∧ event.eventId ≠ 0xBB then
      flags ||| cfgFlags event
    else flags
  event.optionList.foldl
    (fun flags option =>
      match option.type with
      | .countKernel => flags ||| bit 17
      | .anythread => flags ||| bit 21
      | .inTrans => flags ||| bit 32
      | .inTransAbort => flags ||| bit 33
      | _ => boxOption 0xFF flags option)
    flags

def hasepOffcoreOptions (event : PerfmonEvent) : Word :=
  event.optionList.foldl
    (fun flags option =>
      match option.type with
      | .match0 => flags ||| (option.value &&& 0x8FFF)
      | .match1 => flags ||| (option.value <<< 16)
      | _ => flags)
    0

/-- The value for the offcore response register: the request and response bits
the event names, or what its options say. -/
def offcoreFlags {ρ : Type} (event : PerfmonEvent) (options : Word) : Prog ρ Core Word :=
  if event.cfgBits ≠ 0xFF ∧ event.cmask ≠ 0xFF then do
    let request ← Prog.orUndefined (shiftBit event.cfgBits.toNat)
    let response ← Prog.orUndefined (shiftBit event.cmask.toNat)
    pure (request ||| response)
  else pure options

def hasepOffcoreSetup (cpu : ℕ) (event : PerfmonEvent) : Prog Int Core Unit :=
  if event.eventId = 0xB7 then do
    let flags ← offcoreFlags event (hasepOffcoreOptions event)
    checkWrite M cpu msrDev msrOffcoreResp0 flags
  else Prog.when (event.eventId = 0xBB) do
    let flags ← offcoreFlags event (hasepOffcoreOptions event)
    checkWrite M cpu msrDev msrOffcoreResp1 flags

def hasepPmcSetup (cpu : ℕ) (index : RegisterIndex) (event : PerfmonEvent) :
    Prog Int Core Unit := do
  hasepOffcoreSetup M cpu event
  writeConfig M cpu index (hasepPmcFlags event)

/-! ## Uncore boxes on model specific registers -/

def hasCboxSetup (cpu : ℕ) (index : RegisterIndex) (event : PerfmonEvent) :
    Prog Int Core Unit := do
  requireLock M cpu
  writeConfig M cpu index
    (event.optionList.foldl (boxOption 0x1F) ((bit 22 ||| bit 20) ||| eventBits event))

/-- Read a filter register, set bits in it and write it back. -/
def orFilter (cpu : ℕ) (reg : ℕ) (bits : Word) : Prog Int Core Unit := do
  let filter ← checkRead M cpu msrDev reg
  checkWrite M cpu msrDev reg (filter ||| bits)

/-- One option of `hasep_cbox_setup`; the flag of the state says whether the
default state filter is still wanted. -/
def hasepCboxOption (cpu : ℕ) (filter0 filter1 : ℕ) (st : Word × Bool)
    (option : PerfmonEventOption) : Prog Int Core (Word × Bool) :=
  let field (width : ℕ) : Word :=
    (extractBitField (option.value.setWidth 32) width 0).setWidth 64
  match option.type with
  | .opcode => do
      orFilter M cpu filter1 ((0x3#64 <<< 27) ||| (field 5 <<< 20))
      pure st
  | .nid => do
      orFilter M cpu filter1 (field 16)
      pure st
  | .state => do
      orFilter M cpu filter0 (field 6 <<< 17)
      pure (st.1, false)
  | .tid => do
      orFilter M cpu filter0 (field 6)
      pure (st.1 ||| bit 19, st.2)
  | _ => pure (boxOption 0xFF st.1 option, st.2)

def hasepCboxSetup (cpu : ℕ) (index : RegisterIndex) (event : PerfmonEvent) :
    Prog Int Core Unit := do
  let row ← counterMap M index
  let filter0 := (M.boxMap row.type).filterRegister1
  let filter1 := (M.boxMap row.type).filterRegister2
  requireLock M cpu
  let st ← event.optionList.foldlM (hasepCboxOption M cpu filter0 filter1)
    (bit 22 ||| eventBits event, decide (event.eventId = 0x34))
  Prog.when (st.2 = true) (orFilter M cpu filter0 (0x1F#64 <<< 17))
  writeConfig M cpu index st.1

def hasepUboxSetup (cpu : ℕ) (index : RegisterIndex) (event : PerfmonEvent) :
    Prog Int Core Unit := do
  requireLock M cpu
  writeConfig M cpu index
    (event.optionList.foldl (boxOption 0x1F) ((bit 22 ||| bit 20) ||| eventBits event))

/-- One option of `hasep_wbox_setup`; the flag says whether the filter register
still has to be cleaned. -/
def hasepWboxOption (cpu : ℕ) (filter : ℕ) (st : Word × Bool) (option : PerfmonEventOption) :
    Prog Int Core (Word × Bool) :=
  match option.type with
  | .occupancy => pure (st.1 ||| ((option.value &&& 0x3) <<< 14), st.2)
  | .occupancyFilter => do
      checkWrite M cpu msrDev filter (option.value &&& 0xFFFFFFFF)
      pure (st.1, false)
  | .occupancyEdge => pure (st.1 ||| bit 31, st.2)
  | .occupancyInvert => pure (st.1 ||| bit 30, st.2)
  | _ => pure (boxOption 0x1F st.1 option, st.2)

def hasepWboxSetup (cpu : ℕ) (index : RegisterIndex) (event : PerfmonEvent) :
    Prog Int Core Unit := do
  let row ← counterMap M index
  let filter := (M.boxMap row.type).filterRegister1
  requireLock M cpu
  let flags := (bit 22 ||| bit 20) ||| event.eventId.setWidth 64
  let flags :=
    if 0 < event.umask ∧ event.umask ≤ 0x3 then flags ||| (event.umask.setWidth 64 <<< 14)
    else if event.umask = 0xFF then bit 21
    else flags
  let st ← event.optionList.foldlM (hasepWboxOption M cpu filter) (flags, true)
  Prog.when (st.2 = true) (checkWrite M cpu msrDev filter 0)
  writeConfig M cpu index st.1

/-! ## Uncore boxes on PCI devices -/

/-- One option of `hasep_bbox_setup`, with the flags `opcode_flag` and
`match_flag`. -/
def hasepBboxOption (cpu : ℕ) (dev : PciDeviceIndex) (st : Word × Bool × Bool)
    (option : PerfmonEventOption) : Prog Int Core (Word × Bool × Bool) :=
  match option.type with
  | .opcode => do
      checkWrite M cpu dev pciUncHaPmonOpcodematch (option.value &&& 0x3F)
      pure (st.1, true, st.2.2)
  | .match0 => do
      checkWrite M cpu dev pciUncHaPmonAddrmatch0 (option.value &&& 0xFFFFFFC0)
      checkWrite M cpu dev pciUncHaPmonAddrmatch1 ((option.value >>> 32) &&& 0x3FFF)
      pure (st.1, st.2.1, true)
  | _ => pure (boxOption 0xFF st.1 option, st.2)

def hasepBboxSetup (cpu : ℕ) (index : RegisterIndex) (event : PerfmonEvent) :
    Prog Int Core Unit := do
  let row ← counterMap M index
  requireLock M cpu
  requireDevice M row.device cpu
  let st ← event.optionList.foldlM (hasepBboxOption M cpu row.device)
    (bit 20 ||| eventBits event, false, false)
  Prog.when (st.2.1 = false) (checkWrite M cpu row.device pciUncHaPmonOpcodematch 0)
  Prog.when (st.2.2 = false) do
    checkWrite M cpu row.device pciUncHaPmonAddrmatch0 0
    checkWrite M cpu row.device pciUncHaPmonAddrmatch1 0
  writeConfigTwice M cpu index st.1

def hasepSboxSetup (cpu : ℕ) (index : RegisterIndex) (event : PerfmonEvent) :
    Prog Int Core Unit := do
  requireLock M cpu
  let row ← counterMap M index
  requireDevice M row.device cpu
  writeConfigTwice M cpu index
    (event.optionList.foldl
      (fun flags option =>
        match option.type with
        | .tid => flags ||| bit 19
        | _ => boxOption 0xFF flags option)
      (eventBits event))

/-- The common text of the memory, ring and PCI interface boxes. -/
def pciBoxSetup (cpu : ℕ) (index : RegisterIndex) (event : PerfmonEvent) :
    Prog Int Core Unit := do
  let row ← counterMap M index
  requireLock M cpu
  requireDevice M row.device cpu
  writeConfigTwice M cpu index
    (event.optionList.foldl (boxOption 0xFF) (bit 20 ||| eventBits event))

def hasepMboxSetup (cpu : ℕ) (index : RegisterIndex) (event : PerfmonEvent) :
    Prog Int Core Unit :=
  pciBoxSetup M cpu index event

def hasepIboxSetup (cpu : ℕ) (index : RegisterIndex) (event : PerfmonEvent) :
    Prog Int Core Unit :=
  pciBoxSetup M cpu index event

def hasepPboxSetup (cpu : ℕ) (index : RegisterIndex) (event : PerfmonEvent) :
    Prog Int Core Unit :=
  pciBoxSetup M cpu index event

def hasepRboxSetup (cpu : ℕ) (index : RegisterIndex) (event : PerfmonEvent) :
    Prog Int Core Unit :=
  pciBoxSetup M cpu index event

/-- The filter register and value mask of a match or mask option. `MASK3`
goes to the register of `MASK2`. -/
def hasepQboxFilter : EventOptionType → Option (ℕ × Word)
  | .match0 => some (pciUncV3QpiPmonRxMatch0, 0x8003FFF8)
  | .match1 => some (pciUncV3QpiPmonRxMatch1, 0x000F000F)
  | .match2 => some (pciUncV3QpiPmonTxMatch0, 0x8003FFF8)
  | .match3 => some (pciUncV3QpiPmonTxMatch1, 0x000F000F)
  | .mask0 => some (pciUncV3QpiPmonRxMask0, 0x8003FFF8)
  | .mask1 => some (pciUncV3QpiPmonRxMask1, 0x000F000F)
  | .mask2 => some (pciUncV3QpiPmonTxMask0, 0x8003FFF8)
  | .mask3 => some (pciUncV3QpiPmonTxMask0, 0x000F000F)
  | _ => none

/-- One option of `hasep_qbox_setup`. The filter device is only tested: the
filter goes to the device of the counter. -/
def hasepQboxOption (cpu : ℕ) (dev filterdev : PciDeviceIndex) (flags : Word)
    (option : PerfmonEventOption) : Prog Int Core Word :=
  match hasepQboxFilter option.type with
  | some (filterreg, mask) => do
      let c ← Prog.get
      Prog.when (hpmCheck M c filterdev cpu ≠ 0)
        (checkWrite M cpu dev filterreg (option.value &&& mask))
      pure flags
  | none => pure (boxOption 0xFF flags option)

def hasepQboxSetup (cpu : ℕ) (index : RegisterIndex) (event : PerfmonEvent)
    (filterdev : PciDeviceIndex) : Prog Int Core Unit := do
  let row ← counterMap M index
  requireLock M cpu
  requireDevice M row.device cpu
  let flags := bit 20 ||| eventBits event
  let flags := if event.cfgBits = 0x01 then flags ||| bit 21 else flags
  let flags ← event.optionList.foldlM (hasepQboxOption M cpu row.device filterdev) flags
  writeConfigTwice M cpu index flags

/-! ## Judgements along the boxes -/

theorem hasepQboxFilter_mem {type : EventOptionType} {reg : ℕ} {mask : Word}
    (h : hasepQboxFilter type = some (reg, mask)) : reg ∈ boxRegisters := by
  cases type <;> simp only [hasepQboxFilter, reduceCtorEq, Option.some.injEq, Prod.mk.injEq] at h
  all_goals
    obtain ⟨rfl, -⟩ := h
    decide

/-- What a judgement must allow for the set-up of the counter at `index`. -/
structure BoxAllowed (index : RegisterIndex) (W : PciDeviceIndex → ℕ → Prop)
    (S : RegisterIndex → Prop) : Prop where
  config : ∀ row, M.counterMap[index]? = some row →
    W msrDev row.configRegister ∧ W row.device row.configRegister
  filter : ∀ row, M.counterMap[index]? = some row →
    W msrDev (M.boxMap row.type).filterRegister1 ∧
      W msrDev (M.boxMap row.type).filterRegister2
  common : ∀ dev, ∀ reg ∈ boxRegisters, W dev reg
  save : S index

section Logic

variable {M} {cpu : ℕ} {W : PciDeviceIndex → ℕ → Prop} {S : RegisterIndex → Prop}
  {J : (α : Type) → Prog Int Core α → Prog Int Core α → Prop} (L : CoreLogic M cpu W S J)
  {index : RegisterIndex} (hB : BoxAllowed M index W S) (event : PerfmonEvent)

include L

theorem CoreLogic.requireLock :
    J _ (requireLock M cpu) (requireLock M.answering cpu) :=
  L.bind L.get fun _ => L.when fun _ => L.ret 0

theorem CoreLogic.requireDevice (dev : PciDeviceIndex) :
    J _ (requireDevice M dev cpu) (requireDevice M.answering dev cpu) :=
  L.bind L.get fun _ => L.when fun _ => L.ret _

theorem CoreLogic.orFilter {reg : ℕ} (h : W msrDev reg) (bits : Word) :
    J _ (orFilter M cpu reg bits) (orFilter M.answering cpu reg bits) :=
  L.bind (L.checkRead _ _) fun _ => L.checkWrite _ h

theorem CoreLogic.offcoreFlags (options : Word) :
    J _ (offcoreFlags event options) (offcoreFlags event options) :=
  Prog.Closed.ite
    (fun _ => L.bind (L.orUndefined _) fun _ => L.bind (L.orUndefined _) fun _ => L.pure _)
    (fun _ => L.pure _)

theorem CoreLogic.hasepOffcoreSetup (hcommon : ∀ dev, ∀ reg ∈ boxRegisters, W dev reg) :
    J _ (hasepOffcoreSetup M cpu event) (hasepOffcoreSetup M.answering cpu event) := by
  refine Prog.Closed.ite (fun _ => ?_) (fun _ => L.when fun _ => ?_)
  · exact L.bind (L.offcoreFlags event _) fun _ => L.checkWrite _ (hcommon _ _ (by decide))
  · exact L.bind (L.offcoreFlags event _) fun _ => L.checkWrite _ (hcommon _ _ (by decide))

include hB

theorem CoreLogic.writeConfig (flags : Word) :
    J _ (writeConfig M cpu index flags) (writeConfig M.answering cpu index flags) := by
  refine L.bind L.get fun c => L.when fun _ => L.counterMap_bind fun row hrow => ?_
  exact L.bind (L.checkWrite _ (hB.config row hrow).1) fun _ => L.save _ _ hB.save

theorem CoreLogic.writeConfigTwice (flags : Word) :
    J _ (writeConfigTwice M cpu index flags) (writeConfigTwice M.answering cpu index flags) := by
  refine L.bind L.get fun c => L.when fun _ => L.counterMap_bind fun row hrow => ?_
  have hW := (hB.config row hrow).2
  exact L.bind (L.checkWrite _ hW) fun _ => L.bind (L.checkWrite _ hW) fun _ =>
    L.save _ _ hB.save

theorem CoreLogic.fixedSetup :
    J _ (fixedSetup cpu index event) (fixedSetup cpu index event) :=
  L.bind L.get fun _ => Prog.Closed.ite
    (fun _ => L.bind (L.save _ _ hB.save) fun _ => L.pure _) (fun _ => L.pure _)

theorem CoreLogic.hasepPmcSetup :
    J _ (hasepPmcSetup M cpu index event) (hasepPmcSetup M.answering cpu index event) :=
  L.bind (L.hasepOffcoreSetup event hB.common) fun _ => L.writeConfig hB _

theorem CoreLogic.hasCboxSetup :
    J _ (hasCboxSetup M cpu index event) (hasCboxSetup M.answering cpu index event) :=
  L.bind L.requireLock fun _ => L.writeConfig hB _

theorem CoreLogic.hasepCboxSetup :
    J _ (hasepCboxSetup M cpu index event) (hasepCboxSetup M.answering cpu index event) := by
  refine L.counterMap_bind fun row hrow => L.bind L.requireLock fun _ => ?_
  obtain ⟨hf0, hf1⟩ := hB.filter row hrow
  refine L.bind (L.foldlM (fun st option _ => ?_) _) fun st =>
    L.bind (L.when fun _ => L.orFilter hf0 _) fun _ => L.writeConfig hB _
  unfold hasepCboxOption
  cases option.type with
  | opcode => exact L.bind (L.orFilter hf1 _) fun _ => L.pure _
  | nid => exact L.bind (L.orFilter hf1 _) fun _ => L.pure _
  | state => exact L.bind (L.orFilter hf0 _) fun _ => L.pure _
  | tid => exact L.bind (L.orFilter hf0 _) fun _ => L.pure _
  | _ => exact L.pure _

theorem CoreLogic.hasepUboxSetup :
    J _ (hasepUboxSetup M cpu index event) (hasepUboxSetup M.answering cpu index event) :=
  L.bind L.requireLock fun _ => L.writeConfig hB _

theorem CoreLogic.hasepWboxSetup :
    J _ (hasepWboxSetup M cpu index event) (hasepWboxSetup M.answering cpu index event) := by
  refine L.counterMap_bind fun row hrow => L.bind L.requireLock fun _ => ?_
  obtain ⟨hf0, -⟩ := hB.filter row hrow
  refine L.bind (L.foldlM (fun st option _ => ?_) _) fun st =>
    L.bind (L.when fun _ => L.checkWrite _ hf0) fun _ => L.writeConfig hB _
  unfold hasepWboxOption
  cases option.type with
  | occupancyFilter => exact L.bind (L.checkWrite _ hf0) fun _ => L.pure _
  | _ => exact L.pure _

theorem CoreLogic.hasepBboxSetup :
    J _ (hasepBboxSetup M cpu index event) (hasepBboxSetup M.answering cpu index event) := by
  refine L.counterMap_bind fun row hrow => L.bind L.requireLock fun _ =>
    L.bind (L.requireDevice _) fun _ => ?_
  have hop := hB.common row.device pciUncHaPmonOpcodematch (by decide)
  have ha0 := hB.common row.device pciUncHaPmonAddrmatch0 (by decide)
  have ha1 := hB.common row.device pciUncHaPmonAddrmatch1 (by decide)
  refine L.bind (L.foldlM (fun st option _ => ?_) _) fun st =>
    L.bind (L.when fun _ => L.checkWrite _ hop) fun _ =>
    L.bind (L.when fun _ => L.bind (L.checkWrite _ ha0) fun _ => L.checkWrite _ ha1) fun _ =>
    L.writeConfigTwice hB _
  unfold hasepBboxOption
  cases option.type with
  | opcode => exact L.bind (L.checkWrite _ hop) fun _ => L.pure _
  | match0 =>
      exact L.bind (L.checkWrite _ ha0) fun _ => L.bind (L.checkWrite _ ha1) fun _ => L.pure _
  | _ => exact L.pure _

theorem CoreLogic.hasepSboxSetup :
    J _ (hasepSboxSetup M cpu index event) (hasepSboxSetup M.answering cpu index event) :=
  L.bind L.requireLock fun _ => L.counterMap_bind fun _ _ =>
    L.bind (L.requireDevice _) fun _ => L.writeConfigTwice hB _

theorem CoreLogic.pciBoxSetup :
    J _ (pciBoxSetup M cpu index event) (pciBoxSetup M.answering cpu index event) :=
  L.counterMap_bind fun _ _ => L.bind L.requireLock fun _ =>
    L.bind (L.requireDevice _) fun _ => L.writeConfigTwice hB _

theorem CoreLogic.hasepQboxSetup (filterdev : PciDeviceIndex) :
    J _ (hasepQboxSetup M cpu index event filterdev)
      (hasepQboxSetup M.answering cpu index event filterdev) := by
  refine L.counterMap_bind fun row hrow => L.bind L.requireLock fun _ =>
    L.bind (L.requireDevice _) fun _ =>
    L.bind (L.foldlM (fun st option _ => ?_) _) fun _ => L.writeConfigTwice hB _
  unfold hasepQboxOption
  cases hq : hasepQboxFilter option.type with
  | none => exact L.pure _
  | some p =>
      have hW := hB.common row.device p.1 (hasepQboxFilter_mem hq)
      exact L.bind L.get fun _ => L.bind (L.when fun _ => L.checkWrite _ hW) fun _ => L.pure _

end Logic

end Likwid
