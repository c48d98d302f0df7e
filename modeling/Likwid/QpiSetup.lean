import Likwid.Lib.Mask
import Likwid.PausedRead

/-!
# The filters of the QPI links

`hasep_qbox_setup` of Haswell EP and `ivb_sbox_setup` of Ivy Bridge EP. Both take the device that
holds the match and mask registers of a link, test whether it is there, and write the filters to the
device of the counter instead; the extra select bit replaces the other flags on Ivy Bridge, and is
set for one value of `cfgBits` only on Haswell; a control word that is cached is not written
(`qpiConfigured_iff`).
-/

namespace Likwid

variable (M : Machine)

/-! ## Ivy Bridge -/

abbrev pciUncQpiPmonMatch0 : ℕ := 0x228
abbrev pciUncQpiPmonMatch1 : ℕ := 0x22C
abbrev pciUncQpiPmonMask0 : ℕ := 0x238
abbrev pciUncQpiPmonMask1 : ℕ := 0x23C

/-- The filter register and value mask of a match or mask option -/
def ivbSboxFilter : EventOptionType → Option (ℕ × Word)
  | .match0 => some (pciUncQpiPmonMatch0, 0x8003FFF8)
  | .match1 => some (pciUncQpiPmonMatch1, 0x000F000F)
  | .mask0 => some (pciUncQpiPmonMask0, 0x8003FFF8)
  | .mask1 => some (pciUncQpiPmonMask1, 0x000F000F)
  | _ => none

/-- The flags the other options add -/
def ivbSboxBits (option : PerfmonEventOption) : Word :=
  match option.type with
  | .edge => bit 18
  | .threshold => (option.value &&& 0x1F) <<< 24
  | _ => 0

/-- One option of a link event. The filter device is only tested: the filter goes to the device of
the counter. -/
def filterOption (filter : EventOptionType → Option (ℕ × Word)) (bits : PerfmonEventOption → Word)
    (cpu : ℕ) (dev filterdev : PciDeviceIndex) (flags : Word) (option : PerfmonEventOption) :
    Prog Int Core Word :=
  match filter option.type with
  | some (filterreg, mask) => do
      let c ← Prog.get
      Prog.when (hpmCheck M c filterdev cpu ≠ 0)
        (checkWrite M cpu dev filterreg (option.value &&& mask))
      pure flags
  | none => pure (flags ||| bits option)

def ivbSboxOption (cpu : ℕ) (dev filterdev : PciDeviceIndex) (flags : Word)
    (option : PerfmonEventOption) : Prog Int Core Word :=
  filterOption M ivbSboxFilter ivbSboxBits cpu dev filterdev flags option

/-- `flags = (1ULL<<21)` replaces the flags where `cfgBits` is not zero. -/
def ivbSboxSetup (cpu : ℕ) (index : RegisterIndex) (event : PerfmonEvent)
    (filterdev : PciDeviceIndex) : Prog Int Core Unit := do
  requireLock M cpu
  let row ← counterMap M index
  requireDevice M row.device cpu
  let flags := (bit 22 ||| bit 20) ||| eventBits event
  let flags := if event.cfgBits ≠ 0 then bit 21 else flags
  let flags ← event.optionList.foldlM (ivbSboxOption M cpu row.device filterdev) flags
  let c ← Prog.get
  Prog.when (flags ≠ c.currentConfig cpu index) do
    checkWrite M cpu row.device row.configRegister flags
    saveConfig cpu index flags

/-! ## What a set-up is to leave -/

/-- The match or mask register of each option, in the order of the options -/
def hasepQboxRegister : EventOptionType → Option (ℕ × Word)
  | .mask3 => some (pciUncV3QpiPmonTxMask1, 0x000F000F)
  | type => hasepQboxFilter type

/-- The fields of the control register: `width` is that of the threshold. -/
structure LinkControl (width : ℕ) (event : PerfmonEvent) (v : Word) : Prop where
  enable : v.getLsbD 22 = true
  select : field64 v 0 8 = event.eventId.setWidth 64
  umask : field64 v 8 8 = event.umask.setWidth 64
  extra : event.cfgBits ≠ 0 → v.getLsbD 21 = true
  edge : ∀ o ∈ event.optionList, o.type = .edge → v.getLsbD 18 = true
  threshold : ∀ o ∈ event.optionList, o.type = .threshold →
    field64 v 24 width = field64 o.value 0 width

/-- Each filter stands in its own register of the filter device. -/
def FiltersThere (registers : EventOptionType → Option (ℕ × Word)) (cpu : ℕ)
    (filterdev : PciDeviceIndex) (event : PerfmonEvent) (c : Core) : Prop :=
  ∀ o ∈ event.optionList, ∀ reg mask, registers o.type = some (reg, mask) →
    c.regs (regOwner M cpu filterdev) filterdev reg = o.value &&& mask

/-- What is to be there after the set-up of a link event -/
structure LinkConfigured (registers : EventOptionType → Option (ℕ × Word)) (width cpu : ℕ)
    (row : RegisterMap) (filterdev : PciDeviceIndex) (event : PerfmonEvent) (c : Core) : Prop where
  filters : FiltersThere M registers cpu filterdev event c
  control : LinkControl width event
    (c.regs (regOwner M cpu row.device) row.device row.configRegister)

/-- Two thresholds of one event are the same. -/
def ThresholdsAgree (width : ℕ) (event : PerfmonEvent) : Prop :=
  ∀ o ∈ event.optionList, ∀ o' ∈ event.optionList, o.type = .threshold → o'.type = .threshold →
    field64 o.value 0 width = field64 o'.value 0 width

/-- The flags that `hasep_qbox_setup` computes -/
def hasepQboxFlags (event : PerfmonEvent) : Word :=
  event.optionList.foldl (fun flags o => flags ||| boxOption 0xFF 0 o)
    (if event.cfgBits = 0x01 then (bit 20 ||| eventBits event) ||| bit 21
      else bit 20 ||| eventBits event) ||| bit 22

/-- The flags that `ivb_sbox_setup` computes -/
def ivbSboxFlags (event : PerfmonEvent) : Word :=
  event.optionList.foldl (fun flags o => flags ||| ivbSboxBits o)
    (if event.cfgBits ≠ 0 then bit 21 else (bit 22 ||| bit 20) ||| eventBits event)

/-- The filter registers hold the filters before, and the control word is written in full, or it is
cached and its fields are in the register. -/
def LinkHeld (registers : EventOptionType → Option (ℕ × Word)) (width : ℕ) (flags : Word)
    (complete : Prop) (cpu : ℕ) (index : RegisterIndex) (row : RegisterMap)
    (filterdev : PciDeviceIndex) (event : PerfmonEvent) (c : Core) : Prop :=
  FiltersThere M registers cpu filterdev event c ∧
    (flags ≠ c.currentConfig cpu index →
      complete ∧ event.eventId.toNat < 256 ∧ ThresholdsAgree width event) ∧
    (flags = c.currentConfig cpu index →
      LinkControl width event (c.regs (regOwner M cpu row.device) row.device row.configRegister))

/-- The set-up is called on the owner of the socket lock, with a counter and a filter device that
are there, and its accesses succeed. -/
structure LinkCalled (cpu : ℕ) (index : RegisterIndex) (row : RegisterMap)
    (filterdev : PciDeviceIndex) (c : Core) : Prop where
  row_eq : M.counterMap[index]? = some row
  lock : haveLock M c cpu = true
  present : hpmCheck M c row.device cpu ≠ 0
  filterPresent : hpmCheck M c filterdev cpu ≠ 0
  accessible : Accessible M cpu c
  apart : filterdev ≠ row.device
  pci : row.device ≠ msrDev ∧ row.device < maxNumPciDevices
  answers : ∀ n reg data, M.accessWrite n row.device cpu reg data = 0
  config : row.configRegister ∉ boxRegisters

variable {M}

/-! ## The control word -/

section Fields

variable {event : PerfmonEvent} {width : ℕ} {bits : PerfmonEventOption → Word}

/-- What the options add to the control word: bit 18 for an edge, the value for a threshold, and no
other bit of a field -/
structure FieldBits (width : ℕ) (bits : PerfmonEventOption → Word) : Prop where
  edge : ∀ o : PerfmonEventOption, o.type = .edge → bits o = bit 18
  threshold : ∀ o : PerfmonEventOption, o.type = .threshold →
    bits o = field64 o.value 0 width <<< 24
  other : ∀ o : PerfmonEventOption, o.type ≠ .edge → o.type ≠ .threshold →
    ∀ i, (bits o).getLsbD i = true → i = 23

theorem field64_mask (v : Word) : v &&& 0xFF = field64 v 0 8 ∧ v &&& 0x1F = field64 v 0 5 := by
  unfold field64
  rw [BitVec.ushiftRight_zero]
  exact ⟨rfl, rfl⟩

theorem fieldBits_hasep : FieldBits 8 (boxOption 0xFF 0) where
  edge o h := by
    unfold boxOption
    rw [h]
    exact BitVec.zero_or
  threshold o h := by
    unfold boxOption
    rw [h, ← (field64_mask o.value).1]
    exact BitVec.zero_or
  other o hedge hthreshold i hi := by
    have hzero : (0 : Word).getLsbD i = false := by simp
    unfold boxOption at hi
    split at hi
    · next h => exact absurd h hedge
    · rw [BitVec.getLsbD_or, hzero, Bool.false_or, BitVec.getLsbD_shiftLeft] at hi
      simp only [BitVec.getLsbD_one, Bool.and_eq_true, decide_eq_true_eq, Bool.not_eq_true',
        decide_eq_false_iff_not] at hi
      omega
    · next h => exact absurd h hthreshold
    · rw [hzero] at hi
      cases hi

theorem fieldBits_ivb : FieldBits 5 ivbSboxBits where
  edge o h := by
    unfold ivbSboxBits
    rw [h]
  threshold o h := by
    unfold ivbSboxBits
    rw [h, ← (field64_mask o.value).2]
  other o hedge hthreshold i hi := by
    have hzero : (0 : Word).getLsbD i = false := by simp
    unfold ivbSboxBits at hi
    split at hi
    · next h => exact absurd h hedge
    · next h => exact absurd h hthreshold
    · rw [hzero] at hi
      cases hi

/-- The bits of the options that the fields show -/
theorem optionBits_getLsbD (hb : FieldBits width bits) (hw : width ≤ 8) {i : ℕ} (hi : i ≠ 23) :
    (∃ o ∈ event.optionList, (bits o).getLsbD i = true) ↔
      (i = 18 ∧ ∃ o ∈ event.optionList, o.type = .edge) ∨
        24 ≤ i ∧ ∃ o ∈ event.optionList, o.type = .threshold ∧
          (field64 o.value 0 width).getLsbD (i - 24) = true := by
  constructor
  · rintro ⟨o, ho, hbit⟩
    by_cases hedge : o.type = .edge
    · rw [hb.edge o hedge, BitVec.getLsbD_shiftLeft] at hbit
      simp only [BitVec.getLsbD_one, Bool.and_eq_true, decide_eq_true_eq,
        Bool.not_eq_true', decide_eq_false_iff_not] at hbit
      exact Or.inl ⟨by omega, o, ho, hedge⟩
    · by_cases hthreshold : o.type = .threshold
      · rw [hb.threshold o hthreshold, BitVec.getLsbD_shiftLeft] at hbit
        simp only [Bool.and_eq_true, decide_eq_true_eq, Bool.not_eq_true',
          decide_eq_false_iff_not] at hbit
        exact Or.inr ⟨by omega, o, ho, hthreshold, hbit.2⟩
      · exact absurd (hb.other o hedge hthreshold i hbit) hi
  · rintro (⟨rfl, o, ho, hedge⟩ | ⟨h24, o, ho, hthreshold, hbit⟩)
    · exact ⟨o, ho, by rw [hb.edge o hedge]; decide⟩
    · refine ⟨o, ho, ?_⟩
      have hlt : i - 24 < width := by
        rw [getLsbD_field64 (by omega), Bool.and_eq_true, decide_eq_true_eq] at hbit
        exact hbit.1
      have h64 : i < 64 := by omega
      rw [hb.threshold o hthreshold, BitVec.getLsbD_shiftLeft, hbit]
      simp [h64, Nat.not_lt.mpr h24]

/-- The event select and the umask are where they belong if the event number is one byte. -/
theorem eventBits_fields :
    (field64 (eventBits event) 0 8 = event.eventId.setWidth 64 ∧
      field64 (eventBits event) 8 8 = event.umask.setWidth 64) ↔ event.eventId.toNat < 256 := by
  have humask := event.umask.isLt
  have hid := event.eventId.isLt
  have hbits : (eventBits event).toNat = event.umask.toNat * 256 + event.eventId.toNat := by
    unfold eventBits
    rw [BitVec.toNat_add, BitVec.toNat_shiftLeft, BitVec.toNat_setWidth, BitVec.toNat_setWidth,
      Nat.shiftLeft_eq]
    omega
  rw [← BitVec.toNat_inj, ← BitVec.toNat_inj, field64_toNat (by omega), field64_toNat (by omega),
    hbits, BitVec.toNat_setWidth, BitVec.toNat_setWidth]
  omega

theorem eventBits_high {i : ℕ} (hi : 17 ≤ i) : (eventBits event).getLsbD i = false := by
  have humask := event.umask.isLt
  have hid := event.eventId.isLt
  have hbits : (eventBits event).toNat < 2 ^ 17 := by
    unfold eventBits
    rw [BitVec.toNat_add, BitVec.toNat_shiftLeft, BitVec.toNat_setWidth, BitVec.toNat_setWidth,
      Nat.shiftLeft_eq]
    omega
  rw [← BitVec.testBit_toNat]
  exact Nat.testBit_lt_two_pow (Nat.lt_of_lt_of_le hbits (Nat.pow_le_pow_right (by omega) hi))

/-- A control word: the event, what the routine sets itself, and what the options set -/
structure ControlWord (event : PerfmonEvent) (bits : PerfmonEventOption → Word) (extra : Prop)
    (v : Word) : Prop where
  low : ∀ i < 16, v.getLsbD i = (eventBits event).getLsbD i
  enable : v.getLsbD 22 = true
  extra : v.getLsbD 21 = true ↔ extra
  options : ∀ i, i = 18 ∨ 24 ≤ i ∧ i < 32 →
    (v.getLsbD i = true ↔ ∃ o ∈ event.optionList, (bits o).getLsbD i = true)

theorem field64_congr {v v' : Word} {start length : ℕ} (hl : length ≤ 64)
    (h : ∀ i < length, v.getLsbD (start + i) = v'.getLsbD (start + i)) :
    field64 v start length = field64 v' start length := by
  refine BitVec.eq_of_getLsbD_eq fun i _ => ?_
  rw [getLsbD_field64 hl, getLsbD_field64 hl]
  by_cases hi : i < length
  · rw [h i hi]
  · simp [hi]

/-- **The fields of a control word are right** if the event number is one byte, the extra bit is set
where it is needed, and no two thresholds differ. -/
theorem linkControl_iff {extra : Prop} {v : Word} (hb : FieldBits width bits) (hw : width ≤ 8)
    (hv : ControlWord event bits extra v) :
    LinkControl width event v ↔
      (event.cfgBits ≠ 0 → extra) ∧ event.eventId.toNat < 256 ∧ ThresholdsAgree width event := by
  have hselect : field64 v 0 8 = field64 (eventBits event) 0 8 :=
    field64_congr (by omega) fun i hi => hv.low _ (by omega)
  have humask : field64 v 8 8 = field64 (eventBits event) 8 8 :=
    field64_congr (by omega) fun i hi => hv.low _ (by omega)
  constructor
  · intro h
    refine ⟨fun hcfg => hv.extra.mp (h.extra hcfg), eventBits_fields.mp ?_, ?_⟩
    · exact ⟨hselect.symm.trans h.select, humask.symm.trans h.umask⟩
    · intro o ho o' ho' hthreshold hthreshold'
      exact (h.threshold o ho hthreshold).symm.trans (h.threshold o' ho' hthreshold')
  · rintro ⟨hextra, hid, hagree⟩
    obtain ⟨hs, hu⟩ := eventBits_fields.mpr hid
    refine ⟨hv.enable, hselect.trans hs, humask.trans hu, fun hcfg => hv.extra.mpr (hextra hcfg),
      fun o ho hedge => ?_, fun o ho hthreshold => ?_⟩
    · refine (hv.options 18 (Or.inl rfl)).mpr ⟨o, ho, ?_⟩
      rw [hb.edge o hedge]
      decide
    · refine BitVec.eq_of_getLsbD_eq fun i _ => ?_
      by_cases hi : i < width
      · rw [getLsbD_field64 (by omega), decide_eq_true hi, Bool.true_and, Bool.eq_iff_iff,
          hv.options _ (Or.inr (by omega)), optionBits_getLsbD hb hw (by omega)]
        constructor
        · rintro (⟨h18, -⟩ | ⟨-, o', ho', hthreshold', hbit⟩)
          · omega
          · rw [Nat.add_sub_cancel_left] at hbit
            rw [hagree o ho o' ho' hthreshold hthreshold']
            exact hbit
        · intro hbit
          refine Or.inr ⟨by omega, o, ho, hthreshold, ?_⟩
          rw [Nat.add_sub_cancel_left]
          exact hbit
      · rw [getLsbD_field64 (by omega), getLsbD_field64 (by omega), decide_eq_false hi]
        rfl

theorem not_linkControl {v : Word} (h : v.getLsbD 22 = false) : ¬LinkControl width event v := by
  intro hc
  rw [hc.enable] at h
  cases h

theorem stored_getLsbD {v : Word} {dev : PciDeviceIndex} (hdev : dev ≠ msrDev) {i : ℕ}
    (hi : i < 32) : (stored dev v).getLsbD i = v.getLsbD i := by
  have h64 : i < 64 := by omega
  unfold stored
  rw [if_neg hdev, BitVec.getLsbD_setWidth, BitVec.getLsbD_setWidth]
  simp only [h64, hi, decide_true, Bool.true_and]

theorem ControlWord.stored {extra : Prop} {v : Word} {dev : PciDeviceIndex} (hdev : dev ≠ msrDev)
    (hv : ControlWord event bits extra v) : ControlWord event bits extra (stored dev v) := by
  refine ⟨fun i hi => ?_, ?_, ?_, fun i hi => ?_⟩
  · rw [stored_getLsbD hdev (by omega)]
    exact hv.low i hi
  · rw [stored_getLsbD hdev (by omega)]
    exact hv.enable
  · rw [stored_getLsbD hdev (by omega)]
    exact hv.extra
  · rw [stored_getLsbD hdev (by omega)]
    exact hv.options i hi

/-- The bits of a control word, one by one -/
theorem controlWord_of_bits {extra : Prop} {v : Word} (hb : FieldBits width bits) (hw : width ≤ 8)
    (hv : ∀ i, v.getLsbD i = true ↔
      ((eventBits event).getLsbD i = true ∨ i = 20 ∨ i = 22 ∨ extra ∧ i = 21) ∨
        ∃ o ∈ event.optionList, (bits o).getLsbD i = true) :
    ControlWord event bits extra v := by
  have hnone : ∀ i, i < 18 ∨ i = 21 → ¬∃ o ∈ event.optionList, (bits o).getLsbD i = true := by
    intro i hi hex
    rcases (optionBits_getLsbD hb hw (by omega)).mp hex with ⟨h18, -⟩ | ⟨h24, -⟩
    · omega
    · omega
  have hhigh : ∀ i, 17 ≤ i → ¬(eventBits event).getLsbD i = true := by
    intro i hi hbit
    rw [eventBits_high hi] at hbit
    cases hbit
  refine ⟨fun i hi => ?_, (hv 22).mpr (Or.inl (Or.inr (Or.inr (Or.inl rfl)))), ?_, fun i hi => ?_⟩
  · rw [Bool.eq_iff_iff, hv i, or_iff_left (hnone i (Or.inl (by omega)))]
    exact or_iff_left (by omega)
  · rw [hv 21, or_iff_left (hnone 21 (Or.inr rfl)), or_iff_right (hhigh 21 (by omega))]
    simp
  · rw [hv i]
    refine or_iff_right ?_
    rintro (hbit | h20 | h22 | ⟨-, h21⟩)
    · exact hhigh i (by omega) hbit
    · omega
    · omega
    · omega

theorem hasepQboxFlags_controlWord :
    ControlWord event (boxOption 0xFF 0) (event.cfgBits = 0x01) (hasepQboxFlags event) := by
  refine controlWord_of_bits fieldBits_hasep (by omega) fun i => ?_
  unfold hasepQboxFlags
  rw [BitVec.getLsbD_or, Bool.or_eq_true, Mask.getLsbD_foldl_or, bit_getLsbD (by omega)]
  generalize (∃ o ∈ event.optionList, (boxOption 0xFF 0 o).getLsbD i = true) = added
  by_cases hcfg : event.cfgBits = 0x01
  · rw [if_pos hcfg]
    simp only [BitVec.getLsbD_or, Bool.or_eq_true, bit_getLsbD (show 20 < 64 by omega),
      bit_getLsbD (show 21 < 64 by omega), hcfg, true_and]
    tauto
  · rw [if_neg hcfg]
    simp only [BitVec.getLsbD_or, Bool.or_eq_true, bit_getLsbD (show 20 < 64 by omega), hcfg,
      false_and]
    tauto

theorem ivbSboxFlags_controlWord (hcfg : event.cfgBits = 0) :
    ControlWord event ivbSboxBits False (ivbSboxFlags event) := by
  refine controlWord_of_bits fieldBits_ivb (by omega) fun i => ?_
  unfold ivbSboxFlags
  rw [Mask.getLsbD_foldl_or, if_neg fun h => h hcfg]
  simp only [BitVec.getLsbD_or, Bool.or_eq_true, bit_getLsbD (show 20 < 64 by omega),
    bit_getLsbD (show 22 < 64 by omega), false_and]
  tauto

/-- With `cfgBits` the counter is not enabled. -/
theorem ivbSboxFlags_disabled (hcfg : event.cfgBits ≠ 0) :
    (ivbSboxFlags event).getLsbD 22 = false := by
  rw [← Bool.not_eq_true]
  unfold ivbSboxFlags
  rw [Mask.getLsbD_foldl_or, if_pos hcfg, bit_getLsbD (by omega)]
  rintro (h21 | hex)
  · omega
  · rcases (optionBits_getLsbD fieldBits_ivb (by omega) (by omega)).mp hex with ⟨h18, -⟩ | ⟨h24, -⟩
    · omega
    · omega

theorem hasepQboxFlags_iff {dev : PciDeviceIndex} (hdev : dev ≠ msrDev) :
    LinkControl 8 event (stored dev (hasepQboxFlags event)) ↔
      (event.cfgBits = 0 ∨ event.cfgBits = 0x01) ∧ event.eventId.toNat < 256 ∧
        ThresholdsAgree 8 event := by
  rw [linkControl_iff fieldBits_hasep (by omega) (hasepQboxFlags_controlWord.stored hdev)]
  exact and_congr or_iff_not_imp_left.symm Iff.rfl

theorem ivbSboxFlags_iff {dev : PciDeviceIndex} (hdev : dev ≠ msrDev) :
    LinkControl 5 event (stored dev (ivbSboxFlags event)) ↔
      event.cfgBits = 0 ∧ event.eventId.toNat < 256 ∧ ThresholdsAgree 5 event := by
  by_cases hcfg : event.cfgBits = 0
  · rw [linkControl_iff fieldBits_ivb (by omega) ((ivbSboxFlags_controlWord hcfg).stored hdev)]
    exact and_congr_left fun _ => iff_of_true (fun hne => absurd hcfg hne) hcfg
  · refine iff_of_false (not_linkControl ?_) fun h => hcfg h.1
    rw [stored_getLsbD hdev (by omega)]
    exact ivbSboxFlags_disabled hcfg

end Fields

/-! ## The set-ups -/

section Setup

variable {cpu : ℕ} {index : RegisterIndex} {row : RegisterMap} {dev filterdev : PciDeviceIndex}
  {event : PerfmonEvent} {c c' : Core} {filter : EventOptionType → Option (ℕ × Word)}
  {bits : PerfmonEventOption → Word}

/-- Only registers in `K` of `dev` have changed. -/
structure DeviceKept (dev : PciDeviceIndex) (K : ℕ → Prop) (c c' : Core) : Prop where
  regs : ∀ owner d r, ¬(d = dev ∧ K r) → c'.regs owner d r = c.regs owner d r
  currentConfig : c'.currentConfig = c.currentConfig
  registered : c'.registeredCpuList = c.registeredCpuList

namespace DeviceKept

variable {K : ℕ → Prop}

theorem refl (c : Core) : DeviceKept dev K c c := ⟨fun _ _ _ _ => rfl, rfl, rfl⟩

theorem trans {a b c : Core} (h : DeviceKept dev K a b) (h' : DeviceKept dev K b c) :
    DeviceKept dev K a c where
  regs owner d r hno := (h'.regs owner d r hno).trans (h.regs owner d r hno)
  currentConfig := h'.currentConfig.trans h.currentConfig
  registered := h'.registered.trans h.registered

theorem accessible (h : DeviceKept dev K c c') (hc : Accessible M cpu c) : Accessible M cpu c' := by
  unfold Accessible
  rw [h.registered]
  exact hc

end DeviceKept

theorem checkWrite_device (hacc : Accessible M cpu c) (hdev : dev < maxNumPciDevices)
    (hans : ∀ n reg data, M.accessWrite n dev cpu reg data = 0) (reg : ℕ) (data : Word) :
    ∃ c', checkWrite M cpu dev reg data c = .done () c' ∧ DeviceKept dev (· = reg) c c' ∧
      c'.regs (regOwner M cpu dev) dev reg = stored dev data := by
  refine ⟨_, checkWrite_done hacc hdev fun n => hans n reg data,
    ⟨fun owner d r hno => ?_, rfl, rfl⟩, ?_⟩
  · have hne : ¬(owner = regOwner M cpu dev ∧ d = dev ∧ r = reg) := fun h => hno h.2
    simp only [Core.log_regs, Core.setReg_regs, if_neg hne]
  · simp

/-- The options of an event: the filters go to the device, the flags are or-ed. -/
theorem filterOptions_done (filterdev : PciDeviceIndex) (hdev : dev < maxNumPciDevices)
    (hans : ∀ n reg data, M.accessWrite n dev cpu reg data = 0)
    (hfilter : ∀ type p, filter type = some p → p.1 ∈ boxRegisters)
    (hbits : ∀ o : PerfmonEventOption, (filter o.type).isSome → bits o = 0)
    (options : List PerfmonEventOption) (flags : Word) (hacc : Accessible M cpu c) :
    ∃ c', options.foldlM (filterOption M filter bits cpu dev filterdev) flags c =
        .done (options.foldl (fun flags o => flags ||| bits o) flags) c' ∧
      DeviceKept dev (· ∈ boxRegisters) c c' := by
  induction options generalizing flags c with
  | nil => exact ⟨c, rfl, DeviceKept.refl c⟩
  | cons o options ih =>
    have hstep : ∃ c1, filterOption M filter bits cpu dev filterdev flags o c =
        .done (flags ||| bits o) c1 ∧ DeviceKept dev (· ∈ boxRegisters) c c1 := by
      unfold filterOption
      cases hf : filter o.type with
      | none => exact ⟨c, rfl, DeviceKept.refl c⟩
      | some p =>
        have hzero : flags ||| bits o = flags := by
          rw [hbits o (by rw [hf]; rfl)]
          exact BitVec.or_zero
        simp only [Prog.bind_apply, Prog.get_apply, Prog.when_apply, hzero]
        by_cases hthere : hpmCheck M c filterdev cpu ≠ 0
        · obtain ⟨c1, hwrite, hkept, -⟩ := checkWrite_device hacc hdev hans p.1 (o.value &&& p.2)
          rw [if_pos hthere, hwrite]
          refine ⟨c1, rfl, fun owner d r hno => hkept.regs owner d r ?_, hkept.currentConfig,
            hkept.registered⟩
          rintro ⟨hd, rfl⟩
          exact hno ⟨hd, hfilter _ _ hf⟩
        · rw [if_neg hthere]
          exact ⟨c, rfl, DeviceKept.refl c⟩
    obtain ⟨c1, hdone, hkept⟩ := hstep
    obtain ⟨c2, hrest, hkept2⟩ := ih (flags ||| bits o) (hkept.accessible hacc)
    refine ⟨c2, ?_, hkept.trans hkept2⟩
    rw [List.foldlM_cons, Prog.bind_of_done hdone]
    exact hrest

theorem hasepQboxOption_eq : hasepQboxOption M cpu dev filterdev =
    filterOption M hasepQboxFilter (boxOption 0xFF 0) cpu dev filterdev := by
  funext flags o
  unfold hasepQboxOption filterOption
  cases hasepQboxFilter o.type with
  | some p => rfl
  | none =>
    have hor : boxOption 0xFF flags o = flags ||| boxOption 0xFF 0 o := by
      unfold boxOption
      split
      · exact congrArg (flags ||| ·) BitVec.zero_or.symm
      · exact congrArg (flags ||| ·) BitVec.zero_or.symm
      · exact congrArg (flags ||| ·) BitVec.zero_or.symm
      · exact BitVec.or_zero.symm
    exact congrArg pure hor

/-- What a set-up leaves: the filter device as it was, and the control word in its register unless
it was cached -/
structure LinkLeft (M : Machine) (flags : Word) (cpu : ℕ) (index : RegisterIndex)
    (row : RegisterMap) (filterdev : PciDeviceIndex) (c c' : Core) : Prop where
  filters : ∀ owner r, c'.regs owner filterdev r = c.regs owner filterdev r
  control : c'.regs (regOwner M cpu row.device) row.device row.configRegister =
    if flags ≠ c.currentConfig cpu index then stored row.device flags
    else c.regs (regOwner M cpu row.device) row.device row.configRegister

theorem LinkCalled.counterMap (h : LinkCalled M cpu index row filterdev c) :
    (counterMap M index : Prog Int Core RegisterMap) c = .done row c := by
  unfold Likwid.counterMap
  rw [h.row_eq]
  rfl

theorem LinkCalled.requireLock (h : LinkCalled M cpu index row filterdev c) :
    requireLock M cpu c = .done () c := by
  have hlock : ¬haveLock M c cpu = false := by simp [h.lock]
  show Prog.when (haveLock M c cpu = false) (Prog.ret 0) c = .done () c
  rw [Prog.when_of_neg hlock]
  rfl

theorem LinkCalled.requireDevice (h : LinkCalled M cpu index row filterdev c) :
    requireDevice M row.device cpu c = .done () c := by
  show Prog.when (hpmCheck M c row.device cpu = 0) (Prog.ret (-enodev)) c = .done () c
  rw [Prog.when_of_neg h.present]
  rfl

/-- What is left after the filters went to the device of the counter, and the flags to the control
register unless they were cached -/
theorem DeviceKept.linkLeft {flags : Word} {c1 : Core} (h : LinkCalled M cpu index row filterdev c)
    (hk : DeviceKept row.device (· ∈ boxRegisters) c c1)
    (hfilters : ∀ owner r, c'.regs owner filterdev r = c1.regs owner filterdev r)
    (hcontrol : c'.regs (regOwner M cpu row.device) row.device row.configRegister =
      if flags ≠ c1.currentConfig cpu index then stored row.device flags
      else c1.regs (regOwner M cpu row.device) row.device row.configRegister) :
    LinkLeft M flags cpu index row filterdev c c' := by
  refine ⟨fun owner r => ?_, ?_⟩
  · rw [hfilters]
    exact hk.regs owner filterdev r fun hno => h.apart hno.1
  · rw [hcontrol, hk.currentConfig, hk.regs _ _ _ fun hno => h.config hno.2]

theorem writeConfigTwice_left {flags : Word} {c1 : Core}
    (h : LinkCalled M cpu index row filterdev c)
    (hk : DeviceKept row.device (· ∈ boxRegisters) c c1) :
    ∃ c', writeConfigTwice M cpu index flags c1 = .done () c' ∧
      LinkLeft M (flags ||| bit 22) cpu index row filterdev c c' := by
  show ∃ c', Prog.when (flags ||| bit 22 ≠ c1.currentConfig cpu index) _ c1 = .done () c' ∧ _
  by_cases hcached : flags ||| bit 22 ≠ c1.currentConfig cpu index
  · rw [Prog.when_of_pos hcached]
    obtain ⟨c2, hfirst, hkept2, -⟩ := checkWrite_device (hk.accessible h.accessible) h.pci.2
      h.answers row.configRegister flags
    obtain ⟨c3, hsecond, hkept3, hreg⟩ := checkWrite_device
      (hkept2.accessible (hk.accessible h.accessible)) h.pci.2 h.answers row.configRegister
      (flags ||| bit 22)
    have hrow : (counterMap M index : Prog Int Core RegisterMap) c1 = .done row c1 := by
      unfold counterMap
      rw [h.row_eq]
      rfl
    have hsave : ∃ c', (saveConfig cpu index (flags ||| bit 22) : Prog Int Core Unit) c3 =
        .done () c' ∧ c'.regs = c3.regs := ⟨_, rfl, rfl⟩
    obtain ⟨c', hsave, hregs⟩ := hsave
    refine ⟨c', ?_, hk.linkLeft h (fun owner r => ?_) ?_⟩
    · rw [Prog.bind_of_done hrow, Prog.bind_of_done hfirst, Prog.bind_of_done hsecond]
      exact hsave
    · rw [hregs]
      exact (hkept2.trans hkept3).regs owner filterdev r fun hno => h.apart hno.1
    · rw [if_pos hcached, hregs]
      exact hreg
  · rw [Prog.when_of_neg hcached]
    exact ⟨c1, rfl, hk.linkLeft h (fun _ _ => rfl) (by rw [if_neg hcached])⟩

theorem writeLink_left {flags : Word} {c1 : Core} (h : LinkCalled M cpu index row filterdev c)
    (hk : DeviceKept row.device (· ∈ boxRegisters) c c1) :
    ∃ c', Prog.when (flags ≠ c1.currentConfig cpu index) (do
        checkWrite M cpu row.device row.configRegister flags
        saveConfig cpu index flags) c1 = .done () c' ∧
      LinkLeft M flags cpu index row filterdev c c' := by
  by_cases hcached : flags ≠ c1.currentConfig cpu index
  · rw [Prog.when_of_pos hcached]
    obtain ⟨c2, hwrite, hkept, hreg⟩ := checkWrite_device (hk.accessible h.accessible) h.pci.2
      h.answers row.configRegister flags
    have hsave : ∃ c', (saveConfig cpu index flags : Prog Int Core Unit) c2 = .done () c' ∧
        c'.regs = c2.regs := ⟨_, rfl, rfl⟩
    obtain ⟨c', hsave, hregs⟩ := hsave
    refine ⟨c', (Prog.bind_of_done hwrite).trans hsave, hk.linkLeft h (fun owner r => ?_) ?_⟩
    · rw [hregs]
      exact hkept.regs owner filterdev r fun hno => h.apart hno.1
    · rw [if_pos hcached, hregs]
      exact hreg
  · rw [Prog.when_of_neg hcached]
    exact ⟨c1, rfl, hk.linkLeft h (fun _ _ => rfl) (by rw [if_neg hcached])⟩

theorem hasepQboxSetup_left (h : LinkCalled M cpu index row filterdev c) :
    ∃ c', hasepQboxSetup M cpu index event filterdev c = .done () c' ∧
      LinkLeft M (hasepQboxFlags event) cpu index row filterdev c c' := by
  have hfilter : ∀ type p, hasepQboxFilter type = some p → p.1 ∈ boxRegisters :=
    fun type p hp => @hasepQboxFilter_mem type p.1 p.2 hp
  have hbits : ∀ o : PerfmonEventOption, (hasepQboxFilter o.type).isSome →
      boxOption 0xFF 0 o = 0 := by
    intro o ho
    unfold boxOption
    split
    · next ht => rw [ht] at ho; cases ho
    · next ht => rw [ht] at ho; cases ho
    · next ht => rw [ht] at ho; cases ho
    · rfl
  obtain ⟨c1, hdone, hkept⟩ := filterOptions_done filterdev h.pci.2 h.answers hfilter hbits
    event.optionList (if event.cfgBits = 0x01 then (bit 20 ||| eventBits event) ||| bit 21
      else bit 20 ||| eventBits event) h.accessible
  obtain ⟨c', hwrite, hleft⟩ := writeConfigTwice_left h hkept
  refine ⟨c', ?_, hleft⟩
  unfold hasepQboxSetup
  rw [Prog.bind_of_done h.counterMap, Prog.bind_of_done h.requireLock,
    Prog.bind_of_done h.requireDevice, hasepQboxOption_eq]
  exact (Prog.bind_of_done hdone).trans hwrite

theorem ivbSboxSetup_left (h : LinkCalled M cpu index row filterdev c) :
    ∃ c', ivbSboxSetup M cpu index event filterdev c = .done () c' ∧
      LinkLeft M (ivbSboxFlags event) cpu index row filterdev c c' := by
  have hfilter : ∀ type p, ivbSboxFilter type = some p → p.1 ∈ boxRegisters := by
    intro type p hp
    unfold ivbSboxFilter at hp
    split at hp
    · cases hp; decide
    · cases hp; decide
    · cases hp; decide
    · cases hp; decide
    · cases hp
  have hbits : ∀ o : PerfmonEventOption, (ivbSboxFilter o.type).isSome → ivbSboxBits o = 0 := by
    intro o ho
    unfold ivbSboxBits
    split
    · next ht => rw [ht] at ho; cases ho
    · next ht => rw [ht] at ho; cases ho
    · rfl
  obtain ⟨c1, hdone, hkept⟩ := filterOptions_done filterdev h.pci.2 h.answers hfilter hbits
    event.optionList
    (if event.cfgBits ≠ 0 then bit 21 else (bit 22 ||| bit 20) ||| eventBits event) h.accessible
  obtain ⟨c', hwrite, hleft⟩ := writeLink_left h hkept
  refine ⟨c', ?_, hleft⟩
  unfold ivbSboxSetup
  rw [Prog.bind_of_done h.requireLock, Prog.bind_of_done h.counterMap,
    Prog.bind_of_done h.requireDevice]
  exact (Prog.bind_of_done hdone).trans hwrite

/-- A set-up leaves the link configured where the filters stood in the filter device before, and the
control word is right. -/
theorem LinkLeft.configured_iff {registers : EventOptionType → Option (ℕ × Word)} {width : ℕ}
    {flags : Word} {complete : Prop} {m : Prog Int Core Unit}
    (hm : ∃ c', m c = .done () c' ∧ LinkLeft M flags cpu index row filterdev c c')
    (hflags : LinkControl width event (stored row.device flags) ↔
      complete ∧ event.eventId.toNat < 256 ∧ ThresholdsAgree width event) :
    (∃ c', EndsIn m c c' ∧ LinkConfigured M registers width cpu row filterdev event c') ↔
      LinkHeld M registers width flags complete cpu index row filterdev event c := by
  obtain ⟨c', hdone, hleft⟩ := hm
  have hends : ∀ c'', EndsIn m c c'' → c'' = c' := by
    rintro c'' (hd | ⟨r, hr⟩)
    · rw [hdone] at hd
      cases hd
      rfl
    · rw [hdone] at hr
      cases hr
  have hfilters : FiltersThere M registers cpu filterdev event c' ↔
      FiltersThere M registers cpu filterdev event c := by
    unfold FiltersThere
    simp only [hleft.filters]
  constructor
  · rintro ⟨c'', hc, hconf⟩
    rw [hends c'' hc] at hconf
    have hcontrol := hconf.control
    rw [hleft.control] at hcontrol
    refine ⟨hfilters.mp hconf.filters, fun hwritten => ?_, fun hcached => ?_⟩
    · rw [if_pos hwritten] at hcontrol
      exact hflags.mp hcontrol
    · rw [if_neg fun hne => hne hcached] at hcontrol
      exact hcontrol
  · rintro ⟨hheld, hwritten, hcached⟩
    refine ⟨c', Or.inl hdone, hfilters.mpr hheld, ?_⟩
    rw [hleft.control]
    by_cases hflag : flags ≠ c.currentConfig cpu index
    · rw [if_pos hflag]
      exact hflags.mpr (hwritten hflag)
    · rw [if_neg hflag]
      exact hcached (not_not.mp hflag)

/-- **The set-up of a QPI link leaves every filter in its register of the filter device, and the
control word with all its fields**, exactly if the filters stood there before, and the control word
is complete or cached: neither routine writes to the filter device. On Haswell a complete word has
no `cfgBits` but 1, on Ivy Bridge it has none. -/
theorem qpiConfigured_iff (h : LinkCalled M cpu index row filterdev c) (event : PerfmonEvent) :
    ((∃ c', EndsIn (hasepQboxSetup M cpu index event filterdev) c c' ∧
        LinkConfigured M hasepQboxRegister 8 cpu row filterdev event c') ↔
      LinkHeld M hasepQboxRegister 8 (hasepQboxFlags event)
        (event.cfgBits = 0 ∨ event.cfgBits = 0x01) cpu index row filterdev event c) ∧
    ((∃ c', EndsIn (ivbSboxSetup M cpu index event filterdev) c c' ∧
        LinkConfigured M ivbSboxFilter 5 cpu row filterdev event c') ↔
      LinkHeld M ivbSboxFilter 5 (ivbSboxFlags event) (event.cfgBits = 0) cpu index row filterdev
        event c) :=
  ⟨LinkLeft.configured_iff (hasepQboxSetup_left h) (hasepQboxFlags_iff h.pci.1),
    LinkLeft.configured_iff (ivbSboxSetup_left h) (ivbSboxFlags_iff h.pci.1)⟩

end Setup

/-! ## One link -/

/-- `QBOX0C0` -/
def linkRow : RegisterMap :=
  ⟨"QBOX0C0", 0, .qbox0, 0xD8, 0xA4, 0xA0, 11, optionMaskOf [.edge, .invert, .threshold]⟩

def linkTables : Tables where
  counterMap := [linkRow]
  boxMap := fun _ => { regWidth := 48 }
  index_eq := index_eq_of_map (by decide)
  unit_row := by decide
  fixed_row := by decide
  fixed_private := by decide
  fixed_filter := fun _ => by decide
  pmc_row := by decide
  pmc_private := by decide
  pmc_counter := by decide
  pmc_filter := by intro t row hrow; cases t <;> revert row <;> decide

def linkMachine : Machine :=
  { haswellMachine with
    toTables := linkTables
    model := 0x3F }

theorem linkCalled : LinkCalled linkMachine 0 0 linkRow 14 ownerCore where
  row_eq := rfl
  lock := by decide
  present := by decide
  filterPresent := by decide
  accessible := by unfold Accessible; decide
  apart := by decide
  pci := by decide
  answers _ _ _ := rfl
  config := by decide

/-- `DIRECT2CORE_SUCCESS_RBT_HIT:EDGEDETECT` -/
def edgeEvent : PerfmonEvent :=
  { name := "DIRECT2CORE_SUCCESS_RBT_HIT", limit := "QBOX", eventId := 0x13, umask := 0x01
    numberOfOptions := 1, options := [⟨.edge, 0⟩] }

/-- `CTO_COUNT:MATCH0=0x8` -/
def ctoEvent : PerfmonEvent :=
  { name := "CTO_COUNT", limit := "QBOX", eventId := 0x38, umask := 0x00, cfgBits := 0x01
    numberOfOptions := 1, options := [⟨.match0, 8⟩] }

theorem qpiConfigured_edge :
    (∃ c', EndsIn (hasepQboxSetup linkMachine 0 0 edgeEvent 14) ownerCore c' ∧
      LinkConfigured linkMachine hasepQboxRegister 8 0 linkRow 14 edgeEvent c') ∧
    ∃ c', EndsIn (ivbSboxSetup linkMachine 0 0 edgeEvent 14) ownerCore c' ∧
      LinkConfigured linkMachine ivbSboxFilter 5 0 linkRow 14 edgeEvent c' := by
  have hthresholds : ∀ width, ThresholdsAgree width edgeEvent := by
    intro width o ho o' _ hthreshold
    rw [List.mem_singleton.mp ho] at hthreshold
    cases hthreshold
  have hfilters : ∀ registers, registers EventOptionType.edge = none →
      FiltersThere linkMachine registers 0 14 edgeEvent ownerCore := by
    intro registers hnone o ho reg mask hreg
    rw [List.mem_singleton.mp ho] at hreg
    cases hnone.symm.trans hreg
  obtain ⟨hasep, ivb⟩ := qpiConfigured_iff linkCalled edgeEvent
  refine ⟨hasep.mpr ⟨hfilters _ rfl, fun _ => ⟨Or.inl rfl, by decide, hthresholds 8⟩, ?_⟩,
    ivb.mpr ⟨hfilters _ rfl, fun _ => ⟨rfl, by decide, hthresholds 5⟩, ?_⟩⟩
  · intro hcached
    exact absurd hcached (by decide)
  · intro hcached
    exact absurd hcached (by decide)

/-- A filter does not reach the filter device. -/
theorem not_qpiConfigured_match0 :
    ¬∃ c', EndsIn (hasepQboxSetup linkMachine 0 0 ctoEvent 14) ownerCore c' ∧
      LinkConfigured linkMachine hasepQboxRegister 8 0 linkRow 14 ctoEvent c' := by
  rintro ⟨c', hends, hconf⟩
  have hrun : ∃ c'', hasepQboxSetup linkMachine 0 0 ctoEvent 14 ownerCore = .done () c'' ∧
      LinkLeft linkMachine (hasepQboxFlags ctoEvent) 0 0 linkRow 14 ownerCore c'' :=
    hasepQboxSetup_left linkCalled
  obtain ⟨c'', hdone, hleft⟩ := hrun
  have heq : c' = c'' := by
    rcases hends with hd | ⟨r, hr⟩
    · rw [hdone] at hd
      cases hd
      rfl
    · rw [hdone] at hr
      cases hr
  have hfilter := hconf.filters ⟨.match0, 8⟩ (List.mem_singleton.mpr rfl) _ _ rfl
  rw [heq, hleft.filters] at hfilter
  revert hfilter
  decide

end Likwid
