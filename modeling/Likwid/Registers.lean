import Mathlib.Data.Nat.Notation
import Mathlib.Tactic.Common
import Mathlib.Algebra.Group.Nat.Defs
import Mathlib.Algebra.Group.Int.Defs

/-!
# Counter registers

`registers_types.h`, the register numbers of `registers.h` the Haswell and
Nehalem backends name, and the bit-field helpers of `bitUtil.c`. A register
is 64 bits wide (`Word`); the type mask of an event set is the source's
`__uint128_t`.
-/

namespace Likwid

abbrev Word := BitVec 64

/-! ## Bit fields (`bitUtil.c`) -/

/-- `(value >> start) & (~0ULL >> (64 - length))` -/
def field64 (value : Word) (start length : ℕ) : Word :=
  (value >>> start) &&& (BitVec.allOnes 64 >>> (64 - length))

theorem getLsbD_field64 {value : Word} {start length i : ℕ} (hl : length ≤ 64) :
    (field64 value start length).getLsbD i =
      (decide (i < length) && value.getLsbD (start + i)) := by
  unfold field64
  rw [BitVec.getLsbD_and, BitVec.getLsbD_ushiftRight, BitVec.getLsbD_ushiftRight,
    BitVec.getLsbD_allOnes, Bool.and_comm]
  have hiff : 64 - length + i < 64 ↔ i < length := by omega
  simp only [hiff]

theorem field64_toNat {value : Word} {start length : ℕ} (hl : length ≤ 64) :
    (field64 value start length).toNat = value.toNat / 2 ^ start % 2 ^ length := by
  refine Nat.eq_of_testBit_eq fun i => ?_
  rw [BitVec.testBit_toNat, getLsbD_field64 hl, Nat.testBit_mod_two_pow, Nat.testBit_div_two_pow,
    BitVec.testBit_toNat, Nat.add_comm]

/-- `x << n` on 32 bits. C leaves a count from 32 on undefined; the processor takes it modulo
32. -/
def shiftLeft32 (x : BitVec 32) (n : ℕ) : BitVec 32 := x <<< (n % 32)

/-- `x >> n` on 32 bits, with the count taken in the same way -/
def shiftRight32 (x : BitVec 32) (n : ℕ) : BitVec 32 := x >>> (n % 32)

/-- `uint32_t offset+width` wraps. -/
def extractBitField (inField : BitVec 32) (width offset : ℕ) : BitVec 32 :=
  let last := (offset + width) % 2 ^ 32
  let bitMask : BitVec 32 :=
    if last = 32 then shiftLeft32 (BitVec.allOnes 32) offset
    else shiftLeft32 (BitVec.allOnes 32) offset ^^^ shiftLeft32 (BitVec.allOnes 32) last
  shiftRight32 (inField &&& bitMask) offset

/-- A field inside the word is cut out of it. -/
theorem extractBitField_eq {inField : BitVec 32} {width offset : ℕ} (ho : offset < 32)
    (hw : offset + width ≤ 32) :
    extractBitField inField width offset = (inField.extractLsb' offset width).setWidth 32 := by
  have hlast : (offset + width) % 2 ^ 32 = offset + width :=
    Nat.mod_eq_of_lt (by omega)
  ext i hi
  rw [BitVec.getElem_setWidth, BitVec.getLsbD_extractLsb']
  simp only [extractBitField, shiftLeft32, shiftRight32, hlast, Nat.mod_eq_of_lt ho,
    BitVec.getElem_ushiftRight, BitVec.getLsbD_and]
  by_cases h32 : offset + width = 32
  · have hlt : offset + i < 32 ↔ i < width := by omega
    have hge : ¬offset + i < offset := by omega
    simp only [if_pos h32, BitVec.getLsbD_shiftLeft, BitVec.getLsbD_allOnes, hlt, hge]
    by_cases hi' : i < width
    · have : i < 32 := hi
      simp [hi', this]
    · simp [hi']
  · rw [if_neg h32, Nat.mod_eq_of_lt (by omega : offset + width < 32)]
    simp only [BitVec.getLsbD_xor, BitVec.getLsbD_shiftLeft, BitVec.getLsbD_allOnes]
    by_cases hi' : i < width
    · have h1 : offset + i < 32 := by omega
      have h2 : offset + i < offset + width := by omega
      simp [hi', h1, h2]
      omega
    · have h2 : ¬offset + i < offset + width := by omega
      have h3 : offset + i - (offset + width) < 32 := by omega
      by_cases h1 : offset + i < 32
      · have h0 : i < 32 := hi
        simp [hi', h0, h1, h2, h3]
      · simp [hi', h1]

theorem extractBitField_toNat {inField : BitVec 32} {width offset : ℕ} (ho : offset < 32)
    (hw : offset + width ≤ 32) :
    (extractBitField inField width offset).toNat = inField.toNat / 2 ^ offset % 2 ^ width := by
  rw [extractBitField_eq ho hw, BitVec.toNat_setWidth_of_le (by omega), BitVec.extractLsb'_toNat,
    Nat.shiftRight_eq_div_pow]

theorem extractBitField_add_32 {inField : BitVec 32} {width offset : ℕ} (hpos : 0 < width)
    (hw : offset + width < 32) :
    extractBitField inField width (offset + 32) = extractBitField inField width offset := by
  have hlast : (offset + 32 + width) % 2 ^ 32 = offset + width + 32 := by omega
  have hlast' : (offset + width) % 2 ^ 32 = offset + width := by omega
  simp only [extractBitField, shiftLeft32, shiftRight32, hlast, hlast', Nat.add_mod_right,
    if_neg (by omega : ¬offset + width = 32), if_neg (by omega : ¬offset + width + 32 = 32)]

theorem extractBitField_setWidth {value : Word} {width offset : ℕ} (ho : offset < 32)
    (hw : offset + width ≤ 32) :
    (extractBitField (value.setWidth 32) width offset).toNat =
      (value.extractLsb' offset width).toNat := by
  rw [extractBitField_toNat ho hw, BitVec.extractLsb'_toNat, BitVec.toNat_setWidth,
    Nat.shiftRight_eq_div_pow]
  have hpow : 2 ^ 32 = 2 ^ offset * 2 ^ (32 - offset) := by
    rw [← Nat.pow_add, Nat.add_sub_cancel' (by omega)]
  rw [hpow, Nat.mod_mul_right_div_self, Nat.mod_mod_of_dvd]
  exact Nat.pow_dvd_pow 2 (by omega)

/-! ## Register types -/

/-- `RegisterType`, in the order of the C enumeration: the position of a
constructor is the number the comparisons and `REG_TYPE_MASK` use. -/
inductive RegisterType where
  | pmc | fixed | thermal
  | power | uncore | mbox0
  | mbox1 | mbox2 | mbox3
  | mbox4 | mbox5 | mbox6 | mbox7
  | mbox0fix | mbox1fix | mbox2fix
  | mbox3fix | mbox4fix | mbox5fix
  | mbox6fix | mbox7fix
  | bbox0 | bbox1
  | rbox0 | rbox1 | rbox2
  | wbox
  | wbox0fix | wbox1fix
  | sbox0 | sbox1 | sbox2 | sbox3
  | sbox0fix | sbox1fix | sbox2fix | sbox3fix
  | cbox0 | cbox1 | cbox2
  | cbox3 | cbox4 | cbox5
  | cbox6 | cbox7 | cbox8
  | cbox9 | cbox10 | cbox11
  | cbox12 | cbox13 | cbox14
  | cbox15 | cbox16 | cbox17
  | pbox
  | ubox
  | uboxfix
  | ibox0 | ibox1
  | qbox0 | qbox1
  | qbox0fix | qbox1fix
  | numUnits | notype
deriving DecidableEq, Repr

def RegisterType.toNat (t : RegisterType) : ℕ := t.ctorIdx

/-- `REG_TYPE_MASK` -/
def regTypeMaskOf (t : RegisterType) : BitVec 128 :=
  if t.toNat < RegisterType.numUnits.toNat then 1#128 <<< t.toNat else 0#128

/-- `regTypeMask & REG_TYPE_MASK(type)`, as a condition -/
def hasType (mask : BitVec 128) (t : RegisterType) : Prop :=
  mask &&& regTypeMaskOf t ≠ 0#128

instance (mask : BitVec 128) (t : RegisterType) : Decidable (hasType mask t) :=
  inferInstanceAs (Decidable (_ ≠ _))

/-- `regTypeMask & ~(0xFULL)`: some uncore unit is in the set. -/
def hasUncore (mask : BitVec 128) : Prop :=
  mask &&& (~~~(0xF#64)).setWidth 128 ≠ 0#128

instance (mask : BitVec 128) : Decidable (hasUncore mask) :=
  inferInstanceAs (Decidable (_ ≠ _))

/-- `regTypeMask & (REG_TYPE_MASK(FIXED)|REG_TYPE_MASK(PMC))` -/
def hasCore (mask : BitVec 128) : Prop :=
  mask &&& (regTypeMaskOf .fixed ||| regTypeMaskOf .pmc) ≠ 0#128

instance (mask : BitVec 128) : Decidable (hasCore mask) :=
  inferInstanceAs (Decidable (_ ≠ _))

theorem hasType_or_left {mask mask' : BitVec 128} {t : RegisterType} (h : hasType mask t) :
    hasType (mask ||| mask') t := by
  intro h0
  refine h ?_
  ext i hi
  have := congrArg (fun v => v[i]) h0
  simp only [BitVec.getElem_and, BitVec.getElem_or, BitVec.getElem_zero] at this ⊢
  revert this
  cases mask[i] <;> simp

theorem hasType_or_right {mask : BitVec 128} {t : RegisterType}
    (ht : t.toNat < RegisterType.numUnits.toNat) : hasType (mask ||| regTypeMaskOf t) t := by
  intro h0
  have hlt : t.toNat < 64 := ht
  have hbit := congrArg (fun v => v.getLsbD t.toNat) h0
  simp [regTypeMaskOf, ht] at hbit
  omega

/-- No event of type `NOTYPE` passes a mask test. -/
theorem not_hasType_notype (mask : BitVec 128) : ¬hasType mask .notype := by
  simp [hasType, regTypeMaskOf, RegisterType.toNat, RegisterType.ctorIdx]

/-! ## Counter and box tables -/

/-- `PciDeviceIndex`: a device number. `MSR_DEV` is the model specific
registers of a CPU, the others are PCI devices of its socket. -/
abbrev PciDeviceIndex := ℕ

abbrev msrDev : PciDeviceIndex := 0
abbrev pciQpiMaskDevicePort0 : PciDeviceIndex := 14
abbrev pciQpiMaskDevicePort1 : PciDeviceIndex := 15
abbrev maxNumPciDevices : ℕ := 25

/-- `RegisterIndex`: a position in the counter table. -/
abbrev RegisterIndex := ℕ

structure RegisterMap where
  key : String
  index : RegisterIndex
  type : RegisterType
  configRegister : ℕ
  counterRegister : ℕ
  counterRegister2 : ℕ
  device : PciDeviceIndex
  optionMask : Word
deriving Repr

structure BoxMap where
  ctrlRegister : ℕ := 0
  statusRegister : ℕ := 0
  ovflRegister : ℕ := 0
  ovflOffset : Int := 0
  isPci : Bool := false
  device : PciDeviceIndex := 0
  regWidth : ℕ := 0
  filterRegister1 : ℕ := 0
  filterRegister2 : ℕ := 0
deriving Repr

/-! ## Register numbers (`registers.h`) -/

abbrev msrPmc0 : ℕ := 0x0C1
abbrev ia32ThermStatus : ℕ := 0x19C
abbrev msrOffcoreResp0 : ℕ := 0x1A6
abbrev msrOffcoreResp1 : ℕ := 0x1A7
abbrev msrPerfFixedCtr0 : ℕ := 0x309
abbrev msrPerfFixedCtrCtrl : ℕ := 0x38D
abbrev msrPerfGlobalStatus : ℕ := 0x38E
abbrev msrPerfGlobalCtrl : ℕ := 0x38F
abbrev msrPerfGlobalOvfCtrl : ℕ := 0x390
abbrev msrUncorePerfGlobalCtrl : ℕ := 0x391
abbrev msrUncorePerfGlobalStatus : ℕ := 0x392
abbrev msrUncorePerfGlobalOvfCtrl : ℕ := 0x393
abbrev msrUncoreFixedCtr0 : ℕ := 0x394
abbrev msrUncoreFixedCtrCtrl : ℕ := 0x395
abbrev msrUncoreAddrOpcodeMatch : ℕ := 0x396
abbrev msrPebsEnable : ℕ := 0x3F1
abbrev msrPkgEnergyStatus : ℕ := 0x611
abbrev msrDramEnergyStatus : ℕ := 0x619
abbrev msrPp0EnergyStatus : ℕ := 0x639
abbrev msrPp1EnergyStatus : ℕ := 0x641
abbrev msrUncCbo0Perfevtsel0 : ℕ := 0x700
abbrev msrUncV3UPmonGlobalCtl : ℕ := 0x700
abbrev msrUncV3UPmonGlobalStatus : ℕ := 0x701
abbrev pciUncHaPmonAddrmatch0 : ℕ := 0x40
abbrev pciUncHaPmonAddrmatch1 : ℕ := 0x44
abbrev pciUncHaPmonOpcodematch : ℕ := 0x48
abbrev pciUncV3QpiPmonTxMatch0 : ℕ := 0x200
abbrev pciUncV3QpiPmonTxMatch1 : ℕ := 0x204
abbrev pciUncV3QpiPmonTxMask0 : ℕ := 0x210
abbrev pciUncV3QpiPmonTxMask1 : ℕ := 0x214
abbrev pciUncV3QpiPmonRxMatch0 : ℕ := 0x228
abbrev pciUncV3QpiPmonRxMatch1 : ℕ := 0x22C
abbrev pciUncV3QpiPmonRxMask0 : ℕ := 0x238
abbrev pciUncV3QpiPmonRxMask1 : ℕ := 0x23C

/-! ## Tables of an architecture -/

/-- The registers the box helpers write that no table names. -/
def boxRegisters : List ℕ :=
  [msrOffcoreResp0, msrOffcoreResp1,
   pciUncHaPmonOpcodematch, pciUncHaPmonAddrmatch0, pciUncHaPmonAddrmatch1,
   pciUncV3QpiPmonRxMatch0, pciUncV3QpiPmonRxMatch1, pciUncV3QpiPmonTxMatch0,
   pciUncV3QpiPmonTxMatch1, pciUncV3QpiPmonRxMask0, pciUncV3QpiPmonRxMask1,
   pciUncV3QpiPmonTxMask0]

/-- All registers a set-up or an init writes that no table names. -/
def commonRegisters : List ℕ :=
  [msrPerfFixedCtrCtrl, msrPerfGlobalCtrl, msrPerfGlobalOvfCtrl, msrPebsEnable,
   msrUncorePerfGlobalCtrl, msrUncoreFixedCtrCtrl, msrUncoreAddrOpcodeMatch,
   msrUncCbo0Perfevtsel0, msrUncV3UPmonGlobalCtl] ++ boxRegisters

/-- `counter_map` and `box_map`. The fields that are propositions hold of the tables of the source,
but for one row of `haswellEP_counter_map`: a row stands at its own index (the `MBOX0FIX` at 143 has
the index 43, but an event finds the first row of that name) and has a unit's type, the fixed
counters share their control register with nothing else, and the control register of a core counter
belongs to that counter alone. -/
structure Tables where
  counterMap : List RegisterMap
  boxMap : RegisterType → BoxMap
  index_eq : ∀ (i : ℕ) (row : RegisterMap), counterMap[i]? = some row → row.index = i
  unit_row : ∀ row ∈ counterMap, row.type.toNat < RegisterType.numUnits.toNat
  fixed_row : ∀ row ∈ counterMap, row.type = .fixed →
    row.configRegister = msrPerfFixedCtrCtrl ∧ row.index < 8
  fixed_private : ∀ row ∈ counterMap, row.type ≠ .fixed →
    row.configRegister ≠ msrPerfFixedCtrCtrl
  fixed_filter : ∀ t, (boxMap t).filterRegister1 ≠ msrPerfFixedCtrCtrl ∧
    (boxMap t).filterRegister2 ≠ msrPerfFixedCtrCtrl
  pmc_row : ∀ row ∈ counterMap, row.type = .pmc →
    row.device = msrDev ∧ row.configRegister ≠ 0 ∧ row.configRegister ∉ commonRegisters
  pmc_private : ∀ row ∈ counterMap, row.type = .pmc → ∀ row' ∈ counterMap,
    row'.configRegister = row.configRegister → row'.index = row.index
  pmc_counter : ∀ row ∈ counterMap, row.type = .pmc → ∀ row' ∈ counterMap,
    row'.counterRegister ≠ row.configRegister
  pmc_filter : ∀ t, ∀ row ∈ counterMap, row.type = .pmc →
    (boxMap t).filterRegister1 ≠ row.configRegister ∧
      (boxMap t).filterRegister2 ≠ row.configRegister

/-- The bit `1ULL << n`. -/
abbrev bit (n : ℕ) : Word := 1#64 <<< n

theorem bit_getLsbD {n i : ℕ} (hn : n < 64) : (bit n).getLsbD i = true ↔ i = n := by
  rw [BitVec.getLsbD_shiftLeft, BitVec.getLsbD_one]
  simp only [Bool.and_eq_true, decide_eq_true_eq, Bool.not_eq_true', decide_eq_false_iff_not]
  omega

theorem getLsbD_bit {n : ℕ} (hn : n < 64) (i : ℕ) : (bit n).getLsbD i = decide (i = n) :=
  Bool.eq_iff_iff.mpr ((bit_getLsbD hn).trans decide_eq_true_iff.symm)

theorem getLsbD_or_bit (v : Word) {n : ℕ} (hn : n < 64) (i : ℕ) :
    (v ||| bit n).getLsbD i = if i = n then true else v.getLsbD i := by
  rw [BitVec.getLsbD_or, getLsbD_bit hn]
  by_cases h : i = n <;> simp [h]

theorem getLsbD_andNot_bit (v : Word) {n : ℕ} (hn : n < 64) (i : ℕ) :
    (v &&& ~~~bit n).getLsbD i = if i = n then false else v.getLsbD i := by
  rw [BitVec.getLsbD_and, BitVec.getLsbD_not, getLsbD_bit hn]
  by_cases h : i = n
  · simp [h]
  · by_cases hi : i < 64
    · simp [h, hi]
    · simp [h, BitVec.getLsbD_of_ge v i (by omega)]

theorem and_bit_ne_zero {x : Word} {j : ℕ} (hj : j < 64) :
    x &&& bit j ≠ 0 ↔ x.getLsbD j = true := by
  have hbit : ∀ i, (x &&& bit j).getLsbD i = (x.getLsbD i && decide (i = j)) := by
    intro i
    rw [BitVec.getLsbD_and, getLsbD_bit hj]
  constructor
  · intro hne
    by_contra hoff
    refine hne (BitVec.eq_of_getLsbD_eq fun i hi => ?_)
    rw [hbit]
    by_cases hij : i = j
    · subst hij
      rw [Bool.not_eq_true] at hoff
      simp [hoff]
    · simp [hij]
  · intro hon hzero
    have hj' := hbit j
    rw [hzero, hon] at hj'
    simp at hj'

/-- `1ULL << n` for an event's own `n`, which the tables do not bound. -/
def shiftBit (n : ℕ) : Option Word := if n < 64 then some (bit n) else none

/-- `1 << n` in `int`, as the 64-bit operand it becomes. -/
def intBit (n : ℕ) : Word := (1#32 <<< n).signExtend 64

/-- The same with a count the tables do not bound -/
def intBit32 (n : ℕ) : Word := (shiftLeft32 1 n).signExtend 64

/-- The count starts again at 32, and only the last bit is extended. -/
theorem intBit32_eq_bit {n : ℕ} (hn : n % 32 < 31) : intBit32 n = bit (n % 32) := by
  have hbits : ∀ m < 31, (1#32 <<< m).signExtend 64 = bit m := by decide +kernel
  exact hbits (n % 32) hn

end Likwid
