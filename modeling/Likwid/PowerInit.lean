import Likwid.Registers
import Mathlib.Algebra.Order.Field.Rat
import Mathlib.Logic.Function.Basic
import Mathlib.Tactic.Linarith

/-!
# RAPL parameters (`power.c`, `power.h`)

`power_init` reads the units and, for each RAPL domain, which registers the processor has and the
power limits its info register holds. The info register is 64 bits wide. `extractBitField` works
on 32, so that the two fields in the upper half are taken from the lower one
(`powerInit_infoStored_iff`).

Doubles are exact rationals; the two values a `double` does not hold exactly are rounded by `fl`.
-/

namespace Likwid

inductive PowerType where
  | pkg
  | pp0
  | pp1
  | dram
deriving DecidableEq, Repr

namespace PowerType

/-- `i = 0` to `NUM_POWER_DOMAINS - 1` -/
def all : List PowerType := [.pkg, .pp0, .pp1, .dram]

theorem mem_all (d : PowerType) : d ∈ all := by
  cases d <;> decide

theorem nodup_all : all.Nodup := by decide

end PowerType

structure PowerDomain where
  type : PowerType
  supportFlags : BitVec 32
  energyUnit : ℚ
  tdp : ℚ
  minPower : ℚ
  maxPower : ℚ
  maxTimeWindow : ℚ
deriving DecidableEq, Repr

/-- The steps are allocated and may stay without a value. -/
structure TurboBoost where
  numSteps : ℕ
  steps : List (Option ℚ)
deriving DecidableEq, Repr

structure PowerInfo where
  baseFrequency : ℚ
  minFrequency : ℚ
  turbo : TurboBoost
  hasRAPL : Int
  powerUnit : ℚ
  timeUnit : ℚ
  domains : PowerType → PowerDomain

/-- The entries of `power_regs`, `limit_regs`, `info_regs`, `policy_regs` and `perf_regs` for one
domain; 0 stands for no register. -/
structure DomainRegs where
  power : ℕ
  limit : ℕ
  info : ℕ
  policy : ℕ
  perf : ℕ
deriving DecidableEq, Repr

def domainRegs : PowerType → DomainRegs
  | .pkg => ⟨msrPkgEnergyStatus, 0x610, 0x614, 0, 0x613⟩
  | .pp0 => ⟨msrPp0EnergyStatus, 0x638, 0, 0x63A, 0x63B⟩
  | .pp1 => ⟨msrPp1EnergyStatus, 0x640, 0, 0x642, 0⟩
  | .dram => ⟨msrDramEnergyStatus, 0x618, 0x61C, 0, 0x61B⟩

abbrev msrPlatformInfo : ℕ := 0xCE
abbrev msrTurboRatioLimit : ℕ := 0x1AD
abbrev msrRaplPowerUnit : ℕ := 0x606
abbrev msrPkgPowerInfoSilvermont : ℕ := 0x66E

/-! ## `power_init` -/

abbrev atomSilvermontE : ℕ := 0x37
abbrev atomSilvermontC : ℕ := 0x4D
abbrev westmereEx : ℕ := 0x2F

/-- Sandy Bridge to Skylake with their server parts, and the Silvermont models without type C -/
def raplModels : List ℕ :=
  [0x2A, 0x3A, 0x3C, 0x2D, 0x3E, 0x3F, atomSilvermontE, 0x4A, 0x5A, 0x5D, 0x3D, 0x4F, 0x56, 0x45,
   0x46, 0x4E, 0x5E]

/-- `HASWELL_EP`, `HASWELL_M1` and `HASWELL_M2` -/
def dramUnitModels : List ℕ := [0x3F, 0x45, 0x46]

/-- What `power_init` finds on the processor. `read` is `HPMread` on the CPU it is called for: the
content of a register, if it can be read. -/
structure PowerMachine where
  model : ℕ
  turbo : Bool
  numCoresPerSocket : ℕ
  read : ℕ → Option Word
  fl : ℚ → ℚ

structure PowerState where
  powerInitialized : Bool
  powerInfo : PowerInfo
  regs : PowerType → DomainRegs

section Init

variable (P : PowerMachine)

/-- One register of a domain: without it, or where it cannot be read, the entry is 0 afterwards. -/
def supportReg (reg : ℕ) (flag : ℕ) (store : Word → PowerDomain → PowerDomain)
    (d : PowerDomain) : ℕ × PowerDomain :=
  if reg ≠ 0 then
    match P.read reg with
    | some flags => (reg, store flags { d with supportFlags := d.supportFlags ||| 1#32 <<< flag })
    | none => (0, d)
  else (reg, d)

/-- The fields of the info register -/
def storeInfo (powerUnit timeUnit : ℚ) (flags : Word) (d : PowerDomain) : PowerDomain :=
  let field (width offset : ℕ) : ℚ := (extractBitField (flags.setWidth 32) width offset).toNat
  let d := { d with tdp := field 15 0 * powerUnit }
  if P.model ≠ atomSilvermontC then
    { d with
      minPower := field 15 16 * powerUnit
      maxPower := field 15 32 * powerUnit
      maxTimeWindow := field 7 48 * timeUnit }
  else d

/-- The body of the loop over the domains, which works on the entries of its own domain. Without
the status register the domain is skipped. -/
def initDomain (powerUnit timeUnit : ℚ) (regs : DomainRegs) (d : PowerDomain) :
    DomainRegs × PowerDomain :=
  match P.read regs.power with
  | none => (regs, d)
  | some _ =>
      let d := { d with supportFlags := d.supportFlags ||| 1#32 <<< 0 }
      let (limit, d) := supportReg P regs.limit 1 (fun _ d => d) d
      let (info, d) := supportReg P regs.info 4 (storeInfo P powerUnit timeUnit) d
      let (policy, d) := supportReg P regs.policy 2 (fun _ d => d) d
      let (perf, d) := supportReg P regs.perf 3 (fun _ d => d) d
      ({ regs with limit := limit, info := info, policy := policy, perf := perf }, d)

def domainStep (s : PowerState) (i : PowerType) : PowerState :=
  let r := initDomain P s.powerInfo.powerUnit s.powerInfo.timeUnit (s.regs i)
    (s.powerInfo.domains i)
  { s with
    powerInfo := { s.powerInfo with domains := Function.update s.powerInfo.domains i r.2 }
    regs := Function.update s.regs i r.1 }

/-- `1 << n` in `int` -/
def intShift (n : ℕ) : Int := (1#32 <<< n).toInt

/-- `1 << ((flags >> start) & mask)` for the units -/
def unitShift (flags : Word) (start : ℕ) (mask : Word) : Int :=
  intShift ((flags >>> start) &&& mask).toNat

def raplEnergyUnit (flags : Word) : ℚ :=
  if P.model ≠ atomSilvermontE then 1 / unitShift flags 8 0x1F
  else P.fl (unitShift flags 8 0x1F / 1000000)

/-- The units, and the domains before they are looked up -/
def initUnits (info : PowerInfo) (flags : Word) : PowerInfo :=
  { info with
    powerUnit := (1000000 / unitShift flags 0 0xF : Int)
    timeUnit := (1000000 / unitShift flags 16 0xF : Int)
    domains := fun i =>
      { type := i
        supportFlags := 0
        energyUnit :=
          if i = .dram ∧ P.model ∈ dramUnitModels then P.fl (153 / 10000000)
          else raplEnergyUnit P flags
        tdp := 0
        minPower := 0
        maxPower := 0
        maxTimeWindow := 0 } }

def turboSteps (busSpeed : ℚ) (numSteps : ℕ) (flags : Word) : List (Option ℚ) :=
  (List.range numSteps).map fun i => some (busSpeed * (field64 flags (min i 7 * 8) 8).toNat)

/-- The turbo mode features -/
def initTurbo (info : PowerInfo) : PowerInfo :=
  let busSpeed : ℚ := if info.hasRAPL ≠ 0 then 100 else 13333 / 100
  match if P.turbo then P.read msrPlatformInfo else none with
  | none => info
  | some flags =>
      let field (flags : Word) : ℚ := (extractBitField (flags.setWidth 32) 8 8).toNat
      let numSteps := if P.model = westmereEx then 4 else P.numCoresPerSocket
      { info with
        baseFrequency := busSpeed * field flags
        minFrequency := busSpeed * field (flags >>> 32)
        turbo :=
          { numSteps := numSteps
            steps :=
              match P.read msrTurboRatioLimit with
              | some flags => turboSteps busSpeed numSteps flags
              | none => List.replicate numSteps none } }

/-- Where the units cannot be read RAPL is switched off. -/
def initRapl (s : PowerState) : PowerState :=
  match P.read msrRaplPowerUnit with
  | none =>
      { s with powerInfo := { s.powerInfo with hasRAPL := 0 }, powerInitialized := true }
  | some flags =>
      { PowerType.all.foldl (domainStep P)
          { s with powerInfo := initUnits P s.powerInfo flags } with powerInitialized := true }

/-- `info_regs[PKG]` on Silvermont type C -/
def silvermontRegs (regs : PowerType → DomainRegs) : PowerType → DomainRegs :=
  if P.model = atomSilvermontC then
    Function.update regs .pkg { regs .pkg with info := msrPkgPowerInfoSilvermont }
  else regs

def powerInit (s : PowerState) : Int × PowerState :=
  if s.powerInitialized then (0, s)
  else
    let cleared := { s.powerInfo with
      baseFrequency := 0, minFrequency := 0, turbo := ⟨0, []⟩, powerUnit := 0, timeUnit := 0
      hasRAPL := 0 }
    if P.model ∈ raplModels ∨ P.model = atomSilvermontC then
      let s := initRapl P { s with
        powerInfo := initTurbo P { cleared with hasRAPL := 1 }
        regs := silvermontRegs P s.regs }
      (s.powerInfo.hasRAPL, s)
    else (0, { s with powerInfo := cleared })

end Init

/-! ## The loop over the domains -/

section Domains

variable {P : PowerMachine} {d : PowerType} {s : PowerState}

/-- The values that are taken from the info register -/
def PowerDomain.limits (d : PowerDomain) : ℚ × ℚ × ℚ × ℚ :=
  (d.tdp, d.minPower, d.maxPower, d.maxTimeWindow)

theorem supportReg_limits (reg flag : ℕ) (d : PowerDomain) :
    (supportReg P reg flag (fun _ d => d) d).2.limits = d.limits := by
  unfold supportReg
  by_cases hreg : reg ≠ 0
  · rw [if_pos hreg]
    cases P.read reg with
    | none => rfl
    | some flags => rfl
  · rw [if_neg hreg]

/-- A readable info register decides all four values, whatever the other registers do. -/
theorem initDomain_limits {powerUnit timeUnit : ℚ} {regs : DomainRegs} {d : PowerDomain}
    {x w : Word} (hstatus : P.read regs.power = some x) (hreg : regs.info ≠ 0)
    (hinfo : P.read regs.info = some w) :
    ∃ d', d'.limits = d.limits ∧ (initDomain P powerUnit timeUnit regs d).2.limits =
      (storeInfo P powerUnit timeUnit w d').limits := by
  let d1 := { d with supportFlags := d.supportFlags ||| 1#32 <<< 0 }
  let d2 := (supportReg P regs.limit 1 (fun _ d => d) d1).2
  let d3 := { d2 with supportFlags := d2.supportFlags ||| 1#32 <<< 4 }
  refine ⟨d3, supportReg_limits regs.limit 1 d1, ?_⟩
  have hstored : (supportReg P regs.info 4 (storeInfo P powerUnit timeUnit) d2).2 =
      storeInfo P powerUnit timeUnit w d3 := by
    simp only [supportReg, if_pos hreg, hinfo, d3]
  have hdomain : (initDomain P powerUnit timeUnit regs d).2 =
      (supportReg P regs.perf 3 (fun _ d => d)
        (supportReg P regs.policy 2 (fun _ d => d)
          (supportReg P regs.info 4 (storeInfo P powerUnit timeUnit) d2).2).2).2 := by
    simp only [initDomain, hstatus]
    rfl
  rw [hdomain, supportReg_limits, supportReg_limits, hstored]

theorem foldl_domainStep {l : List PowerType} (hl : l.Nodup) (s : PowerState) :
    (l.foldl (domainStep P) s).powerInfo.powerUnit = s.powerInfo.powerUnit ∧
    (l.foldl (domainStep P) s).powerInfo.timeUnit = s.powerInfo.timeUnit ∧
    ∀ d, (l.foldl (domainStep P) s).powerInfo.domains d =
      if d ∈ l then (initDomain P s.powerInfo.powerUnit s.powerInfo.timeUnit (s.regs d)
        (s.powerInfo.domains d)).2
      else s.powerInfo.domains d := by
  induction l generalizing s with
  | nil => exact ⟨rfl, rfl, fun d => rfl⟩
  | cons i l ih =>
    obtain ⟨hi, hl⟩ := List.nodup_cons.mp hl
    obtain ⟨hpower, htime, hdomains⟩ := ih hl (domainStep P s i)
    refine ⟨hpower, htime, fun d => ?_⟩
    rw [List.foldl_cons, hdomains d]
    by_cases hdi : d = i
    · subst hdi
      rw [if_neg hi, if_pos List.mem_cons_self]
      exact Function.update_self ..
    · have hmem : d ∈ i :: l ↔ d ∈ l := by simp [hdi]
      simp only [domainStep, Function.update_of_ne hdi, hmem]

end Domains

/-! ## The info register -/

/-- The values of domain `d` are the fields of its info register `w`, in the units of the
record. -/
structure InfoStored (info : PowerInfo) (d : PowerType) (w : Word) : Prop where
  tdp : (info.domains d).tdp = (w.extractLsb 14 0).toNat * info.powerUnit
  minPower : (info.domains d).minPower = (w.extractLsb 30 16).toNat * info.powerUnit
  maxPower : (info.domains d).maxPower = (w.extractLsb 46 32).toNat * info.powerUnit
  maxTimeWindow : (info.domains d).maxTimeWindow = (w.extractLsb 54 48).toNat * info.timeUnit

/-- The fields of the upper half agree with those the same distance above bit 0. On Silvermont
type C only the first field is taken. -/
def InfoFits (model : ℕ) (w : Word) : Prop :=
  if model = atomSilvermontC then
    w.extractLsb 30 16 = 0 ∧ w.extractLsb 46 32 = 0 ∧ w.extractLsb 54 48 = 0
  else w.extractLsb 46 32 = w.extractLsb 14 0 ∧ w.extractLsb 54 48 = w.extractLsb 22 16

section Info

variable {P : PowerMachine} {s : PowerState} {d : PowerType} {unit x w : Word}

theorem unit_pos (flags : Word) (start : ℕ) :
    (0 : ℚ) < ((1000000 / unitShift flags start 0xF : Int) : ℚ) := by
  have hmask : ((flags >>> start) &&& 0xF).toNat < 16 := by
    rw [BitVec.toNat_and]
    exact Nat.lt_succ_of_le Nat.and_le_right
  have hall : ∀ k < 16, 0 < 1000000 / intShift k := by decide
  have := hall _ hmask
  exact_mod_cast this

theorem mul_unit_inj {n : ℕ} {a b : BitVec n} {u : ℚ} (hu : 0 < u) :
    (a.toNat : ℚ) * u = b.toNat * u ↔ a = b := by
  constructor
  · intro h
    have := mul_right_cancel₀ (ne_of_gt hu) h
    exact BitVec.eq_of_toNat_eq (by exact_mod_cast this)
  · intro h
    rw [h]

theorem mul_unit_eq_zero {n : ℕ} {a : BitVec n} {u : ℚ} (hu : 0 < u) :
    (a.toNat : ℚ) * u = 0 ↔ a = 0 := by
  have h := mul_unit_inj (a := a) (b := 0#n) hu
  rwa [BitVec.toNat_ofNat, Nat.zero_mod, Nat.cast_zero, zero_mul] at h

/-- The state after the lookup, for a processor whose units can be read -/
theorem powerInit_domain (hinit : s.powerInitialized = false)
    (hmodel : P.model ∈ raplModels ∨ P.model = atomSilvermontC)
    (hunit : P.read msrRaplPowerUnit = some unit)
    (hstatus : P.read (silvermontRegs P s.regs d).power = some x)
    (hreg : (silvermontRegs P s.regs d).info ≠ 0)
    (hinfo : P.read (silvermontRegs P s.regs d).info = some w) :
    let info := (powerInit P s).2.powerInfo
    0 < info.powerUnit ∧ 0 < info.timeUnit ∧
    ∃ d', d'.limits = (0, 0, 0, 0) ∧
      (info.domains d).limits = (storeInfo P info.powerUnit info.timeUnit w d').limits := by
  intro info
  let start : PowerState :=
    { s with
      powerInfo := initUnits P (initTurbo P { s.powerInfo with
        baseFrequency := 0, minFrequency := 0, turbo := ⟨0, []⟩, powerUnit := 0, timeUnit := 0
        hasRAPL := 1 }) unit
      regs := silvermontRegs P s.regs }
  have hrun : info = (PowerType.all.foldl (domainStep P) start).powerInfo := by
    simp only [info, powerInit, hinit, if_pos hmodel, initRapl, hunit]
    rfl
  obtain ⟨hpower, htime, hdomains⟩ := foldl_domainStep PowerType.nodup_all start
  rw [hrun, hpower, htime, hdomains d, if_pos (PowerType.mem_all d)]
  exact ⟨unit_pos unit 0, unit_pos unit 16,
    initDomain_limits (d := start.powerInfo.domains d) hstatus hreg hinfo⟩

/-- After its info register is read a domain has the fields of the full register if and only if
the upper fields fit. -/
theorem powerInit_infoStored_iff (hinit : s.powerInitialized = false)
    (hmodel : P.model ∈ raplModels ∨ P.model = atomSilvermontC)
    (hunit : P.read msrRaplPowerUnit = some unit)
    (hstatus : P.read (silvermontRegs P s.regs d).power = some x)
    (hreg : (silvermontRegs P s.regs d).info ≠ 0)
    (hinfo : P.read (silvermontRegs P s.regs d).info = some w) :
    InfoStored (powerInit P s).2.powerInfo d w ↔ InfoFits P.model w := by
  obtain ⟨hpower, htime, d', hzero, hlimits⟩ :=
    powerInit_domain hinit hmodel hunit hstatus hreg hinfo
  obtain ⟨_, hmin0, hmax0, hwindow0⟩ : d'.tdp = 0 ∧ d'.minPower = 0 ∧ d'.maxPower = 0 ∧
      d'.maxTimeWindow = 0 := by
    simpa only [PowerDomain.limits, Prod.mk.injEq] using hzero
  generalize (powerInit P s).2.powerInfo = info at *
  have htdp : ((extractBitField (w.setWidth 32) 15 0).toNat : ℚ) = (w.extractLsb 14 0).toNat := by
    rw [extractBitField_setWidth (by decide) (by decide)]
    rfl
  have hmin : ((extractBitField (w.setWidth 32) 15 16).toNat : ℚ) =
      (w.extractLsb 30 16).toNat := by
    rw [extractBitField_setWidth (by decide) (by decide)]
    rfl
  have hmax : ((extractBitField (w.setWidth 32) 15 32).toNat : ℚ) =
      (w.extractLsb 14 0).toNat := by
    rw [extractBitField_add_32 (by decide) (by decide), htdp]
  have hwindow : ((extractBitField (w.setWidth 32) 7 48).toNat : ℚ) =
      (w.extractLsb 22 16).toNat := by
    rw [extractBitField_add_32 (by decide) (by decide),
      extractBitField_setWidth (by decide) (by decide)]
    rfl
  by_cases hc : P.model = atomSilvermontC
  · simp only [storeInfo, hc, ne_eq, not_true_eq_false, if_false, PowerDomain.limits,
      Prod.mk.injEq, htdp, hmin0, hmax0, hwindow0] at hlimits
    obtain ⟨hdtdp, hdmin, hdmax, hdwindow⟩ := hlimits
    rw [InfoFits, if_pos hc]
    constructor
    · intro h
      have h0 := h.minPower
      have h1 := h.maxPower
      have h2 := h.maxTimeWindow
      rw [hdmin] at h0
      rw [hdmax] at h1
      rw [hdwindow] at h2
      exact ⟨(mul_unit_eq_zero hpower).mp h0.symm, (mul_unit_eq_zero hpower).mp h1.symm,
        (mul_unit_eq_zero htime).mp h2.symm⟩
    · rintro ⟨h0, h1, h2⟩
      refine ⟨hdtdp, ?_, ?_, ?_⟩
      · rw [hdmin, (mul_unit_eq_zero hpower).mpr h0]
      · rw [hdmax, (mul_unit_eq_zero hpower).mpr h1]
      · rw [hdwindow, (mul_unit_eq_zero htime).mpr h2]
  · simp only [storeInfo, hc, ne_eq, not_false_eq_true, if_true, PowerDomain.limits,
      Prod.mk.injEq, htdp, hmin, hmax, hwindow] at hlimits
    obtain ⟨hdtdp, hdmin, hdmax, hdwindow⟩ := hlimits
    rw [InfoFits, if_neg hc]
    constructor
    · intro h
      have h1 := h.maxPower
      have h2 := h.maxTimeWindow
      rw [hdmax] at h1
      rw [hdwindow] at h2
      exact ⟨((mul_unit_inj hpower).mp h1).symm, ((mul_unit_inj htime).mp h2).symm⟩
    · rintro ⟨h1, h2⟩
      refine ⟨hdtdp, hdmin, ?_, ?_⟩
      · rw [hdmax, h1]
      · rw [hdwindow, h2]

end Info

/-- A client Haswell whose package may draw 136 W for 40 time units -/
def haswellPower : PowerMachine where
  model := 0x3C
  turbo := false
  numCoresPerSocket := 4
  read := fun reg =>
    if reg = msrRaplPowerUnit then some 0xA0E03
    else if reg = 0x614 then some 0x28044000C802A8
    else some 0
  fl := id

def freshPower : PowerState where
  powerInitialized := false
  powerInfo := ⟨0, 0, ⟨0, []⟩, 0, 0, 0, fun d => ⟨d, 0, 0, 0, 0, 0, 0⟩⟩
  regs := domainRegs

theorem powerInit_infoStored_haswell :
    InfoStored (powerInit haswellPower freshPower).2.powerInfo .pkg 0x28044000C802A8 ↔
      InfoFits 0x3C 0x28044000C802A8 :=
  powerInit_infoStored_iff rfl (by decide) rfl rfl (by decide) rfl

/-- Of the 136 W of the register 85 W are stored, the value of the field for the thermal power. -/
theorem not_infoStored_haswell :
    ¬InfoStored (powerInit haswellPower freshPower).2.powerInfo .pkg 0x28044000C802A8 := by
  intro h
  have hmax := h.maxPower
  revert hmax
  decide +kernel

end Likwid
