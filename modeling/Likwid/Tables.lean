import Likwid.Lib.Rounding
import Likwid.Perfmon

/-!
# The tables of two architectures

`haswell_counter_map` and `haswell_box_map` (the client parts),
`nehalem_counter_map` and `nehalem_box_map`, rows of the generated event lists,
and a machine on which every register access succeeds and the time stamp
counter advances by 1000 between two readings.
-/

namespace Likwid

/-- The union of the masks of some options. -/
def optionMaskOf (types : List EventOptionType) : Word :=
  types.foldl (fun mask t => mask ||| optionsTypeMask t) 0

/-! ## Haswell -/

def hasValidOptionsFixed : Word := optionMaskOf [.anythread, .countKernel]

def hasValidOptionsPmc : Word :=
  optionMaskOf [.edge, .countKernel, .invert, .anythread, .inTrans, .threshold]

def hasValidOptionsBox : Word := optionMaskOf [.threshold, .edge, .invert]

def haswellCounterMap : List RegisterMap :=
  [⟨"FIXC0", 0, .fixed, msrPerfFixedCtrCtrl, 0x309, 0, msrDev, hasValidOptionsFixed⟩,
   ⟨"FIXC1", 1, .fixed, msrPerfFixedCtrCtrl, 0x30A, 0, msrDev, hasValidOptionsFixed⟩,
   ⟨"FIXC2", 2, .fixed, msrPerfFixedCtrCtrl, 0x30B, 0, msrDev, hasValidOptionsFixed⟩,
   ⟨"PMC0", 3, .pmc, 0x186, 0x0C1, 0, msrDev, hasValidOptionsPmc⟩,
   ⟨"PMC1", 4, .pmc, 0x187, 0x0C2, 0, msrDev, hasValidOptionsPmc⟩,
   ⟨"PMC2", 5, .pmc, 0x188, 0x0C3, 0, msrDev,
     hasValidOptionsPmc ||| optionsTypeMask .inTransAbort⟩,
   ⟨"PMC3", 6, .pmc, 0x189, 0x0C4, 0, msrDev, hasValidOptionsPmc⟩,
   ⟨"TMP0", 7, .thermal, 0, ia32ThermStatus, 0, msrDev, 0⟩,
   ⟨"PWR0", 8, .power, 0, msrPkgEnergyStatus, 0, msrDev, 0⟩,
   ⟨"PWR1", 9, .power, 0, msrPp0EnergyStatus, 0, msrDev, 0⟩,
   ⟨"PWR2", 10, .power, 0, msrPp1EnergyStatus, 0, msrDev, 0⟩,
   ⟨"PWR3", 11, .power, 0, msrDramEnergyStatus, 0, msrDev, 0⟩,
   ⟨"CBOX0C0", 12, .cbox0, 0x700, 0x706, 0, msrDev, hasValidOptionsBox⟩,
   ⟨"CBOX0C1", 13, .cbox0, 0x701, 0x707, 0, msrDev, hasValidOptionsBox⟩,
   ⟨"CBOX1C0", 14, .cbox1, 0x710, 0x716, 0, msrDev, hasValidOptionsBox⟩,
   ⟨"CBOX1C1", 15, .cbox1, 0x711, 0x717, 0, msrDev, hasValidOptionsBox⟩,
   ⟨"CBOX2C0", 16, .cbox2, 0x720, 0x726, 0, msrDev, hasValidOptionsBox⟩,
   ⟨"CBOX2C1", 17, .cbox2, 0x721, 0x727, 0, msrDev, hasValidOptionsBox⟩,
   ⟨"CBOX3C0", 18, .cbox3, 0x730, 0x736, 0, msrDev, hasValidOptionsBox⟩,
   ⟨"CBOX3C1", 19, .cbox3, 0x731, 0x737, 0, msrDev, hasValidOptionsBox⟩,
   ⟨"UBOX0", 20, .ubox, 0x3B2, 0x3B0, 0, msrDev, hasValidOptionsBox⟩,
   ⟨"UBOX1", 21, .ubox, 0x3B3, 0x3B1, 0, msrDev, hasValidOptionsBox⟩,
   ⟨"UBOXFIX", 22, .uboxfix, msrUncoreFixedCtr0, msrUncoreFixedCtrCtrl, 0, msrDev, 0⟩]

def haswellBoxMap : RegisterType → BoxMap
  | .pmc | .fixed =>
      { ctrlRegister := msrPerfGlobalCtrl
        statusRegister := msrPerfGlobalStatus
        ovflRegister := msrPerfGlobalOvfCtrl
        regWidth := 48 }
  | .thermal => { regWidth := 8 }
  | .power => { regWidth := 32 }
  | .cbox0 | .cbox1 | .cbox2 | .cbox3 => uncoreBox 3
  | .ubox => uncoreBox 1
  | .uboxfix => uncoreBox 0
  | _ => {}
where
  /-- A box behind the uncore's global registers. -/
  uncoreBox (offset : Int) : BoxMap :=
    { ctrlRegister := msrUncorePerfGlobalCtrl
      statusRegister := msrUncorePerfGlobalStatus
      ovflRegister := msrUncorePerfGlobalOvfCtrl
      ovflOffset := offset
      regWidth := 44 }

/-- Rows of the generated `haswell_arch_events`. -/
def haswellEventHash : List PerfmonEvent :=
  [{ name := "PWR_PKG_ENERGY", limit := "PWR0", eventId := 0x00, umask := 0x00 },
   { name := "INSTR_RETIRED_ANY", limit := "FIXC0", eventId := 0x00, umask := 0x00 },
   { name := "CPU_CLK_UNHALTED_CORE", limit := "FIXC1", eventId := 0x00, umask := 0x00 },
   { name := "CPU_CLK_UNHALTED_REF", limit := "FIXC2", eventId := 0x00, umask := 0x00 },
   { name := "UOPS_ISSUED_ANY", limit := "PMC", eventId := 0x0E, umask := 0x01 }]

/-! ## Nehalem -/

def nehValidOptionsPmc : Word :=
  optionMaskOf [.countKernel, .anythread, .edge, .invert, .threshold]

def nehValidOptionsUncore : Word :=
  optionMaskOf [.anythread, .edge, .invert, .threshold, .match0, .opcode]

def nehalemCounterMap : List RegisterMap :=
  [⟨"FIXC0", 0, .fixed, msrPerfFixedCtrCtrl, 0x309, 0, msrDev, hasValidOptionsFixed⟩,
   ⟨"FIXC1", 1, .fixed, msrPerfFixedCtrCtrl, 0x30A, 0, msrDev, hasValidOptionsFixed⟩,
   ⟨"FIXC2", 2, .fixed, msrPerfFixedCtrCtrl, 0x30B, 0, msrDev, hasValidOptionsFixed⟩,
   ⟨"PMC0", 3, .pmc, 0x186, 0x0C1, 0, msrDev, nehValidOptionsPmc⟩,
   ⟨"PMC1", 4, .pmc, 0x187, 0x0C2, 0, msrDev, nehValidOptionsPmc⟩,
   ⟨"PMC2", 5, .pmc, 0x188, 0x0C3, 0, msrDev, nehValidOptionsPmc⟩,
   ⟨"PMC3", 6, .pmc, 0x189, 0x0C4, 0, msrDev, nehValidOptionsPmc⟩,
   ⟨"UPMC0", 7, .uncore, 0x3C0, 0x3B0, 0, msrDev, nehValidOptionsUncore⟩,
   ⟨"UPMC1", 8, .uncore, 0x3C1, 0x3B1, 0, msrDev, nehValidOptionsUncore⟩,
   ⟨"UPMC2", 9, .uncore, 0x3C2, 0x3B2, 0, msrDev, nehValidOptionsUncore⟩,
   ⟨"UPMC3", 10, .uncore, 0x3C3, 0x3B3, 0, msrDev, nehValidOptionsUncore⟩,
   ⟨"UPMC4", 11, .uncore, 0x3C4, 0x3B4, 0, msrDev, nehValidOptionsUncore⟩,
   ⟨"UPMC5", 12, .uncore, 0x3C5, 0x3B5, 0, msrDev, nehValidOptionsUncore⟩,
   ⟨"UPMC6", 13, .uncore, 0x3C6, 0x3B6, 0, msrDev, nehValidOptionsUncore⟩,
   ⟨"UPMC7", 14, .uncore, 0x3C7, 0x3B7, 0, msrDev, nehValidOptionsUncore⟩,
   ⟨"UPMCFIX", 15, .uncore, msrUncoreFixedCtrCtrl, msrUncoreFixedCtr0, 0, msrDev, 0⟩]

def nehalemBoxMap : RegisterType → BoxMap
  | .pmc | .fixed =>
      { ctrlRegister := msrPerfGlobalCtrl
        statusRegister := msrPerfGlobalStatus
        ovflRegister := msrPerfGlobalOvfCtrl
        ovflOffset := -1
        regWidth := 48 }
  | .uncore =>
      { ctrlRegister := msrUncorePerfGlobalCtrl
        statusRegister := msrUncorePerfGlobalStatus
        ovflRegister := msrUncorePerfGlobalOvfCtrl
        ovflOffset := -1
        regWidth := 48 }
  | _ => {}

/-! ## Both are tables -/

theorem index_eq_of_map {rows : List RegisterMap}
    (h : rows.map RegisterMap.index = List.range rows.length) (i : ℕ) (row : RegisterMap)
    (hi : rows[i]? = some row) : row.index = i := by
  obtain ⟨hlt, rfl⟩ := List.getElem?_eq_some_iff.mp hi
  have := congrArg (fun l => l[i]?) h
  simpa [hlt] using this

def haswellTables : Tables where
  counterMap := haswellCounterMap
  boxMap := haswellBoxMap
  index_eq := index_eq_of_map (by decide)
  unit_row := by decide
  fixed_row := by decide
  fixed_private := by decide
  fixed_filter := by intro t; cases t <;> decide
  pmc_row := by decide
  pmc_private := by decide +kernel
  pmc_counter := by decide +kernel
  pmc_filter := by intro t; cases t <;> decide

def nehalemTables : Tables where
  counterMap := nehalemCounterMap
  boxMap := nehalemBoxMap
  index_eq := index_eq_of_map (by decide)
  unit_row := by decide
  fixed_row := by decide
  fixed_private := by decide
  fixed_filter := by intro t; cases t <;> decide
  pmc_row := by decide
  pmc_private := by decide +kernel
  pmc_counter := by decide +kernel
  pmc_filter := by intro t; cases t <;> decide

/-! ## A machine without failures -/

/-- A Haswell client on which every access succeeds: a read delivers what was
last written. -/
def haswellMachine : Machine where
  toTables := haswellTables
  lockCheck := true
  family := 6
  eventHash := haswellEventHash
  model := 0x3C
  perfNumFixedCtr := 3
  numHWThreads := 8
  core2node := fun _ => 0
  thread2tile := fun cpu => cpu / 2
  hasRAPL := true
  powerStatus := fun _ => true
  energyUnit := fun _ => 1
  activationT := 100
  baseline := 0
  cpuClock := 1000
  accessRead := fun _ _ _ _ => 0
  accessData := fun _ _ _ _ value => value
  accessWrite := fun _ _ _ _ _ => 0
  accessInit := fun _ => 0
  accessCheck := fun _ _ => 1
  errno := fun _ => 0
  mallocIndex := fun _ _ => 0
  mallocEvent := fun _ _ => { name := "", limit := "", eventId := 0, umask := 0 }
  mallocGroup := fun _ => (.none, ⟨0, 0⟩)
  tsc := fun n => BitVec.ofNat 64 (1000 * (n + 1))
  fl := id

/-- The same with doubles that round -/
def roundingMachine : Machine := { haswellMachine with fl := Rounding.roundInteger }

/-- The same for Nehalem. -/
def nehalemMachine : Machine :=
  { haswellMachine with
    toTables := nehalemTables
    model := 0x1A
    hasRAPL := false }

end Likwid
