import Likwid.Tables
import Likwid.SandyBridge.Count

/-!
# Sandy Bridge: the tables

`sandybridgeEP_counter_map` and `sandybridgeEP_box_map` of the server part, with the boxes that are
PCI devices, and `sandybridge_counter_map` and `sandybridge_box_map` of the client.
-/

namespace Likwid

abbrev pciR3qpiDeviceLink0 : PciDeviceIndex := 1
abbrev pciR3qpiDeviceLink1 : PciDeviceIndex := 2
abbrev pciR2pcieDevice : PciDeviceIndex := 4
abbrev pciHaDevice0 : PciDeviceIndex := 9
abbrev pciQpiDevicePort0 : PciDeviceIndex := 11
abbrev pciQpiDevicePort1 : PciDeviceIndex := 12
abbrev pciQpiMiscDevicePort0 : PciDeviceIndex := 17
abbrev pciQpiMiscDevicePort1 : PciDeviceIndex := 18

def snbValidOptionsPmc : Word :=
  optionMaskOf [.edge, .countKernel, .anythread, .invert, .threshold]

def snbepValidOptionsCbox : Word :=
  optionMaskOf [.threshold, .edge, .tid, .invert, .opcode, .nid, .state]

def snbepValidOptionsWbox : Word :=
  optionMaskOf [.edge, .invert, .threshold, .occupancy, .occupancyEdge, .occupancyInvert, .match0]

def snbepValidOptionsBbox : Word :=
  optionMaskOf [.threshold, .edge, .invert, .opcode, .match0]

def snbepValidOptionsSbox : Word :=
  optionMaskOf [.threshold, .edge, .invert, .match0, .match1, .mask0, .mask1]

/-! ## The server part -/

def sandybridgeEPCounterMap : List RegisterMap :=
  [⟨"FIXC0", 0, .fixed, msrPerfFixedCtrCtrl, 0x309, 0, msrDev, hasValidOptionsFixed⟩,
   ⟨"FIXC1", 1, .fixed, msrPerfFixedCtrCtrl, 0x30A, 0, msrDev, hasValidOptionsFixed⟩,
   ⟨"FIXC2", 2, .fixed, msrPerfFixedCtrCtrl, 0x30B, 0, msrDev, hasValidOptionsFixed⟩,
   ⟨"PMC0", 3, .pmc, 0x186, 0x0C1, 0, msrDev, snbValidOptionsPmc⟩,
   ⟨"PMC1", 4, .pmc, 0x187, 0x0C2, 0, msrDev, snbValidOptionsPmc⟩,
   ⟨"PMC2", 5, .pmc, 0x188, 0x0C3, 0, msrDev, snbValidOptionsPmc⟩,
   ⟨"PMC3", 6, .pmc, 0x189, 0x0C4, 0, msrDev, snbValidOptionsPmc⟩,
   ⟨"TMP0", 7, .thermal, 0, ia32ThermStatus, 0, msrDev, 0⟩,
   ⟨"PWR0", 8, .power, 0, msrPkgEnergyStatus, 0, msrDev, 0⟩,
   ⟨"PWR1", 9, .power, 0, msrPp0EnergyStatus, 0, msrDev, 0⟩,
   ⟨"PWR2", 10, .power, 0, msrPp1EnergyStatus, 0, msrDev, 0⟩,
   ⟨"PWR3", 11, .power, 0, msrDramEnergyStatus, 0, msrDev, 0⟩,
   ⟨"CBOX0C0", 12, .cbox0, 0xD10, 0xD16, 0, msrDev, snbepValidOptionsCbox⟩,
   ⟨"CBOX0C1", 13, .cbox0, 0xD11, 0xD17, 0, msrDev, snbepValidOptionsCbox⟩,
   ⟨"CBOX0C2", 14, .cbox0, 0xD12, 0xD18, 0, msrDev, snbepValidOptionsCbox⟩,
   ⟨"CBOX0C3", 15, .cbox0, 0xD13, 0xD19, 0, msrDev, snbepValidOptionsCbox⟩,
   ⟨"CBOX1C0", 16, .cbox1, 0xD30, 0xD36, 0, msrDev, snbepValidOptionsCbox⟩,
   ⟨"CBOX1C1", 17, .cbox1, 0xD31, 0xD37, 0, msrDev, snbepValidOptionsCbox⟩,
   ⟨"CBOX1C2", 18, .cbox1, 0xD32, 0xD38, 0, msrDev, snbepValidOptionsCbox⟩,
   ⟨"CBOX1C3", 19, .cbox1, 0xD33, 0xD39, 0, msrDev, snbepValidOptionsCbox⟩,
   ⟨"CBOX2C0", 20, .cbox2, 0xD50, 0xD56, 0, msrDev, snbepValidOptionsCbox⟩,
   ⟨"CBOX2C1", 21, .cbox2, 0xD51, 0xD57, 0, msrDev, snbepValidOptionsCbox⟩,
   ⟨"CBOX2C2", 22, .cbox2, 0xD52, 0xD58, 0, msrDev, snbepValidOptionsCbox⟩,
   ⟨"CBOX2C3", 23, .cbox2, 0xD53, 0xD59, 0, msrDev, snbepValidOptionsCbox⟩,
   ⟨"CBOX3C0", 24, .cbox3, 0xD70, 0xD76, 0, msrDev, snbepValidOptionsCbox⟩,
   ⟨"CBOX3C1", 25, .cbox3, 0xD71, 0xD77, 0, msrDev, snbepValidOptionsCbox⟩,
   ⟨"CBOX3C2", 26, .cbox3, 0xD72, 0xD78, 0, msrDev, snbepValidOptionsCbox⟩,
   ⟨"CBOX3C3", 27, .cbox3, 0xD73, 0xD79, 0, msrDev, snbepValidOptionsCbox⟩,
   ⟨"CBOX4C0", 28, .cbox4, 0xD90, 0xD96, 0, msrDev, snbepValidOptionsCbox⟩,
   ⟨"CBOX4C1", 29, .cbox4, 0xD91, 0xD97, 0, msrDev, snbepValidOptionsCbox⟩,
   ⟨"CBOX4C2", 30, .cbox4, 0xD92, 0xD98, 0, msrDev, snbepValidOptionsCbox⟩,
   ⟨"CBOX4C3", 31, .cbox4, 0xD93, 0xD99, 0, msrDev, snbepValidOptionsCbox⟩,
   ⟨"CBOX5C0", 32, .cbox5, 0xDB0, 0xDB6, 0, msrDev, snbepValidOptionsCbox⟩,
   ⟨"CBOX5C1", 33, .cbox5, 0xDB1, 0xDB7, 0, msrDev, snbepValidOptionsCbox⟩,
   ⟨"CBOX5C2", 34, .cbox5, 0xDB2, 0xDB8, 0, msrDev, snbepValidOptionsCbox⟩,
   ⟨"CBOX5C3", 35, .cbox5, 0xDB3, 0xDB9, 0, msrDev, snbepValidOptionsCbox⟩,
   ⟨"CBOX6C0", 36, .cbox6, 0xDD0, 0xDD6, 0, msrDev, snbepValidOptionsCbox⟩,
   ⟨"CBOX6C1", 37, .cbox6, 0xDD1, 0xDD7, 0, msrDev, snbepValidOptionsCbox⟩,
   ⟨"CBOX6C2", 38, .cbox6, 0xDD2, 0xDD8, 0, msrDev, snbepValidOptionsCbox⟩,
   ⟨"CBOX6C3", 39, .cbox6, 0xDD3, 0xDD9, 0, msrDev, snbepValidOptionsCbox⟩,
   ⟨"CBOX7C0", 40, .cbox7, 0xDF0, 0xDF6, 0, msrDev, snbepValidOptionsCbox⟩,
   ⟨"CBOX7C1", 41, .cbox7, 0xDF1, 0xDF7, 0, msrDev, snbepValidOptionsCbox⟩,
   ⟨"CBOX7C2", 42, .cbox7, 0xDF2, 0xDF8, 0, msrDev, snbepValidOptionsCbox⟩,
   ⟨"CBOX7C3", 43, .cbox7, 0xDF3, 0xDF9, 0, msrDev, snbepValidOptionsCbox⟩,
   ⟨"UBOX0", 44, .ubox, 0xC10, 0xC16, 0, msrDev, hasValidOptionsBox⟩,
   ⟨"UBOX1", 45, .ubox, 0xC11, 0xC16, 0, msrDev, hasValidOptionsBox⟩,
   ⟨"UBOXFIX", 46, .uboxfix, 0xC08, 0xC09, 0, msrDev, 0⟩,
   ⟨"WBOX0", 47, .wbox, 0xC30, 0xC36, 0, msrDev, snbepValidOptionsWbox⟩,
   ⟨"WBOX1", 48, .wbox, 0xC31, 0xC37, 0, msrDev, snbepValidOptionsWbox⟩,
   ⟨"WBOX2", 49, .wbox, 0xC32, 0xC38, 0, msrDev, snbepValidOptionsWbox⟩,
   ⟨"WBOX3", 50, .wbox, 0xC33, 0xC39, 0, msrDev, snbepValidOptionsWbox⟩,
   ⟨"WBOXFIX0", 51, .wbox0fix, 0, 0x3FC, 0, msrDev, 0⟩,
   ⟨"WBOXFIX1", 52, .wbox0fix, 0, 0x3FD, 0, msrDev, 0⟩,
   ⟨"MBOX0C0", 53, .mbox0, 0xD8, 0xA4, 0xA0, pciImcDevice0Ch0, hasValidOptionsBox⟩,
   ⟨"MBOX0C1", 54, .mbox0, 0xDC, 0xAC, 0xA8, pciImcDevice0Ch0, hasValidOptionsBox⟩,
   ⟨"MBOX0C2", 55, .mbox0, 0xE0, 0xB4, 0xB0, pciImcDevice0Ch0, hasValidOptionsBox⟩,
   ⟨"MBOX0C3", 56, .mbox0, 0xE4, 0xBC, 0xB8, pciImcDevice0Ch0, hasValidOptionsBox⟩,
   ⟨"MBOX0FIX", 57, .mbox0fix, 0xF0, 0xD4, 0xD0, pciImcDevice0Ch0, 0⟩,
   ⟨"MBOX1C0", 58, .mbox1, 0xD8, 0xA4, 0xA0, pciImcDevice0Ch1, hasValidOptionsBox⟩,
   ⟨"MBOX1C1", 59, .mbox1, 0xDC, 0xAC, 0xA8, pciImcDevice0Ch1, hasValidOptionsBox⟩,
   ⟨"MBOX1C2", 60, .mbox1, 0xE0, 0xB4, 0xB0, pciImcDevice0Ch1, hasValidOptionsBox⟩,
   ⟨"MBOX1C3", 61, .mbox1, 0xE4, 0xBC, 0xB8, pciImcDevice0Ch1, hasValidOptionsBox⟩,
   ⟨"MBOX1FIX", 62, .mbox1fix, 0xF0, 0xD4, 0xD0, pciImcDevice0Ch1, 0⟩,
   ⟨"MBOX2C0", 63, .mbox2, 0xD8, 0xA4, 0xA0, pciImcDevice0Ch2, hasValidOptionsBox⟩,
   ⟨"MBOX2C1", 64, .mbox2, 0xDC, 0xAC, 0xA8, pciImcDevice0Ch2, hasValidOptionsBox⟩,
   ⟨"MBOX2C2", 65, .mbox2, 0xE0, 0xB4, 0xB0, pciImcDevice0Ch2, hasValidOptionsBox⟩,
   ⟨"MBOX2C3", 66, .mbox2, 0xE4, 0xBC, 0xB8, pciImcDevice0Ch2, hasValidOptionsBox⟩,
   ⟨"MBOX2FIX", 67, .mbox2fix, 0xF0, 0xD4, 0xD0, pciImcDevice0Ch2, 0⟩,
   ⟨"MBOX3C0", 68, .mbox3, 0xD8, 0xA4, 0xA0, pciImcDevice0Ch3, hasValidOptionsBox⟩,
   ⟨"MBOX3C1", 69, .mbox3, 0xDC, 0xAC, 0xA8, pciImcDevice0Ch3, hasValidOptionsBox⟩,
   ⟨"MBOX3C2", 70, .mbox3, 0xE0, 0xB4, 0xB0, pciImcDevice0Ch3, hasValidOptionsBox⟩,
   ⟨"MBOX3C3", 71, .mbox3, 0xE4, 0xBC, 0xB8, pciImcDevice0Ch3, hasValidOptionsBox⟩,
   ⟨"MBOX3FIX", 72, .mbox3fix, 0xF0, 0xD4, 0xD0, pciImcDevice0Ch3, 0⟩,
   ⟨"SBOX0C0", 73, .sbox0, 0xD8, 0xA4, 0xA0, pciQpiDevicePort0, snbepValidOptionsSbox⟩,
   ⟨"SBOX0C1", 74, .sbox0, 0xDC, 0xAC, 0xA8, pciQpiDevicePort0, snbepValidOptionsSbox⟩,
   ⟨"SBOX0C2", 75, .sbox0, 0xE0, 0xB4, 0xB0, pciQpiDevicePort0, snbepValidOptionsSbox⟩,
   ⟨"SBOX0C3", 76, .sbox0, 0xE4, 0xBC, 0xB8, pciQpiDevicePort0, snbepValidOptionsSbox⟩,
   ⟨"SBOX0FIX", 77, .sbox0fix, 0, 0xD4, 0, pciQpiMiscDevicePort0, 0⟩,
   ⟨"SBOX1C0", 78, .sbox1, 0xD8, 0xA4, 0xA0, pciQpiDevicePort1, snbepValidOptionsSbox⟩,
   ⟨"SBOX1C1", 79, .sbox1, 0xDC, 0xAC, 0xA8, pciQpiDevicePort1, snbepValidOptionsSbox⟩,
   ⟨"SBOX1C2", 80, .sbox1, 0xE0, 0xB4, 0xB0, pciQpiDevicePort1, snbepValidOptionsSbox⟩,
   ⟨"SBOX1C3", 81, .sbox1, 0xE4, 0xBC, 0xB8, pciQpiDevicePort1, snbepValidOptionsSbox⟩,
   ⟨"SBOX1FIX", 82, .sbox1fix, 0, 0xD4, 0, pciQpiMiscDevicePort1, 0⟩,
   ⟨"BBOX0", 83, .bbox0, 0xD8, 0xA4, 0xA0, pciHaDevice0, snbepValidOptionsBbox⟩,
   ⟨"BBOX1", 84, .bbox0, 0xDC, 0xAC, 0xA8, pciHaDevice0, snbepValidOptionsBbox⟩,
   ⟨"BBOX2", 85, .bbox0, 0xE0, 0xB4, 0xB0, pciHaDevice0, snbepValidOptionsBbox⟩,
   ⟨"BBOX3", 86, .bbox0, 0xE4, 0xBC, 0xB8, pciHaDevice0, snbepValidOptionsBbox⟩,
   ⟨"RBOX0C0", 87, .rbox0, 0xD8, 0xA4, 0xA0, pciR3qpiDeviceLink0, hasValidOptionsBox⟩,
   ⟨"RBOX0C1", 88, .rbox0, 0xDC, 0xAC, 0xA8, pciR3qpiDeviceLink0, hasValidOptionsBox⟩,
   ⟨"RBOX0C2", 89, .rbox0, 0xE0, 0xB4, 0xB0, pciR3qpiDeviceLink0, hasValidOptionsBox⟩,
   ⟨"RBOX1C0", 90, .rbox1, 0xD8, 0xA4, 0xA0, pciR3qpiDeviceLink1, hasValidOptionsBox⟩,
   ⟨"RBOX1C1", 91, .rbox1, 0xDC, 0xAC, 0xA8, pciR3qpiDeviceLink1, hasValidOptionsBox⟩,
   ⟨"RBOX1C2", 92, .rbox1, 0xE0, 0xB4, 0xB0, pciR3qpiDeviceLink1, hasValidOptionsBox⟩,
   ⟨"PBOX0", 93, .pbox, 0xD8, 0xA4, 0xA0, pciR2pcieDevice, hasValidOptionsBox⟩,
   ⟨"PBOX1", 94, .pbox, 0xDC, 0xAC, 0xA8, pciR2pcieDevice, hasValidOptionsBox⟩,
   ⟨"PBOX2", 95, .pbox, 0xE0, 0xB4, 0xB0, pciR2pcieDevice, hasValidOptionsBox⟩,
   ⟨"PBOX3", 96, .pbox, 0xE4, 0xBC, 0xB8, pciR2pcieDevice, hasValidOptionsBox⟩]

def sandybridgeEPBoxMap : RegisterType → BoxMap
  | .pmc | .fixed =>
      { ctrlRegister := msrPerfGlobalCtrl
        statusRegister := msrPerfGlobalStatus
        ovflRegister := msrPerfGlobalOvfCtrl
        regWidth := 48 }
  | .thermal => { regWidth := 8 }
  | .power => { regWidth := 32 }
  | .wbox => { ctrlRegister := 0xC24, regWidth := 48 }
  | .wbox0fix => { regWidth := 48 }
  | .ubox => { statusRegister := 0xC15, regWidth := 44 }
  | .uboxfix => { regWidth := 44 }
  | .cbox0 => cacheBox 0xD04 0xD14
  | .cbox1 => cacheBox 0xD24 0xD34
  | .cbox2 => cacheBox 0xD44 0xD54
  | .cbox3 => cacheBox 0xD64 0xD74
  | .cbox4 => cacheBox 0xD84 0xD94
  | .cbox5 => cacheBox 0xDA4 0xDB4
  | .cbox6 => cacheBox 0xDC4 0xDD4
  | .cbox7 => cacheBox 0xDE4 0xDF4
  | .mbox0 => pciBox 0xF4 pciImcDevice0Ch0 48
  | .mbox1 => pciBox 0xF4 pciImcDevice0Ch1 48
  | .mbox2 => pciBox 0xF4 pciImcDevice0Ch2 48
  | .mbox3 => pciBox 0xF4 pciImcDevice0Ch3 48
  | .mbox0fix => pciBox 0 pciImcDevice0Ch0 48
  | .mbox1fix => pciBox 0 pciImcDevice0Ch1 48
  | .mbox2fix => pciBox 0 pciImcDevice0Ch2 48
  | .mbox3fix => pciBox 0 pciImcDevice0Ch3 48
  | .bbox0 => pciBox 0xF4 pciHaDevice0 48
  | .sbox0 => pciBox 0xF4 pciQpiDevicePort0 48
  | .sbox1 => pciBox 0xF4 pciQpiDevicePort1 48
  | .sbox0fix => pciBox 0 pciQpiMiscDevicePort0 32
  | .sbox1fix => pciBox 0 pciQpiMiscDevicePort1 32
  | .rbox0 => pciBox 0xF4 pciR3qpiDeviceLink0 44
  | .rbox1 => pciBox 0xF4 pciR3qpiDeviceLink1 44
  | .pbox => pciBox 0xF4 pciR2pcieDevice 44
  | _ => {}
where
  /-- A box among the model specific registers, with a filter -/
  cacheBox (ctrl filter : ℕ) : BoxMap :=
    { ctrlRegister := ctrl, regWidth := 44, filterRegister1 := filter }
  pciBox (ctrl : ℕ) (device : PciDeviceIndex) (width : ℕ) : BoxMap :=
    { ctrlRegister := ctrl, isPci := true, device := device, regWidth := width }

def sandybridgeEPTables : Tables where
  counterMap := sandybridgeEPCounterMap
  boxMap := sandybridgeEPBoxMap
  index_eq := index_eq_of_map (by decide +kernel)
  unit_row := by decide +kernel
  fixed_row := by decide +kernel
  fixed_private := by decide +kernel
  fixed_filter := by intro t; cases t <;> decide
  pmc_row := by decide +kernel
  pmc_private := by decide +kernel
  pmc_counter := by decide +kernel
  pmc_filter := by intro t; cases t <;> decide +kernel

/-! ## The client part -/

def sandybridgeCounterMap : List RegisterMap :=
  [⟨"FIXC0", 0, .fixed, msrPerfFixedCtrCtrl, 0x309, 0, msrDev, hasValidOptionsFixed⟩,
   ⟨"FIXC1", 1, .fixed, msrPerfFixedCtrCtrl, 0x30A, 0, msrDev, hasValidOptionsFixed⟩,
   ⟨"FIXC2", 2, .fixed, msrPerfFixedCtrCtrl, 0x30B, 0, msrDev, hasValidOptionsFixed⟩,
   ⟨"PMC0", 3, .pmc, 0x186, 0x0C1, 0, msrDev, snbValidOptionsPmc⟩,
   ⟨"PMC1", 4, .pmc, 0x187, 0x0C2, 0, msrDev, snbValidOptionsPmc⟩,
   ⟨"PMC2", 5, .pmc, 0x188, 0x0C3, 0, msrDev, snbValidOptionsPmc⟩,
   ⟨"PMC3", 6, .pmc, 0x189, 0x0C4, 0, msrDev, snbValidOptionsPmc⟩,
   ⟨"TMP0", 7, .thermal, 0, ia32ThermStatus, 0, msrDev, 0⟩,
   ⟨"PWR0", 8, .power, 0, msrPkgEnergyStatus, 0, msrDev, 0⟩,
   ⟨"PWR1", 9, .power, 0, msrPp0EnergyStatus, 0, msrDev, 0⟩,
   ⟨"PWR2", 10, .power, 0, msrPp1EnergyStatus, 0, msrDev, 0⟩,
   ⟨"PWR3", 11, .power, 0, msrDramEnergyStatus, 0, msrDev, 0⟩,
   ⟨"CBOX0C0", 12, .cbox0, 0x700, 0x706, 0, msrDev, hasValidOptionsBox⟩,
   ⟨"CBOX0C1", 13, .cbox0, 0x701, 0x707, 0, msrDev, hasValidOptionsBox⟩,
   ⟨"CBOX1C0", 14, .cbox1, 0x710, 0x716, 0, msrDev, hasValidOptionsBox⟩,
   ⟨"CBOX1C1", 15, .cbox1, 0x711, 0x717, 0, msrDev, hasValidOptionsBox⟩,
   ⟨"CBOX2C0", 16, .cbox2, 0x720, 0x726, 0, msrDev, hasValidOptionsBox⟩,
   ⟨"CBOX2C1", 17, .cbox2, 0x721, 0x727, 0, msrDev, hasValidOptionsBox⟩,
   ⟨"CBOX3C0", 18, .cbox3, 0x730, 0x736, 0, msrDev, hasValidOptionsBox⟩,
   ⟨"CBOX3C1", 19, .cbox3, 0x731, 0x737, 0, msrDev, hasValidOptionsBox⟩,
   ⟨"UBOX0", 20, .ubox, 0x3B2, 0x3B0, 0, msrDev, hasValidOptionsBox⟩,
   ⟨"UBOX1", 21, .ubox, 0x3B3, 0x3B1, 0, msrDev, hasValidOptionsBox⟩,
   ⟨"UBOXFIX", 22, .uboxfix, 0x394, 0x395, 0, msrDev, 0⟩]

def sandybridgeBoxMap : RegisterType → BoxMap
  | .pmc | .fixed =>
      { ctrlRegister := msrPerfGlobalCtrl
        statusRegister := msrPerfGlobalStatus
        ovflRegister := msrPerfGlobalOvfCtrl
        regWidth := 48 }
  | .thermal => { regWidth := 8 }
  | .power => { regWidth := 32 }
  | .cbox0 | .cbox1 | .cbox2 | .cbox3 => uncoreBox 3
  | .ubox => uncoreBox 1
  | .uboxfix => uncoreBox 0
  | _ => {}
where
  uncoreBox (offset : Int) : BoxMap :=
    { ctrlRegister := msrUncorePerfGlobalCtrl
      statusRegister := msrUncorePerfGlobalStatus
      ovflRegister := msrUncorePerfGlobalOvfCtrl
      ovflOffset := offset
      regWidth := 44 }

def sandybridgeTables : Tables where
  counterMap := sandybridgeCounterMap
  boxMap := sandybridgeBoxMap
  index_eq := index_eq_of_map (by decide +kernel)
  unit_row := by decide +kernel
  fixed_row := by decide +kernel
  fixed_private := by decide +kernel
  fixed_filter := by intro t; cases t <;> decide
  pmc_row := by decide +kernel
  pmc_private := by decide +kernel
  pmc_counter := by decide +kernel
  pmc_filter := by intro t; cases t <;> decide +kernel

end Likwid
