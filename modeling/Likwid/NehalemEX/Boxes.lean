import Likwid.Tables
import Mathlib.Algebra.GroupWithZero.Nat

/-!
# Nehalem EX: the tables and the counter boxes

`nehalemEX_counter_map`, `nehalemEX_box_map` and the `nex_*_setup` helpers of
`perfmon_nehalemEX.h`. The memory and the router boxes have registers of their own behind the
control registers: what an event counts in detail is written there, to the register and the field
its umask and configuration bits name.
-/

namespace Likwid

theorem neZero_two : NeZero (1 + 1) := ⟨by decide⟩

theorem neZero_four : NeZero (3 + 1) := ⟨by decide⟩

attribute [local instance] neZero_two neZero_four

/-! ## Tables -/

abbrev msrUPmonGlobalCtrl : ℕ := 0xC00
abbrev msrS0PmonMmCfg : ℕ := 0xE49
abbrev msrS1PmonMmCfg : ℕ := 0xE58

def nexValidOptionsPmc : Word := optionMaskOf [.edge, .invert, .countKernel, .threshold]

/-- `NEX_VALID_OPTIONS_MBOX` and `NEX_VALID_OPTIONS_BBOX` -/
def nexValidOptionsMatch : Word := optionMaskOf [.match0, .mask0]

def nehalemEXCounterMap : List RegisterMap :=
  [⟨"FIXC0", 0, .fixed, msrPerfFixedCtrCtrl, 0x309, 0, msrDev, hasValidOptionsFixed⟩,
   ⟨"FIXC1", 1, .fixed, msrPerfFixedCtrCtrl, 0x30A, 0, msrDev, hasValidOptionsFixed⟩,
   ⟨"FIXC2", 2, .fixed, msrPerfFixedCtrCtrl, 0x30B, 0, msrDev, hasValidOptionsFixed⟩,
   ⟨"PMC0", 3, .pmc, 0x186, 0x0C1, 0, msrDev, nexValidOptionsPmc⟩,
   ⟨"PMC1", 4, .pmc, 0x187, 0x0C2, 0, msrDev, nexValidOptionsPmc⟩,
   ⟨"PMC2", 5, .pmc, 0x188, 0x0C3, 0, msrDev, nexValidOptionsPmc⟩,
   ⟨"PMC3", 6, .pmc, 0x189, 0x0C4, 0, msrDev, nexValidOptionsPmc⟩,
   ⟨"MBOX0C0", 7, .mbox0, 0xCB0, 0xCB1, 0, msrDev, nexValidOptionsMatch⟩,
   ⟨"MBOX0C1", 8, .mbox0, 0xCB2, 0xCB3, 0, msrDev, nexValidOptionsMatch⟩,
   ⟨"MBOX0C2", 9, .mbox0, 0xCB4, 0xCB5, 0, msrDev, nexValidOptionsMatch⟩,
   ⟨"MBOX0C3", 10, .mbox0, 0xCB6, 0xCB7, 0, msrDev, nexValidOptionsMatch⟩,
   ⟨"MBOX0C4", 11, .mbox0, 0xCB8, 0xCB9, 0, msrDev, nexValidOptionsMatch⟩,
   ⟨"MBOX0C5", 12, .mbox0, 0xCBA, 0xCBB, 0, msrDev, nexValidOptionsMatch⟩,
   ⟨"MBOX1C0", 13, .mbox1, 0xCF0, 0xCF1, 0, msrDev, nexValidOptionsMatch⟩,
   ⟨"MBOX1C1", 14, .mbox1, 0xCF2, 0xCF3, 0, msrDev, nexValidOptionsMatch⟩,
   ⟨"MBOX1C2", 15, .mbox1, 0xCF4, 0xCF5, 0, msrDev, nexValidOptionsMatch⟩,
   ⟨"MBOX1C3", 16, .mbox1, 0xCF6, 0xCB7, 0, msrDev, nexValidOptionsMatch⟩,
   ⟨"MBOX1C4", 17, .mbox1, 0xCF8, 0xCF9, 0, msrDev, nexValidOptionsMatch⟩,
   ⟨"MBOX1C5", 18, .mbox1, 0xCFA, 0xCFB, 0, msrDev, nexValidOptionsMatch⟩,
   ⟨"BBOX0C0", 19, .bbox0, 0xC30, 0xC31, 0, msrDev, nexValidOptionsMatch⟩,
   ⟨"BBOX0C1", 20, .bbox0, 0xC32, 0xC33, 0, msrDev, nexValidOptionsMatch⟩,
   ⟨"BBOX0C2", 21, .bbox0, 0xC34, 0xC35, 0, msrDev, nexValidOptionsMatch⟩,
   ⟨"BBOX0C3", 22, .bbox0, 0xC36, 0xC37, 0, msrDev, nexValidOptionsMatch⟩,
   ⟨"BBOX1C0", 23, .bbox1, 0xC70, 0xC71, 0, msrDev, nexValidOptionsMatch⟩,
   ⟨"BBOX1C1", 24, .bbox1, 0xC72, 0xC73, 0, msrDev, nexValidOptionsMatch⟩,
   ⟨"BBOX1C2", 25, .bbox1, 0xC74, 0xC75, 0, msrDev, nexValidOptionsMatch⟩,
   ⟨"BBOX1C3", 26, .bbox1, 0xC76, 0xC77, 0, msrDev, nexValidOptionsMatch⟩,
   ⟨"RBOX0C0", 27, .rbox0, 0xE10, 0xE11, 0, msrDev, 0⟩,
   ⟨"RBOX0C1", 28, .rbox0, 0xE12, 0xE13, 0, msrDev, 0⟩,
   ⟨"RBOX0C2", 29, .rbox0, 0xE14, 0xE15, 0, msrDev, 0⟩,
   ⟨"RBOX0C3", 30, .rbox0, 0xE16, 0xE17, 0, msrDev, 0⟩,
   ⟨"RBOX0C4", 31, .rbox0, 0xE18, 0xE19, 0, msrDev, 0⟩,
   ⟨"RBOX0C5", 32, .rbox0, 0xE1A, 0xE1B, 0, msrDev, 0⟩,
   ⟨"RBOX0C6", 33, .rbox0, 0xE1C, 0xE1D, 0, msrDev, 0⟩,
   ⟨"RBOX0C7", 34, .rbox0, 0xE1E, 0xE1F, 0, msrDev, 0⟩,
   ⟨"RBOX1C0", 35, .rbox1, 0xE30, 0xE31, 0, msrDev, 0⟩,
   ⟨"RBOX1C1", 36, .rbox1, 0xE32, 0xE33, 0, msrDev, 0⟩,
   ⟨"RBOX1C2", 37, .rbox1, 0xE34, 0xE35, 0, msrDev, 0⟩,
   ⟨"RBOX1C3", 38, .rbox1, 0xE36, 0xE37, 0, msrDev, 0⟩,
   ⟨"RBOX1C4", 39, .rbox1, 0xE38, 0xE39, 0, msrDev, 0⟩,
   ⟨"RBOX1C5", 40, .rbox1, 0xE3A, 0xE3B, 0, msrDev, 0⟩,
   ⟨"RBOX1C6", 41, .rbox1, 0xE3C, 0xE3D, 0, msrDev, 0⟩,
   ⟨"RBOX1C7", 42, .rbox1, 0xE3E, 0xE3F, 0, msrDev, 0⟩,
   ⟨"WBOX0", 43, .wbox, 0xC90, 0xC91, 0, msrDev, hasValidOptionsBox⟩,
   ⟨"WBOX1", 44, .wbox, 0xC92, 0xC93, 0, msrDev, hasValidOptionsBox⟩,
   ⟨"WBOX2", 45, .wbox, 0xC94, 0xC95, 0, msrDev, hasValidOptionsBox⟩,
   ⟨"WBOX3", 46, .wbox, 0xC96, 0xC97, 0, msrDev, hasValidOptionsBox⟩,
   ⟨"WBOXFIX", 47, .wbox0fix, 0x395, 0x394, 0, msrDev, 0⟩,
   ⟨"UBOX0", 48, .ubox, 0xC10, 0xC11, 0, msrDev, optionsTypeMask .edge⟩,
   ⟨"CBOX0C0", 49, .cbox0, 0xD10, 0xD11, 0, msrDev, hasValidOptionsBox⟩,
   ⟨"CBOX0C1", 50, .cbox0, 0xD12, 0xD13, 0, msrDev, hasValidOptionsBox⟩,
   ⟨"CBOX0C2", 51, .cbox0, 0xD14, 0xD15, 0, msrDev, hasValidOptionsBox⟩,
   ⟨"CBOX0C3", 52, .cbox0, 0xD16, 0xD17, 0, msrDev, hasValidOptionsBox⟩,
   ⟨"CBOX0C4", 53, .cbox0, 0xD18, 0xD19, 0, msrDev, hasValidOptionsBox⟩,
   ⟨"CBOX0C5", 54, .cbox0, 0xD1A, 0xD1B, 0, msrDev, hasValidOptionsBox⟩,
   ⟨"CBOX1C0", 55, .cbox1, 0xD90, 0xD91, 0, msrDev, hasValidOptionsBox⟩,
   ⟨"CBOX1C1", 56, .cbox1, 0xD92, 0xD93, 0, msrDev, hasValidOptionsBox⟩,
   ⟨"CBOX1C2", 57, .cbox1, 0xD94, 0xD95, 0, msrDev, hasValidOptionsBox⟩,
   ⟨"CBOX1C3", 58, .cbox1, 0xD96, 0xD97, 0, msrDev, hasValidOptionsBox⟩,
   ⟨"CBOX1C4", 59, .cbox1, 0xD98, 0xD99, 0, msrDev, hasValidOptionsBox⟩,
   ⟨"CBOX1C5", 60, .cbox1, 0xD9A, 0xD9B, 0, msrDev, hasValidOptionsBox⟩,
   ⟨"CBOX2C0", 61, .cbox2, 0xD50, 0xD51, 0, msrDev, hasValidOptionsBox⟩,
   ⟨"CBOX2C1", 62, .cbox2, 0xD52, 0xD53, 0, msrDev, hasValidOptionsBox⟩,
   ⟨"CBOX2C2", 63, .cbox2, 0xD54, 0xD55, 0, msrDev, hasValidOptionsBox⟩,
   ⟨"CBOX2C3", 64, .cbox2, 0xD56, 0xD57, 0, msrDev, hasValidOptionsBox⟩,
   ⟨"CBOX2C4", 65, .cbox2, 0xD58, 0xD59, 0, msrDev, hasValidOptionsBox⟩,
   ⟨"CBOX2C5", 66, .cbox2, 0xD5A, 0xD5B, 0, msrDev, hasValidOptionsBox⟩,
   ⟨"CBOX3C0", 67, .cbox3, 0xDD0, 0xDD1, 0, msrDev, hasValidOptionsBox⟩,
   ⟨"CBOX3C1", 68, .cbox3, 0xDD2, 0xDD3, 0, msrDev, hasValidOptionsBox⟩,
   ⟨"CBOX3C2", 69, .cbox3, 0xDD4, 0xDD5, 0, msrDev, hasValidOptionsBox⟩,
   ⟨"CBOX3C3", 70, .cbox3, 0xDD6, 0xDD7, 0, msrDev, hasValidOptionsBox⟩,
   ⟨"CBOX3C4", 71, .cbox3, 0xDD8, 0xDD9, 0, msrDev, hasValidOptionsBox⟩,
   ⟨"CBOX3C5", 72, .cbox3, 0xDDA, 0xDDB, 0, msrDev, hasValidOptionsBox⟩,
   ⟨"CBOX4C0", 73, .cbox4, 0xD30, 0xD31, 0, msrDev, hasValidOptionsBox⟩,
   ⟨"CBOX4C1", 74, .cbox4, 0xD32, 0xD33, 0, msrDev, hasValidOptionsBox⟩,
   ⟨"CBOX4C2", 75, .cbox4, 0xD34, 0xD35, 0, msrDev, hasValidOptionsBox⟩,
   ⟨"CBOX4C3", 76, .cbox4, 0xD36, 0xD37, 0, msrDev, hasValidOptionsBox⟩,
   ⟨"CBOX4C4", 77, .cbox4, 0xD38, 0xD39, 0, msrDev, hasValidOptionsBox⟩,
   ⟨"CBOX4C5", 78, .cbox4, 0xD3A, 0xD3B, 0, msrDev, hasValidOptionsBox⟩,
   ⟨"CBOX5C0", 79, .cbox5, 0xDB0, 0xDB1, 0, msrDev, hasValidOptionsBox⟩,
   ⟨"CBOX5C1", 80, .cbox5, 0xDB2, 0xDB3, 0, msrDev, hasValidOptionsBox⟩,
   ⟨"CBOX5C2", 81, .cbox5, 0xDB4, 0xDB5, 0, msrDev, hasValidOptionsBox⟩,
   ⟨"CBOX5C3", 82, .cbox5, 0xDB6, 0xDB7, 0, msrDev, hasValidOptionsBox⟩,
   ⟨"CBOX5C4", 83, .cbox5, 0xDB8, 0xDB9, 0, msrDev, hasValidOptionsBox⟩,
   ⟨"CBOX5C5", 84, .cbox5, 0xDBA, 0xDBB, 0, msrDev, hasValidOptionsBox⟩,
   ⟨"CBOX6C0", 85, .cbox6, 0xD70, 0xD71, 0, msrDev, hasValidOptionsBox⟩,
   ⟨"CBOX6C1", 86, .cbox6, 0xD72, 0xD73, 0, msrDev, hasValidOptionsBox⟩,
   ⟨"CBOX6C2", 87, .cbox6, 0xD74, 0xD75, 0, msrDev, hasValidOptionsBox⟩,
   ⟨"CBOX6C3", 88, .cbox6, 0xD76, 0xD77, 0, msrDev, hasValidOptionsBox⟩,
   ⟨"CBOX6C4", 89, .cbox6, 0xD78, 0xD79, 0, msrDev, hasValidOptionsBox⟩,
   ⟨"CBOX6C4", 90, .cbox6, 0xD7A, 0xD7B, 0, msrDev, hasValidOptionsBox⟩,
   ⟨"CBOX7C0", 91, .cbox7, 0xDF0, 0xDF1, 0, msrDev, hasValidOptionsBox⟩,
   ⟨"CBOX7C1", 92, .cbox7, 0xDF2, 0xDF3, 0, msrDev, hasValidOptionsBox⟩,
   ⟨"CBOX7C2", 93, .cbox7, 0xDF4, 0xDF5, 0, msrDev, hasValidOptionsBox⟩,
   ⟨"CBOX7C3", 94, .cbox7, 0xDF6, 0xDF7, 0, msrDev, hasValidOptionsBox⟩,
   ⟨"CBOX7C4", 95, .cbox7, 0xDF8, 0xDF9, 0, msrDev, hasValidOptionsBox⟩,
   ⟨"CBOX7C5", 96, .cbox7, 0xDFA, 0xDFB, 0, msrDev, hasValidOptionsBox⟩,
   ⟨"SBOX0C0", 97, .sbox0, 0xC50, 0xC51, 0, msrDev, hasValidOptionsBox⟩,
   ⟨"SBOX0C1", 98, .sbox0, 0xC52, 0xC53, 0, msrDev, hasValidOptionsBox⟩,
   ⟨"SBOX0C2", 99, .sbox0, 0xC54, 0xC55, 0, msrDev, hasValidOptionsBox⟩,
   ⟨"SBOX0C3", 100, .sbox0, 0xC56, 0xC57, 0, msrDev, hasValidOptionsBox⟩,
   ⟨"SBOX1C0", 101, .sbox1, 0xCD0, 0xCD1, 0, msrDev, hasValidOptionsBox⟩,
   ⟨"SBOX1C1", 102, .sbox1, 0xCD2, 0xCD3, 0, msrDev, hasValidOptionsBox⟩,
   ⟨"SBOX1C2", 103, .sbox1, 0xCD4, 0xCD5, 0, msrDev, hasValidOptionsBox⟩,
   ⟨"SBOX1C3", 104, .sbox1, 0xCD6, 0xCD7, 0, msrDev, hasValidOptionsBox⟩]

def nehalemEXBoxMap : RegisterType → BoxMap
  | .pmc | .fixed => uncoreBox msrPerfGlobalCtrl msrPerfGlobalStatus msrPerfGlobalOvfCtrl 0 0
  | .mbox0 => uncoreBox 0xCA0 0xCA1 0xCA2 0xE55 0xE56
  | .mbox1 => uncoreBox 0xCE0 0xCE1 0xCE2 0xE5D 0xE5E
  | .bbox0 => uncoreBox 0xC20 0xC21 0xC22 0xE45 0xE46
  | .bbox1 => uncoreBox 0xC60 0xC61 0xC62 0xE4D 0xE4E
  | .rbox0 => uncoreBox 0xE00 0xE01 0xE02 0 0
  | .rbox1 => uncoreBox 0xE20 0xE21 0xE22 0 0
  | .sbox0 => uncoreBox 0xC40 0xC41 0xC42 0xE49 0xE4A
  | .sbox1 => uncoreBox 0xCC0 0xCC1 0xCC2 0xE59 0xE5A
  | .cbox0 => uncoreBox 0xD00 0xD01 0xD02 0 0
  | .cbox1 => uncoreBox 0xD80 0xD81 0xD82 0 0
  | .cbox2 => uncoreBox 0xD40 0xD41 0xD42 0 0
  | .cbox3 => uncoreBox 0xDC0 0xDC1 0xDC2 0 0
  | .cbox4 => uncoreBox 0xD20 0xD21 0xD22 0 0
  | .cbox5 => uncoreBox 0xDA0 0xDA1 0xDA2 0 0
  | .cbox6 => uncoreBox 0xD60 0xD61 0xD62 0 0
  | .cbox7 => uncoreBox 0xDE0 0xDE1 0xDE2 0 0
  | .wbox | .wbox0fix => uncoreBox 0xC80 0xC81 0xC82 0 0
  | .ubox => uncoreBox msrUPmonGlobalCtrl 0xC01 0xC02 0 0
  | _ => {}
where
  /-- A row of the table: every box has 48 bits and is one of model specific registers. -/
  uncoreBox (ctrl status ovfl filter1 filter2 : ℕ) : BoxMap :=
    { ctrlRegister := ctrl
      statusRegister := status
      ovflRegister := ovfl
      regWidth := 48
      filterRegister1 := filter1
      filterRegister2 := filter2 }

def nehalemEXTables : Tables where
  counterMap := nehalemEXCounterMap
  boxMap := nehalemEXBoxMap
  index_eq := index_eq_of_map (by decide +kernel)
  unit_row := by decide +kernel
  fixed_row := by decide +kernel
  fixed_private := by decide +kernel
  fixed_filter := by intro t; cases t <;> decide
  pmc_row := by decide +kernel
  pmc_private := by decide +kernel
  pmc_counter := by decide +kernel
  pmc_filter := by intro t; cases t <;> decide +kernel

/-! ## Core counters -/

variable (M : Machine)

def nexFixedSetup (cpu : ℕ) (index : RegisterIndex) (event : PerfmonEvent) :
    Prog Int Core (BitVec 32) :=
  fixedSetup cpu index event

/-- No event is both `0xB7` and `0xBB`: the test of the event is always true. -/
def nexPmcFlags (event : PerfmonEvent) : Word :=
  let flags := (bit 22 ||| bit 16) ||| eventBits event
  let flags :=
    if event.cfgBits ≠ 0 ∧ (event.eventId ≠ 0xB7 ∨ event.eventId ≠ 0xBB) then
      flags ||| cfgFlags event
    else flags
  event.optionList.foldl
    (fun flags option =>
      match option.type with
      | .countKernel => flags ||| bit 17
      | _ => boxOption 0xFF flags option)
    flags

def nexOffcoreOptions (event : PerfmonEvent) : Word :=
  event.optionList.foldl
    (fun flags option =>
      match option.type with
      | .match0 => flags ||| (option.value &&& 0xFF)
      | .match1 => flags ||| ((option.value &&& 0xF7) <<< 8)
      | _ => flags)
    0

def nexPmcSetup (cpu : ℕ) (index : RegisterIndex) (event : PerfmonEvent) :
    Prog Int Core Unit := do
  Prog.when (event.eventId = 0xB7) do
    let flags ← offcoreFlags event (nexOffcoreOptions event)
    checkWrite M cpu msrDev msrOffcoreResp0 flags
  writeConfig M cpu index (nexPmcFlags event)

/-! ## Memory boxes -/

/-- `enum nex_wex_mbox_reg_ids` -/
inductive MboxReg where
  | addrMatch | addrMask | zdp | dsp | iss | pgt | map | pld | thr
deriving DecidableEq, Repr

/-- `nex_wex_mbox_regs` -/
def nexWexMboxRegs (number : Fin 2) : MboxReg → ℕ
  | .addrMatch => if number = 0 then 0xE55 else 0xE5D
  | .addrMask => if number = 0 then 0xE56 else 0xE5E
  | .zdp => if number = 0 then 0xCAB else 0xCEB
  | .dsp => if number = 0 then 0xCA5 else 0xCE5
  | .iss => if number = 0 then 0xCA6 else 0xCE6
  | .pgt => if number = 0 then 0xCA9 else 0xCE9
  | .map => if number = 0 then 0xCA7 else 0xCE7
  | .pld => if number = 0 then 0xCAA else 0xCEA
  | .thr => if number = 0 then 0xCA8 else 0xCE8

/-- The low `width` bits of the umask, at `shift` -/
def umaskField (event : PerfmonEvent) (width : Word) (shift : ℕ) : Word :=
  (event.umask.setWidth 64 &&& width) <<< shift

/-- The flags of the control register, by the set of events that `cfgBits` names -/
def nexMboxFlags (event : PerfmonEvent) : Word :=
  let id := event.eventId.setWidth 64
  if event.cfgBits = 0x01 then (0x41 ||| bit 7) ||| ((id &&& 0x7) <<< 19)
  else if event.cfgBits ≤ 0x0E then 0x41 ||| ((id &&& 0x1F) <<< 9)
  else 0x41

/-- One option of an event that may match addresses -/
def nexMboxOption (cpu : ℕ) (number : Fin 2) (option : PerfmonEventOption) :
    Prog Int Core Unit :=
  match option.type with
  | .match0 =>
      checkWrite M cpu msrDev (nexWexMboxRegs number .addrMatch) (option.value &&& 0x3FFFFFFFF)
  | .mask0 =>
      checkWrite M cpu msrDev (nexWexMboxRegs number .addrMask)
        ((option.value &&& 0x1FFFFFFC0) >>> 6)
  | _ => pure ()

/-- What the umask sets in the register of the fill data: the threshold goes to one of two
fields. -/
def nexMboxZdp (event : PerfmonEvent) (shift : ℕ) : Word :=
  umaskField event 0x7 shift |||
    if event.umask = 0x5 then (event.cmask &&& 0x7) <<< 6 else (event.cmask &&& 0x7) <<< 9

/-- The threshold register: bit 3 stands for no threshold. -/
def nexMboxThr (cpu : ℕ) (number : Fin 2) (event : PerfmonEvent) (shift : ℕ) :
    Prog Int Core Unit := do
  let subflags ← checkRead M cpu msrDev (nexWexMboxRegs number .thr)
  let subflags := subflags ||| umaskField event 0x3 shift
  checkWrite M cpu msrDev (nexWexMboxRegs number .thr)
    (if event.cmask = 0 then subflags ||| bit 3
      else (subflags &&& ~~~bit 3) ||| ((event.cmask &&& 0x7) <<< 4))

/-- The register of the page policy and that of the scheduler, for one set of events -/
def nexMboxPldIss (cpu : ℕ) (number : Fin 2) (event : PerfmonEvent) : Prog Int Core Unit := do
  let subflags1 ← checkRead M cpu msrDev (nexWexMboxRegs number .pld)
  let subflags2 ← checkRead M cpu msrDev (nexWexMboxRegs number .iss)
  checkWrite M cpu msrDev (nexWexMboxRegs number .pld)
    ((subflags1 ||| umaskField event 0x1F 8) ||| if event.cmask &&& 0xF0 ≠ 0 then bit 0 else 0)
  checkWrite M cpu msrDev (nexWexMboxRegs number .iss)
    (subflags2 ||| if event.cmask &&& 0xF ≠ 0 then (event.cmask &&& 0x7) <<< 7 else 0)

/-- The cases of the switch on `cfgBits` that set bits in one register -/
def nexMboxBits (event : PerfmonEvent) : Option (MboxReg × Word) :=
  match event.cfgBits.toNat with
  | 0x01 =>
      match event.eventId.toNat with
      | 0x00 => some (.dsp, umaskField event 0xF 7)
      | 0x01 => some (.iss, umaskField event 0x7 4)
      | 0x05 => some (.pgt, umaskField event 0x1 6)
      | 0x06 => some (.map, umaskField event 0x7 6)
      | _ => none
  | 0x03 => some (.dsp, umaskField event 0xF 7)
  | 0x04 =>
      some (.pld,
        if event.cmask = 0x0 then bit 16 ||| umaskField event 0x1F 19
        else if event.cmask = 0x1 then umaskField event 0x1 18
        else if event.cmask = 0x2 then umaskField event 0x1 17
        else if event.cmask = 0x3 then umaskField event 0x1 7
        else 0)
  | 0x05 => some (.iss, umaskField event 0xF 0)
  | 0x06 => some (.zdp, nexMboxZdp event 12)
  | 0x07 => some (.zdp, nexMboxZdp event 15)
  | 0x08 => some (.zdp, nexMboxZdp event 18)
  | 0x09 => some (.zdp, nexMboxZdp event 21)
  | 0x0A => some (.iss, umaskField event 0x1 10)
  | 0x0B => some (.pgt, umaskField event 0x1 0)
  | 0x0C => some (.pgt, umaskField event 0x1 11)
  | _ => none

/-- The switch on `cfgBits`, as far as it reads and writes registers -/
def nexMboxSub (cpu : ℕ) (number : Fin 2) (event : PerfmonEvent) : Prog Int Core Unit :=
  if event.cfgBits = 0x02 then nexMboxPldIss M cpu number event
  else if event.cfgBits = 0x0D then nexMboxThr M cpu number event 9
  else if event.cfgBits = 0x0E then nexMboxThr M cpu number event 7
  else match nexMboxBits event with
    | some (reg, bits) => orFilter M cpu (nexWexMboxRegs number reg) bits
    | none => pure ()

def nexMboxSetup (cpu : ℕ) (index : RegisterIndex) (event : PerfmonEvent) :
    Prog Int Core Unit := do
  requireLock M cpu
  let row ← counterMap M index
  let number : Fin 2 :=
    if row.configRegister &&& 0xFF0 = 0xCA0 ∨ row.configRegister &&& 0xFF0 = 0xCB0 then 0 else 1
  Prog.when (event.cfgBits = 0x02 ∨ event.cfgBits = 0x04)
    (event.optionList.foldlM (fun _ option => nexMboxOption M cpu number option) ())
  nexMboxSub M cpu number event
  writeConfig M cpu index (nexMboxFlags event)

/-! ## Router boxes -/

/-- `enum nex_wex_rbox_reg_type` -/
inductive RboxRegType where
  | iperf0 | iperf1 | qlx
deriving DecidableEq, Repr

/-- `nex_wex_rbox_regs` -/
def nexWexRboxRegs (number : Fin 2) (type : RboxRegType) (port : Fin 4) : ℕ :=
  match type with
  | .iperf0 => (if number = 0 then 0xE04 else 0xE08) + port
  | .iperf1 => (if number = 0 then 0xE24 else 0xE28) + port
  | .qlx => (if number = 0 then 0xE0C else 0xE2C) + port

/-- The number of the box; for a register of no box the variable stays without a value. -/
def rboxNumber (configRegister : ℕ) : Option (Fin 2) :=
  if configRegister &&& 0xFF0 = 0xE10 then some 0
  else if configRegister &&& 0xFF0 = 0xE30 then some 1
  else none

/-- The performance event register and port of an event with number 0 -/
def rboxIperf (umask : BitVec 8) : Option (RboxRegType × Fin 4) :=
  match umask.toNat with
  | 0x00 => some (.iperf0, 0)
  | 0x01 => some (.iperf1, 0)
  | 0x06 => some (.iperf0, 1)
  | 0x07 => some (.iperf1, 1)
  | 0x0C => some (.iperf0, 2)
  | 0x0D => some (.iperf1, 2)
  | 0x12 => some (.iperf0, 3)
  | 0x13 => some (.iperf1, 3)
  | _ => none

/-- The port and sub-counter of an event with number 1 -/
def rboxQlx (umask : BitVec 8) : Option (Fin 4 × Fin 2) :=
  match umask.toNat with
  | 0x02 => some (0, 0)
  | 0x03 => some (0, 1)
  | 0x08 => some (1, 0)
  | 0x09 => some (1, 1)
  | 0x0E => some (2, 0)
  | 0x0F => some (2, 1)
  | 0x14 => some (3, 0)
  | 0x15 => some (3, 1)
  | _ => none

/-- `event->cfgBits<<event->cmask`, an `int` -/
def rboxIperfMask (event : PerfmonEvent) : Word :=
  (shiftLeft32 (event.cfgBits.setWidth 32) event.cmask.toNat).signExtend 64

def rboxQlxConfig (event : PerfmonEvent) : Word :=
  (event.cfgBits.setWidth 64 &&& 0xF) |||
    if event.cmask ≠ 0 then (event.cmask &&& 0xF) <<< 4 else 0

/-- What an event writes behind its control register: a register type, a port and a value -/
def rboxSub (event : PerfmonEvent) : Option (RboxRegType × Fin 4 × Word) :=
  if event.eventId = 0x00 then
    (rboxIperf event.umask).map fun p => (p.1, p.2, rboxIperfMask event)
  else if event.eventId = 0x01 then
    (rboxQlx event.umask).map fun (p : Fin 4 × Fin 2) =>
      (.qlx, p.1, if p.2 = 0 then rboxQlxConfig event else rboxQlxConfig event <<< 8)
  else none

def rboxFlags (event : PerfmonEvent) : Word :=
  if event.eventId = 0x00 ∨ event.eventId = 0x01 then 1 ||| umaskField event 0x1F 1 else 1

/-- The writes of the switch on `eventId` -/
def nexRboxSub (cpu : ℕ) (row : RegisterMap) (event : PerfmonEvent) : Prog Int Core Unit :=
  match rboxSub event with
  | some (type, port, subflags) => do
      let number ← Prog.orUndefined (rboxNumber row.configRegister)
      checkWrite M cpu msrDev (nexWexRboxRegs number type port) subflags
  | none => pure ()

def nexRboxSetup (cpu : ℕ) (index : RegisterIndex) (event : PerfmonEvent) :
    Prog Int Core Unit := do
  requireLock M cpu
  let row ← counterMap M index
  nexRboxSub M cpu row event
  writeConfig M cpu index (rboxFlags event)

/-! ## The other boxes -/

def nexBboxOption (cpu : ℕ) (box : BoxMap) (option : PerfmonEventOption) : Prog Int Core Unit :=
  match option.type with
  | .match0 => checkWrite M cpu msrDev box.filterRegister1 (option.value &&& 0xFFFFFFFFFFFFFFF)
  | .mask0 => checkWrite M cpu msrDev box.filterRegister2 (option.value &&& 0xFFFFFFFFFFFFFFF)
  | _ => pure ()

def nexBboxSetup (cpu : ℕ) (index : RegisterIndex) (event : PerfmonEvent) :
    Prog Int Core Unit := do
  let row ← counterMap M index
  requireLock M cpu
  event.optionList.foldlM (fun _ option => nexBboxOption M cpu (M.boxMap row.type) option) ()
  writeConfig M cpu index (1 ||| (event.eventId.setWidth 64 <<< 1))

def nexCboxSetup (cpu : ℕ) (index : RegisterIndex) (event : PerfmonEvent) :
    Prog Int Core Unit := do
  requireLock M cpu
  writeConfig M cpu index (event.optionList.foldl (boxOption 0x1F) (bit 22 ||| eventBits event))

def nexWboxSetup (cpu : ℕ) (index : RegisterIndex) (event : PerfmonEvent) :
    Prog Int Core Unit := do
  requireLock M cpu
  writeConfig M cpu index (event.optionList.foldl (boxOption 0xFF) (bit 22 ||| eventBits event))

/-- The match and mask options of the event with number 0 -/
def nexSboxOption (cpu : ℕ) (box : BoxMap) (event : PerfmonEvent) (option : PerfmonEventOption) :
    Prog Int Core Unit :=
  match option.type with
  | .match0 =>
      Prog.when (event.eventId = 0) (checkWrite M cpu msrDev box.filterRegister1 option.value)
  | .mask0 =>
      Prog.when (event.eventId = 0) (checkWrite M cpu msrDev box.filterRegister2 option.value)
  | _ => pure ()

/-- `match_mask` -/
def nexSboxMatches (event : PerfmonEvent) : Prop :=
  event.eventId = 0 ∧ ∃ o ∈ event.optionList, o.type = .match0 ∨ o.type = .mask0

instance (event : PerfmonEvent) : Decidable (nexSboxMatches event) :=
  inferInstanceAs (Decidable (_ ∧ _))

def nexSboxSetup (cpu : ℕ) (index : RegisterIndex) (event : PerfmonEvent) :
    Prog Int Core Unit := do
  let row ← counterMap M index
  let mmCfg := if row.type = .sbox0 then msrS0PmonMmCfg else msrS1PmonMmCfg
  requireLock M cpu
  Prog.when (nexSboxMatches event) (checkWrite M cpu msrDev mmCfg 0)
  event.optionList.foldlM (fun _ option => nexSboxOption M cpu (M.boxMap row.type) event option) ()
  Prog.when (nexSboxMatches event) (checkWrite M cpu msrDev mmCfg (bit 63))
  writeConfig M cpu index (event.optionList.foldl (boxOption 0xFF) (bit 22 ||| eventBits event))

end Likwid
