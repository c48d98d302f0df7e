import Likwid.Lib.Pieces
import Likwid.ReadStop
import Likwid.SandyBridge.Kept

/-!
# Sandy Bridge: the freeze of the boxes

On the server part every box is frozen and unfrozen by itself, through a control register of its
own. A set-up, a read and a stop freeze the boxes of their set, a start and a read unfreeze them.
`SNB_FREEZE_PCI_BOX` asks for a device that is not there, and a stop leaves the fixed counters of
the memory channels out: such a box is frozen only where it is frozen already (`boxesFrozen_iff`).
-/

namespace Likwid

/-! ## Boxes with a control register -/

/-- A box among the model specific registers, one that is a PCI device, or the fixed counter of a
memory channel, which its own control register switches -/
inductive SnbControlBox where
  | msr (id : RegisterType)
  | pci (id : RegisterType)
  | mboxfix (id : RegisterType) (channel : PciDeviceIndex)
deriving DecidableEq, Repr

def snbControlBoxes : List SnbControlBox :=
  [.msr .cbox0, .msr .cbox1, .msr .cbox2, .msr .cbox3, .msr .cbox4, .msr .cbox5, .msr .cbox6,
   .msr .cbox7, .pci .mbox0, .pci .mbox1, .pci .mbox2, .pci .mbox3,
   .mboxfix .mbox0fix pciImcDevice0Ch0, .mboxfix .mbox1fix pciImcDevice0Ch1,
   .mboxfix .mbox2fix pciImcDevice0Ch2, .mboxfix .mbox3fix pciImcDevice0Ch3,
   .pci .sbox0, .pci .sbox1, .pci .rbox0, .pci .rbox1, .pci .pbox, .pci .bbox0, .msr .wbox]

namespace SnbControlBox

def unit : SnbControlBox → RegisterType
  | .msr id | .pci id | .mboxfix id _ => id

def device (T : Tables) : SnbControlBox → PciDeviceIndex
  | .msr _ => msrDev
  | .pci id => (T.boxMap id).device
  | .mboxfix _ channel => channel

def register (T : Tables) : SnbControlBox → ℕ
  | .msr id | .pci id => (T.boxMap id).ctrlRegister
  | .mboxfix _ _ => pciUncMcPmonFixedCtl

/-- What the control register must hold: bits 8 and 16 to freeze, and for a fixed counter, bit 22 to
let it count -/
def Freezes (v : Word) : SnbControlBox → Prop
  | .msr _ | .pci _ => v.getLsbD 8 = true ∧ v.getLsbD 16 = true
  | .mboxfix _ _ => v.getLsbD 22 = false

instance (v : Word) (x : SnbControlBox) : Decidable (x.Freezes v) :=
  match x with
  | .msr _ | .pci _ => inferInstanceAs (Decidable (v.getLsbD 8 = true ∧ v.getLsbD 16 = true))
  | .mboxfix _ _ => inferInstanceAs (Decidable (v.getLsbD 22 = false))

/-- The box has no PCI device, or the device is there. -/
def Present (M : Machine) (cpu : ℕ) (x : SnbControlBox) : Prop :=
  x.device M.toTables = msrDev ∨ M.accessCheck (x.device M.toTables) cpu ≠ 0

def content (M : Machine) (cpu : ℕ) (c : Core) (x : SnbControlBox) : Word :=
  c.regs (regOwner M cpu (x.device M.toTables)) (x.device M.toTables) (x.register M.toTables)

def Frozen (M : Machine) (cpu : ℕ) (c : Core) (x : SnbControlBox) : Prop :=
  x.Freezes (x.content M cpu c)

end SnbControlBox

/-! ## Pieces of the routines -/

/-- A piece of a routine of the thread that holds the socket lock -/
inductive SnbPiece where
  | freeze (mask : BitVec 128)
  | freezeStop (mask : BitVec 128)
  | unfreeze (mask : BitVec 128)
  | unfreezeStart (mask : BitVec 128)
  | setupCore (mask : BitVec 128)
  | setupLoop (mask : BitVec 128) (numberOfEvents : ℕ)
  | startLoop (mask : BitVec 128) (numberOfEvents : ℕ)
  | startCore (mask : BitVec 128) (flags : Word)
  | readCore (mask : BitVec 128)
  | readLoop (mask : BitVec 128) (numberOfEvents : ℕ)
  | readResume (mask : BitVec 128) (flags : Word)
  | stopCore (mask : BitVec 128)
  | stopLoop (mask : BitVec 128) (numberOfEvents : ℕ)

section Routines

variable (M : Machine) (cbox : Option SandyCboxSetup) (numberOfNumaDomains thread cpu : ℕ)

/-- The macros of a list, one after the other -/
def snbMacros (mask : BitVec 128) (boxes : List BoxWrite) : Prog Int Core Unit :=
  boxes.foldlM (fun _ b => b.run M cpu mask true) ()

def SnbPiece.prog : SnbPiece → Prog Int (Core × List Slot) Unit
  | .freeze mask => Prog.onFst (snbMacros M cpu mask (snbFreezeList M))
  | .freezeStop mask => Prog.onFst (snbMacros M cpu mask (snbStopList M))
  | .unfreeze mask => Prog.onFst (snbMacros M cpu mask (snbUnfreezeList M))
  | .unfreezeStart mask => Prog.onFst (snbMacros M cpu mask (snbStartList M))
  | .setupCore mask => Prog.onFst (Prog.when (hasCore mask) do
      checkWrite M cpu msrDev msrPerfGlobalCtrl 0
      checkWrite M cpu msrDev msrPerfGlobalOvfCtrl 0)
  | .setupLoop mask n => do
      let fixedFlags ← Prog.forCells
        (sandyBridgeSetupEvent M cbox numberOfNumaDomains thread cpu mask) n 0
      Prog.when (0 < fixedFlags)
        (Prog.onFst (checkWrite M cpu msrDev msrPerfFixedCtrCtrl fixedFlags))
  | .startLoop mask n => do
      let _ ← Prog.forCells (sandyBridgeStartEvent M thread cpu mask true) n 0
      pure ()
  | .startCore mask flags => Prog.onFst (Prog.when (hasCore mask) do
      checkWrite M cpu msrDev msrPerfGlobalOvfCtrl 0
      checkWrite M cpu msrDev msrPerfGlobalCtrl flags)
  | .readCore mask => do
      let _ ← Prog.onFst (pauseCore M cpu mask)
      pure ()
  | .readLoop mask n => Prog.forCells (sandyBridgeCountEvent M thread mask
      (sandyBridgeReadCase M thread cpu mask true)) n ()
  | .readResume mask flags => Prog.onFst (Prog.when (hasCore mask)
      (checkWrite M cpu msrDev msrPerfGlobalCtrl flags))
  | .stopCore mask => Prog.onFst (Prog.when (hasCore mask)
      (checkWrite M cpu msrDev msrPerfGlobalCtrl 0))
  | .stopLoop mask n => Prog.forCells (sandyBridgeCountEvent M thread mask
      (sandyBridgeStopCase M thread cpu mask true)) n ()

def Routine.snbProg (mask : BitVec 128) (n : ℕ) : Routine → Prog Int (Core × List Slot) Unit
  | .setup => perfmonSetupCounterThreadSandybridge M cbox numberOfNumaDomains thread cpu mask n
  | .start => perfmonStartCountersThreadSandybridge M thread cpu mask n
  | .read => perfmonReadCountersThreadSandybridge M thread cpu mask n
  | .stop => perfmonStopCountersThreadSandybridge M thread cpu mask n

/-- The pieces of a routine in their order, with the flags it passes on -/
def Routine.snbPieces (mask : BitVec 128) (n : ℕ) (flags : Word) : Routine → List SnbPiece
  | .setup => [.setupCore mask, .freeze mask, .setupLoop mask n]
  | .start => [.startLoop mask n, .startCore mask flags, .unfreezeStart mask]
  | .read => [.readCore mask, .freeze mask, .readLoop mask n, .unfreeze mask,
      .readResume mask flags]
  | .stop => [.stopCore mask, .freezeStop mask, .stopLoop mask n]

abbrev SnbStep := Prog.Step SnbPiece Int Core (List Slot)

/-- A run of calls of the routines on `cpu`, which holds the socket lock, each with an event set of
its own: the steps of the calls in their order -/
inductive SnbCalls : Core × List Slot → List SnbStep → Core × List Slot → Prop
  | nil (p : Core × List Slot) : SnbCalls p [] p
  | call {p q r : Core × List Slot} {slots : List Slot} {steps rest : List SnbStep}
      (routine : Routine) (mask : BitVec 128) (n : ℕ) (flags : Word) :
      haveLock M p.1 cpu = true → (∀ e, some e ∈ slots → e.Typed M) →
      EndsIn (routine.snbProg M cbox numberOfNumaDomains thread cpu mask n) (p.1, slots) q →
      Prog.RunsThrough (SnbPiece.prog M cbox numberOfNumaDomains thread cpu) (p.1, slots)
        (routine.snbPieces mask n flags) steps q →
      SnbCalls q rest r → SnbCalls p (steps ++ rest) r

end Routines

/-! ## What the macros are to do -/

/-- A freeze that completes is to freeze the boxes of the set, and an unfreeze to unfreeze them.
Where one is left, nothing is said of them. -/
def SnbControlBox.after (x : SnbControlBox) (s : UncoreState) (step : SnbStep) : UncoreState :=
  match step.piece with
  | .freeze mask | .freezeStop mask =>
      if hasType mask x.unit then if step.code = none then .off else .unknown else s
  | .unfreeze mask | .unfreezeStart mask =>
      if hasType mask x.unit then if step.code = none then .on else .unknown else s
  | _ => s

/-- The box is as the macros so far are to have made it. -/
def SnbControlBox.Matches (M : Machine) (cpu : ℕ) (c : Core) (x : SnbControlBox) :
    UncoreState → Prop
  | .unknown => True
  | .off => x.Frozen M cpu c
  | .on => ¬x.Frozen M cpu c

def SnbPiece.IsMacros : SnbPiece → Prop
  | .freeze _ | .freezeStop _ | .unfreeze _ | .unfreezeStart _ => True
  | _ => False

/-- Every register but the control registers of the boxes -/
def OffControls (T : Tables) (dev : PciDeviceIndex) (reg : ℕ) : Prop :=
  ∀ x ∈ snbControlBoxes, ¬(dev = x.device T ∧ reg = x.register T)

/-- After the step the box is as it is to be, and a step between the macros has written no control
register of a box. -/
def BoxFollows (M : Machine) (cpu : ℕ) (x : SnbControlBox) (s : UncoreState) (c : Core)
    (step : SnbStep) : Prop :=
  x.Matches M cpu step.state.1 s ∧
    (¬step.piece.IsMacros → Made (WritesIn (OffControls M.toTables)) c step.state.1)

/-- The boxes that the macros do not freeze: they ask for a PCI device that is not there, and those
of a stop leave the fixed counters out. -/
def SnbControlBox.skipped (stop : Bool) : SnbControlBox → Bool
  | .msr _ => false
  | .pci _ => true
  | .mboxfix _ _ => stop

/-- The piece is to freeze the box, and does not. -/
def SnbPiece.Skips (x : SnbControlBox) : SnbPiece → Prop
  | .freeze mask => hasType mask x.unit ∧ x.skipped false = true
  | .freezeStop mask => hasType mask x.unit ∧ x.skipped true = true
  | _ => False

/-- What a freeze skips is frozen already. -/
def FrozenIfSkipped (M : Machine) (cpu : ℕ) (x : SnbControlBox) (c : Core) (step : SnbStep) :
    Prop :=
  step.code = none → step.piece.Skips x → x.Frozen M cpu c

/-- **The boxes follow the macros**: each whose device is there is frozen from a freeze to the next
unfreeze, and unfrozen from there to the next freeze. -/
def BoxesFollow (M : Machine) (cpu : ℕ) (c : Core) (steps : List SnbStep) : Prop :=
  ∀ x ∈ snbControlBoxes, x.Present M cpu →
    Prog.Monitored x.after (BoxFollows M cpu x) .unknown c steps

/-- What the freezes skip is frozen already. -/
def SkippedFrozen (M : Machine) (cpu : ℕ) (c : Core) (steps : List SnbStep) : Prop :=
  ∀ x ∈ snbControlBoxes, x.Present M cpu → Prog.Along (FrozenIfSkipped M cpu x) c steps

/-- Writes to the control registers return 0 or fail. -/
def ControlsAnswer (M : Machine) (cpu : ℕ) : Prop :=
  ∀ x ∈ snbControlBoxes, ∀ n data,
    M.accessWrite n (x.device M.toTables) cpu (x.register M.toTables) data ≤ 0

/-! ## Routines and pieces -/

section Pieces

variable {M : Machine} {cbox : Option SandyCboxSetup} {numberOfNumaDomains thread cpu n : ℕ}
  {mask : BitVec 128} {p q : Core × List Slot} (hmodel : M.model = sandybridgeEP)

include hmodel

theorem snbBoxes_macros (boxes : List BoxWrite) (reg : ℕ) (value : Word) :
    snbBoxes M cpu mask true boxes reg value = snbMacros M cpu mask boxes := if_pos hmodel

theorem snbSetup_inSequence (hlock : haveLock M p.1 cpu = true) :
    perfmonSetupCounterThreadSandybridge M cbox numberOfNumaDomains thread cpu mask n p =
      Prog.inSequence (SnbPiece.prog M cbox numberOfNumaDomains thread cpu)
        (Routine.setup.snbPieces mask n 0) p := by
  unfold perfmonSetupCounterThreadSandybridge sandyBridgeSetupFreeze
  rw [Prog.bind_of_done (Prog.get_apply p), hlock, snbBoxes_macros hmodel, onFst_bind,
    Prog.bind_assoc]
  simp only [Routine.snbPieces, Prog.inSequence, SnbPiece.prog, bind_unit]

theorem snbStop_inSequence (hlock : haveLock M p.1 cpu = true) :
    perfmonStopCountersThreadSandybridge M thread cpu mask n p =
      Prog.inSequence (SnbPiece.prog M cbox numberOfNumaDomains thread cpu)
        (Routine.stop.snbPieces mask n 0) p := by
  unfold perfmonStopCountersThreadSandybridge
  rw [Prog.bind_of_done (Prog.get_apply p), hlock, snbBoxes_macros hmodel, onFst_bind,
    Prog.bind_assoc]
  simp only [Routine.snbPieces, Prog.inSequence, SnbPiece.prog, bind_unit]

theorem snbStart_inSequence (hlock : haveLock M p.1 cpu = true) :
    ∃ flags, perfmonStartCountersThreadSandybridge M thread cpu mask n p =
      Prog.inSequence (SnbPiece.prog M cbox numberOfNumaDomains thread cpu)
        (Routine.start.snbPieces mask n flags) p := by
  unfold perfmonStartCountersThreadSandybridge
  rw [Prog.bind_of_done (Prog.get_apply p), hlock, snbBoxes_macros hmodel]
  obtain ⟨flags, hflags⟩ := bind_value
    (m := Prog.forCells (sandyBridgeStartEvent M thread cpu mask true) n 0) (f := fun flags => do
      Prog.onFst (Prog.when (hasCore mask) do
        checkWrite M cpu msrDev msrPerfGlobalOvfCtrl 0
        checkWrite M cpu msrDev msrPerfGlobalCtrl flags)
      Prog.onFst (snbMacros M cpu mask (snbStartList M))) 0 p
  refine ⟨flags, hflags.trans ?_⟩
  simp only [Routine.snbPieces, Prog.inSequence, SnbPiece.prog, bind_unit]

theorem snbRead_inSequence (hlock : haveLock M p.1 cpu = true) :
    ∃ flags, perfmonReadCountersThreadSandybridge M thread cpu mask n p =
      Prog.inSequence (SnbPiece.prog M cbox numberOfNumaDomains thread cpu)
        (Routine.read.snbPieces mask n flags) p := by
  unfold perfmonReadCountersThreadSandybridge
  rw [Prog.bind_of_done (Prog.get_apply p), hlock, snbBoxes_macros hmodel,
    snbBoxes_macros hmodel]
  obtain ⟨flags, hflags⟩ := bind_value (m := Prog.onFst (pauseCore M cpu mask)) (f := fun flags =>
    do
    Prog.onFst (snbMacros M cpu mask (snbFreezeList M))
    Prog.forCells (sandyBridgeCountEvent M thread mask
      (sandyBridgeReadCase M thread cpu mask true)) n ()
    Prog.onFst (snbMacros M cpu mask (snbUnfreezeList M))
    Prog.onFst (Prog.when (hasCore mask) (checkWrite M cpu msrDev msrPerfGlobalCtrl flags))) 0 p
  refine ⟨flags, Eq.trans ?_ (hflags.trans ?_)⟩
  · simp only [onFst_bind, Prog.bind_assoc]
    rfl
  · simp only [Routine.snbPieces, Prog.inSequence, SnbPiece.prog, bind_unit]

/-- **Every call runs through its pieces.** -/
theorem snbRoutine_runsThrough (routine : Routine) (hlock : haveLock M p.1 cpu = true)
    (hend : EndsIn (routine.snbProg M cbox numberOfNumaDomains thread cpu mask n) p q) :
    ∃ flags steps, Prog.RunsThrough (SnbPiece.prog M cbox numberOfNumaDomains thread cpu) p
      (routine.snbPieces mask n flags) steps q := by
  have hof : ∀ flags, routine.snbProg M cbox numberOfNumaDomains thread cpu mask n p =
      Prog.inSequence (SnbPiece.prog M cbox numberOfNumaDomains thread cpu)
        (routine.snbPieces mask n flags) p →
      ∃ flags steps, Prog.RunsThrough (SnbPiece.prog M cbox numberOfNumaDomains thread cpu) p
        (routine.snbPieces mask n flags) steps q := by
    intro flags heq
    unfold EndsIn at hend
    rw [heq] at hend
    rcases hend with hdone | ⟨r, hret⟩
    · exact ⟨flags, Prog.runsThrough_of_done hdone⟩
    · exact ⟨flags, Prog.runsThrough_of_ret hret⟩
  cases routine with
  | setup => exact hof 0 (snbSetup_inSequence hmodel hlock)
  | start =>
      obtain ⟨flags, hflags⟩ :=
        @snbStart_inSequence M cbox numberOfNumaDomains thread cpu n mask p hmodel hlock
      exact hof flags hflags
  | read =>
      obtain ⟨flags, hflags⟩ :=
        @snbRead_inSequence M cbox numberOfNumaDomains thread cpu n mask p hmodel hlock
      exact hof flags hflags
  | stop => exact hof 0 (snbStop_inSequence hmodel hlock)

end Pieces

/-! ## Between the macros -/

/-- What keeps the control registers of the boxes apart from the other registers -/
structure SnbControlsApart (T : Tables) : Prop where
  config : ∀ row ∈ T.counterMap, OffControls T msrDev row.configRegister ∧
    (sandyBridgeUnit row.type ≠ .mboxfix → OffControls T row.device row.configRegister)
  filter : ∀ row ∈ T.counterMap, OffControls T msrDev (T.boxMap row.type).filterRegister1 ∧
    OffControls T msrDev (T.boxMap row.type).filterRegister2
  counter : ∀ row ∈ T.counterMap, OffControls T msrDev row.counterRegister ∧
    OffControls T row.device row.counterRegister ∧ OffControls T row.device row.counterRegister2
  common : ∀ reg ∈ [msrPerfGlobalCtrl, msrPerfGlobalOvfCtrl, msrPerfFixedCtrCtrl,
    msrUncPcuPmonBoxFilter, pciUncQpiPmonMatch0, pciUncQpiPmonMatch1, pciUncQpiPmonMask0,
    pciUncQpiPmonMask1] ++ boxRegisters, ∀ x ∈ snbControlBoxes, reg ≠ x.register T

instance (T : Tables) (dev : PciDeviceIndex) (reg : ℕ) : Decidable (OffControls T dev reg) :=
  inferInstanceAs (Decidable (∀ x ∈ snbControlBoxes, ¬(dev = x.device T ∧ reg = x.register T)))

theorem snbControlsApart_ep : SnbControlsApart sandybridgeEPTables where
  config := by decide +kernel
  filter := by decide +kernel
  counter := by decide +kernel
  common := by decide +kernel

section Between

variable {M : Machine} {cbox : Option SandyCboxSetup} {numberOfNumaDomains thread cpu n : ℕ}
  {mask : BitVec 128} {e : PerfmonEventSetEntry} {row : RegisterMap} {c : Core}
  (hA : SnbControlsApart M.toTables)

/-- The judgement of the pieces between the macros -/
abbrev controlsFlow (M : Machine) : Prog.Flow Core :=
  Prog.Flow.of (Moved (OffControls M.toTables)) Moved.refl fun _ _ _ => Moved.trans

include hA

theorem SnbControlsApart.off {reg : ℕ} (h : reg ∈ [msrPerfGlobalCtrl, msrPerfGlobalOvfCtrl,
    msrPerfFixedCtrCtrl, msrUncPcuPmonBoxFilter, pciUncQpiPmonMatch0, pciUncQpiPmonMatch1,
    pciUncQpiPmonMask0, pciUncQpiPmonMask1] ++ boxRegisters) (dev : PciDeviceIndex) :
    OffControls M.toTables dev reg := fun x hx heq => hA.common reg h x hx heq.2

/-- What the set-up of a counter writes, unless it is the fixed one of a memory channel -/
theorem SnbControlsApart.allowed {index : RegisterIndex} (hrow : M.counterMap[index]? = some row)
    (hunit : sandyBridgeUnit row.type ≠ .mboxfix) :
    SnbAllowed M index (OffControls M.toTables) fun _ => True where
  config row' hrow' := by
    obtain rfl := Option.some.inj (hrow.symm.trans hrow')
    obtain ⟨hmsr, hdev⟩ := hA.config row (List.mem_of_getElem? hrow)
    exact ⟨hmsr, hdev hunit⟩
  filter row' hrow' := hA.filter row' (List.mem_of_getElem? hrow')
  common dev reg hreg := hA.off (List.mem_append_right _ hreg) dev
  save := trivial
  occupancy := hA.off (by simp) _
  link type q hq dev := by
    refine hA.off (List.mem_append_left _ ?_) dev
    cases type with
    | match0 | match1 | mask0 | mask1 =>
        cases hq
        simp
    | _ => cases hq

theorem sandyBridgeSetupEvent_controls (htyped : e.Typed M) (flags : Word) :
    (sandyBridgeSetupEvent M cbox numberOfNumaDomains thread cpu mask flags).wp
      (fun _ q => Moved (OffControls M.toTables) c q.1)
      (fun _ q => Moved (OffControls M.toTables) c q.1) (c, e) := by
  have L : FrameLogic M cpu (OffControls M.toTables) (fun _ => True)
      (Moved (OffControls M.toTables)) Moved.refl fun _ _ _ => Moved.trans := Moved.logic
  unfold sandyBridgeSetupEvent
  rw [Prog.wp_bind, Prog.wp_get]
  by_cases hmask : hasType mask e.type
  · rw [if_pos hmask]
    unfold counterMap
    rw [Prog.wp_bind, Prog.wp_orUndefined]
    intro row hrow
    have hnotype : e.type ≠ .notype := fun heq => not_hasType_notype mask (heq ▸ hmask)
    obtain ⟨row', hrow', htype⟩ := htyped hnotype
    obtain rfl : row = row' := Option.some.inj (hrow.symm.trans hrow')
    have hcase : Prog.Respects (controlsFlow M) (sandyBridgeSetupCase M cbox numberOfNumaDomains
        cpu e.index row e.event (sandyBridgeUnit e.type)) := by
      by_cases hunit : sandyBridgeUnit e.type = .mboxfix
      · rw [hunit]
        exact .pure _
      · exact CoreLogic.sandyBridgeSetupCase L (hA.allowed hrow (by rwa [htype])) _ hrow _ _ _
    have hrest : Prog.Respects (controlsFlow M).fst (do
        Prog.onSnd (Prog.modify (·.setInit thread true))
        let flag ← Prog.onFst (sandyBridgeSetupCase M cbox numberOfNumaDomains cpu e.index row
          e.event (sandyBridgeUnit e.type))
        pure (flags ||| flag.setWidth 64) : EventProg Word) :=
      .bind (counting_record _) fun _ => .bind (.onFst hcase) fun _ => .pure _
    exact hrest (c, e)
  · rw [if_neg hmask]
    exact Moved.refl c

theorem sandyBridgeStartEvent_controls (flags : Word) :
    Prog.Respects (controlsFlow M).fst (sandyBridgeStartEvent M thread cpu mask true flags) := by
  have L : FrameLogic M cpu (OffControls M.toTables) (fun _ => True)
      (Moved (OffControls M.toTables)) Moved.refl fun _ _ _ => Moved.trans := Moved.logic
  refine .bind .get fun q => .ite (fun _ => ?_) fun _ => .pure _
  refine counting_row fun row hrow => .bind (counting_record _) fun _ => .bind ?_ fun _ => .pure _
  have hmem := List.mem_of_getElem? hrow
  obtain ⟨hmsr, hdev, hdev2⟩ := hA.counter row hmem
  have hcounter := L.checkWrite 0 hmsr
  have henable : ∀ added : Word, Prog.Respects (controlsFlow M) (do
      let tmp ← checkRead M cpu msrDev row.configRegister
      checkWrite M cpu msrDev row.configRegister (tmp ||| added)) := fun added =>
    .bind (L.checkRead _ _) fun _ => L.checkWrite _ (hA.config row hmem).1
  have hpair : Prog.Respects (controlsFlow M) (do
      checkWrite M cpu row.device row.counterRegister 0
      checkWrite M cpu row.device row.counterRegister2 0) :=
    .bind (L.checkWrite _ hdev) fun _ => L.checkWrite _ hdev2
  cases sandyBridgeUnit q.2.type with
  | pmc | fixed => exact .bind (.onFst hcounter) fun _ => .pure _
  | power =>
      exact .bind (.when fun _ => .bind (.onFst (L.powerRead _)) fun _ =>
        .bind (.onFst (L.check _)) fun _ => counting_record _) fun _ => .pure _
  | mbox | bbox0 =>
      exact .bind .get fun _ => .bind (.onFst (.when fun _ => hpair)) fun _ => .pure _
  | sbox0 | sbox1 | sboxfix | cbox =>
      exact .bind (.onFst (.when fun _ => hcounter)) fun _ => .pure _
  | ubox => exact .bind (.onFst (.when fun _ => henable _)) fun _ => .pure _
  | uboxfix =>
      exact .bind (.onFst hcounter) fun _ => .bind (.onFst (.when fun _ => henable _)) fun _ =>
        .pure _
  | wbox =>
      exact .bind (.onFst (.when fun _ => L.checkWrite _ (hA.off (by simp) _))) fun _ => .pure _
  | wboxfix =>
      exact .bind (.when fun _ => .bind (.onFst (L.checkRead _ _)) fun _ => counting_record _)
        fun _ => .pure _
  | thermal | mboxfix | rbox | pbox | other => exact .pure _

/-- What the pieces ask of the slots they are given -/
def SnbPiece.Ok (M : Machine) (piece : SnbPiece) (slots : List Slot) : Prop :=
  match piece with
  | .setupLoop _ _ => ∀ e, some e ∈ slots → e.Typed M
  | _ => True

/-- Between the macros the control registers are left alone. -/
theorem snbPiece_controls {piece : SnbPiece} (hcut : ¬piece.IsMacros) {slots : List Slot}
    (hok : piece.Ok M slots) :
    (piece.prog M cbox numberOfNumaDomains thread cpu).wp
      (fun _ q => Moved (OffControls M.toTables) c q.1)
      (fun _ q => Moved (OffControls M.toTables) c q.1) (c, slots) := by
  have L : FrameLogic M cpu (OffControls M.toTables) (fun _ => True)
      (Moved (OffControls M.toTables)) Moved.refl fun _ _ _ => Moved.trans := Moved.logic
  have hwrite : ∀ {reg} data, reg ∈ [msrPerfGlobalCtrl, msrPerfGlobalOvfCtrl,
      msrPerfFixedCtrCtrl] → Prog.Respects (controlsFlow M) (checkWrite M cpu msrDev reg data) := by
    intro reg data hreg
    refine L.checkWrite data (hA.off ?_ _)
    simp only [List.mem_cons, List.not_mem_nil, or_false, List.mem_append] at hreg ⊢
    tauto
  have hcount : ∀ {mask : BitVec 128}
      {switch : PerfmonEventSetEntry → RegisterMap → SandyBridgeUnit → EventProg Word},
      (∀ e row unit, Prog.Respects (controlsFlow M).fst (switch e row unit)) →
      ∀ n, Prog.Respects (controlsFlow M).fst
        (Prog.forCells (sandyBridgeCountEvent M thread mask switch) n ()) :=
    fun hswitch n => .forCells_fst (fun _ => .bind .get fun _ => .when fun _ => counting_row
      fun _ _ => .bind (hswitch _ _ _) fun _ => counting_record _) n ()
  have hovf : OffControls M.toTables msrDev msrPerfGlobalOvfCtrl := hA.off (by simp) _
  have hall : (∀ mask n, piece ≠ .setupLoop mask n) → Prog.Respects (controlsFlow M).fst
      (piece.prog M cbox numberOfNumaDomains thread cpu) := by
    intro hne
    cases piece with
    | freeze mask | freezeStop mask | unfreeze mask | unfreezeStart mask =>
        exact absurd trivial hcut
    | setupLoop mask n => exact absurd rfl (hne mask n)
    | setupCore mask | startCore mask flags =>
        exact .onFst (.when fun _ => .bind (hwrite _ (by simp)) fun _ => hwrite _ (by simp))
    | startLoop mask n =>
        exact .bind (.forCells_fst (fun flags => sandyBridgeStartEvent_controls hA flags) n 0)
          fun _ => .pure _
    | readCore mask =>
        refine .bind (.onFst (.ite (fun _ => ?_) fun _ => .pure _)) fun _ => .pure _
        exact .bind (L.checkRead _ _) fun _ => .bind (hwrite _ (by simp)) fun _ => .pure _
    | readLoop mask n =>
        exact hcount (fun _ _ unit => CoreLogic.sandyBridgeReadCase L hovf unit) n
    | readResume mask flags | stopCore mask =>
        exact .onFst (.when fun _ => hwrite _ (by simp))
    | stopLoop mask n =>
        exact hcount (fun _ _ unit => CoreLogic.sandyBridgeStopCase L hovf unit) n
  by_cases hloop : ∃ mask n, piece = .setupLoop mask n
  · obtain ⟨mask, n, rfl⟩ := hloop
    have htyped : ∀ e, some e ∈ slots → e.Typed M := hok
    have hcells := Prog.forCells_typed (F := controlsFlow M) (S := fun _ _ => True)
      (fun flags c e htyped' => Prog.wp_mono
        (@sandyBridgeSetupEvent_controls M cbox numberOfNumaDomains thread cpu mask e c hA htyped'
          flags) (fun _ _ hq => ⟨hq, trivial⟩) fun _ _ hq => hq) n 0 c slots htyped
    unfold SnbPiece.prog
    rw [Prog.wp_bind]
    refine Prog.wp_mono hcells ?_ fun _ _ hq => hq
    rintro fixedFlags q ⟨hq, -⟩
    rw [Prog.wp_when, Prog.wp_zoom]
    refine ⟨fun _ => ?_, fun _ => hq⟩
    exact Prog.wp_mono (hwrite fixedFlags (by simp) q.1) (fun _ _ hq' => hq.trans hq')
      fun _ _ hq' => hq.trans hq'
  · exact hall (fun mask n heq => hloop ⟨mask, n, heq⟩) (c, slots)

end Between

/-! ## What the macros do -/

namespace SnbControlBox

/-- The macros of a list that write the control register of the box -/
def macros (T : Tables) (boxes : List BoxWrite) (x : SnbControlBox) : List BoxWrite :=
  boxes.filter fun b => b.device = x.device T ∧ b.register = x.register T

/-- One macro of the list writes the box where its device is there, and what it writes freezes the
box, or does not. -/
def Switched (T : Tables) (boxes : List BoxWrite) (freezes : Bool) (x : SnbControlBox) : Prop :=
  (x.macros T boxes).length = 1 ∧ ∀ b ∈ x.macros T boxes, b.unit = x.unit ∧
    (b.check = .unchecked ∨ b.check = .present ∧ x.device T ≠ msrDev) ∧
    decide (x.Freezes (stored b.device b.value)) = freezes

/-- No macro of the list writes the box where its device is there. -/
def Spared (T : Tables) (boxes : List BoxWrite) (x : SnbControlBox) : Prop :=
  ∀ b ∈ x.macros T boxes, b.unit = x.unit ∧ b.check = .absent ∧ x.device T ≠ msrDev

theorem macros_cons (T : Tables) (b : BoxWrite) (boxes : List BoxWrite) (x : SnbControlBox) :
    x.macros T (b :: boxes) = if b.device = x.device T ∧ b.register = x.register T then
      b :: x.macros T boxes else x.macros T boxes := by
  unfold macros
  rw [List.filter_cons]
  simp only [decide_eq_true_eq]

end SnbControlBox

/-- What the lists do to each box -/
structure SnbLists (M : Machine) : Prop where
  freeze : ∀ x ∈ snbControlBoxes,
    if x.skipped false then x.Spared M.toTables (snbFreezeList M)
    else x.Switched M.toTables (snbFreezeList M) true
  freezeStop : ∀ x ∈ snbControlBoxes,
    if x.skipped true then x.Spared M.toTables (snbStopList M)
    else x.Switched M.toTables (snbStopList M) true
  unfreeze : ∀ x ∈ snbControlBoxes, x.Switched M.toTables (snbUnfreezeList M) false
  unfreezeStart : ∀ x ∈ snbControlBoxes, x.Switched M.toTables (snbStartList M) false

instance (T : Tables) (boxes : List BoxWrite) (freezes : Bool) (x : SnbControlBox) :
    Decidable (x.Switched T boxes freezes) :=
  inferInstanceAs (Decidable ((x.macros T boxes).length = 1 ∧ ∀ b ∈ x.macros T boxes,
    b.unit = x.unit ∧ (b.check = .unchecked ∨ b.check = .present ∧ x.device T ≠ msrDev) ∧
      decide (x.Freezes (stored b.device b.value)) = freezes))

instance (T : Tables) (boxes : List BoxWrite) (x : SnbControlBox) :
    Decidable (x.Spared T boxes) :=
  inferInstanceAs (Decidable (∀ b ∈ x.macros T boxes,
    b.unit = x.unit ∧ b.check = .absent ∧ x.device T ≠ msrDev))

theorem snbLists_ep : SnbLists sandyBridgeEPMachine where
  freeze := by decide +kernel
  freezeStop := by decide +kernel
  unfreeze := by decide +kernel
  unfreezeStart := by decide +kernel

theorem snbLists {M : Machine} (hM : M.toTables = sandybridgeEPTables) : SnbLists M := by
  have hbox : M.boxMap = sandyBridgeEPMachine.boxMap := congrArg Tables.boxMap hM
  have heq : snbFreezeList M = snbFreezeList sandyBridgeEPMachine ∧
      snbStopList M = snbStopList sandyBridgeEPMachine ∧
      snbUnfreezeList M = snbUnfreezeList sandyBridgeEPMachine ∧
      snbStartList M = snbStartList sandyBridgeEPMachine := by
    simp only [snbFreezeList, snbStopList, snbUnfreezeList, snbStartList, snbFreezeBox,
      snbFreezePciBox, snbFreezeAndResetCtlBox, snbFreezeAndResetCtlPciBox, snbUnfreezeBox,
      snbUnfreezePciBox, snbUnfreezeAndResetCtrBox, snbUnfreezeAndResetCtrPciBox, BoxWrite.msr,
      BoxWrite.pci, hbox, and_self]
  obtain ⟨hfreeze, hstop, hunfreeze, hstart⟩ := heq
  have hT : M.toTables = sandyBridgeEPMachine.toTables := hM
  constructor
  · rw [hT, hfreeze]
    exact snbLists_ep.freeze
  · rw [hT, hstop]
    exact snbLists_ep.freezeStop
  · rw [hT, hunfreeze]
    exact snbLists_ep.unfreeze
  · rw [hT, hstart]
    exact snbLists_ep.unfreezeStart

section Macros

variable {M : Machine} {cpu : ℕ} {mask : BitVec 128} {x : SnbControlBox} {c : Core}

/-- The macro writes its register. -/
def BoxWrite.Runs (M : Machine) (cpu : ℕ) (mask : BitVec 128) (c : Core) (b : BoxWrite) : Prop :=
  hasType mask b.unit ∧ b.check.Passes (hpmCheck M c b.device cpu)

instance (M : Machine) (cpu : ℕ) (mask : BitVec 128) (c : Core) (b : BoxWrite) :
    Decidable (b.Runs M cpu mask c) :=
  inferInstanceAs (Decidable (hasType mask b.unit ∧
    b.check.Passes (hpmCheck M c b.device cpu)))

/-- The register that a macro, or what it has not, leaves -/
def BoxWrite.left (M : Machine) (cpu : ℕ) (mask : BitVec 128) (c : Core) (v : Word)
    (b : BoxWrite) : Word :=
  if b.Runs M cpu mask c then stored b.device b.value else v

theorem BoxWrite.runs_congr {c' : Core} (h : c'.registeredCpuList = c.registeredCpuList)
    (b : BoxWrite) : b.Runs M cpu mask c' ↔ b.Runs M cpu mask c := by
  unfold BoxWrite.Runs hpmCheck
  rw [h]

theorem BoxWrite.left_congr {c' : Core} (h : c'.registeredCpuList = c.registeredCpuList) :
    BoxWrite.left M cpu mask c' = BoxWrite.left M cpu mask c :=
  funext fun _ => funext fun b => if_congr (b.runs_congr h) rfl rfl

/-- One macro -/
theorem boxWrite_content (hF : ControlsAnswer M cpu) (hx : x ∈ snbControlBoxes) (b : BoxWrite) :
    (b.run M cpu mask true).wp
      (fun _ c' => c'.registeredCpuList = c.registeredCpuList ∧ x.content M cpu c' =
        if b.device = x.device M.toTables ∧ b.register = x.register M.toTables then
          b.left M cpu mask c (x.content M cpu c) else x.content M cpu c)
      (fun _ c' => x.content M cpu c' = x.content M cpu c) c := by
  unfold BoxWrite.run
  rw [Prog.wp_bind, Prog.wp_get, Prog.wp_when]
  by_cases hon : b.device = x.device M.toTables ∧ b.register = x.register M.toTables
  · rw [if_pos hon]
    refine ⟨fun hcond => ?_, fun hno => ?_⟩
    · have hruns : b.Runs M cpu mask c := hcond.2
      unfold BoxWrite.left
      rw [if_pos hruns]
      have hwrite : ∀ n, M.accessWrite n b.device cpu b.register b.value ≤ 0 := by
        rw [hon.1, hon.2]
        exact fun n => hF x hx n b.value
      refine Prog.wp_mono (checkWrite_stores c b.value hwrite) ?_ ?_
      · rintro _ c' ⟨hregs, hregistered⟩
        refine ⟨hregistered, ?_⟩
        unfold SnbControlBox.content
        rw [hregs, ← hon.1, ← hon.2]
        simp
      · intro _ c' hregs
        unfold SnbControlBox.content
        rw [hregs]
    · have hnot : ¬b.Runs M cpu mask c := fun hruns => hno ⟨rfl, hruns⟩
      unfold BoxWrite.left
      rw [if_neg hnot]
      exact ⟨rfl, rfl⟩
  · rw [if_neg hon]
    refine ⟨fun _ => ?_, fun _ => ⟨rfl, rfl⟩⟩
    -- The write is to another register.
    have L : FrameLogic M cpu (fun dev reg => dev = b.device ∧ reg = b.register) (fun _ => True)
        (Moved fun dev reg => dev = b.device ∧ reg = b.register) Moved.refl
        fun _ _ _ => Moved.trans := Moved.logic
    have hkept : ∀ c', Moved (fun dev reg => dev = b.device ∧ reg = b.register) c c' →
        x.content M cpu c' = x.content M cpu c := fun c' hmoved =>
      hmoved.regs _ _ _ fun heq => hon ⟨heq.1.symm, heq.2.symm⟩
    exact Prog.wp_mono (L.checkWrite b.value ⟨rfl, rfl⟩ c)
      (fun _ c' hmoved => ⟨hmoved.registered, hkept c' hmoved⟩) fun _ c' hmoved => hkept c' hmoved

/-- The macros of a list, one after the other -/
theorem snbMacros_content (hF : ControlsAnswer M cpu) (hx : x ∈ snbControlBoxes)
    (boxes : List BoxWrite) (c : Core) :
    (snbMacros M cpu mask boxes).wp
      (fun _ c' => c'.registeredCpuList = c.registeredCpuList ∧ x.content M cpu c' =
        (x.macros M.toTables boxes).foldl (BoxWrite.left M cpu mask c) (x.content M cpu c))
      (fun _ c' => (∀ b ∈ x.macros M.toTables boxes, ¬b.Runs M cpu mask c) →
        x.content M cpu c' = x.content M cpu c) c := by
  induction boxes generalizing c with
  | nil => exact ⟨rfl, rfl⟩
  | cons b boxes ih =>
    unfold snbMacros
    rw [List.foldlM_cons, Prog.wp_bind]
    refine Prog.wp_mono (boxWrite_content hF hx b) ?_ fun _ _ hsame _ => hsame
    rintro ⟨⟩ c1 ⟨hregistered, hcontent⟩
    have hleft := @BoxWrite.left_congr M cpu mask c c1 hregistered
    refine Prog.wp_mono (ih c1) ?_ ?_
    · rintro _ c2 ⟨hregistered2, hcontent2⟩
      refine ⟨hregistered2.trans hregistered, ?_⟩
      rw [hcontent2, hleft, hcontent, SnbControlBox.macros_cons]
      by_cases hon : b.device = x.device M.toTables ∧ b.register = x.register M.toTables
      · rw [if_pos hon, if_pos hon, List.foldl_cons]
      · rw [if_neg hon, if_neg hon]
    · intro _ c2 hsame hnone
      rw [SnbControlBox.macros_cons] at hnone
      by_cases hon : b.device = x.device M.toTables ∧ b.register = x.register M.toTables
      · rw [if_pos hon] at hnone hcontent
        have htail : ∀ b' ∈ x.macros M.toTables boxes, ¬b'.Runs M cpu mask c1 := fun b' hb' hyes =>
          hnone b' (List.mem_cons_of_mem _ hb') ((b'.runs_congr hregistered).mp hyes)
        rw [hsame htail, hcontent]
        exact if_neg (hnone b List.mem_cons_self)
      · rw [if_neg hon] at hnone hcontent
        have htail : ∀ b' ∈ x.macros M.toTables boxes, ¬b'.Runs M cpu mask c1 := fun b' hb' hyes =>
          hnone b' hb' ((b'.runs_congr hregistered).mp hyes)
        rw [hsame htail, hcontent]

/-- What a list makes of a box whose device is there, and which it is to switch -/
theorem SnbControlBox.Switched.run {boxes : List BoxWrite} {freezes : Bool}
    (h : x.Switched M.toTables boxes freezes) (hF : ControlsAnswer M cpu)
    (hx : x ∈ snbControlBoxes) (hpresent : x.Present M cpu) (c : Core) :
    (snbMacros M cpu mask boxes).wp
      (fun _ c' => (hasType mask x.unit → (x.Frozen M cpu c' ↔ freezes = true)) ∧
        (¬hasType mask x.unit → x.content M cpu c' = x.content M cpu c))
      (fun _ c' => ¬hasType mask x.unit → x.content M cpu c' = x.content M cpu c) c := by
  obtain ⟨hlength, hall⟩ := h
  obtain ⟨b, hb⟩ := List.length_eq_one_iff.mp hlength
  obtain ⟨hunit, hcheck, hvalue⟩ := hall b (hb ▸ List.mem_singleton_self b)
  have hon : b.device = x.device M.toTables := by
    have hmem : b ∈ x.macros M.toTables boxes := hb ▸ List.mem_singleton_self b
    exact (of_decide_eq_true (List.mem_filter.mp hmem).2).1
  have hpasses : b.check.Passes (hpmCheck M c b.device cpu) := by
    rcases hcheck with hcheck | ⟨hcheck, hpci⟩
    · rw [hcheck]
      trivial
    · rw [hcheck, hon]
      show hpmCheck M c (x.device M.toTables) cpu ≠ 0
      unfold hpmCheck
      split
      · decide
      · exact hpresent.resolve_left hpci
  refine Prog.wp_mono (snbMacros_content hF hx boxes c) ?_ ?_
  · rintro _ c' ⟨-, hcontent⟩
    rw [hb, List.foldl_cons, List.foldl_nil] at hcontent
    unfold BoxWrite.left at hcontent
    constructor
    · intro hset
      have hruns : b.Runs M cpu mask c := ⟨hunit ▸ hset, hpasses⟩
      rw [if_pos hruns] at hcontent
      unfold SnbControlBox.Frozen
      rw [hcontent, ← hvalue, decide_eq_true_eq]
    · intro hno
      rw [hcontent, if_neg fun hruns => hno (hunit ▸ hruns.1)]
  · intro _ c' hsame hno
    refine hsame fun b' hb' hruns => hno ?_
    rw [← (hall b' hb').1]
    exact hruns.1

/-- A list that spares a box whose device is there leaves it as it is. -/
theorem SnbControlBox.Spared.run {boxes : List BoxWrite} (h : x.Spared M.toTables boxes)
    (hF : ControlsAnswer M cpu) (hx : x ∈ snbControlBoxes) (hpresent : x.Present M cpu)
    (c : Core) :
    (snbMacros M cpu mask boxes).wp (fun _ c' => x.content M cpu c' = x.content M cpu c)
      (fun _ c' => x.content M cpu c' = x.content M cpu c) c := by
  have hnone : ∀ b ∈ x.macros M.toTables boxes, ¬b.Runs M cpu mask c := by
    rintro b hb ⟨-, hpasses⟩
    obtain ⟨-, hcheck, hpci⟩ := h b hb
    have hon : b.device = x.device M.toTables := (of_decide_eq_true (List.mem_filter.mp hb).2).1
    rw [hcheck, hon] at hpasses
    have hzero : hpmCheck M c (x.device M.toTables) cpu = 0 := hpasses
    unfold hpmCheck at hzero
    split at hzero
    · exact absurd hzero (by decide)
    · exact hpresent.resolve_left hpci hzero
  refine Prog.wp_mono (snbMacros_content hF hx boxes c) ?_ fun _ c' hsame => hsame hnone
  rintro _ c' ⟨-, hcontent⟩
  rw [hcontent]
  generalize x.macros M.toTables boxes = l at hnone
  induction l with
  | nil => rfl
  | cons b l ih =>
    rw [List.foldl_cons, BoxWrite.left, if_neg (hnone b List.mem_cons_self)]
    exact ih fun b' hb' => hnone b' (List.mem_cons_of_mem _ hb')

end Macros

/-! ## Runs -/

section Runs

variable {M : Machine} {cbox : Option SandyCboxSetup} {numberOfNumaDomains thread cpu n : ℕ}
  {mask : BitVec 128} {x : SnbControlBox} {s : UncoreState} {c c' : Core} {code : Option Int}
  {boxes : List BoxWrite}

theorem SnbControlBox.Matches.congr (h : x.Matches M cpu c s)
    (hcontent : x.content M cpu c' = x.content M cpu c) : x.Matches M cpu c' s := by
  cases s with
  | unknown => trivial
  | off | on =>
      unfold Matches Frozen at h ⊢
      rw [hcontent]
      exact h

/-- The run of a list ended in `c'`, and was left if it has a code. -/
def MacrosRun (M : Machine) (cpu : ℕ) (mask : BitVec 128) (boxes : List BoxWrite) (c : Core)
    (code : Option Int) (c' : Core) : Prop :=
  ∀ Q R : Core → Prop,
    (snbMacros M cpu mask boxes).wp (fun _ => Q) (fun _ => R) c →
      (code = none → Q c') ∧ (code ≠ none → R c')

section Lists

variable (hF : ControlsAnswer M cpu) (hx : x ∈ snbControlBoxes) (hpresent : x.Present M cpu)
  (hrun : MacrosRun M cpu mask boxes c code c') (hs : x.Matches M cpu c s)

include hF hx hpresent hrun hs

theorem switched_follows {freezes : Bool} (h : x.Switched M.toTables boxes freezes) :
    x.Matches M cpu c' (if hasType mask x.unit then
      if code = none then if freezes then .off else .on else .unknown else s) := by
  obtain ⟨hdone, hret⟩ := hrun _ _ (h.run hF hx hpresent c)
  by_cases hset : hasType mask x.unit
  · rw [if_pos hset]
    by_cases hcode : code = none
    · have hfrozen := (hdone hcode).1 hset
      rw [if_pos hcode]
      cases freezes with
      | true => exact hfrozen.mpr rfl
      | false => exact fun hyes => Bool.false_ne_true (hfrozen.mp hyes)
    · rw [if_neg hcode]
      trivial
  · rw [if_neg hset]
    by_cases hcode : code = none
    · exact hs.congr ((hdone hcode).2 hset)
    · exact hs.congr (hret hcode hset)

/-- A freeze -/
theorem freezeList_follows {stop : Bool}
    (h : if x.skipped stop then x.Spared M.toTables boxes else x.Switched M.toTables boxes true) :
    x.Matches M cpu c' (if hasType mask x.unit then if code = none then .off else .unknown else s) ↔
      (code = none → hasType mask x.unit ∧ x.skipped stop = true → x.Frozen M cpu c) := by
  by_cases hskip : x.skipped stop = true
  · rw [if_pos hskip] at h
    obtain ⟨hdone, hret⟩ := hrun _ _ (h.run hF hx hpresent c)
    by_cases hset : hasType mask x.unit
    · rw [if_pos hset]
      by_cases hcode : code = none
      · rw [if_pos hcode]
        have hsame : x.Frozen M cpu c' ↔ x.Frozen M cpu c := by
          unfold SnbControlBox.Frozen
          rw [hdone hcode]
        exact hsame.trans ⟨fun hfrozen _ _ => hfrozen, fun hcond => hcond hcode ⟨hset, hskip⟩⟩
      · rw [if_neg hcode]
        exact iff_of_true trivial fun hnone => absurd hnone hcode
    · rw [if_neg hset]
      refine iff_of_true ?_ fun _ hno => absurd hno.1 hset
      by_cases hcode : code = none
      · exact hs.congr (hdone hcode)
      · exact hs.congr (hret hcode)
  · rw [if_neg hskip] at h
    have hfollows := switched_follows hF hx hpresent hrun hs h
    exact iff_of_true hfollows fun _ hno => absurd hno.2 hskip

end Lists

variable (hM : M.toTables = sandybridgeEPTables) (hF : ControlsAnswer M cpu)
  (hx : x ∈ snbControlBoxes) (hpresent : x.Present M cpu)

include hM hF hx hpresent

/-- **One step.** The box follows it, except where a freeze skips it and finds it unfrozen. -/
theorem snbStep_follows {step : SnbStep}
    (hfrom : step.From (SnbPiece.prog M cbox numberOfNumaDomains thread cpu) (SnbPiece.Ok M) c)
    (hs : x.Matches M cpu c s) :
    BoxFollows M cpu x (x.after s step) c step ↔ FrozenIfSkipped M cpu x c step := by
  have hlists := snbLists hM
  have hA : SnbControlsApart M.toTables := hM ▸ snbControlsApart_ep
  obtain ⟨piece, code, state⟩ := step
  by_cases hmacros : piece.IsMacros
  · have hfollows : ∀ s', BoxFollows M cpu x s' c ⟨piece, code, state⟩ ↔
        x.Matches M cpu state.1 s' := fun _ =>
      ⟨fun h => h.1, fun h => ⟨h, fun hno => absurd hmacros hno⟩⟩
    rw [hfollows]
    have hrun : ∀ {mask boxes}, piece.prog M cbox numberOfNumaDomains thread cpu =
        Prog.onFst (snbMacros M cpu mask boxes) →
        MacrosRun M cpu mask boxes c code state.1 := by
      intro mask boxes heq Q R hwp
      refine hfrom.elim fun slots _ => ?_
      rw [heq]
      exact Prog.wp_zoom.mpr hwp
    cases piece with
    | freeze mask => exact freezeList_follows hF hx hpresent (hrun rfl) hs (hlists.freeze x hx)
    | freezeStop mask =>
        exact freezeList_follows hF hx hpresent (hrun rfl) hs (hlists.freezeStop x hx)
    | unfreeze mask =>
        exact iff_of_true
          (switched_follows hF hx hpresent (hrun rfl) hs (hlists.unfreeze x hx))
          fun _ hno => absurd hno id
    | unfreezeStart mask =>
        exact iff_of_true
          (switched_follows hF hx hpresent (hrun rfl) hs (hlists.unfreezeStart x hx))
          fun _ hno => absurd hno id
    | _ => exact absurd hmacros id
  · obtain ⟨hdone, hret⟩ := hfrom.elim (Q := Moved (OffControls M.toTables) c)
      (R := Moved (OffControls M.toTables) c)
      fun slots hok => snbPiece_controls hA hmacros hok
    have hmoved : Moved (OffControls M.toTables) c state.1 := by
      cases code with
      | none => exact hdone rfl
      | some r => exact hret (Option.some_ne_none r)
    have hkept : x.content M cpu state.1 = x.content M cpu c :=
      hmoved.regs _ _ _ fun hoff => hoff x hx ⟨rfl, rfl⟩
    have hafter : x.after s ⟨piece, code, state⟩ = s := by
      cases piece with
      | freeze mask | freezeStop mask | unfreeze mask | unfreezeStart mask =>
          exact absurd trivial hmacros
      | _ => rfl
    rw [hafter]
    refine iff_of_true ⟨hs.congr hkept, fun _ => hmoved.made⟩ fun _ hskips => ?_
    cases piece with
    | freeze mask | freezeStop mask => exact absurd trivial hmacros
    | _ => exact absurd hskips id

end Runs

section Calls

variable {M : Machine} {cbox : Option SandyCboxSetup} {numberOfNumaDomains thread cpu : ℕ}
  {p q : Core × List Slot} {steps : List SnbStep}

/-- A set-up gets to its loop with the slots it was given. -/
theorem snbRoutine_served (routine : Routine) (mask : BitVec 128) (n : ℕ) (flags : Word)
    {slots : List Slot} (htyped : ∀ e, some e ∈ slots → e.Typed M) :
    Prog.Served (SnbPiece.prog M cbox numberOfNumaDomains thread cpu) (SnbPiece.Ok M)
      (routine.snbPieces mask n flags) slots := by
  have hslots : ∀ {m : Prog Int Core Unit} {c c' : Core} {slots' : List Slot},
      Prog.onFst m (c, slots) = .done () (c', slots') → slots' = slots := by
    intro m c c' slots' h
    obtain ⟨c1, -, heq⟩ := Prog.zoom_eq_done.mp h
    exact congrArg Prod.snd heq
  cases routine with
  | setup =>
      refine ⟨trivial, fun _ _ slots1 h1 => ?_⟩
      obtain rfl := hslots h1
      refine ⟨trivial, fun _ _ slots2 h2 => ?_⟩
      obtain rfl := hslots h2
      exact ⟨htyped, fun _ _ _ _ => trivial⟩
  | start | read | stop =>
      refine Prog.served_of_forall ?_ slots
      simp [Routine.snbPieces, SnbPiece.Ok]

theorem SnbCalls.stepsOf (h : SnbCalls M cbox numberOfNumaDomains thread cpu p steps q) :
    Prog.StepsOf (SnbPiece.prog M cbox numberOfNumaDomains thread cpu) (SnbPiece.Ok M) p.1
      steps := by
  induction h with
  | nil p => trivial
  | call routine mask n flags _ htyped _ hruns _ ih =>
      exact hruns.stepsFrom (snbRoutine_served routine mask n flags htyped) ih

/-- **The boxes are frozen and unfrozen as the macros are to**, in every run of calls in which each
box that a freeze skips is frozen already, and in no other. -/
theorem boxesFollow_iff (hM : M.model = sandybridgeEP ∧ M.toTables = sandybridgeEPTables)
    (hF : ControlsAnswer M cpu)
    (hcalls : SnbCalls M cbox numberOfNumaDomains thread cpu p steps q) :
    BoxesFollow M cpu p.1 steps ↔ SkippedFrozen M cpu p.1 steps := by
  refine forall_congr' fun x => forall_congr' fun hx => forall_congr' fun hpresent => ?_
  exact Prog.monitored_iff (I := fun s c => x.Matches M cpu c s)
    (fun _ _ _ hfrom hs => snbStep_follows hM.2 hF hx hpresent hfrom hs)
    (fun _ _ _ hfollows => hfollows.1) hcalls.stepsOf trivial

/-- What a routine skips is a box of its set. -/
theorem Routine.skips_set {routine : Routine} {mask : BitVec 128} {n : ℕ} {flags : Word}
    {piece : SnbPiece} (hpiece : piece ∈ routine.snbPieces mask n flags) {x : SnbControlBox}
    (hskips : piece.Skips x) : hasType mask x.unit ∧ ∃ stop, x.skipped stop = true := by
  cases piece with
  | freeze mask' =>
      have hmask : mask' = mask := by
        cases routine with
        | setup | read => simpa [Routine.snbPieces] using hpiece
        | start | stop => simp [Routine.snbPieces] at hpiece
      exact ⟨hmask ▸ hskips.1, false, hskips.2⟩
  | freezeStop mask' =>
      have hmask : mask' = mask := by
        cases routine with
        | stop => simpa [Routine.snbPieces] using hpiece
        | setup | start | read => simp [Routine.snbPieces] at hpiece
      exact ⟨hmask ▸ hskips.1, true, hskips.2⟩
  | _ => exact absurd hskips id

theorem skippedFrozen_of_sets {c : Core}
    (hsets : ∀ x ∈ snbControlBoxes, x.Present M cpu → ∀ step ∈ steps, ¬step.piece.Skips x) :
    SkippedFrozen M cpu c steps := fun x hx hpresent =>
  Prog.along_of_forall fun step hstep _ _ hskips => absurd hskips (hsets x hx hpresent step hstep)

end Calls

/-! ## Two events -/

/-- A call with the event set it is made with -/
structure SnbCall where
  routine : Routine
  mask : BitVec 128
  numberOfEvents : ℕ
  slots : List Slot

section Sample

variable {M : Machine} {cbox : Option SandyCboxSetup} {numberOfNumaDomains thread cpu : ℕ}

/-- The calls, one after the other, on the state that they share -/
def snbRun (M : Machine) (cbox : Option SandyCboxSetup) (numberOfNumaDomains thread cpu : ℕ) :
    List SnbCall → Core → Option Core
  | [], c => some c
  | call :: calls, c =>
      if haveLock M c cpu then
        ((call.routine.snbProg M cbox numberOfNumaDomains thread cpu call.mask
          call.numberOfEvents).result? (c, call.slots)).bind fun r =>
          snbRun M cbox numberOfNumaDomains thread cpu calls r.2.1
      else none

theorem exists_snbCalls (hmodel : M.model = sandybridgeEP) {calls : List SnbCall} {c c' : Core}
    (htyped : ∀ call ∈ calls, ∀ e, some e ∈ call.slots → e.Typed M)
    (h : snbRun M cbox numberOfNumaDomains thread cpu calls c = some c') (slots : List Slot) :
    ∃ steps q, SnbCalls M cbox numberOfNumaDomains thread cpu (c, slots) steps q ∧ q.1 = c' ∧
      ∀ step ∈ steps, ∃ call ∈ calls, ∃ flags,
        step.piece ∈ call.routine.snbPieces call.mask call.numberOfEvents flags := by
  induction calls generalizing c slots with
  | nil =>
    exact ⟨[], (c, slots), .nil _, Option.some.inj h, fun _ hno => absurd hno List.not_mem_nil⟩
  | cons call calls ih =>
    rw [snbRun] at h
    split at h
    · rename_i hlock
      obtain ⟨⟨⟨⟩, q⟩, hresult, h⟩ := Option.bind_eq_some_iff.mp h
      have hdone := Prog.result?_eq_some.mp hresult
      obtain ⟨flags, steps, hruns⟩ := snbRoutine_runsThrough hmodel call.routine hlock
        (Or.inl hdone)
      obtain ⟨rest, q', hcalls, hleft, hrest⟩ := ih
        (fun call' hcall' => htyped call' (List.mem_cons_of_mem _ hcall')) h q.2
      refine ⟨steps ++ rest, q', .call call.routine call.mask call.numberOfEvents flags hlock
        (htyped call List.mem_cons_self) (Or.inl hdone) hruns hcalls, hleft, fun step hstep => ?_⟩
      rcases List.mem_append.mp hstep with hmem | hmem
      · exact ⟨call, List.mem_cons_self, flags, hruns.piece_mem hmem⟩
      · obtain ⟨call', hcall', hpiece⟩ := hrest step hmem
        exact ⟨call', List.mem_cons_of_mem _ hcall', hpiece⟩
    · cases h

end Sample

theorem controlsAnswer_ep : ControlsAnswer sandyBridgeEPMachine 0 := fun _ _ _ _ => Int.le_refl 0

/-- `CACHE_LOOKUP_M:CBOX0C0` in all four routines -/
def cboxCalls : List SnbCall :=
  [⟨.setup, regTypeMaskOf .cbox0, 1, [some cboxEntry]⟩,
   ⟨.start, regTypeMaskOf .cbox0, 1, [some (cboxEntry.setInit 0 true)]⟩,
   ⟨.read, regTypeMaskOf .cbox0, 1, [some (cboxEntry.setInit 0 true)]⟩,
   ⟨.stop, regTypeMaskOf .cbox0, 1, [some (cboxEntry.setInit 0 true)]⟩]

/-- The box follows them, and the stop has left it frozen. -/
theorem boxesFollow_cbox : ∃ steps q,
    SnbCalls sandyBridgeEPMachine (some .snbep) 2 0 0 (ownerCore, []) steps q ∧
      q.1.regs 0 msrDev 0xD04 = 0x10100 ∧ BoxesFollow sandyBridgeEPMachine 0 ownerCore steps := by
  have hrun : (snbRun sandyBridgeEPMachine (some .snbep) 2 0 0 cboxCalls ownerCore).map
      (fun c => c.regs 0 msrDev 0xD04) = some 0x10100 := by decide +kernel
  obtain ⟨c', hrun, hleft⟩ := Option.map_eq_some_iff.mp hrun
  obtain ⟨steps, q, hcalls, rfl, hpieces⟩ := exists_snbCalls rfl (by decide) hrun []
  refine ⟨steps, q, hcalls, hleft, (boxesFollow_iff ⟨rfl, rfl⟩ controlsAnswer_ep hcalls).mpr ?_⟩
  refine skippedFrozen_of_sets fun x hx _ step hstep hskips => ?_
  obtain ⟨call, hcall, flags, hpiece⟩ := hpieces step hstep
  obtain ⟨hset, stop, hskip⟩ := Routine.skips_set hpiece hskips
  have hmask : ∀ call ∈ cboxCalls, call.mask = regTypeMaskOf .cbox0 := by decide
  have hnone : ∀ x ∈ snbControlBoxes, ∀ stop, x.skipped stop = true →
      ¬hasType (regTypeMaskOf .cbox0) x.unit := by decide
  exact hnone x hx stop hskip (hmask call hcall ▸ hset)

/-- `CAS_COUNT_RD:MBOX0C0` -/
def mboxEntry : PerfmonEventSetEntry where
  event := { name := "CAS_COUNT_RD", limit := "MBOX", eventId := 0x04, umask := 0x03 }
  index := 53
  type := .mbox0
  threadCounter := fun _ => .fresh

/-- The set-up does not freeze it. -/
theorem not_boxesFollow_mbox : ∃ steps q,
    SnbCalls sandyBridgeEPMachine (some .snbep) 2 0 0 (ownerCore, []) steps q ∧
      ¬BoxesFollow sandyBridgeEPMachine 0 ownerCore steps := by
  have hexec : ∃ steps q,
      Prog.RunsThrough (SnbPiece.prog sandyBridgeEPMachine (some .snbep) 2 0 0)
        (ownerCore, [some mboxEntry]) (Routine.setup.snbPieces (regTypeMaskOf .mbox0) 1 0) steps q ∧
        EndsIn (Routine.setup.snbProg sandyBridgeEPMachine (some .snbep) 2 0 0
          (regTypeMaskOf .mbox0) 1) (ownerCore, [some mboxEntry]) q ∧
        ¬BoxesFollow sandyBridgeEPMachine 0 ownerCore steps := by
    refine ⟨_, _, .done rfl (.done rfl (.done rfl (.nil _))), Or.inl rfl, fun hfollow => ?_⟩
    have hpresent : (SnbControlBox.pci .mbox0).Present sandyBridgeEPMachine 0 := Or.inr (by decide)
    obtain ⟨-, ⟨hfrozen, -⟩, -⟩ := hfollow (.pci .mbox0) (by decide) hpresent
    have hfreezes : (SnbControlBox.pci .mbox0).Freezes 0 := hfrozen
    exact absurd hfreezes (by decide)
  obtain ⟨steps, q, hruns, hend, hnot⟩ := hexec
  have hcalls : SnbCalls sandyBridgeEPMachine (some .snbep) 2 0 0 (ownerCore, []) (steps ++ []) q :=
    .call .setup (regTypeMaskOf .mbox0) 1 0 rfl (by decide) hend hruns (.nil q)
  rw [List.append_nil] at hcalls
  exact ⟨steps, q, hcalls, hnot⟩

end Likwid
