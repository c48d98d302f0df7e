import Likwid.NehalemEX.Kept
import Likwid.SandyBridge.Kept

/-!
# A start leaves the program of its set alone

What a set-up has written for the events of a set, a start that follows it on the socket lock owner
is to leave as it is. On Nehalem EX it does, and on Sandy Bridge too, but for the filter of `WBOX`:
the start clears it, whatever `occ_filter` the set-up has put there (`programKept_iff`).
-/

namespace Likwid

/-! ## What a start is to leave -/

/-- The architectures, with what the set-up of Sandy Bridge reads besides -/
inductive ProgramArch where
  | sandyBridge (cbox : Option SandyCboxSetup) (numberOfNumaDomains : ℕ)
  | nehalemEX

namespace ProgramArch

/-- The set-up, with the type mask that the set has afterwards -/
def setup (M : Machine) (thread cpu : ℕ) (mask : BitVec 128) (n : ℕ) :
    ProgramArch → Prog Int (Core × List Slot) (BitVec 128)
  | .sandyBridge cbox numberOfNumaDomains => do
      perfmonSetupCounterThreadSandybridge M cbox numberOfNumaDomains thread cpu mask n
      pure mask
  | .nehalemEX => perfmonSetupCounterThreadNehalemEX M thread cpu mask n

def start (M : Machine) : ProgramArch → ThreadRoutine
  | .sandyBridge _ _ => perfmonStartCountersThreadSandybridge M
  | .nehalemEX => perfmonStartCountersThreadNehalemEX M

/-- The machine is one of the architecture. -/
def Is (M : Machine) : ProgramArch → Prop
  | .sandyBridge _ _ => IsSandyBridge M
  | .nehalemEX => M.toTables = nehalemEXTables

/-- The registers that the start reads and writes back, and the filter of `WBOX`, hold what is
written to them. -/
def Faithful (M : Machine) (cpu : ℕ) : ProgramArch → Prop
  | .sandyBridge _ _ => SnbFaithful M cpu
  | .nehalemEX => FaithfulControl M cpu msrUPmonGlobalCtrl

/-- A register that switches the counting and is no part of the program -/
def IsSwitch (M : Machine) (dev : PciDeviceIndex) (reg : ℕ) : ProgramArch → Prop
  | .sandyBridge _ _ => (dev, reg) ∈ snbControls M
  | .nehalemEX => dev = msrDev ∧ NexControl reg

/-- The filter of `WBOX`, of which more is said than that it is kept -/
def IsPcuFilter (dev : PciDeviceIndex) (reg : ℕ) : ProgramArch → Prop
  | .sandyBridge _ _ => dev = msrDev ∧ reg = msrUncPcuPmonBoxFilter
  | .nehalemEX => False

/-- The bits that a start may add to what a register holds: the enable bits of `UBOX` and
`UBOXFIX` -/
def enables (M : Machine) (dev : PciDeviceIndex) (reg : ℕ) : ProgramArch → Word
  | .sandyBridge _ _ => snbEnables M dev reg
  | .nehalemEX => 0

/-- The value in the filter of `WBOX` is the one given, and `MSR_U_PMON_GLOBAL_CTRL` enables the
UBOX and the uncore. -/
def InEffect (cpu : ℕ) (mask mask' : BitVec 128) (es : List PerfmonEventSetEntry) (c : Core) :
    ProgramArch → Prop
  | .sandyBridge _ _ =>
      ∀ e ∈ es, hasType mask e.type → sandyBridgeUnit e.type = .wbox →
        ∀ o ∈ e.event.optionList, o.type = .occupancyFilter →
          c.regs cpu msrDev msrUncPcuPmonBoxFilter = o.value &&& 0xFFFFFFFF
  | .nehalemEX =>
      (∀ e ∈ es, hasType mask e.type → e.type = .ubox → UncoreBit cpu c 0 ∧ UncoreBit cpu c 28) ∧
        (hasUncoreNehalem mask' → UncoreBit cpu c 28)

/-- Every `occ_filter` of the set is 0. -/
def FiltersZero (mask : BitVec 128) (es : List PerfmonEventSetEntry) : ProgramArch → Prop
  | .sandyBridge _ _ =>
      ∀ e ∈ es, hasType mask e.type → sandyBridgeUnit e.type = .wbox →
        ∀ o ∈ e.event.optionList, o.type = .occupancyFilter → o.value &&& 0xFFFFFFFF = 0
  | .nehalemEX => True

end ProgramArch

/-- A set-up of the set, and a start after it, by the thread whose CPU holds the socket lock -/
structure SetUpAndStarted (A : ProgramArch) (M : Machine) (thread cpu : ℕ) (mask mask' : BitVec 128)
    (n : ℕ) (p p' p'' : Core × List Slot) : Prop where
  lock : haveLock M p.1 cpu = true
  typed : ∀ e, some e ∈ p.2 → e.Typed M
  setup : A.setup M thread cpu mask n p = .done mask' p'
  start : A.start M thread cpu mask' n p' = .done () p''

/-- **The program of the set is as the set-up has left it**: no register that the set-up wrote has
changed, but that enable bits were added; and what was asked for is in effect. -/
structure ProgramKept (A : ProgramArch) (M : Machine) (cpu : ℕ) (mask mask' : BitVec 128) (n : ℕ)
    (p p' p'' : Core × List Slot) : Prop where
  kept : ∀ owner dev reg, WroteTo p.1 p'.1 dev reg → ¬A.IsSwitch M dev reg →
    ¬A.IsPcuFilter dev reg →
      AddsBits (A.enables M dev reg) (p'.1.regs owner dev reg) (p''.1.regs owner dev reg)
  inEffect : A.InEffect cpu mask mask' (setEvents n p.2) p''.1

/-! ## The two architectures -/

section

variable {M : Machine} {thread cpu n : ℕ} {mask mask' : BitVec 128} {p p' p'' : Core × List Slot}

theorem Moved.haveLock_eq {W : PciDeviceIndex → ℕ → Prop} {c c' : Core} (h : Moved W c c') :
    haveLock M c' cpu = haveLock M c cpu := by
  unfold haveLock
  rw [h.socketLock]

theorem hasUncoreNehalem_ubox (h : hasType mask .ubox) : hasUncoreNehalem mask := by
  have hbit := (hasType_iff.mp h).2
  intro hzero
  have hclear := congrArg (fun v => v.getLsbD RegisterType.ubox.toNat) hzero
  rw [BitVec.getLsbD_and, hbit] at hclear
  exact absurd hclear (by decide)

theorem programKept_sandyBridge {cbox : Option SandyCboxSetup} {numberOfNumaDomains : ℕ}
    (hA : SnbApart M) (hF : SnbFaithful M cpu)
    (h : SetUpAndStarted (.sandyBridge cbox numberOfNumaDomains) M thread cpu mask mask' n p p'
      p'') :
    ProgramKept (.sandyBridge cbox numberOfNumaDomains) M cpu mask mask' n p p' p'' ↔
      ProgramArch.FiltersZero mask (setEvents n p.2) (.sandyBridge cbox numberOfNumaDomains) := by
  obtain ⟨⟨⟩, q, hset, hmask⟩ := Prog.bind_eq_done.mp h.setup
  cases hmask
  have hmoved := sandyBridgeSetup_moved hA hset
  have hslots := sandyBridgeSetup_slots M hset
  have htyped : ∀ e, some e ∈ p'.2 → e.Typed M := by
    refine hslots.forall (fun e e' he he₀ => ?_) h.typed
    rw [he]
    unfold PerfmonEventSetEntry.setUp
    split
    · exact he₀
    · exact he₀
  have hstarted := sandyBridgeStart_started hF hA (hmoved.haveLock_eq.trans h.lock) htyped h.start
  -- an event of `WBOX` has made the start clear the filter
  have hfilter : ∀ e ∈ setEvents n p.2, hasType mask e.type → sandyBridgeUnit e.type = .wbox →
      p''.1.regs cpu msrDev msrUncPcuPmonBoxFilter = 0 := by
    intro e he hmask hunit
    obtain ⟨e', he', heq⟩ := setEvents_done hslots he
    unfold PerfmonEventSetEntry.setUp at heq
    rw [if_pos hmask] at heq
    subst heq
    refine hstarted.filter ⟨_, he', ⟨?_, hmask⟩, hunit⟩
    rw [PerfmonEventSetEntry.setInit, PerfmonEventSetEntry.onCounter_self]
  constructor
  · intro hkept e he hmask hunit o ho htype
    exact (hkept.inEffect e he hmask hunit o ho htype).symm.trans (hfilter e he hmask hunit)
  · intro hzero
    refine ⟨fun owner dev reg hwrote hswitch hpcu => ?_, fun e he hmask hunit o ho htype => ?_⟩
    · refine hstarted.gained owner dev reg ?_
      rintro ((hcounter | hcontrol) | hpcu')
      · exact hwrote.of_made hmoved.made (List.mem_map_of_mem hcounter)
      · exact hswitch hcontrol
      · exact hpcu hpcu'
    · exact (hfilter e he hmask hunit).trans (hzero e he hmask hunit o ho htype).symm

theorem programKept_nehalemEX (hM : M.toTables = nehalemEXTables)
    (hF : FaithfulControl M cpu msrUPmonGlobalCtrl)
    (h : SetUpAndStarted .nehalemEX M thread cpu mask mask' n p p' p'') :
    ProgramKept .nehalemEX M cpu mask mask' n p p' p'' := by
  obtain ⟨hmoved, htypes, hslots⟩ := nehalemEXSetup_settingUp hM h.typed h.setup
  have htyped : ∀ e, some e ∈ p'.2 → e.Typed M := by
    refine hslots.forall (fun e e' he he₀ => ?_) h.typed
    rcases he.cases with rfl | rfl
    · exact he₀
    · exact he₀
  obtain ⟨hgained, hubox, huncore⟩ := nehalemEXStart_bits hM hF
    (hmoved.haveLock_eq.trans h.lock) htyped h.start
  refine ⟨fun owner dev reg hwrote hswitch _ => ?_, fun e he hmask htype => ?_, huncore⟩
  · refine hgained owner dev reg ?_
    rintro ⟨hdev, hreg⟩
    rcases hwrote.of_made hmoved.made with hcontrol | hoff
    · exact hswitch ⟨hdev, hcontrol⟩
    · exact hoff hreg
  · obtain ⟨e', he', hsetUp⟩ := setEvents_done hslots he
    have hne : e.type ≠ .wbox := by
      rw [htype]
      decide
    obtain rfl := hsetUp.init hne hmask
    have hmask' : hasType mask' e.type := (htypes _ hne).mpr hmask
    refine ⟨hubox ⟨_, he', ⟨?_, hmask'⟩, htype⟩, huncore (hasUncoreNehalem_ubox (htype ▸ hmask'))⟩
    rw [PerfmonEventSetEntry.setInit, PerfmonEventSetEntry.onCounter_self]

/-- **A start leaves the program of its set alone** exactly if every `occ_filter` that was
given is 0. -/
theorem programKept_iff {A : ProgramArch} (hA : A.Is M) (hF : A.Faithful M cpu)
    (h : SetUpAndStarted A M thread cpu mask mask' n p p' p'') :
    ProgramKept A M cpu mask mask' n p p' p'' ↔ A.FiltersZero mask (setEvents n p.2) := by
  cases A with
  | sandyBridge cbox numberOfNumaDomains =>
      exact programKept_sandyBridge (IsSandyBridge.apart hA) hF h
  | nehalemEX => exact iff_of_true (programKept_nehalemEX hA hF h) trivial

theorem exists_setUpAndStarted (A : ProgramArch) (M : Machine) (thread cpu : ℕ)
    (mask : BitVec 128) (n : ℕ) (p : Core × List Slot) (f : Core → Word) {v : Word}
    (hlock : haveLock M p.1 cpu = true) (htyped : ∀ e, some e ∈ p.2 → e.Typed M)
    (h : (((A.setup M thread cpu mask n).result? p).bind fun r =>
      ((A.start M thread cpu r.1 n).result? r.2).map fun q => f q.2.1) = some v) :
    ∃ mask' p' p'', SetUpAndStarted A M thread cpu mask mask' n p p' p'' ∧ f p''.1 = v := by
  obtain ⟨⟨mask', p'⟩, hset, h⟩ := Option.bind_eq_some_iff.mp h
  obtain ⟨⟨⟨⟩, p''⟩, hstart, hv⟩ := Option.map_eq_some_iff.mp h
  exact ⟨mask', p', p'', ⟨hlock, htyped, Prog.result?_eq_some.mp hset,
    Prog.result?_eq_some.mp hstart⟩, hv⟩

end

/-! ## One event -/

/-- `FREQ_BAND0_CYCLES:WBOX0:occ_filter=v` -/
def bandEntry (v : Word) : PerfmonEventSetEntry where
  event := { name := "FREQ_BAND0_CYCLES", limit := "WBOX", eventId := 0x0B, umask := 0x00
             numberOfOptions := 1, options := [⟨.occupancyFilter, v⟩] }
  index := 47
  type := .wbox
  threadCounter := fun _ => .fresh

/-- `BUF_VALID_LOCK:UBOX0` -/
def lockEntry : PerfmonEventSetEntry where
  event := { name := "BUF_VALID_LOCK", limit := "UBOX", eventId := 0x02, umask := 0x00 }
  index := 48
  type := .ubox
  threadCounter := fun _ => .fresh

/-- On Nehalem EX, and on Sandy Bridge EP without a filter -/
theorem programKept_lock :
    (∃ mask' p' p'', SetUpAndStarted .nehalemEX nehalemEXMachine 0 0 (regTypeMaskOf .ubox) mask' 1
        (ownerCore, [some lockEntry]) p' p'' ∧
      ProgramKept .nehalemEX nehalemEXMachine 0 (regTypeMaskOf .ubox) mask' 1
        (ownerCore, [some lockEntry]) p' p'') ∧
    ∃ mask' p' p'', SetUpAndStarted (.sandyBridge (some .snbep) 2) sandyBridgeEPMachine 0 0
        (regTypeMaskOf .wbox) mask' 1 (ownerCore, [some (bandEntry 0)]) p' p'' ∧
      ProgramKept (.sandyBridge (some .snbep) 2) sandyBridgeEPMachine 0 (regTypeMaskOf .wbox) mask'
        1 (ownerCore, [some (bandEntry 0)]) p' p'' := by
  constructor
  · have hA : ProgramArch.nehalemEX.Is nehalemEXMachine := rfl
    have hF : ProgramArch.nehalemEX.Faithful nehalemEXMachine 0 :=
      fun _ => ⟨Int.le_refl 0, fun _ _ => rfl, fun _ => Int.le_refl 0⟩
    obtain ⟨mask', p', p'', h, -⟩ := exists_setUpAndStarted .nehalemEX nehalemEXMachine 0 0
      (regTypeMaskOf .ubox) 1 (ownerCore, [some lockEntry]) (fun _ => 0) (v := 0) rfl (by decide)
      (by decide +kernel)
    exact ⟨mask', p', p'', h, (programKept_iff hA hF h).mpr trivial⟩
  · have hA : (ProgramArch.sandyBridge (some .snbep) 2).Is sandyBridgeEPMachine :=
      Or.inl ⟨rfl, rfl⟩
    have hF : (ProgramArch.sandyBridge (some .snbep) 2).Faithful sandyBridgeEPMachine 0 :=
      fun _ _ _ => ⟨Int.le_refl 0, fun _ _ => rfl, fun _ => Int.le_refl 0⟩
    obtain ⟨mask', p', p'', h, -⟩ := exists_setUpAndStarted (.sandyBridge (some .snbep) 2)
      sandyBridgeEPMachine 0 0 (regTypeMaskOf .wbox) 1 (ownerCore, [some (bandEntry 0)])
      (fun _ => 0) (v := 0) rfl (by decide) (by decide +kernel)
    refine ⟨mask', p', p'', h, (programKept_iff hA hF h).mpr ?_⟩
    intro e he _ _ o ho _
    rw [List.mem_singleton.mp he] at ho
    rw [List.mem_singleton.mp ho]
    rfl

/-- The filter of an event of `WBOX` is gone after the start. -/
theorem not_programKept_band : ∃ mask' p' p'',
    SetUpAndStarted (.sandyBridge (some .snbep) 2) sandyBridgeEPMachine 0 0 (regTypeMaskOf .wbox)
        mask' 1 (ownerCore, [some (bandEntry 0x1E)]) p' p'' ∧
      ¬ProgramKept (.sandyBridge (some .snbep) 2) sandyBridgeEPMachine 0 (regTypeMaskOf .wbox) mask'
        1 (ownerCore, [some (bandEntry 0x1E)]) p' p'' := by
  obtain ⟨mask', p', p'', h, hzero⟩ := exists_setUpAndStarted (.sandyBridge (some .snbep) 2)
    sandyBridgeEPMachine 0 0 (regTypeMaskOf .wbox) 1 (ownerCore, [some (bandEntry 0x1E)])
    (fun c => c.regs 0 msrDev msrUncPcuPmonBoxFilter) (v := 0) rfl (by decide) (by decide +kernel)
  refine ⟨mask', p', p'', h, fun hkept => ?_⟩
  have hfilter := hkept.inEffect (bandEntry 0x1E) List.mem_cons_self (by decide) rfl
    ⟨.occupancyFilter, 0x1E⟩ List.mem_cons_self rfl
  exact absurd (hzero.symm.trans hfilter) (by decide)

end Likwid
