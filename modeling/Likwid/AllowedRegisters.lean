import Likwid.DaemonRequests
import Likwid.Lib.Mask

/-!
# The registers a client may access

The Intel allow lists compare some bits of a register number with a value, and
name single registers. None of the masks reaches beyond bit 11 and one ends at
bit 7, so the tests also accept the registers that repeat a block further up
(`confined_iff`).
-/

namespace Likwid

/-! ## The lists -/

/-- `(reg & mask) == value` -/
structure MaskTest where
  mask : BitVec 32
  value : BitVec 32
deriving DecidableEq, Repr

def MaskTest.passes (t : MaskTest) (reg : BitVec 32) : Bool := reg &&& t.mask == t.value

def allowedIntel (reg : BitVec 32) : Bool :=
  reg &&& 0x0F8 == 0x0C0 || reg &&& 0xFF0 == 0x180 || reg &&& 0xF00 == 0x300 ||
    reg &&& 0xF00 == 0xC00 || reg &&& 0xF00 == 0xD00 || reg &&& 0xF00 == 0xE00 ||
    reg &&& 0xF00 == 0xF00 || reg == 0x1A0 || reg == 0x1A4 || reg == 0x0CE || reg == 0x19C ||
    reg == 0x1A2 || reg == 0x1AD || reg == 0x1A6 || reg == 0x1A7

def allowedSandybridge (reg : BitVec 32) : Bool :=
  allowedIntel reg || reg &&& 0xF00 == 0x600

def allowedHaswell (reg : BitVec 32) : Bool :=
  allowedIntel reg || allowedSandybridge reg || reg &&& 0xF00 == 0x700

def allowedSilvermont (reg : BitVec 32) : Bool :=
  reg &&& 0x0F8 == 0x0C0 || reg &&& 0xFF0 == 0x180 || reg &&& 0xF00 == 0x300 ||
    reg &&& 0xF00 == 0x600 || reg &&& 0xF00 == 0xC00 || reg &&& 0xF00 == 0xD00 ||
    reg == 0x1A0 || reg == 0x0CE || reg == 0x1AD || reg == 0x19C || reg == 0x1A2 ||
    reg == 0x1A6 || reg == 0x1A7

/-- The tests and the single registers of a predicate. -/
structure AllowList where
  allowed : BitVec 32 → Bool
  tests : List MaskTest
  registers : List (BitVec 32)
  allowed_eq : ∀ reg, allowed reg = (tests.any (·.passes reg) || registers.contains reg)

def AllowList.intel : AllowList where
  allowed := allowedIntel
  tests :=
    [⟨0x0F8, 0x0C0⟩, ⟨0xFF0, 0x180⟩, ⟨0xF00, 0x300⟩, ⟨0xF00, 0xC00⟩, ⟨0xF00, 0xD00⟩,
      ⟨0xF00, 0xE00⟩, ⟨0xF00, 0xF00⟩]
  registers := [0x1A0, 0x1A4, 0x0CE, 0x19C, 0x1A2, 0x1AD, 0x1A6, 0x1A7]
  allowed_eq reg := by
    simp only [allowedIntel, MaskTest.passes, List.any_cons, List.any_nil, List.contains_cons,
      List.contains_nil, Bool.or_false, Bool.or_assoc]

def AllowList.sandybridge : AllowList where
  allowed := allowedSandybridge
  tests := ⟨0xF00, 0x600⟩ :: AllowList.intel.tests
  registers := AllowList.intel.registers
  allowed_eq reg := by
    have hintel : allowedIntel reg = _ := AllowList.intel.allowed_eq reg
    rw [allowedSandybridge, hintel, Bool.or_comm, ← Bool.or_assoc]
    rfl

def AllowList.haswell : AllowList where
  allowed := allowedHaswell
  tests := ⟨0xF00, 0x700⟩ :: AllowList.sandybridge.tests
  registers := AllowList.sandybridge.registers
  allowed_eq reg := by
    have hsandybridge : allowedSandybridge reg = _ := AllowList.sandybridge.allowed_eq reg
    have habsorb : (allowedIntel reg || allowedSandybridge reg) = allowedSandybridge reg := by
      unfold allowedSandybridge
      rw [← Bool.or_assoc, Bool.or_self]
    rw [allowedHaswell, habsorb, hsandybridge, Bool.or_comm, ← Bool.or_assoc]
    rfl

def AllowList.silvermont : AllowList where
  allowed := allowedSilvermont
  tests :=
    [⟨0x0F8, 0x0C0⟩, ⟨0xFF0, 0x180⟩, ⟨0xF00, 0x300⟩, ⟨0xF00, 0x600⟩, ⟨0xF00, 0xC00⟩,
      ⟨0xF00, 0xD00⟩]
  registers := [0x1A0, 0x0CE, 0x1AD, 0x19C, 0x1A2, 0x1A6, 0x1A7]
  allowed_eq reg := by
    simp only [allowedSilvermont, MaskTest.passes, List.any_cons, List.any_nil,
      List.contains_cons, List.contains_nil, Bool.or_false, Bool.or_assoc]

def intelAllowLists : List AllowList := [.intel, .sandybridge, .haswell, .silvermont]

/-! ## The blocks listed -/

/-- The registers that differ from `value` in the bits below the mask only. -/
def MaskTest.Block (t : MaskTest) (reg : BitVec 32) : Prop :=
  t.value.toNat ≤ reg.toNat ∧ reg.toNat < t.value.toNat + (t.mask &&& -t.mask).toNat

def AllowList.Listed (list : AllowList) (reg : BitVec 32) : Prop :=
  (∃ t ∈ list.tests, t.Block reg) ∨ reg ∈ list.registers

/-- **One register**: it is accepted only if it is listed, and the
daemon accesses no other one. -/
def Confined (list : AllowList) (reg : BitVec 32) : Prop :=
  (list.allowed reg = true → list.Listed reg ∧ reg.toNat < 0x1000) ∧
    ∀ (files : DeviceFiles) (daemon : DaemonSetup) (d d' : Daemon)
      (dRecord reply : AccessDataRecord),
      (daemon.allowed = fun r => list.allowed (BitVec.ofNat 32 r)) →
        dRecord.device = msrDev → dRecord.reg = reg.toNat →
          serve files daemon dRecord d = .done reply d' →
            d'.touched ≠ d.touched → list.Listed reg

/-- No test takes the register for one of its block: below `0x100` none does, below
`0x1000` only the one that looks at the bits 3 to 7, further up every one that
its low bits pass. -/
def AllowList.Unaliased (list : AllowList) (reg : BitVec 32) : Prop :=
  if reg.toNat < 0x1000 then
    reg.toNat < 0x100 ∨ reg &&& 0x0F8 ≠ 0x0C0 ∨
      ∃ t ∈ list.tests, t.mask = 0xF00 ∧ t.passes reg = true
  else ∀ t ∈ list.tests, t.passes reg = false

/-! ## Tests and blocks -/

/-- The mask keeps the bits `k` up to `n - 1`, and the value lies in them. -/
def MaskTest.Keeps (t : MaskTest) (n k : ℕ) : Prop :=
  k ≤ n ∧ t.mask.toNat = 2 ^ n - 2 ^ k ∧ (t.mask &&& -t.mask).toNat = 2 ^ k ∧
    2 ^ k ∣ t.value.toNat ∧ t.value.toNat + 2 ^ k ≤ 2 ^ n

instance MaskTest.decidableKeeps (t : MaskTest) (n k : ℕ) : Decidable (t.Keeps n k) :=
  inferInstanceAs (Decidable (_ ∧ _))

variable {list : AllowList} {reg : BitVec 32} {t : MaskTest} {n k : ℕ}

theorem MaskTest.Keeps.passes_iff (h : t.Keeps n k) (hreg : reg.toNat < 2 ^ n) :
    t.passes reg = true ↔ t.Block reg := by
  obtain ⟨hk, hmask, hlow, hvalue, -⟩ := h
  unfold MaskTest.passes MaskTest.Block
  rw [beq_iff_eq, ← BitVec.toNat_inj, BitVec.toNat_and, hmask, hlow]
  exact Mask.and_eq_iff hk hreg hvalue

theorem MaskTest.Keeps.lt_of_block (h : t.Keeps n k) (hblock : t.Block reg) :
    reg.toNat < 2 ^ n := by
  obtain ⟨-, -, hlow, -, hfits⟩ := h
  have hlt := hblock.2
  rw [hlow] at hlt
  omega

theorem intelAllowLists_narrow : ∀ list ∈ intelAllowLists, ⟨0x0F8, 0x0C0⟩ ∈ list.tests := by
  decide +kernel

theorem intelAllowLists_tests : ∀ list ∈ intelAllowLists, ∀ t ∈ list.tests,
    t = ⟨0x0F8, 0x0C0⟩ ∧ t.Keeps 8 3 ∨ t = ⟨0xFF0, 0x180⟩ ∧ t.Keeps 12 4 ∨
      t.mask = 0xF00 ∧ t.Keeps 12 8 := by
  decide +kernel

theorem intelAllowLists_registers : ∀ list ∈ intelAllowLists, ∀ r ∈ list.registers,
    r.toNat < 0x1000 ∧ (r.toNat < 0x100 ∨ r &&& 0x0F8 ≠ 0x0C0) := by
  -- `decide` on the quantifier itself would go through all words
  have hall : intelAllowLists.all (fun list => list.registers.all fun r =>
      r.toNat < 0x1000 ∧ (r.toNat < 0x100 ∨ r &&& 0x0F8 ≠ 0x0C0)) = true := by
    decide +kernel
  intro list hlist r hr
  have hregisters := List.all_eq_true.mp hall list hlist
  exact of_decide_eq_true (List.all_eq_true.mp hregisters r hr)

theorem AllowList.allowed_iff : list.allowed reg = true ↔
    (∃ t ∈ list.tests, t.passes reg = true) ∨ reg ∈ list.registers := by
  rw [list.allowed_eq, Bool.or_eq_true, List.any_eq_true, List.contains_iff_mem]

theorem listed_lt (hlist : list ∈ intelAllowLists) (h : list.Listed reg) : reg.toNat < 0x1000 := by
  rcases h with ⟨t, ht, hblock⟩ | hmem
  · rcases intelAllowLists_tests list hlist t ht with ⟨-, hkeeps⟩ | ⟨-, hkeeps⟩ | ⟨-, hkeeps⟩
    · exact Nat.lt_trans (hkeeps.lt_of_block hblock) (by decide)
    · exact hkeeps.lt_of_block hblock
    · exact hkeeps.lt_of_block hblock
  · exact (intelAllowLists_registers list hlist reg hmem).1

/-- A register cannot match both `0x0C0` in the bits 3 to 7 and `0x180` in the bits
4 to 11. -/
theorem not_passes_both (h : reg &&& 0x0F8 = 0x0C0) (h' : reg &&& 0xFF0 = 0x180) : False := by
  have hbit : (reg &&& 0x0F8) &&& 0x040 = (reg &&& 0xFF0) &&& 0x040 := by
    rw [BitVec.and_assoc, BitVec.and_assoc]
    rfl
  rw [h, h'] at hbit
  exact absurd hbit (by decide)

/-- Below `0x1000` an accepted register is listed exactly if it is unaliased. -/
theorem listed_of_allowed_iff_of_lt (hlist : list ∈ intelAllowLists) (hreg : reg.toNat < 0x1000) :
    (list.allowed reg = true → list.Listed reg) ↔
      reg.toNat < 0x100 ∨ reg &&& 0x0F8 ≠ 0x0C0 ∨
        ∃ t ∈ list.tests, t.mask = 0xF00 ∧ t.passes reg = true := by
  have hnarrow := intelAllowLists_narrow list hlist
  have htests := intelAllowLists_tests list hlist
  rw [AllowList.allowed_iff]
  constructor
  · intro h
    by_contra hnot
    obtain ⟨hhigh, hbits, hwide⟩ := not_or.mp hnot |>.imp_right not_or.mp
    have hpass : MaskTest.passes ⟨0x0F8, 0x0C0⟩ reg = true := beq_iff_eq.mpr (not_not.mp hbits)
    rcases h (Or.inl ⟨_, hnarrow, hpass⟩) with ⟨t, ht, hblock⟩ | hmem
    · rcases htests t ht with ⟨-, hkeeps⟩ | ⟨rfl, hkeeps⟩ | ⟨hmask, hkeeps⟩
      · exact hhigh (hkeeps.lt_of_block hblock)
      · have hpass' := (hkeeps.passes_iff hreg).mpr hblock
        exact not_passes_both (not_not.mp hbits) (beq_iff_eq.mp hpass')
      · exact hwide ⟨t, ht, hmask, (hkeeps.passes_iff hreg).mpr hblock⟩
    · rcases (intelAllowLists_registers list hlist reg hmem).2 with hlow | hbits'
      · exact hhigh hlow
      · exact hbits hbits'
  · rintro h (⟨t, ht, hpass⟩ | hmem)
    · rcases htests t ht with ⟨rfl, hkeeps⟩ | ⟨-, hkeeps⟩ | ⟨-, hkeeps⟩
      · rcases h with hlow | hbits | ⟨t, ht', hmask, hpass'⟩
        · exact Or.inl ⟨_, ht, (hkeeps.passes_iff hlow).mp hpass⟩
        · exact absurd (beq_iff_eq.mp hpass) hbits
        · rcases htests t ht' with ⟨rfl, -⟩ | ⟨rfl, -⟩ | ⟨-, hkeeps'⟩
          · exact absurd hmask (by decide)
          · exact absurd hmask (by decide)
          · exact Or.inl ⟨t, ht', (hkeeps'.passes_iff hreg).mp hpass'⟩
      · exact Or.inl ⟨t, ht, (hkeeps.passes_iff hreg).mp hpass⟩
      · exact Or.inl ⟨t, ht, (hkeeps.passes_iff hreg).mp hpass⟩
    · exact Or.inr hmem

/-- From `0x1000` on nothing is listed. -/
theorem listed_of_allowed_iff_of_ge (hlist : list ∈ intelAllowLists)
    (hreg : ¬reg.toNat < 0x1000) :
    (list.allowed reg = true → list.Listed reg) ↔ ∀ t ∈ list.tests, t.passes reg = false := by
  constructor
  · intro h t ht
    by_contra hpass
    have hallowed : list.allowed reg = true :=
      AllowList.allowed_iff.mpr (Or.inl ⟨t, ht, Bool.not_eq_false _ ▸ hpass⟩)
    exact hreg (listed_lt hlist (h hallowed))
  · intro h hallowed
    rcases AllowList.allowed_iff.mp hallowed with ⟨t, ht, hpass⟩ | hmem
    · exact absurd (h t ht) (by simp [hpass])
    · exact absurd (intelAllowLists_registers list hlist reg hmem).1 hreg

theorem listed_of_allowed_iff (hlist : list ∈ intelAllowLists) :
    (list.allowed reg = true → list.Listed reg) ↔ list.Unaliased reg := by
  unfold AllowList.Unaliased
  split
  · next hreg => exact listed_of_allowed_iff_of_lt hlist hreg
  · next hreg => exact listed_of_allowed_iff_of_ge hlist hreg

/-! ## Through the daemon -/

variable {files : DeviceFiles} {daemon : DaemonSetup} {d : Daemon} {dRecord : AccessDataRecord}

/-- A register of a CPU is reached only if it is allowed. -/
theorem serve_msr_allowed (hdev : dRecord.device = msrDev) :
    (serve files daemon dRecord).wp
      (fun _ d' => d'.touched ≠ d.touched → daemon.allowed dRecord.reg = true)
      (fun _ _ => True) d := by
  cases htype : dRecord.type with
  | daemonRead =>
      simp only [serve, htype, if_pos hdev, msrRead, Prog.wp_call, Prog.wp_bind, Prog.wp_get,
        Prog.wp_when, Prog.wp_halt, Prog.wp_ret]
      refine ⟨fun _ => trivial, fun _ => ⟨fun _ h => absurd rfl h, fun _ =>
        ⟨fun _ h => absurd rfl h, fun hallowed => ?_⟩⟩⟩
      have hallowed' : daemon.allowed dRecord.reg = true := by simpa using hallowed
      split
      · exact fun _ => hallowed'
      · exact fun _ => hallowed'
  | daemonWrite =>
      simp only [serve, htype, if_pos hdev, msrWrite, Prog.wp_call, Prog.wp_bind, Prog.wp_get,
        Prog.wp_when, Prog.wp_halt, Prog.wp_ret, Prog.wp_modify, Prog.wp_pure]
      refine ⟨fun _ => trivial, fun _ => ⟨fun _ h => absurd rfl h, fun _ =>
        ⟨fun _ h => absurd rfl h, fun hallowed => ?_⟩⟩⟩
      have hallowed' : daemon.allowed dRecord.reg = true := by simpa using hallowed
      exact ⟨fun _ _ => hallowed', fun _ _ => hallowed'⟩
  | daemonCheck =>
      simp only [serve, htype, if_pos hdev, msrCheck, Prog.wp_call, Prog.wp_bind, Prog.wp_get,
        Prog.wp_when, Prog.wp_halt, Prog.wp_ret]
      exact ⟨fun _ => trivial, fun _ => ⟨fun _ h => absurd rfl h, fun _ h => absurd rfl h⟩⟩
  | daemonExit => simp [serve, htype]
  | other code => simp [serve, htype]

/-- **The allow lists confine the clients** exactly on the unaliased registers. -/
theorem confined_iff (hlist : list ∈ intelAllowLists) :
    Confined list reg ↔ list.Unaliased reg := by
  rw [← listed_of_allowed_iff hlist]
  constructor
  · rintro ⟨hlisted, -⟩ hallowed
    exact (hlisted hallowed).1
  · intro h
    refine ⟨fun hallowed => ⟨h hallowed, listed_lt hlist (h hallowed)⟩, ?_⟩
    intro files daemon d d' dRecord reply hdaemon hdev hreg hserve htouched
    have hreached := Prog.wp_done (serve_msr_allowed hdev) hserve htouched
    rw [hdaemon, hreg] at hreached
    have hallowed : list.allowed (BitVec.ofNat 32 reg.toNat) = true := hreached
    rw [BitVec.ofNat_toNat, BitVec.setWidth_eq] at hallowed
    exact h hallowed

/-- `MSR_UNC_CBO_0_PERFEVTSEL0` on Sandy Bridge. -/
theorem confined_iff_uncore :
    Confined .sandybridge 0x700 ↔ AllowList.sandybridge.Unaliased 0x700 :=
  confined_iff (List.mem_cons_of_mem _ List.mem_cons_self)

/-- `0xC00000C1` repeats `IA32_PMC0`, `0x0C1`. -/
theorem not_confined_alias : ¬Confined .intel 0xC00000C1 := by
  rintro ⟨hlisted, -⟩
  exact absurd (hlisted (by decide)).2 (by decide)

end Likwid
