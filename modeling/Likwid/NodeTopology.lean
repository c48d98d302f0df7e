import Likwid.TopologyTypes
import Mathlib.Data.List.Range
import Mathlib.Tactic.Ring

/-!
# Hardware threads from CPUID (`topology_cpuid.c`)

`cpuid_init_nodeTopology` asks CPUID leaf 11 on every hardware thread for its x2APIC id and for
the bits of the id below each level, and cuts the id into the thread, core and package number.
-/

namespace Likwid

structure CpuidRegs where
  eax : BitVec 32
  ebx : BitVec 32
  ecx : BitVec 32
  edx : BitVec 32
deriving DecidableEq, Repr

/-- What `CPUID` returns on a hardware thread for the `eax` and the `ecx` it is given -/
abbrev Cpuid := ℕ → BitVec 32 → BitVec 32 → CpuidRegs

/-! ## The loops -/

/-- The locals the level loop works on, with the thread it fills -/
structure LevelState where
  prevOffset : Int
  thread : HWThread

def levelOffset (cpuid : Cpuid) (i level : ℕ) : Int :=
  ((cpuid i 0x0B (BitVec.ofNat 32 level)).eax &&& 0xF).toNat

def apicIdOf (cpuid : Cpuid) (i : ℕ) : BitVec 32 := (cpuid i 0x0B 0).edx

/-- The conversion of an `int` to the `uint32_t` of a parameter -/
def uint32 (n : Int) : ℕ := (n % 2 ^ 32).toNat

/-- The body of the level loop -/
def levelStep (apicId : BitVec 32) (currOffset : Int) (s : LevelState) (level : ℕ) : LevelState :=
  let thread :=
    match level with
    | 0 => { s.thread with
        threadId := extractBitField apicId (uint32 currOffset) 0 }
    | 1 => { s.thread with
        coreId := extractBitField apicId (uint32 (currOffset - s.prevOffset))
          (uint32 s.prevOffset) }
    | 2 => { s.thread with
        packageId := extractBitField apicId (uint32 (32 - s.prevOffset)) (uint32 s.prevOffset) }
    | _ => s.thread
  { prevOffset := currOffset, thread := thread }

/-- `prevOffset`, which is declared before both loops, and the pool -/
structure PoolState where
  prevOffset : Int
  hwThreadPool : ℕ → HWThread

def hwThreadStep (cpuid : Cpuid) (cpuSet : ℕ → Bool) (s : PoolState) (i : ℕ) : PoolState :=
  let thread := { s.hwThreadPool i with
    apicId := BitVec.ofNat 32 i
    inCpuSet := if cpuSet i then 1 else 0 }
  let r := (List.range 3).foldl
    (fun l level => levelStep (apicIdOf cpuid i) (levelOffset cpuid i level) l level)
    ⟨s.prevOffset, thread⟩
  { prevOffset := r.prevOffset, hwThreadPool := Function.update s.hwThreadPool i r.thread }

def hwThreadLoop (cpuid : Cpuid) (cpuSet : ℕ → Bool) (numHWThreads : ℕ)
    (hwThreadPool : ℕ → HWThread) : PoolState :=
  (List.range numHWThreads).foldl (hwThreadStep cpuid cpuSet) ⟨0, hwThreadPool⟩

/-- The branch of `cpuid_init_nodeTopology` for a processor with leaf 11, from the contents the
allocated pool happens to have -/
def cpuidInitNodeTopology (cpuid : Cpuid) (cpuSet : ℕ → Bool) (numHWThreads : ℕ)
    (malloced : ℕ → HWThread) : List HWThread :=
  (List.range numHWThreads).map (hwThreadLoop cpuid cpuSet numHWThreads malloced).hwThreadPool

/-! ## What the loops leave -/

section Loops

variable {cpuid : Cpuid} {cpuSet : ℕ → Bool} {i level n : ℕ}

theorem levelOffset_bounds : 0 ≤ levelOffset cpuid i level ∧ levelOffset cpuid i level ≤ 15 := by
  have hmask : ((cpuid i 0x0B (BitVec.ofNat 32 level)).eax &&& 0xF).toNat ≤ 15 := by
    rw [BitVec.toNat_and]
    exact Nat.and_le_right
  simp only [levelOffset]
  omega

/-- The entry of one hardware thread. It holds nothing of the threads before it: level 0 does not
read the offset they left, and every field is set. -/
def leafThread (cpuid : Cpuid) (cpuSet : ℕ → Bool) (i : ℕ) : HWThread :=
  let s0 := levelOffset cpuid i 0
  let s1 := levelOffset cpuid i 1
  { threadId := extractBitField (apicIdOf cpuid i) (uint32 s0) 0
    coreId := extractBitField (apicIdOf cpuid i) (uint32 (s1 - s0)) (uint32 s0)
    packageId := extractBitField (apicIdOf cpuid i) (uint32 (32 - s1)) (uint32 s1)
    apicId := BitVec.ofNat 32 i
    inCpuSet := if cpuSet i then 1 else 0 }

theorem hwThreadStep_pool (s : PoolState) :
    (hwThreadStep cpuid cpuSet s i).hwThreadPool =
      Function.update s.hwThreadPool i (leafThread cpuid cpuSet i) := rfl

theorem hwThreadLoop_pool (malloced : ℕ → HWThread) (hi : i < n) :
    (hwThreadLoop cpuid cpuSet n malloced).hwThreadPool i = leafThread cpuid cpuSet i := by
  unfold hwThreadLoop
  induction n with
  | zero => exact absurd hi (Nat.not_lt_zero i)
  | succ n ih =>
    rw [List.range_succ, List.foldl_append, List.foldl_cons, List.foldl_nil, hwThreadStep_pool]
    by_cases hin : i = n
    · rw [hin, Function.update_self]
    · rw [Function.update_of_ne hin]
      exact ih (by omega)

theorem cpuidInitNodeTopology_eq (malloced : ℕ → HWThread) :
    cpuidInitNodeTopology cpuid cpuSet n malloced =
      (List.range n).map (leafThread cpuid cpuSet) :=
  List.map_congr_left fun _ hi => hwThreadLoop_pool malloced (List.mem_range.mp hi)

end Loops

/-! ## The numbers of a hardware thread -/

/-- CPUID reports the shifts `s0` and `s1` on hardware thread `i`. -/
structure Reports (cpuid : Cpuid) (i s0 s1 : ℕ) : Prop where
  thread : levelOffset cpuid i 0 = s0
  core : levelOffset cpuid i 1 = s1

/-- The numbers of `t` are the digits of the x2APIC id between the shifts. -/
structure SplitsApicId (apicId : BitVec 32) (s0 s1 : ℕ) (t : HWThread) : Prop where
  apicId_eq : apicId.toNat =
    t.packageId.toNat * 2 ^ s1 + t.coreId.toNat * 2 ^ s0 + t.threadId.toNat
  threadId_lt : t.threadId.toNat < 2 ^ s0
  coreId_lt : t.coreId.toNat < 2 ^ (s1 - s0)

def HWThread.triple (t : HWThread) : BitVec 32 × BitVec 32 × BitVec 32 :=
  (t.packageId, t.coreId, t.threadId)

section Numbers

variable {cpuid : Cpuid} {cpuSet : ℕ → Bool} {i s0 s1 : ℕ} {apicId apicId' : BitVec 32}
  {t t' : HWThread}

theorem uint32_natCast {k : ℕ} (hk : k ≤ 32) : uint32 k = k := by
  unfold uint32
  omega

/-- Two shifts cut a number into three digits. -/
theorem digits_eq (x : ℕ) (h01 : s0 ≤ s1) :
    x = x / 2 ^ s1 * 2 ^ s1 + x / 2 ^ s0 % 2 ^ (s1 - s0) * 2 ^ s0 + x % 2 ^ s0 := by
  have hpow : 2 ^ s1 = 2 ^ s0 * 2 ^ (s1 - s0) := by
    rw [← Nat.pow_add, Nat.add_sub_cancel' h01]
  calc x = 2 ^ s0 * (x / 2 ^ s0) + x % 2 ^ s0 := (Nat.div_add_mod x (2 ^ s0)).symm
    _ = 2 ^ s0 * (2 ^ (s1 - s0) * (x / 2 ^ s0 / 2 ^ (s1 - s0)) +
          x / 2 ^ s0 % 2 ^ (s1 - s0)) + x % 2 ^ s0 := by
        rw [Nat.div_add_mod (x / 2 ^ s0) (2 ^ (s1 - s0))]
    _ = x / 2 ^ s1 * 2 ^ s1 + x / 2 ^ s0 % 2 ^ (s1 - s0) * 2 ^ s0 + x % 2 ^ s0 := by
        rw [Nat.div_div_eq_div_mul, hpow]
        ring

theorem leafThread_splits (hr : Reports cpuid i s0 s1) (h01 : s0 ≤ s1) :
    SplitsApicId (apicIdOf cpuid i) s0 s1 (leafThread cpuid cpuSet i) := by
  have h15 : s1 ≤ 15 := by
    have hle : levelOffset cpuid i 1 ≤ 15 := levelOffset_bounds.2
    rw [hr.core] at hle
    exact_mod_cast hle
  have hcore : uint32 ((s1 : Int) - s0) = s1 - s0 := by
    rw [← Int.ofNat_sub h01]
    exact uint32_natCast (by omega)
  have hpackage : uint32 (32 - (s1 : Int)) = 32 - s1 := by
    unfold uint32
    omega
  have hthreadId : (leafThread cpuid cpuSet i).threadId.toNat =
      (apicIdOf cpuid i).toNat % 2 ^ s0 := by
    simp only [leafThread, hr.thread]
    rw [uint32_natCast (by omega), extractBitField_toNat (by omega) (by omega), Nat.pow_zero,
      Nat.div_one]
  have hcoreId : (leafThread cpuid cpuSet i).coreId.toNat =
      (apicIdOf cpuid i).toNat / 2 ^ s0 % 2 ^ (s1 - s0) := by
    simp only [leafThread, hr.thread, hr.core]
    rw [hcore, uint32_natCast (by omega), extractBitField_toNat (by omega) (by omega)]
  have hpackageId : (leafThread cpuid cpuSet i).packageId.toNat =
      (apicIdOf cpuid i).toNat / 2 ^ s1 := by
    simp only [leafThread, hr.core]
    rw [hpackage, uint32_natCast (by omega), extractBitField_toNat (by omega) (by omega)]
    -- above the last shift only the rest of the 32 bits is left
    refine Nat.mod_eq_of_lt (Nat.div_lt_of_lt_mul ?_)
    rw [← Nat.pow_add, Nat.add_sub_cancel' (by omega)]
    exact (apicIdOf cpuid i).isLt
  refine ⟨?_, ?_, ?_⟩
  · rw [hthreadId, hcoreId, hpackageId]
    exact digits_eq _ h01
  · rw [hthreadId]
    exact Nat.mod_lt _ (Nat.two_pow_pos s0)
  · rw [hcoreId]
    exact Nat.mod_lt _ (Nat.two_pow_pos (s1 - s0))

theorem SplitsApicId.inj (h : SplitsApicId apicId s0 s1 t) (h' : SplitsApicId apicId' s0 s1 t')
    (htriple : t.triple = t'.triple) : apicId = apicId' := by
  obtain ⟨hpackage, hrest⟩ := Prod.mk.inj htriple
  obtain ⟨hcore, hthread⟩ := Prod.mk.inj hrest
  apply BitVec.eq_of_toNat_eq
  rw [h.apicId_eq, h'.apicId_eq, hpackage, hcore, hthread]

end Numbers

/-- On every hardware thread the three numbers make up the x2APIC id, and two hardware threads with
the same shifts and different ids differ in one of the numbers. -/
theorem cpuidInitNodeTopology_splits (cpuid : Cpuid) (cpuSet : ℕ → Bool) (numHWThreads : ℕ)
    (malloced : ℕ → HWThread) {s0 s1 : ℕ} (h01 : s0 ≤ s1) :
    let pool := cpuidInitNodeTopology cpuid cpuSet numHWThreads malloced
    (∀ i < numHWThreads, Reports cpuid i s0 s1 →
      ∃ t, pool[i]? = some t ∧ SplitsApicId (apicIdOf cpuid i) s0 s1 t) ∧
    ∀ i j t u, pool[i]? = some t → pool[j]? = some u →
      Reports cpuid i s0 s1 → Reports cpuid j s0 s1 →
      apicIdOf cpuid i ≠ apicIdOf cpuid j → t.triple ≠ u.triple := by
  intro pool
  have hpool : ∀ i t, pool[i]? = some t → leafThread cpuid cpuSet i = t := by
    intro i t ht
    simp only [pool, cpuidInitNodeTopology_eq, List.getElem?_map] at ht
    obtain ⟨k, hk, rfl⟩ := Option.map_eq_some_iff.mp ht
    obtain ⟨_, rfl⟩ := List.getElem?_eq_some_iff.mp hk
    rw [List.getElem_range]
  constructor
  · intro i hi hr
    refine ⟨leafThread cpuid cpuSet i, ?_, leafThread_splits hr h01⟩
    simp only [pool, cpuidInitNodeTopology_eq, List.getElem?_map, List.getElem?_range hi,
      Option.map_some]
  · intro i j t u ht hu hi hj hne htriple
    rw [← hpool i t ht, ← hpool j u hu] at htriple
    exact hne ((leafThread_splits hi h01).inj (leafThread_splits hj h01) htriple)

/-- Two hardware threads with the x2APIC ids 6 and 21, one bit for the thread and three for the
core -/
def twoSocketCpuid : Cpuid := fun i eax ecx =>
  let levels : List (BitVec 32) := [1, 4, 0]
  { eax := if eax = 0x0B then levels.getD ecx.toNat 0 else 0
    ebx := 2
    ecx := ecx
    edx := if i = 0 then 6 else 21 }

theorem cpuidInitNodeTopology_splits_twoSocket :
    (1 ≤ 4 ∧ Reports twoSocketCpuid 0 1 4 ∧ Reports twoSocketCpuid 1 1 4 ∧
      apicIdOf twoSocketCpuid 0 ≠ apicIdOf twoSocketCpuid 1) ∧
    let pool := cpuidInitNodeTopology twoSocketCpuid (fun _ => true) 2 fun _ => ⟨7, 7, 7, 7, 7⟩
    ∃ t u, pool[0]? = some t ∧ pool[1]? = some u ∧ SplitsApicId 6 1 4 t ∧
      SplitsApicId 21 1 4 u ∧ t.triple ≠ u.triple := by
  have h0 : Reports twoSocketCpuid 0 1 4 := ⟨by decide, by decide⟩
  have h1 : Reports twoSocketCpuid 1 1 4 := ⟨by decide, by decide⟩
  have hne : apicIdOf twoSocketCpuid 0 ≠ apicIdOf twoSocketCpuid 1 := by decide
  refine ⟨⟨by decide, h0, h1, hne⟩, ?_⟩
  intro pool
  obtain ⟨hsplit, hdistinct⟩ := cpuidInitNodeTopology_splits twoSocketCpuid (fun _ => true) 2
    (fun _ => ⟨7, 7, 7, 7, 7⟩) (by decide : 1 ≤ 4)
  obtain ⟨t, ht, hsplit0⟩ := hsplit 0 (by decide) h0
  obtain ⟨u, hu, hsplit1⟩ := hsplit 1 (by decide) h1
  exact ⟨t, u, ht, hu, hsplit0, hsplit1, hdistinct 0 1 t u ht hu h0 h1 hne⟩

end Likwid
