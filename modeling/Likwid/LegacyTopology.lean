import Likwid.AmdTopology
import Mathlib.Data.Nat.Log
import Mathlib.Data.Set.Function
import Mathlib.Order.Bounds.Defs

/-!
# Hardware threads from the counts of leaf 1 and leaf 4 (`topology_cpuid.c`)

Without CPUID leaf 11 the branch of `P6_FAMILY` and `MIC_FAMILY` cuts an APIC id into fields as wide
as the number of hardware threads of a core and the number of cores need. The package number
stands behind the bits for the number of hardware threads of a package. That number is divided by
the number of cores as it is, and where it is not a multiple the quotient is too small: the two
fields end before the package number begins.
-/

namespace Likwid

/-! ## Fields -/

section Fields

variable {x : BitVec 32} {width offset : ℕ}

/-- A field of no bits behind the word: the shifts by 32 do nothing, and the mask is full. -/
theorem extractBitField_32 : extractBitField x 0 32 = x := by
  have hmask : shiftLeft32 (BitVec.allOnes 32) 32 = BitVec.allOnes 32 := by decide
  show shiftRight32 (x &&& shiftLeft32 (BitVec.allOnes 32) 32) 32 = x
  rw [hmask, BitVec.and_allOnes]
  exact BitVec.ushiftRight_zero x

theorem extractBitField_toNat_iff (h : offset + width ≤ 32) :
    (extractBitField x width offset).toNat = x.toNat / 2 ^ offset % 2 ^ width ↔
      (offset = 32 → x = 0) := by
  rcases Nat.lt_or_ge offset 32 with hlt | hge
  · exact iff_of_true (extractBitField_toNat hlt h) fun heq => absurd heq (Nat.ne_of_lt hlt)
  · obtain rfl : offset = 32 := by omega
    obtain rfl : width = 0 := by omega
    rw [extractBitField_32, Nat.pow_zero, Nat.mod_one]
    constructor
    · exact fun hzero _ => BitVec.eq_of_toNat_eq hzero
    · intro hzero
      rw [hzero rfl]
      rfl

end Fields

/-! ## Widths -/

section Widths

variable {n : BitVec 32} {k : ℕ}

theorem getBitFieldWidth_le_iff (hn : n ≠ 0) : getBitFieldWidth n ≤ k ↔ n.toNat ≤ 2 ^ k := by
  have hpos : n.toNat ≠ 0 := fun h => hn (BitVec.eq_of_toNat_eq h)
  have hpred : (n - 1).toNat = n.toNat - 1 := by
    have hone : (1 : BitVec 32) ≤ n := by
      rw [BitVec.le_def]
      exact Nat.pos_of_ne_zero hpos
    exact BitVec.toNat_sub_of_le hone
  unfold getBitFieldWidth
  by_cases hone : n - 1 = 0
  · have hzero : n.toNat - 1 = 0 := by
      rw [← hpred, hone]
      rfl
    have hpow := Nat.two_pow_pos k
    rw [if_pos hone]
    omega
  · have hne : (n - 1).toNat ≠ 0 := fun h => hone (BitVec.eq_of_toNat_eq h)
    have hlog := Nat.log2_lt (k := k) hne
    rw [if_neg hone]
    rw [hpred] at hlog ⊢
    omega

theorem getBitFieldWidth_isLeast (hn : n ≠ 0) :
    IsLeast {k | n.toNat ≤ 2 ^ k} (getBitFieldWidth n) :=
  ⟨(getBitFieldWidth_le_iff hn).mp le_rfl, fun _ hk => (getBitFieldWidth_le_iff hn).mpr hk⟩

theorem getBitFieldWidth_eq (hn : n ≠ 0) : getBitFieldWidth n = Nat.clog 2 n.toNat :=
  eq_of_forall_ge_iff fun k => by
    rw [getBitFieldWidth_le_iff hn, Nat.clog_le_iff_le_pow Nat.one_lt_two]

end Widths

/-! ## The loop -/

/-- What the branch reads before its loop -/
structure LegacyCounts where
  maxNumLogicalProcs : BitVec 32
  maxNumCores : BitVec 32

/-- Leaf 1 and leaf 4 of the CPU the routine is called on -/
def legacyCounts (cpuid : Cpuid) (cpu : ℕ) (ecx : BitVec 32) : LegacyCounts :=
  { maxNumLogicalProcs := extractBitField (cpuid cpu 0x01 ecx).ebx 8 16
    maxNumCores := extractBitField (cpuid cpu 0x04 0).eax 6 26 + 1 }

namespace LegacyCounts

def maxNumLogicalProcsPerCore (c : LegacyCounts) : BitVec 32 :=
  c.maxNumLogicalProcs / c.maxNumCores

def threadId (c : LegacyCounts) (apicId : BitVec 32) : BitVec 32 :=
  extractBitField apicId (getBitFieldWidth c.maxNumLogicalProcsPerCore) 0

def coreId (c : LegacyCounts) (apicId : BitVec 32) : BitVec 32 :=
  extractBitField apicId (getBitFieldWidth c.maxNumCores)
    (getBitFieldWidth c.maxNumLogicalProcsPerCore)

def packageId (c : LegacyCounts) (apicId : BitVec 32) : BitVec 32 :=
  extractBitField apicId (uint32 (8 - getBitFieldWidth c.maxNumLogicalProcs))
    (getBitFieldWidth c.maxNumLogicalProcs)

/-- The body of the loop -/
def hwThread (c : LegacyCounts) (i : ℕ) (t : HWThread) : HWThread :=
  let apicId := BitVec.ofNat 32 i
  { t with
    apicId := apicId
    threadId := c.threadId apicId
    coreId := c.coreId apicId
    packageId := c.packageId apicId }

def hwThreads (c : LegacyCounts) (numHWThreads : ℕ) (hwThreadPool : ℕ → HWThread) :
    ℕ → HWThread :=
  (List.range numHWThreads).foldl
    (fun pool i => Function.update pool i (c.hwThread i (pool i))) hwThreadPool

end LegacyCounts

/-- The branch of `cpuid_init_nodeTopology` for `P6_FAMILY` and `MIC_FAMILY`, called on `cpu` -/
def legacyInitNodeTopology (cpuid : Cpuid) (cpu : ℕ) (ecx : BitVec 32) (numHWThreads : ℕ)
    (malloced : ℕ → HWThread) : List HWThread :=
  (List.range numHWThreads).map ((legacyCounts cpuid cpu ecx).hwThreads numHWThreads malloced)

section Pool

variable {cpuid : Cpuid} {cpu i n : ℕ} {ecx : BitVec 32} {c : LegacyCounts}
  {malloced : ℕ → HWThread}

theorem LegacyCounts.hwThreads_apply :
    c.hwThreads n malloced i = if i < n then c.hwThread i (malloced i) else malloced i := by
  unfold hwThreads
  induction n with
  | zero => exact (if_neg (Nat.not_lt_zero i)).symm
  | succ n ih =>
      rw [List.range_succ, List.foldl_append, List.foldl_cons, List.foldl_nil]
      rcases Nat.lt_trichotomy i n with hlt | rfl | hgt
      · rw [Function.update_of_ne (Nat.ne_of_lt hlt), ih, if_pos hlt,
          if_pos (Nat.lt_succ_of_lt hlt)]
      · rw [Function.update_self, ih, if_neg (Nat.lt_irrefl i), if_pos (Nat.lt_succ_self i)]
      · rw [Function.update_of_ne (Nat.ne_of_gt hgt), ih, if_neg (by omega), if_neg (by omega)]

theorem legacyInitNodeTopology_eq :
    legacyInitNodeTopology cpuid cpu ecx n malloced =
      (List.range n).map fun i => (legacyCounts cpuid cpu ecx).hwThread i (malloced i) :=
  List.map_congr_left fun _ hi => by
    rw [LegacyCounts.hwThreads_apply, if_pos (List.mem_range.mp hi)]

end Pool

/-! ## The ids of a package -/

namespace LegacyCounts

/-- The numbers of the routine inside a package -/
def ids (c : LegacyCounts) (apicId : BitVec 32) : BitVec 32 × BitVec 32 :=
  (c.threadId apicId, c.coreId apicId)

/-- The ids of package `k`: those that differ in the bits for its hardware threads only -/
def packageIds (c : LegacyCounts) (k : ℕ) : Set (BitVec 32) :=
  {apicId | apicId.toNat / 2 ^ Nat.clog 2 c.maxNumLogicalProcs.toNat = k}

/-- A power of two for each of the two fields -/
def fieldIds (c : LegacyCounts) : ℕ :=
  2 ^ Nat.clog 2 (c.maxNumLogicalProcs.toNat / c.maxNumCores.toNat) *
    2 ^ Nat.clog 2 c.maxNumCores.toNat

/-- Counts as the two leaves report them -/
structure Reported (c : LegacyCounts) : Prop where
  procs : c.maxNumLogicalProcs.toNat < 256
  cores : 0 < c.maxNumCores.toNat ∧ c.maxNumCores.toNat ≤ 64

theorem reported (cpuid : Cpuid) (cpu : ℕ) (ecx : BitVec 32) :
    (legacyCounts cpuid cpu ecx).Reported := by
  have hcores : (extractBitField (cpuid cpu 0x04 0).eax 6 26).toNat < 64 := by
    rw [extractBitField_toNat (by omega) (by omega)]
    exact Nat.mod_lt _ (by omega)
  constructor
  case procs =>
    unfold legacyCounts
    rw [extractBitField_toNat (by omega) (by omega)]
    exact Nat.mod_lt _ (by omega)
  case cores =>
    have hone : (1 : BitVec 32).toNat = 1 := rfl
    unfold legacyCounts
    rw [BitVec.toNat_add, hone]
    omega

section Package

variable {c : LegacyCounts} {a b : BitVec 32} {k : ℕ}

theorem perCore_toNat : c.maxNumLogicalProcsPerCore.toNat =
    c.maxNumLogicalProcs.toNat / c.maxNumCores.toNat := BitVec.toNat_udiv

theorem ne_zero_of_pos {n : BitVec 32} (h : 0 < n.toNat) : n ≠ 0 := by
  rintro rfl
  exact Nat.lt_irrefl 0 h

/-- Without a hardware thread for each core the thread number is the whole id. -/
theorem threadId_of_lt (h : c.maxNumLogicalProcs.toNat < c.maxNumCores.toNat) :
    c.threadId a = a := by
  have hzero : c.maxNumLogicalProcsPerCore = 0 := by
    apply BitVec.eq_of_toNat_eq
    rw [perCore_toNat, Nat.div_eq_of_lt h]
    rfl
  apply BitVec.eq_of_toNat_eq
  unfold threadId
  rw [hzero, show getBitFieldWidth 0 = 32 by decide, extractBitField_toNat (by omega) (by omega),
    Nat.pow_zero, Nat.div_one]
  exact Nat.mod_eq_of_lt a.isLt

/-- The two numbers tell ids apart by the bits of their fields. -/
theorem ids_eq_iff (hc : c.Reported)
    (h : c.maxNumCores.toNat ≤ c.maxNumLogicalProcs.toNat) :
    c.ids a = c.ids b ↔ a.toNat % c.fieldIds = b.toNat % c.fieldIds := by
  have hperCore : 0 < c.maxNumLogicalProcsPerCore.toNat := by
    rw [perCore_toNat]
    exact Nat.div_pos h hc.cores.1
  have hlt : c.maxNumLogicalProcs.toNat / c.maxNumCores.toNat ≤ 2 ^ 8 :=
    (Nat.div_le_self _ _).trans hc.procs.le
  have hthreads : Nat.clog 2 (c.maxNumLogicalProcs.toNat / c.maxNumCores.toNat) ≤ 8 :=
    (Nat.clog_le_iff_le_pow Nat.one_lt_two).mpr hlt
  have hcores : Nat.clog 2 c.maxNumCores.toNat ≤ 6 :=
    (Nat.clog_le_iff_le_pow Nat.one_lt_two).mpr hc.cores.2
  have hthread : ∀ x, (c.threadId x).toNat =
      x.toNat % 2 ^ Nat.clog 2 (c.maxNumLogicalProcs.toNat / c.maxNumCores.toNat) := by
    intro x
    unfold threadId
    rw [getBitFieldWidth_eq (ne_zero_of_pos hperCore), perCore_toNat,
      extractBitField_toNat (by omega) (by omega), Nat.pow_zero, Nat.div_one]
  have hcore : ∀ x, (c.coreId x).toNat =
      x.toNat / 2 ^ Nat.clog 2 (c.maxNumLogicalProcs.toNat / c.maxNumCores.toNat) %
        2 ^ Nat.clog 2 c.maxNumCores.toNat := by
    intro x
    unfold coreId
    rw [getBitFieldWidth_eq (ne_zero_of_pos hperCore), perCore_toNat,
      getBitFieldWidth_eq (ne_zero_of_pos hc.cores.1),
      extractBitField_toNat (by omega) (by omega)]
  unfold ids fieldIds
  rw [Prod.mk.injEq, ← BitVec.toNat_inj, ← BitVec.toNat_inj, hthread, hthread, hcore, hcore,
    Nat.mod_mul, Nat.mod_mul]
  constructor
  · rintro ⟨hlow, hhigh⟩
    rw [hlow, hhigh]
  · intro heq
    have hlow := congrArg (· % 2 ^ Nat.clog 2 (c.maxNumLogicalProcs.toNat /
      c.maxNumCores.toNat)) heq
    simp only [Nat.add_mul_mod_self_left, Nat.mod_mod] at hlow
    rw [hlow] at heq
    exact ⟨hlow, Nat.eq_of_mul_eq_mul_left (Nat.two_pow_pos _) (Nat.add_left_cancel heq)⟩

/-- Fields for all hardware threads of a package tell its ids apart, and only those. -/
theorem injOn_ids_iff (hc : c.Reported) :
    (∀ k, Set.InjOn c.ids (c.packageIds k)) ↔ c.maxNumLogicalProcs.toNat ≤ c.fieldIds := by
  rcases Nat.lt_or_ge c.maxNumLogicalProcs.toNat c.maxNumCores.toNat with hlt | hge
  · refine iff_of_true (fun k a _ b _ heq => ?_) ?_
    · have hthread : c.threadId a = c.threadId b := congrArg Prod.fst heq
      rwa [threadId_of_lt hlt, threadId_of_lt hlt] at hthread
    · have hcores := Nat.le_pow_clog Nat.one_lt_two c.maxNumCores.toNat
      have hmul := Nat.le_mul_of_pos_left (2 ^ Nat.clog 2 c.maxNumCores.toNat)
        (Nat.two_pow_pos (Nat.clog 2 (c.maxNumLogicalProcs.toNat / c.maxNumCores.toNat)))
      unfold fieldIds
      omega
  · have hfield : c.fieldIds = 2 ^ (Nat.clog 2 (c.maxNumLogicalProcs.toNat / c.maxNumCores.toNat) +
        Nat.clog 2 c.maxNumCores.toNat) := (Nat.pow_add ..).symm
    constructor
    · intro hinj
      by_contra hnot
      rw [Nat.not_le] at hnot
      -- the first id behind both fields has the numbers of id 0
      have hprocs := hc.procs
      have hpow := Nat.le_pow_clog Nat.one_lt_two c.maxNumLogicalProcs.toNat
      have hnext : (BitVec.ofNat 32 c.fieldIds).toNat = c.fieldIds :=
        BitVec.toNat_ofNat _ _ |>.trans (Nat.mod_eq_of_lt (by omega))
      have hids : c.ids (BitVec.ofNat 32 c.fieldIds) = c.ids 0 := by
        rw [ids_eq_iff hc hge, hnext, Nat.mod_self]
        exact (Nat.zero_mod _).symm
      have hmem : BitVec.ofNat 32 c.fieldIds ∈ c.packageIds 0 := by
        show _ / _ = 0
        rw [hnext]
        exact Nat.div_eq_of_lt (by omega)
      have hzero : (0 : BitVec 32) ∈ c.packageIds 0 := Nat.zero_div _
      have heq := congrArg BitVec.toNat (hinj 0 hmem hzero hids)
      rw [hnext, hfield] at heq
      exact absurd heq (Nat.two_pow_pos _).ne'
    · intro hle k a ha b hb heq
      have hwidth : Nat.clog 2 c.maxNumLogicalProcs.toNat ≤
          Nat.clog 2 (c.maxNumLogicalProcs.toNat / c.maxNumCores.toNat) +
            Nat.clog 2 c.maxNumCores.toNat := by
        rw [Nat.clog_le_iff_le_pow Nat.one_lt_two, ← hfield]
        exact hle
      have hdvd : 2 ^ Nat.clog 2 c.maxNumLogicalProcs.toNat ∣ c.fieldIds := by
        rw [hfield]
        exact Nat.pow_dvd_pow 2 hwidth
      have hmod := (ids_eq_iff hc hge).mp heq
      have hlow : a.toNat % 2 ^ Nat.clog 2 c.maxNumLogicalProcs.toNat =
          b.toNat % 2 ^ Nat.clog 2 c.maxNumLogicalProcs.toNat := by
        rw [← Nat.mod_mod_of_dvd a.toNat hdvd, hmod, Nat.mod_mod_of_dvd _ hdvd]
      have hhigh : a.toNat / 2 ^ Nat.clog 2 c.maxNumLogicalProcs.toNat =
          b.toNat / 2 ^ Nat.clog 2 c.maxNumLogicalProcs.toNat := ha.trans hb.symm
      apply BitVec.eq_of_toNat_eq
      rw [← Nat.div_add_mod a.toNat (2 ^ Nat.clog 2 c.maxNumLogicalProcs.toNat), hlow, hhigh,
        Nat.div_add_mod]

theorem le_fieldIds_of_dvd (h : c.maxNumCores.toNat ∣ c.maxNumLogicalProcs.toNat) :
    c.maxNumLogicalProcs.toNat ≤ c.fieldIds := by
  calc c.maxNumLogicalProcs.toNat
      = c.maxNumLogicalProcs.toNat / c.maxNumCores.toNat * c.maxNumCores.toNat :=
        (Nat.div_mul_cancel h).symm
    _ ≤ c.fieldIds := Nat.mul_le_mul (Nat.le_pow_clog Nat.one_lt_two _)
        (Nat.le_pow_clog Nat.one_lt_two _)

end Package

end LegacyCounts

/-! ## The decode -/

/-- The two functions on bits, and the decode they make up -/
structure DecodesIds (x : BitVec 32) (width offset : ℕ) (n : BitVec 32) (c : LegacyCounts) :
    Prop where
  field : (extractBitField x width offset).toNat = x.toNat / 2 ^ offset % 2 ^ width
  width : IsLeast {k | n.toNat ≤ 2 ^ k} (getBitFieldWidth n)
  package : ∀ k, Set.InjOn c.ids (c.packageIds k)

theorem decodesIds_iff (x : BitVec 32) {width offset : ℕ} (h : offset + width ≤ 32)
    {n : BitVec 32} (hn : 1 ≤ n) (cpuid : Cpuid) (cpu : ℕ) (ecx : BitVec 32) :
    DecodesIds x width offset n (legacyCounts cpuid cpu ecx) ↔
      (offset = 32 → x = 0) ∧
        (legacyCounts cpuid cpu ecx).maxNumLogicalProcs.toNat ≤
          (legacyCounts cpuid cpu ecx).fieldIds := by
  have hc := LegacyCounts.reported cpuid cpu ecx
  have hne : n ≠ 0 := LegacyCounts.ne_zero_of_pos hn
  constructor
  · intro hdecodes
    exact ⟨(extractBitField_toNat_iff h).mp hdecodes.field,
      (LegacyCounts.injOn_ids_iff hc).mp hdecodes.package⟩
  · rintro ⟨hfield, hpackage⟩
    constructor
    case field => exact (extractBitField_toNat_iff h).mpr hfield
    case width => exact getBitFieldWidth_isLeast hne
    case package => exact (LegacyCounts.injOn_ids_iff hc).mpr hpackage

/-- A package of `procs` hardware threads and `cores` cores -/
def countsCpuid (procs cores : BitVec 32) : Cpuid := fun _ eax _ =>
  { eax := if eax = 0x04 then (cores - 1) <<< 26 else 0
    ebx := if eax = 0x01 then procs <<< 16 else 0
    ecx := 0
    edx := 0 }

theorem decodesIds_iff_hyperThreads :
    DecodesIds 0xABCD 8 4 6 (legacyCounts (countsCpuid 8 4) 0 0) := by
  refine (decodesIds_iff 0xABCD (by omega) (by decide) (countsCpuid 8 4) 0 0).mpr ⟨nofun, ?_⟩
  exact LegacyCounts.le_fieldIds_of_dvd ⟨2, rfl⟩

/-- Six hardware threads on four cores: the ids 0 and 4 have the same numbers. -/
theorem not_decodesIds_sixOnFour :
    ¬DecodesIds 0xABCD 8 4 6 (legacyCounts (countsCpuid 6 4) 0 0) ∧
      ¬DecodesIds 1 0 32 6 (legacyCounts (countsCpuid 8 4) 0 0) := by
  constructor
  · intro hdecodes
    have hprocs : (legacyCounts (countsCpuid 6 4) 0 0).maxNumLogicalProcs = 6 := by decide
    have hlog : Nat.clog 2 6 = 3 := by decide
    have hmem : ∀ a : BitVec 32, a.toNat < 8 →
        a ∈ (legacyCounts (countsCpuid 6 4) 0 0).packageIds 0 := by
      intro a ha
      show _ / 2 ^ Nat.clog 2 _ = 0
      rw [hprocs]
      show _ / 2 ^ Nat.clog 2 6 = 0
      rw [hlog]
      exact Nat.div_eq_of_lt ha
    have heq : (0 : BitVec 32) = 4 :=
      hdecodes.package 0 (hmem 0 (by decide)) (hmem 4 (by decide)) (by decide)
    exact absurd heq (by decide)
  · intro hdecodes
    exact absurd hdecodes.field (by decide)

end Likwid
