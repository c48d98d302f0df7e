import Likwid.AmdTopology

/-!
# Caches of AMD processors (`topology_cpuid.c`)

The branches of `cpuid_init_cacheTopology` for AMD. K8 and K10 read two or three levels of known
kind out of two CPUID leaves and divide to get the number of sets. K15 and K16 go through the
sub-leaves of one leaf and multiply to get the size.
-/

namespace Likwid

/-- What the routine must not do -/
inductive CacheFault where
  | dividesByZero
  | outsidePool
deriving DecidableEq, Repr

/-- What the routine reads: CPUID on the CPU it runs on, for `eax` and `ecx`, the `ecx` before it,
the processor model and `cpuid_topology.numCoresPerSocket` -/
structure CacheMachine where
  cpuid : BitVec 32 → BitVec 32 → CpuidRegs
  ecx : BitVec 32
  model : BitVec 32
  numCoresPerSocket : BitVec 32

def magnyCours : BitVec 32 := 0x09

def amdGetAssociativity (flag : BitVec 32) : BitVec 32 :=
  match flag.toNat with
  | 0x0 => 0
  | 0x1 => 1
  | 0x2 => 2
  | 0x4 => 4
  | 0x6 => 8
  | 0x8 => 16
  | 0xA => 32
  | 0xB => 48
  | 0xC => 64
  | 0xD => 96
  | 0xE => 128
  | 0xF => 0
  | _ => 0

/-! ## K8 and K10 -/

namespace CacheMachine

def leaf5 (m : CacheMachine) : CpuidRegs := m.cpuid 0x80000005 m.ecx

def leaf6 (m : CacheMachine) : CpuidRegs := m.cpuid 0x80000006 m.leaf5.ecx

/-- `cachePool[0]`, apart from the sets -/
def level1 (m : CacheMachine) (sets : BitVec 32) : CacheLevel where
  level := 1
  type := .dataCache
  associativity := extractBitField m.leaf5.ecx 8 16
  sets := sets
  lineSize := extractBitField m.leaf5.ecx 8 0
  size := extractBitField m.leaf5.ecx 8 24 * 1024
  threads := 1
  inclusive := 1

/-- `cachePool[1]`, apart from the sets -/
def level2 (m : CacheMachine) (sets : BitVec 32) : CacheLevel where
  level := 2
  type := .unifiedCache
  associativity := amdGetAssociativity (extractBitField m.leaf6.ecx 4 12)
  sets := sets
  lineSize := extractBitField m.leaf6.ecx 8 0
  size := extractBitField m.leaf6.ecx 16 16 * 1024
  threads := 1
  inclusive := 1

/-- `cachePool[2]` of K10, apart from the sets. On Magny-Cours its threads and its size are
halved. -/
def level3 (m : CacheMachine) (sets : BitVec 32) : CacheLevel where
  level := 3
  type := .unifiedCache
  associativity := amdGetAssociativity (extractBitField m.leaf6.edx 4 12)
  sets := sets
  lineSize := extractBitField m.leaf6.edx 8 0
  size := (extractBitField m.leaf6.edx 14 18 + 1) * 524288
  threads := m.numCoresPerSocket
  inclusive := 1

end CacheMachine

def CacheLevel.halved (t : CacheLevel) : CacheLevel :=
  { t with threads := t.threads / 2, size := t.size / 2 }

/-- `t.size / (t.associativity * t.lineSize)` -/
def CacheLevel.quotient (t : CacheLevel) : BitVec 32 := t.size / (t.associativity * t.lineSize)

/-- `if ((guard.associativity * guard.lineSize) != 0) sets = of.size / (of.associativity *
of.lineSize)`, from the `old` contents of `sets` -/
def guardedSets (guard of : CacheLevel) (old : BitVec 32) : Except CacheFault (BitVec 32) :=
  if guard.associativity * guard.lineSize ≠ 0 then
    if of.associativity * of.lineSize = 0 then .error .dividesByZero
    else .ok of.quotient
  else .ok old

/-- The case `K8_FAMILY`, from what `malloc` left in the sets of the pool -/
def k8CacheLevels (m : CacheMachine) (malloced : ℕ → BitVec 32) :
    Except CacheFault (List CacheLevel) := do
  let sets0 ← guardedSets (m.level1 0) (m.level1 0) (malloced 0)
  let sets1 ← guardedSets (m.level1 0) (m.level2 0) (malloced 1)
  .ok [m.level1 sets0, m.level2 sets1]

/-- The case `K10_FAMILY`: the sets of level 3 are computed from level 2. -/
def k10CacheLevels (m : CacheMachine) (malloced : ℕ → BitVec 32) :
    Except CacheFault (List CacheLevel) := do
  let sets0 ← guardedSets (m.level1 0) (m.level1 0) (malloced 0)
  let sets1 ← guardedSets (m.level1 0) (m.level2 0) (malloced 1)
  let sets2 ← guardedSets (m.level1 0) (m.level2 0) (malloced 2)
  let level3 := m.level3 sets2
  .ok [m.level1 sets0, m.level2 sets1, if m.model ≠ magnyCours then level3 else level3.halved]

/-! ## K15 and K16 -/

namespace CacheMachine

def subLeaf (m : CacheMachine) (id : ℕ) : CpuidRegs := m.cpuid 0x8000001D (BitVec.ofNat 32 id)

def subType (m : CacheMachine) (id : ℕ) : BitVec 32 := extractBitField (m.subLeaf id).eax 4 0

/-- The sub-leaf is one of a data or a unified cache. -/
def isData (m : CacheMachine) (id : ℕ) : Bool := m.subType id = 1 || m.subType id = 3

def subLevel (m : CacheMachine) (id : ℕ) : CacheLevel :=
  let r := m.subLeaf id
  let associativity := extractBitField r.ebx 10 22 + 1
  let lineSize := extractBitField r.ebx 12 0 + 1
  let sets := extractBitField r.ecx 32 0 + 1
  { level := extractBitField r.eax 3 5
    type := if m.subType id = 1 then .dataCache else .unifiedCache
    associativity := associativity
    sets := sets
    lineSize := lineSize
    size := associativity * lineSize * sets
    threads := extractBitField r.eax 12 14 + 1
    inclusive := r.edx &&& 0x2 }

end CacheMachine

/-- The loop over the sub-leaves, from `id` on, with the entries written so far. The pool has
three. -/
def k15CacheLevels (m : CacheMachine) :
    (fuel id : ℕ) → (levels : List CacheLevel) → Option (Except CacheFault (List CacheLevel))
  | 0, _, _ => none
  | fuel + 1, id, levels =>
    if m.isData id then
      if levels.length < 3 then k15CacheLevels m fuel (id + 1) (levels ++ [m.subLevel id])
      else some (.error .outsidePool)
    else if m.subType id = 0 then some (.ok levels)
    else k15CacheLevels m fuel (id + 1) levels

/-- The AMD branches of `cpuid_init_cacheTopology` -/
def amdInitCacheTopology (family : AmdFamily) (m : CacheMachine) (malloced : ℕ → BitVec 32)
    (fuel : ℕ) : Option (Except CacheFault (List CacheLevel)) :=
  match family with
  | .k8 => some (k8CacheLevels m malloced)
  | .k10 => some (k10CacheLevels m malloced)
  | .k15 | .k16 => k15CacheLevels m fuel 0 []

/-! ## What is asked of the levels -/

/-- The bytes of one set -/
def CacheLevel.setBytes (t : CacheLevel) : ℕ := t.associativity.toNat * t.lineSize.toNat

/-- If the level has sets and they divide its size, their number times their bytes is the size. -/
def SetsFit (size : ℕ) (t : CacheLevel) : Prop :=
  t.associativity ≠ 0 → t.lineSize ≠ 0 → t.setBytes ∣ size →
    t.sets.toNat * t.associativity.toNat * t.lineSize.toNat = size

/-- The size of entry `k` before it was halved -/
def unhalvedSize (family : AmdFamily) (m : CacheMachine) (k : ℕ) (t : CacheLevel) : ℕ :=
  if family = .k10 ∧ m.model = magnyCours ∧ k = 2 then 2 * t.size.toNat else t.size.toNat

/-- The routine divides by no zero, stays in the pool and fits the sets of all levels, whatever
the pool held before. -/
def FitsCaches (family : AmdFamily) (m : CacheMachine) : Prop :=
  ∀ malloced, ∃ levels n,
    (∀ fuel ≥ n, amdInitCacheTopology family m malloced fuel = some (.ok levels)) ∧
      ∀ k t, levels[k]? = some t → SetsFit (unhalvedSize family m k t) t

/-- Sub-leaf `last` is the first one of type 0. -/
structure EndsAt (m : CacheMachine) (last : ℕ) : Prop where
  zero : m.subType last = 0
  before : ∀ id < last, m.subType id ≠ 0

/-- The level has no sets of which its size is a multiple. -/
def CacheLevel.Unfit (t : CacheLevel) : Prop := t.setBytes = 0 ∨ ¬t.setBytes ∣ t.size.toNat

/-- The condition on the registers of K8: both levels have sets, or level 1 has none and level 2
is not looked at -/
def K8Fits (m : CacheMachine) : Prop :=
  ((m.level1 0).setBytes ≠ 0 ∧ (m.level2 0).setBytes ≠ 0) ∨
    ((m.level1 0).setBytes = 0 ∧ (m.level2 0).Unfit)

/-- On K10 level 3 must in addition have as many sets as level 2, if it is looked at. -/
def K10Fits (m : CacheMachine) : Prop :=
  ((m.level1 0).setBytes ≠ 0 ∧ (m.level2 0).setBytes ≠ 0 ∧
      ((m.level3 0).Unfit ∨ (m.level2 0).size.toNat / (m.level2 0).setBytes *
        (m.level3 0).setBytes = (m.level3 0).size.toNat)) ∨
    ((m.level1 0).setBytes = 0 ∧ (m.level2 0).Unfit ∧ (m.level3 0).Unfit)

/-- On K15 and K16 there are at most three data and unified caches, and the size of each is one of
32 bits, unless what is left of it is no multiple of the bytes of a set. -/
def K15Fits (m : CacheMachine) (last : ℕ) : Prop :=
  ((List.range last).filter m.isData).length ≤ 3 ∧
    ∀ id < last, m.isData id = true →
      (m.subLevel id).setBytes ∣ (m.subLevel id).size.toNat →
      (m.subLevel id).sets.toNat * (m.subLevel id).setBytes < 2 ^ 32

def RegistersFit (family : AmdFamily) (m : CacheMachine) (last : ℕ) : Prop :=
  match family with
  | .k8 => K8Fits m
  | .k10 => K10Fits m
  | .k15 | .k16 => K15Fits m last

/-! ## Fields that do not overflow -/

section Fields

variable {m : CacheMachine} {x : BitVec 32} {width offset : ℕ}

theorem extractBitField_lt (ho : offset < 32) (hw : offset + width ≤ 32) :
    (extractBitField x width offset).toNat < 2 ^ width := by
  rw [extractBitField_toNat ho hw]
  exact Nat.mod_lt _ (Nat.two_pow_pos width)

theorem amdGetAssociativity_le (flag : BitVec 32) : (amdGetAssociativity flag).toNat ≤ 128 := by
  unfold amdGetAssociativity
  split <;> decide

/-- The bytes of a set as the routine computes them -/
theorem setBytes_mul {t : CacheLevel} (ha : t.associativity.toNat < 2 ^ 16)
    (hl : t.lineSize.toNat < 2 ^ 16) :
    (t.associativity * t.lineSize).toNat = t.setBytes := by
  have hpow : 2 ^ 32 = 2 ^ 16 * 2 ^ 16 := by decide
  have hlt : t.associativity.toNat * t.lineSize.toNat < 2 ^ 32 :=
    hpow ▸ Nat.mul_lt_mul'' ha hl
  rw [BitVec.toNat_mul, Nat.mod_eq_of_lt hlt]
  rfl

theorem level1_mul (sets : BitVec 32) :
    ((m.level1 sets).associativity * (m.level1 sets).lineSize).toNat = (m.level1 0).setBytes := by
  refine setBytes_mul (t := m.level1 sets) ?_ ?_
  · exact Nat.lt_trans (extractBitField_lt (by omega) (by omega)) (by omega)
  · exact Nat.lt_trans (extractBitField_lt (by omega) (by omega)) (by omega)

theorem level2_mul (sets : BitVec 32) :
    ((m.level2 sets).associativity * (m.level2 sets).lineSize).toNat = (m.level2 0).setBytes := by
  refine setBytes_mul (t := m.level2 sets) ?_ ?_
  · exact Nat.lt_of_le_of_lt (amdGetAssociativity_le _) (by omega)
  · exact Nat.lt_trans (extractBitField_lt (by omega) (by omega)) (by omega)

theorem toNat_succ_lt (hx : x.toNat < 2 ^ width) (hwidth : width < 16) :
    (x + 1).toNat < 2 ^ 16 := by
  have hpow : 2 ^ width ≤ 2 ^ 15 := Nat.pow_le_pow_right (by omega) (by omega)
  have hone : (1 : BitVec 32).toNat = 1 := by decide
  rw [BitVec.toNat_add, hone]
  omega

theorem subLevel_mul (id : ℕ) :
    ((m.subLevel id).associativity * (m.subLevel id).lineSize).toNat =
      (m.subLevel id).setBytes := by
  refine setBytes_mul ?_ ?_
  · exact toNat_succ_lt (extractBitField_lt (by omega) (by omega)) (by omega)
  · exact toNat_succ_lt (extractBitField_lt (by omega) (by omega)) (by omega)

/-- The size of level 3 is even before it is halved. -/
theorem level3_even (sets : BitVec 32) : 2 ∣ (m.level3 sets).size.toNat := by
  show 2 ∣ ((extractBitField m.leaf6.edx 14 18 + 1) * 524288).toNat
  have hlit : (524288 : BitVec 32).toNat = 524288 := by decide
  rw [BitVec.toNat_mul, hlit]
  omega

end Fields

/-! ## Fitting sets -/

section Fitting

variable {m : CacheMachine} {t guard : CacheLevel} {size : ℕ}

theorem setsFit_iff : SetsFit size t ↔
    (t.setBytes = 0 ∨ ¬t.setBytes ∣ size ∨ t.sets.toNat * t.setBytes = size) := by
  have hword : ∀ x : BitVec 32, x.toNat = 0 ↔ x = 0 := fun x =>
    ⟨fun h => BitVec.eq_of_toNat_eq h, fun h => h ▸ rfl⟩
  have hzero : t.setBytes = 0 ↔ t.associativity = 0 ∨ t.lineSize = 0 := by
    unfold CacheLevel.setBytes
    rw [Nat.mul_eq_zero, hword, hword]
  unfold SetsFit
  rw [Nat.mul_assoc]
  change (_ → _ → _ → t.sets.toNat * t.setBytes = size) ↔ _
  constructor
  · intro h
    by_cases h0 : t.setBytes = 0
    · exact .inl h0
    · obtain ⟨ha, hl⟩ := not_or.mp (hzero.not.mp h0)
      by_cases hdvd : t.setBytes ∣ size
      · exact .inr (.inr (h ha hl hdvd))
      · exact .inr (.inl hdvd)
  · rintro (h0 | hno | heq) ha hl hdvd
    · rcases hzero.mp h0 with h | h
      · exact absurd h ha
      · exact absurd h hl
    · exact absurd hdvd hno
    · exact heq

theorem setsFit_of_div (hsets : t.sets.toNat = size / t.setBytes) : SetsFit size t := by
  rw [setsFit_iff]
  by_cases hdvd : t.setBytes ∣ size
  · exact .inr (.inr (by rw [hsets, Nat.div_mul_cancel hdvd]))
  · exact .inr (.inl hdvd)

/-- Contents of `sets` that nobody wrote fit only a level of which nothing is asked. -/
theorem setsFit_garbage {f : BitVec 32 → CacheLevel}
    (hbytes : ∀ g, (f g).setBytes = (f 0).setBytes) (hsets : ∀ g, (f g).sets = g)
    (hsize : (f 0).size.toNat = size) : (∀ g, SetsFit size (f g)) ↔ (f 0).Unfit := by
  unfold CacheLevel.Unfit
  constructor
  · intro h
    by_contra hfit
    rw [not_or, not_not, hsize] at hfit
    obtain ⟨hne, hdvd⟩ := hfit
    have hfits : ∀ g : BitVec 32, g.toNat * (f 0).setBytes = size := fun g => by
      rcases setsFit_iff.mp (h g) with h0 | hno | heq
      · exact absurd (hbytes g ▸ h0) hne
      · exact absurd hdvd (hbytes g ▸ hno)
      · rwa [hbytes, hsets] at heq
    have h0 := hfits 0
    have h1 := hfits 1
    have hzero : (0 : BitVec 32).toNat = 0 := rfl
    have hone : (1 : BitVec 32).toNat = 1 := rfl
    rw [hzero] at h0
    rw [hone] at h1
    omega
  · intro h g
    rw [setsFit_iff, hbytes]
    rcases h with h | h
    · exact .inl h
    · exact .inr (.inl (hsize ▸ h))

theorem guardedSets_unset (of : CacheLevel) (old : BitVec 32)
    (hguard : (guard.associativity * guard.lineSize).toNat = 0) :
    guardedSets guard of old = .ok old :=
  if_neg (not_not.mpr (BitVec.eq_of_toNat_eq hguard))

theorem guardedSets_zero {of : CacheLevel} (old : BitVec 32)
    (hguard : (guard.associativity * guard.lineSize).toNat ≠ 0)
    (hof : (of.associativity * of.lineSize).toNat = 0) :
    guardedSets guard of old = .error .dividesByZero := by
  have hne : guard.associativity * guard.lineSize ≠ 0 := fun h => hguard (h ▸ rfl)
  rw [guardedSets, if_pos hne, if_pos (BitVec.eq_of_toNat_eq hof)]

theorem guardedSets_div {of : CacheLevel} (old : BitVec 32)
    (hguard : (guard.associativity * guard.lineSize).toNat ≠ 0)
    (hof : (of.associativity * of.lineSize).toNat ≠ 0) :
    guardedSets guard of old = .ok of.quotient := by
  have hne : guard.associativity * guard.lineSize ≠ 0 := fun h => hguard (h ▸ rfl)
  have hne' : of.associativity * of.lineSize ≠ 0 := fun h => hof (h ▸ rfl)
  rw [guardedSets, if_pos hne, if_neg hne']

theorem forall_entry_cons {P : ℕ → CacheLevel → Prop} {levels : List CacheLevel} :
    (∀ k t', (t :: levels)[k]? = some t' → P k t') ↔
      P 0 t ∧ ∀ k t', levels[k]? = some t' → P (k + 1) t' := by
  constructor
  · exact fun h => ⟨h 0 t rfl, fun k t' ht => h (k + 1) t' ht⟩
  · rintro ⟨h0, h⟩ k t' ht
    cases k with
    | zero => exact Option.some_inj.mp ht ▸ h0
    | succ k => exact h k t' ht

theorem forall_entry_pair {P : ℕ → CacheLevel → Prop} {a b : CacheLevel} :
    (∀ k t', [a, b][k]? = some t' → P k t') ↔ P 0 a ∧ P 1 b := by
  rw [forall_entry_cons, forall_entry_cons]
  exact and_congr_right' (and_iff_left fun _ _ ht => nomatch ht)

theorem forall_entry_triple {P : ℕ → CacheLevel → Prop} {a b c : CacheLevel} :
    (∀ k t', [a, b, c][k]? = some t' → P k t') ↔ P 0 a ∧ P 1 b ∧ P 2 c := by
  rw [forall_entry_cons, forall_entry_pair]

theorem eventually_const {r : Except CacheFault (List CacheLevel)} {levels : List CacheLevel} :
    (∃ n : ℕ, ∀ fuel ≥ n, some r = some (.ok levels)) ↔ r = .ok levels := by
  constructor
  · rintro ⟨n, h⟩
    exact Option.some_inj.mp (h n (Nat.le_refl n))
  · exact fun h => ⟨0, fun _ _ => congrArg some h⟩

end Fitting

/-! ## The divisions of K8 and K10 -/

section Divisions

variable {m : CacheMachine}

theorem level1_fits (size : ℕ) (g : BitVec 32) (h : (m.level1 0).setBytes = 0) :
    SetsFit size (m.level1 g) := setsFit_iff.mpr (.inl h)

theorem level2_unhalved (family : AmdFamily) (g : BitVec 32) :
    unhalvedSize family m 1 (m.level2 g) = (m.level2 0).size.toNat :=
  if_neg fun h => absurd h.2.2 (by omega)

theorem level1_unhalved (family : AmdFamily) (g : BitVec 32) :
    unhalvedSize family m 0 (m.level1 g) = (m.level1 0).size.toNat :=
  if_neg fun h => absurd h.2.2 (by omega)

theorem level1_div : SetsFit (m.level1 0).size.toNat (m.level1 (m.level1 0).quotient) := by
  apply setsFit_of_div
  show (m.level1 0).quotient.toNat = _
  rw [CacheLevel.quotient, BitVec.toNat_udiv, level1_mul]
  rfl

theorem level2_quotient :
    (m.level2 0).quotient.toNat = (m.level2 0).size.toNat / (m.level2 0).setBytes := by
  rw [CacheLevel.quotient, BitVec.toNat_udiv, level2_mul]

theorem level2_div : SetsFit (m.level2 0).size.toNat (m.level2 (m.level2 0).quotient) :=
  setsFit_of_div level2_quotient

theorem fitsCaches_const {family : AmdFamily}
    (run : (ℕ → BitVec 32) → Except CacheFault (List CacheLevel))
    (hrun : ∀ malloced fuel, amdInitCacheTopology family m malloced fuel = some (run malloced)) :
    FitsCaches family m ↔ ∀ malloced, ∃ levels, run malloced = .ok levels ∧
      ∀ k t, levels[k]? = some t → SetsFit (unhalvedSize family m k t) t := by
  refine forall_congr' fun malloced => exists_congr fun levels => ?_
  rw [exists_and_right]
  simp only [hrun]
  exact and_congr_left' eventually_const

theorem exists_ok_iff {r : Except CacheFault (List CacheLevel)} {levels : List CacheLevel}
    {P : List CacheLevel → Prop} (hr : r = .ok levels) :
    (∃ ls, r = .ok ls ∧ P ls) ↔ P levels := by
  subst hr
  constructor
  · rintro ⟨ls, h, hls⟩
    cases h
    exact hls
  · exact fun h => ⟨levels, rfl, h⟩

theorem not_exists_ok {r : Except CacheFault (List CacheLevel)} {f : CacheFault}
    {P : List CacheLevel → Prop} (hr : r = .error f) : ¬∃ ls, r = .ok ls ∧ P ls := by
  subst hr
  rintro ⟨ls, h, _⟩
  cases h

/-- What was in the sets of level 2 fits it only if nothing is asked. -/
theorem level2_garbage : (∀ malloced : ℕ → BitVec 32,
    SetsFit (m.level2 0).size.toNat (m.level2 (malloced 1))) ↔ (m.level2 0).Unfit := by
  rw [← setsFit_garbage (fun _ => rfl) (fun _ => rfl) rfl]
  exact ⟨fun h g => h fun _ => g, fun h malloced => h (malloced 1)⟩

theorem fitsCaches_k8 : FitsCaches .k8 m ↔ K8Fits m := by
  rw [fitsCaches_const (k8CacheLevels m) fun _ _ => rfl]
  unfold K8Fits
  by_cases h1 : (m.level1 0).setBytes = 0
  · -- no division: level 2 keeps what was in the pool
    have hguard := (level1_mul (m := m) 0).trans h1
    have hrun : ∀ malloced, k8CacheLevels m malloced =
        .ok [m.level1 (malloced 0), m.level2 (malloced 1)] := by
      intro malloced
      rw [k8CacheLevels, guardedSets_unset _ _ hguard, guardedSets_unset _ _ hguard]
      rfl
    simp only [exists_ok_iff (hrun _), forall_entry_pair, level2_unhalved, level1_fits _ _ h1,
      true_and, h1, not_true_eq_false, false_and, false_or, ne_eq]
    exact level2_garbage
  · have hguard : ((m.level1 0).associativity * (m.level1 0).lineSize).toNat ≠ 0 := by
      rwa [level1_mul]
    by_cases h2 : (m.level2 0).setBytes = 0
    · have hof := (level2_mul (m := m) 0).trans h2
      have hrun : ∀ malloced, k8CacheLevels m malloced = .error .dividesByZero := by
        intro malloced
        rw [k8CacheLevels, guardedSets_div _ hguard hguard, guardedSets_zero _ hguard hof]
        rfl
      constructor
      · exact fun h => absurd (h 0) (not_exists_ok (hrun 0))
      · rintro (⟨_, h⟩ | ⟨h, _⟩)
        · exact absurd h2 h
        · exact absurd h h1
    · have hof : ((m.level2 0).associativity * (m.level2 0).lineSize).toNat ≠ 0 := by
        rwa [level2_mul]
      have hrun : ∀ malloced, k8CacheLevels m malloced =
          .ok [m.level1 (m.level1 0).quotient, m.level2 (m.level2 0).quotient] := by
        intro malloced
        rw [k8CacheLevels, guardedSets_div _ hguard hguard, guardedSets_div _ hguard hof]
        rfl
      simp only [exists_ok_iff (hrun _), forall_entry_pair, level1_unhalved, level2_unhalved,
        forall_const, ne_eq, h1, h2, not_false_eq_true, true_and, false_and, or_false,
        level1_div, level2_div]

/-- The sets and their bytes are not halved. -/
theorem setsFit_halved {size : ℕ} (t : CacheLevel) : SetsFit size t.halved ↔ SetsFit size t := by
  cases t
  exact Iff.rfl

theorem level3_unhalved (g : BitVec 32) :
    SetsFit (unhalvedSize .k10 m 2 (if m.model ≠ magnyCours then m.level3 g
      else (m.level3 g).halved)) (if m.model ≠ magnyCours then m.level3 g
      else (m.level3 g).halved) ↔ SetsFit (m.level3 0).size.toNat (m.level3 g) := by
  have hg : (m.level3 0).size = (m.level3 g).size := rfl
  rw [hg]
  by_cases hmodel : m.model = magnyCours
  · have htwo : (2 : BitVec 32).toNat = 2 := by decide
    have hsize : 2 * (m.level3 g).halved.size.toNat = (m.level3 g).size.toNat := by
      rw [CacheLevel.halved, BitVec.toNat_udiv, htwo, Nat.mul_div_cancel' (level3_even g)]
    rw [if_neg (not_not.mpr hmodel), unhalvedSize, if_pos ⟨rfl, hmodel, rfl⟩, hsize,
      setsFit_halved]
  · rw [if_pos hmodel, unhalvedSize, if_neg fun h => hmodel h.2.1]

theorem level3_of_level2 :
    SetsFit (m.level3 0).size.toNat (m.level3 (m.level2 0).quotient) ↔
      (m.level3 0).Unfit ∨ (m.level2 0).size.toNat / (m.level2 0).setBytes *
        (m.level3 0).setBytes = (m.level3 0).size.toNat := by
  rw [setsFit_iff, CacheLevel.Unfit, or_assoc, ← level2_quotient]
  exact Iff.rfl

theorem lower_garbage : (∀ malloced : ℕ → BitVec 32,
    SetsFit (m.level2 0).size.toNat (m.level2 (malloced 1)) ∧
      SetsFit (m.level3 0).size.toNat (m.level3 (malloced 2))) ↔
    (m.level2 0).Unfit ∧ (m.level3 0).Unfit := by
  rw [forall_and, level2_garbage, ← setsFit_garbage (f := m.level3) (fun _ => rfl) (fun _ => rfl)
    rfl]
  exact and_congr_right' ⟨fun h g => h fun _ => g, fun h malloced => h (malloced 2)⟩

theorem fitsCaches_k10 : FitsCaches .k10 m ↔ K10Fits m := by
  rw [fitsCaches_const (k10CacheLevels m) fun _ _ => rfl]
  unfold K10Fits
  by_cases h1 : (m.level1 0).setBytes = 0
  · have hguard := (level1_mul (m := m) 0).trans h1
    have hrun : ∀ malloced, k10CacheLevels m malloced =
        .ok [m.level1 (malloced 0), m.level2 (malloced 1), if m.model ≠ magnyCours
          then m.level3 (malloced 2) else (m.level3 (malloced 2)).halved] := by
      intro malloced
      rw [k10CacheLevels, guardedSets_unset _ _ hguard, guardedSets_unset _ _ hguard,
        guardedSets_unset _ _ hguard]
      rfl
    simp only [exists_ok_iff (hrun _), forall_entry_triple, level2_unhalved, level3_unhalved,
      level1_fits _ _ h1, true_and, h1, not_true_eq_false, false_and, false_or, ne_eq]
    exact lower_garbage
  · have hguard : ((m.level1 0).associativity * (m.level1 0).lineSize).toNat ≠ 0 := by
      rwa [level1_mul]
    by_cases h2 : (m.level2 0).setBytes = 0
    · have hof := (level2_mul (m := m) 0).trans h2
      have hrun : ∀ malloced, k10CacheLevels m malloced = .error .dividesByZero := by
        intro malloced
        rw [k10CacheLevels, guardedSets_div _ hguard hguard, guardedSets_zero _ hguard hof]
        rfl
      constructor
      · exact fun h => absurd (h 0) (not_exists_ok (hrun 0))
      · rintro (⟨_, h, _⟩ | ⟨h, _⟩)
        · exact absurd h2 h
        · exact absurd h h1
    · have hof : ((m.level2 0).associativity * (m.level2 0).lineSize).toNat ≠ 0 := by
        rwa [level2_mul]
      have hrun : ∀ malloced, k10CacheLevels m malloced =
          .ok [m.level1 (m.level1 0).quotient, m.level2 (m.level2 0).quotient,
            if m.model ≠ magnyCours then m.level3 (m.level2 0).quotient
            else (m.level3 (m.level2 0).quotient).halved] := by
        intro malloced
        rw [k10CacheLevels, guardedSets_div _ hguard hguard, guardedSets_div _ hguard hof,
          guardedSets_div _ hguard hof]
        rfl
      simp only [exists_ok_iff (hrun _), forall_entry_triple, level1_unhalved, level2_unhalved,
        level3_unhalved, forall_const, ne_eq, h1, h2, not_false_eq_true, true_and, false_and,
        or_false, level1_div, level2_div, level3_of_level2]

end Divisions

/-! ## The sub-leaves of K15 and K16 -/

section SubLeaves

variable {m : CacheMachine} {last id : ℕ} {levels : List CacheLevel}

/-- The levels of `n` sub-leaves from `id` on -/
def dataLevels (m : CacheMachine) (id n : ℕ) : List CacheLevel :=
  ((List.range' id n).filter m.isData).map m.subLevel

theorem isData_ne_zero (h : m.isData id = true) : m.subType id ≠ 0 := by
  intro h0
  unfold CacheMachine.isData at h
  rw [h0] at h
  exact absurd h (by decide)

/-- With enough fuel the loop gets to the end, or leaves the pool. -/
theorem k15CacheLevels_eq (hlast : EndsAt m last) (n : ℕ) (fuel : ℕ) (hfuel : n < fuel)
    (hid : id + n = last) (hlen : levels.length ≤ 3) :
    k15CacheLevels m fuel id levels = some
      (if (levels ++ dataLevels m id n).length ≤ 3 then .ok (levels ++ dataLevels m id n)
        else .error .outsidePool) := by
  induction n generalizing id levels fuel with
  | zero =>
    obtain ⟨fuel, rfl⟩ := Nat.exists_eq_succ_of_ne_zero (Nat.ne_of_gt hfuel)
    obtain rfl : id = last := hid
    have hdata : m.isData id = false := by
      cases hd : m.isData id with
      | false => rfl
      | true => exact absurd hlast.zero (isData_ne_zero hd)
    rw [k15CacheLevels, hdata, if_neg Bool.false_ne_true, if_pos hlast.zero]
    have hnil : dataLevels m id 0 = [] := rfl
    rw [hnil, List.append_nil, if_pos hlen]
  | succ n ih =>
    obtain ⟨fuel, rfl⟩ := Nat.exists_eq_succ_of_ne_zero (Nat.ne_of_gt (Nat.lt_trans
      (Nat.succ_pos n) hfuel))
    have hcons : dataLevels m id (n + 1) = (if m.isData id then [m.subLevel id] else []) ++
        dataLevels m (id + 1) n := by
      unfold dataLevels
      rw [List.range'_succ, List.filter_cons]
      split <;> rfl
    rw [k15CacheLevels]
    by_cases hd : m.isData id = true
    · rw [hcons, if_pos hd, if_pos hd, ← List.append_assoc]
      split
      · rename_i hlt
        exact ih fuel (by omega) (by omega) (by rw [List.length_append]; exact hlt)
      · rename_i hfull
        rw [if_neg]
        rw [List.length_append, List.length_append]
        show ¬levels.length + 1 + _ ≤ 3
        omega
    · rw [hcons, if_neg hd, if_neg hd, if_neg (hlast.before id (by omega)), List.nil_append]
      exact ih fuel (by omega) (by omega) hlen

/-- A level computed by a product fits if the product is one of 32 bits. -/
theorem subLevel_fits (id : ℕ) : SetsFit (m.subLevel id).size.toNat (m.subLevel id) ↔
    ((m.subLevel id).setBytes ∣ (m.subLevel id).size.toNat →
      (m.subLevel id).sets.toNat * (m.subLevel id).setBytes < 2 ^ 32) := by
  have hsize : (m.subLevel id).size.toNat =
      (m.subLevel id).sets.toNat * (m.subLevel id).setBytes % 2 ^ 32 := by
    show ((m.subLevel id).associativity * (m.subLevel id).lineSize *
      (m.subLevel id).sets).toNat = _
    rw [BitVec.toNat_mul, subLevel_mul, Nat.mul_comm]
  rw [setsFit_iff]
  constructor
  · rintro (h0 | hno | heq) hdvd
    · rw [h0, Nat.mul_zero]
      omega
    · exact absurd hdvd hno
    · rw [heq]
      exact (m.subLevel id).size.isLt
  · intro h
    by_cases hdvd : (m.subLevel id).setBytes ∣ (m.subLevel id).size.toNat
    · rw [hsize, Nat.mod_eq_of_lt (h hdvd)]
      exact .inr (.inr rfl)
    · exact .inr (.inl hdvd)

theorem k15_unhalved {family : AmdFamily} (hfamily : family = .k15 ∨ family = .k16) (k : ℕ)
    (t : CacheLevel) : unhalvedSize family m k t = t.size.toNat := by
  apply if_neg
  rintro ⟨rfl, -⟩
  rcases hfamily with h | h <;> cases h

/-- All the entries fit if the levels of all the data sub-leaves do. -/
theorem dataLevels_fit {family : AmdFamily} (hfamily : family = .k15 ∨ family = .k16) :
    (∀ k t, (dataLevels m 0 last)[k]? = some t → SetsFit (unhalvedSize family m k t) t) ↔
      ∀ id < last, m.isData id = true →
        (m.subLevel id).setBytes ∣ (m.subLevel id).size.toNat →
        (m.subLevel id).sets.toNat * (m.subLevel id).setBytes < 2 ^ 32 := by
  have hmem : ∀ t, t ∈ dataLevels m 0 last ↔
      ∃ id, (id < last ∧ m.isData id = true) ∧ m.subLevel id = t := by
    intro t
    unfold dataLevels
    rw [← List.range_eq_range', List.mem_map]
    simp only [List.mem_filter, List.mem_range]
  constructor
  · intro h id hid hdata
    obtain ⟨k, hk⟩ := List.mem_iff_getElem?.mp ((hmem _).mpr ⟨id, ⟨hid, hdata⟩, rfl⟩)
    have hfit := h k _ hk
    rw [k15_unhalved hfamily] at hfit
    exact (subLevel_fits id).mp hfit
  · intro h k t ht
    obtain ⟨id, ⟨hid, hdata⟩, rfl⟩ := (hmem t).mp (List.mem_of_getElem? ht)
    rw [k15_unhalved hfamily]
    exact (subLevel_fits id).mpr (h id hid hdata)

theorem fitsCaches_k15 {family : AmdFamily} (hfamily : family = .k15 ∨ family = .k16)
    (hlast : EndsAt m last) : FitsCaches family m ↔ K15Fits m last := by
  have hloop : ∀ malloced, ∀ fuel > last, amdInitCacheTopology family m malloced fuel =
      some (if (dataLevels m 0 last).length ≤ 3 then .ok (dataLevels m 0 last)
        else .error .outsidePool) := by
    intro malloced fuel hfuel
    have hrun := @k15CacheLevels_eq m _ _ [] hlast last fuel hfuel (Nat.zero_add last)
      (Nat.zero_le 3)
    rcases hfamily with rfl | rfl
    · exact hrun
    · exact hrun
  have hlength : (dataLevels m 0 last).length = ((List.range last).filter m.isData).length := by
    rw [dataLevels, List.length_map, List.range_eq_range']
  unfold K15Fits
  rw [← hlength, ← dataLevels_fit hfamily]
  constructor
  · intro h
    obtain ⟨levels, n, hrun, hfits⟩ := h 0
    have hend := (hloop 0 (max n (last + 1)) (by omega)).symm.trans
      (hrun (max n (last + 1)) (by omega))
    split at hend
    · rename_i hthree
      cases hend
      exact ⟨hthree, hfits⟩
    · cases hend
  · rintro ⟨hthree, hfits⟩ malloced
    refine ⟨dataLevels m 0 last, last + 1, fun fuel hfuel => ?_, hfits⟩
    rw [hloop malloced fuel hfuel, if_pos hthree]

end SubLeaves

/-- An AMD processor's cache levels are found without a fault and with fitting sets exactly if
the registers meet the condition of the family. -/
theorem fitsCaches_iff (family : AmdFamily) (m : CacheMachine) {last : ℕ}
    (hlast : family = .k15 ∨ family = .k16 → EndsAt m last) :
    FitsCaches family m ↔ RegistersFit family m last := by
  cases family with
  | k8 => exact fitsCaches_k8
  | k10 => exact fitsCaches_k10
  | k15 => exact fitsCaches_k15 (.inl rfl) (hlast (.inl rfl))
  | k16 => exact fitsCaches_k15 (.inr rfl) (hlast (.inr rfl))

/-- A K15 with a data, an instruction and two unified caches, of 512 sets of two lines each -/
def k15Machine : CacheMachine where
  cpuid _ id := ⟨([0x21, 0x22, 0x43, 0x63] : List (BitVec 32)).getD id.toNat 0, 0x0040003F, 511, 0⟩
  ecx := 0
  model := 0x02
  numCoresPerSocket := 8

theorem k15Machine_endsAt : EndsAt k15Machine 4 where
  zero := rfl
  before := by decide

theorem fitsCaches_k15Machine : FitsCaches .k15 k15Machine :=
  (fitsCaches_iff .k15 k15Machine fun _ => k15Machine_endsAt).mpr
    ⟨by decide, by decide⟩

/-- A K8 with a level 1 of 64 KiB and without a level 2 -/
def k8Machine : CacheMachine where
  cpuid leaf _ := if leaf = 0x80000005 then ⟨0, 0, 0x40020140, 0⟩ else ⟨0, 0, 0, 0⟩
  ecx := 0
  model := 0x04
  numCoresPerSocket := 1

/-- The guard of level 2 asks for the sets of level 1. -/
theorem not_fitsCaches_k8 : ¬∀ m, FitsCaches .k8 m := by
  intro h
  obtain ⟨levels, n, hrun, _⟩ := h k8Machine 0
  have hfault : k8CacheLevels k8Machine 0 = .error .dividesByZero := rfl
  have hend := Option.some_inj.mp (hrun n (Nat.le_refl n))
  rw [hfault] at hend
  cases hend

end Likwid
