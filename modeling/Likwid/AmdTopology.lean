import Likwid.NodeTopology

/-!
# Hardware threads of AMD processors (`topology_cpuid.c`)

The branches of `cpuid_init_nodeTopology` for the families without CPUID leaf 11. Each round of
the loop runs on the CPU `i`, fills the entry with the number of that CPU's APIC id, and cuts the
id it finds in entry `i`.
-/

namespace Likwid

/-- The AMD cases of the switches over `cpuid_info.family` -/
inductive AmdFamily where
  | k8
  | k10
  | k15
  | k16
deriving DecidableEq, Repr

def getBitFieldWidth (number : BitVec 32) : ℕ :=
  if number - 1 = 0 then 0 else Nat.log2 (number - 1).toNat + 1

/-! ## The loops -/

/-- What the loops work on: the register `ecx` as the last `CPUID` left it, and the pool. `filled`
is not in the source: it lists the entries that were filled. -/
structure AmdPool where
  ecx : BitVec 32
  hwThreadPool : List HWThread
  filled : List ℕ

def amdCoreId (width : ℕ) (apicId : BitVec 32) : BitVec 32 := extractBitField apicId width 0

def amdPackageId (width : ℕ) (apicId : BitVec 32) : BitVec 32 :=
  extractBitField apicId (uint32 (8 - width)) width

/-- A write to `hwThreadPool[id]`, `none` if it is outside the pool -/
def writeEntry (hwThreadPool : List HWThread) (id : ℕ) (f : HWThread → HWThread) :
    Option (List HWThread) :=
  if id < hwThreadPool.length then some (hwThreadPool.modify id f) else none

def setApicId (apicId : BitVec 32) (t : HWThread) : HWThread := { t with apicId := apicId }

def setNumbers (threadId : BitVec 32 → BitVec 32) (width : ℕ) (apicId : BitVec 32)
    (t : HWThread) : HWThread :=
  { t with
    threadId := threadId apicId
    coreId := amdCoreId width apicId
    packageId := amdPackageId width apicId }

/-- The body of the loops of both branches, which differ in the thread number and in where the
width comes from -/
def amdHwThread (cpuid : Cpuid) (threadId : BitVec 32 → BitVec 32) (width : ℕ) (s : AmdPool)
    (i : ℕ) : Option AmdPool := do
  let r := cpuid i 0x01 s.ecx
  let apicId := extractBitField r.ebx 8 24
  let id := apicId.toNat
  let pool ← writeEntry s.hwThreadPool id (setApicId apicId)
  let thread ← pool[i]?
  let pool ← writeEntry pool id (setNumbers threadId width thread.apicId)
  some { ecx := r.ecx, hwThreadPool := pool, filled := s.filled ++ [id] }

def amdHwThreads (cpuid : Cpuid) (threadId : BitVec 32 → BitVec 32) (width n : ℕ)
    (s : AmdPool) : Option AmdPool :=
  (List.range n).foldlM (amdHwThread cpuid threadId width) s

/-- `maxNumLogicalProcsPerCore` is 1. -/
def k8ThreadId (apicId : BitVec 32) : BitVec 32 := extractBitField apicId (getBitFieldWidth 1) 0

def k8Width (ecx : BitVec 32) : ℕ := getBitFieldWidth (extractBitField ecx 8 0 + 1)

def k10Width (ecx : BitVec 32) : ℕ :=
  let width := (extractBitField ecx 4 12).toNat
  if width = 0 then (extractBitField ecx 8 0).toNat + 1 else width

/-- The field width of a family, from the CPU the routine is called on -/
def AmdFamily.width (family : AmdFamily) (cpuid : Cpuid) (cpu : ℕ) (ecx : BitVec 32) : ℕ :=
  match family with
  | .k8 => k8Width (cpuid cpu 0x80000008 ecx).ecx
  | .k10 | .k15 | .k16 => k10Width (cpuid cpu 0x80000008 ecx).ecx

/-- The AMD branches of `cpuid_init_nodeTopology`, called on `cpu` with `ecx` in the register of
that name. The pool has `cpuid_topology.numHWThreads` entries, with whatever `malloc` left in
them. -/
def amdInitNodeTopology (family : AmdFamily) (cpuid : Cpuid) (cpu : ℕ) (ecx : BitVec 32)
    (malloced : List HWThread) : Option AmdPool :=
  let r := cpuid cpu 0x80000008 ecx
  match family with
  | .k8 => amdHwThreads cpuid k8ThreadId (k8Width r.ecx) malloced.length ⟨r.ecx, malloced, []⟩
  | .k10 | .k15 | .k16 =>
    let r' := cpuid cpu 0x01 r.ecx
    amdHwThreads cpuid (fun _ => 0) (k10Width r.ecx) malloced.length ⟨r'.ecx, malloced, []⟩

/-! ## What the pool is to hold -/

/-- CPU `i` has the APIC id `ids i`. Leaf 1 does not look at `ecx`. -/
structure AssignsApicIds (cpuid : Cpuid) (n : ℕ) (ids : ℕ → BitVec 8) : Prop where
  reported : ∀ i < n, ∀ ecx, extractBitField (cpuid i 0x01 ecx).ebx 8 24 = (ids i).setWidth 32
  distinct : ∀ i < n, ∀ j < n, ids i = ids j → i = j

/-- The routine stays in the pool and fills each entry once, from the entry's own APIC id. -/
structure PoolFilled (width n : ℕ) (s : AmdPool) : Prop where
  once : s.filled.Perm (List.range n)
  own : ∀ t ∈ s.hwThreadPool,
    t.coreId = amdCoreId width t.apicId ∧ t.packageId = amdPackageId width t.apicId
  determines : ∀ t ∈ s.hwThreadPool, ∀ t' ∈ s.hwThreadPool,
    t.packageId = t'.packageId → t.coreId = t'.coreId → t.apicId = t'.apicId

def FillsPool (family : AmdFamily) (cpuid : Cpuid) (cpu : ℕ) (ecx : BitVec 32)
    (malloced : List HWThread) : Prop :=
  ∃ s, amdInitNodeTopology family cpuid cpu ecx malloced = some s ∧
    PoolFilled (family.width cpuid cpu ecx) malloced.length s

/-! ## Cutting an APIC id -/

section Cutting

variable {width : ℕ} {a b : BitVec 32}

/-- The width goes into shift counts only, which are taken modulo 32. -/
theorem amdCoreId_mod (h32 : width ≠ 32) (hwidth : width ≤ 256) :
    amdCoreId width a = amdCoreId (width % 32) a := by
  have hlast : (0 + width) % 2 ^ 32 = width := by omega
  have hlast' : (0 + width % 32) % 2 ^ 32 = width % 32 := by omega
  simp only [amdCoreId, extractBitField, shiftLeft32, hlast, hlast', if_neg h32,
    if_neg (by omega : ¬width % 32 = 32), Nat.mod_mod]

theorem amdPackageId_mod (hwidth : width ≤ 256) :
    amdPackageId width a = amdPackageId (width % 32) a := by
  have hlast : ∀ w : ℕ, w ≤ 256 → (w + uint32 (8 - w)) % 2 ^ 32 = 8 := by
    intro w hw
    unfold uint32
    omega
  simp only [amdPackageId, extractBitField, shiftLeft32, shiftRight32, hlast width hwidth,
    hlast (width % 32) (by omega), Nat.mod_mod]

theorem amdCoreId_toNat (hwidth : width ≤ 32) :
    (amdCoreId width a).toNat = a.toNat % 2 ^ width := by
  rw [amdCoreId, extractBitField_toNat (by omega) (by omega), Nat.pow_zero, Nat.div_one]

theorem amdPackageId_toNat (hwidth : width ≤ 8) :
    (amdPackageId width a).toNat = a.toNat / 2 ^ width % 2 ^ (8 - width) := by
  have huint : uint32 (8 - width) = 8 - width := by
    unfold uint32
    omega
  rw [amdPackageId, huint, extractBitField_toNat (by omega) (by omega)]

/-- The two numbers are those of one id, also where the width is more than the id has bits. -/
theorem amdIds_injective (hwidth : width ≤ 256) (ha : a.toNat < 256) (hb : b.toNat < 256)
    (hcore : amdCoreId width a = amdCoreId width b)
    (hpackage : amdPackageId width a = amdPackageId width b) : a = b := by
  -- with 8 bits or more the core number is the whole id
  have hwide : ∀ w, 8 ≤ w → w ≤ 32 → amdCoreId w a = amdCoreId w b → a = b := by
    intro w h8 h32 h
    have hpow : 2 ^ 8 ≤ 2 ^ w := Nat.pow_le_pow_right (by omega) h8
    have htoNat := congrArg BitVec.toNat h
    rw [amdCoreId_toNat h32, amdCoreId_toNat h32, Nat.mod_eq_of_lt (by omega),
      Nat.mod_eq_of_lt (by omega)] at htoNat
    exact BitVec.eq_of_toNat_eq htoNat
  have hnarrow : ∀ w < 8, amdCoreId w a = amdCoreId w b →
      amdPackageId w a = amdPackageId w b → a = b := by
    intro w h8 hc hp
    have hlow := congrArg BitVec.toNat hc
    have hhigh := congrArg BitVec.toNat hp
    have hpow : 2 ^ w * 2 ^ (8 - w) = 256 := by
      rw [← Nat.pow_add, Nat.add_sub_cancel' (by omega)]
    have hdiv : ∀ x < 256, x / 2 ^ w < 2 ^ (8 - w) := fun x hx =>
      Nat.div_lt_of_lt_mul (by rw [hpow]; exact hx)
    rw [amdCoreId_toNat (by omega), amdCoreId_toNat (by omega)] at hlow
    rw [amdPackageId_toNat (by omega), amdPackageId_toNat (by omega),
      Nat.mod_eq_of_lt (hdiv _ ha), Nat.mod_eq_of_lt (hdiv _ hb)] at hhigh
    apply BitVec.eq_of_toNat_eq
    rw [← Nat.div_add_mod a.toNat (2 ^ w), ← Nat.div_add_mod b.toNat (2 ^ w), hlow, hhigh]
  by_cases h32 : width = 32
  · exact hwide width (by omega) (by omega) hcore
  · rw [amdCoreId_mod h32 hwidth, amdCoreId_mod h32 hwidth] at hcore
    rw [amdPackageId_mod hwidth, amdPackageId_mod hwidth] at hpackage
    rcases Nat.lt_or_ge (width % 32) 8 with h8 | h8
    · exact hnarrow _ h8 hcore hpackage
    · exact hwide _ h8 (by omega) hcore

end Cutting

theorem k8Width_le (ecx : BitVec 32) : k8Width ecx ≤ 8 := by
  have hfield : (extractBitField ecx 8 0).toNat < 256 := by
    rw [extractBitField_toNat (by omega) (by omega)]
    exact Nat.mod_lt _ (by omega)
  unfold k8Width getBitFieldWidth
  rw [BitVec.add_sub_cancel]
  split
  · omega
  · rename_i hne
    have hpos : (extractBitField ecx 8 0).toNat ≠ 0 := fun h => hne (BitVec.eq_of_toNat_eq h)
    have hlog := (Nat.log2_lt hpos).mpr (show _ < 2 ^ 8 from hfield)
    omega

theorem k10Width_le (ecx : BitVec 32) : k10Width ecx ≤ 256 := by
  have hcores : (extractBitField ecx 8 0).toNat < 256 := by
    rw [extractBitField_toNat (by omega) (by omega)]
    exact Nat.mod_lt _ (by omega)
  have hsize : (extractBitField ecx 4 12).toNat < 16 := by
    rw [extractBitField_toNat (by omega) (by omega)]
    exact Nat.mod_lt _ (by omega)
  simp only [k10Width]
  split <;> omega

theorem AmdFamily.width_le (family : AmdFamily) (cpuid : Cpuid) (cpu : ℕ) (ecx : BitVec 32) :
    family.width cpuid cpu ecx ≤ 256 := by
  cases family with
  | k8 => exact Nat.le_trans (k8Width_le _) (by omega)
  | k10 => exact k10Width_le _
  | k15 => exact k10Width_le _
  | k16 => exact k10Width_le _

/-! ## The rounds -/

section Rounds

variable {cpuid : Cpuid} {threadId : BitVec 32 → BitVec 32} {width n i : ℕ}
  {malloced : List HWThread} {ids : ℕ → BitVec 8} {s s' : AmdPool}

/-- The entry that round `j` filled, from the id `a` that was in entry `j` at that time: the
number `j` if a round up to then had filled entry `j`. -/
structure FilledBy (width : ℕ) (ids : ℕ → BitVec 8) (s : AmdPool) (j : ℕ) (t : HWThread)
    (a : BitVec 32) : Prop where
  entry : s.hwThreadPool[(ids j).toNat]? = some t
  apicId : t.apicId = (ids j).setWidth 32
  coreId : t.coreId = amdCoreId width a
  packageId : t.packageId = amdPackageId width a
  source : (∃ m ≤ j, (ids m).toNat = j) → a.toNat = j

/-- What holds before round `i` -/
structure AmdRounds (width n : ℕ) (ids : ℕ → BitVec 8) (i : ℕ) (s : AmdPool) : Prop where
  length : s.hwThreadPool.length = n
  filled : s.filled = (List.range i).map fun j => (ids j).toNat
  inside : ∀ j < i, (ids j).toNat < n
  entries : ∀ j < i, ∃ t a, FilledBy width ids s j t a

theorem writeEntry_some {pool : List HWThread} {id : ℕ} (f : HWThread → HWThread)
    (h : id < pool.length) : writeEntry pool id f = some (pool.modify id f) := if_pos h

theorem writeEntry_none {pool : List HWThread} {id : ℕ} (f : HWThread → HWThread)
    (h : ¬id < pool.length) : writeEntry pool id f = none := if_neg h

theorem toNat_setWidth_id (x : BitVec 8) : (x.setWidth 32).toNat = x.toNat := by
  rw [BitVec.toNat_setWidth]
  omega

/-- The id that round `i` cuts, where entry `i` was `old` before it -/
def readId (ids : ℕ → BitVec 8) (i : ℕ) (old : HWThread) : BitVec 32 :=
  if (ids i).toNat = i then (ids i).setWidth 32 else old.apicId

theorem readId_filled {m : ℕ} (hr : AmdRounds width n ids i s)
    (hi : i < s.hwThreadPool.length) (hm : m ≤ i) (hmi : (ids m).toNat = i) :
    (readId ids i s.hwThreadPool[i]).toNat = i := by
  unfold readId
  split
  · rename_i hown
    rw [toNat_setWidth_id, hown]
  · rename_i hother
    have hlt : m < i := Nat.lt_of_le_of_ne hm fun h => hother (h ▸ hmi)
    obtain ⟨t, a, ht⟩ := hr.entries m hlt
    have hentry : s.hwThreadPool[i]? = some t := hmi ▸ ht.entry
    rw [List.getElem?_eq_getElem hi, Option.some_inj] at hentry
    rw [hentry, ht.apicId, toNat_setWidth_id, hmi]

theorem amdHwThread_outside (hids : AssignsApicIds cpuid n ids) (hi : i < n)
    (hr : AmdRounds width n ids i s) (hout : ¬(ids i).toNat < n) :
    amdHwThread cpuid threadId width s i = none := by
  simp only [amdHwThread, hids.reported i hi, toNat_setWidth_id]
  rw [writeEntry_none _ (by rwa [hr.length])]
  rfl

theorem amdHwThread_eq (threadId : BitVec 32 → BitVec 32) (width : ℕ) {old : HWThread}
    (hid : extractBitField (cpuid i 0x01 s.ecx).ebx 8 24 = (ids i).setWidth 32)
    (hin : (ids i).toNat < s.hwThreadPool.length) (hold : s.hwThreadPool[i]? = some old) :
    amdHwThread cpuid threadId width s i =
      some { ecx := (cpuid i 0x01 s.ecx).ecx
             hwThreadPool := s.hwThreadPool.modify (ids i).toNat
               (setNumbers threadId width (readId ids i old) ∘ setApicId ((ids i).setWidth 32))
             filled := s.filled ++ [(ids i).toNat] } := by
  have hread : (s.hwThreadPool.modify (ids i).toNat (setApicId ((ids i).setWidth 32)))[i]? =
      some (if (ids i).toNat = i then setApicId ((ids i).setWidth 32) old else old) := by
    rw [List.getElem?_modify, hold]
    split <;> rfl
  have hapic : (if (ids i).toNat = i then setApicId ((ids i).setWidth 32) old else old).apicId =
      readId ids i old := by
    unfold readId
    split <;> rfl
  simp only [amdHwThread, hid, toNat_setWidth_id, writeEntry_some _ hin, Option.bind_eq_bind,
    Option.bind_some, hread, hapic]
  rw [writeEntry_some _ (by rwa [List.length_modify]), Option.bind_some, List.modify_modify_eq]

/-- One round fills one entry and leaves the others. -/
theorem amdHwThread_round (hids : AssignsApicIds cpuid n ids) (hi : i < n)
    (hr : AmdRounds width n ids i s) (hin : (ids i).toNat < n) :
    ∃ s', amdHwThread cpuid threadId width s i = some s' ∧
      AmdRounds width n ids (i + 1) s' := by
  have hpool : (ids i).toNat < s.hwThreadPool.length := by rwa [hr.length]
  have hi' : i < s.hwThreadPool.length := by rwa [hr.length]
  have hrun := amdHwThread_eq threadId width (hids.reported i hi s.ecx) hpool
    (List.getElem?_eq_getElem hi')
  refine ⟨_, hrun, ?_, ?_, ?_, ?_⟩
  · rw [List.length_modify, hr.length]
  · rw [List.range_succ, List.map_append, ← hr.filled]
    rfl
  · intro j hj
    rcases Nat.lt_succ_iff_lt_or_eq.mp hj with hlt | rfl
    · exact hr.inside j hlt
    · exact hin
  · intro j hj
    rcases Nat.lt_succ_iff_lt_or_eq.mp hj with hlt | rfl
    · -- an id of its own: the entry is another one
      obtain ⟨t, a, ht⟩ := hr.entries j hlt
      have hne : (ids i).toNat ≠ (ids j).toNat := fun h =>
        absurd (hids.distinct i hi j (Nat.lt_trans hlt hi) (BitVec.eq_of_toNat_eq h))
          (Nat.ne_of_gt hlt)
      exact ⟨t, a, (List.getElem?_modify_ne _ _ hne).trans ht.entry, ht.apicId, ht.coreId,
        ht.packageId, ht.source⟩
    · refine ⟨setNumbers threadId width (readId ids j s.hwThreadPool[j])
        (setApicId ((ids j).setWidth 32) s.hwThreadPool[(ids j).toNat]),
        readId ids j s.hwThreadPool[j], ?_, rfl, rfl, rfl, ?_⟩
      · rw [List.getElem?_modify_eq, List.getElem?_eq_getElem hpool]
        rfl
      · rintro ⟨m, hm, hmj⟩
        exact readId_filled hr hi' hm hmj

/-- The loop goes on as long as the ids are inside the pool. -/
theorem amdHwThreads_rounds (threadId : BitVec 32 → BitVec 32)
    (hids : AssignsApicIds cpuid n ids) (h0 : AmdRounds width n ids 0 s) {k : ℕ} (hk : k ≤ n)
    (hin : ∀ j < k, (ids j).toNat < n) :
    ∃ s', amdHwThreads cpuid threadId width k s = some s' ∧ AmdRounds width n ids k s' := by
  unfold amdHwThreads
  induction k with
  | zero => exact ⟨s, rfl, h0⟩
  | succ k ih =>
    obtain ⟨s1, hrun, hr⟩ := ih (by omega) fun j hj => hin j (Nat.lt_succ_of_lt hj)
    obtain ⟨s2, hround, hr'⟩ := amdHwThread_round hids hk hr (hin k (Nat.lt_succ_self k))
    refine ⟨s2, ?_, hr'⟩
    rw [List.range_succ, List.foldlM_append, hrun]
    simpa using hround

/-- It ends outside the pool with the first id that is not. -/
theorem amdHwThreads_inside (hids : AssignsApicIds cpuid n ids)
    (h0 : AmdRounds width n ids 0 s) {k : ℕ} (hk : k ≤ n)
    (hrun : amdHwThreads cpuid threadId width k s = some s') : ∀ j < k, (ids j).toNat < n := by
  unfold amdHwThreads at hrun
  induction k generalizing s' with
  | zero => exact fun j hj => absurd hj (Nat.not_lt_zero j)
  | succ k ih =>
    rw [List.range_succ, List.foldlM_append, Option.bind_eq_bind, Option.bind_eq_some_iff] at hrun
    obtain ⟨s1, hrun1, hround⟩ := hrun
    have hbefore := ih (by omega) hrun1
    obtain ⟨s2, hrun2, hr⟩ := amdHwThreads_rounds threadId hids h0 (by omega)
      hbefore
    obtain rfl : s1 = s2 := Option.some_inj.mp (hrun1.symm.trans hrun2)
    intro j hj
    rcases Nat.lt_succ_iff_lt_or_eq.mp hj with hlt | rfl
    · exact hbefore j hlt
    · by_contra hout
      rw [List.foldlM_cons, amdHwThread_outside hids hk hr hout] at hround
      cases hround

/-- Distinct ids that never lie ahead are the numbers themselves. -/
theorem ids_eq_self (hids : AssignsApicIds cpuid n ids) (hle : ∀ j < n, (ids j).toNat ≤ j) :
    ∀ j < n, (ids j).toNat = j := by
  intro j
  induction j using Nat.strong_induction_on with
  | _ j ih =>
    intro hj
    rcases Nat.lt_or_eq_of_le (hle j hj) with hlt | heq
    · have hown := ih _ hlt (Nat.lt_trans hlt hj)
      have hsame := hids.distinct _ (Nat.lt_trans hlt hj) j hj (BitVec.eq_of_toNat_eq hown)
      exact absurd hsame (Nat.ne_of_lt hlt)
    · exact heq

/-- The loop fills the pool from the entries' own ids if and only if every CPU has its number as
APIC id: an id ahead of its CPU is met again when its own entry is read. -/
theorem amdHwThreads_filled_iff (hids : AssignsApicIds cpuid n ids)
    (h0 : AmdRounds width n ids 0 s) (hwidth : width ≤ 256) :
    (∃ s', amdHwThreads cpuid threadId width n s = some s' ∧ PoolFilled width n s') ↔
      ∀ i < n, (ids i).toNat = i := by
  constructor
  · rintro ⟨s', hrun, hfilled⟩
    have hin := amdHwThreads_inside hids h0 (Nat.le_refl n) hrun
    obtain ⟨s2, hrun2, hr⟩ := amdHwThreads_rounds threadId hids h0 (Nat.le_refl n)
      hin
    obtain rfl : s' = s2 := Option.some_inj.mp (hrun.symm.trans hrun2)
    apply ids_eq_self hids
    intro j hj
    by_contra hahead
    -- the entry of the CPU whose number is the id of CPU `j` was cut from that id
    obtain ⟨t, a, ht⟩ := hr.entries (ids j).toNat (hin j hj)
    have hread : a.toNat = (ids j).toNat := ht.source ⟨j, by omega, rfl⟩
    obtain ⟨hcore, hpackage⟩ := hfilled.own t (List.mem_of_getElem? ht.entry)
    have hlt : t.apicId.toNat < 256 := by
      rw [ht.apicId, toNat_setWidth_id]
      exact (ids _).isLt
    have hsame : t.apicId = a := amdIds_injective hwidth hlt
      (by rw [hread]; exact (ids j).isLt) (hcore.symm.trans ht.coreId)
      (hpackage.symm.trans ht.packageId)
    have hown : (ids (ids j).toNat).toNat = (ids j).toNat := by
      rw [← toNat_setWidth_id, ← ht.apicId, hsame, hread]
    have := hids.distinct _ (hin j hj) j hj (BitVec.eq_of_toNat_eq hown)
    omega
  · intro hown
    have hin : ∀ j < n, (ids j).toNat < n := fun j hj => by rwa [hown j hj]
    obtain ⟨s', hrun, hr⟩ := amdHwThreads_rounds threadId hids h0 (Nat.le_refl n)
      hin
    have hentry : ∀ t ∈ s'.hwThreadPool, ∃ k < n, t.apicId.toNat = k ∧ t.apicId.toNat < 256 ∧
        t.coreId = amdCoreId width t.apicId ∧ t.packageId = amdPackageId width t.apicId := by
      intro t hmem
      obtain ⟨k, hk, rfl⟩ := List.getElem_of_mem hmem
      rw [hr.length] at hk
      obtain ⟨t, a, ht⟩ := hr.entries k hk
      have hat := ht.entry
      rw [hown k hk, List.getElem?_eq_getElem (by rwa [hr.length]), Option.some_inj] at hat
      have hid : t.apicId.toNat = (ids k).toNat := by rw [ht.apicId, toNat_setWidth_id]
      have ha : a = t.apicId := BitVec.eq_of_toNat_eq
        (by rw [hid, hown k hk]; exact ht.source ⟨k, Nat.le_refl k, hown k hk⟩)
      rw [hat]
      refine ⟨k, hk, hid.trans (hown k hk), ?_, ?_, ?_⟩
      · rw [hid]
        exact (ids k).isLt
      · rw [ht.coreId, ha]
      · rw [ht.packageId, ha]
    refine ⟨s', hrun, ?_, ?_, ?_⟩
    · have hrange : (List.range n).map (fun j => (ids j).toNat) = List.range n :=
        (List.map_congr_left fun j hj => hown j (List.mem_range.mp hj)).trans (List.map_id _)
      rw [hr.filled, hrange]
    · intro t hmem
      obtain ⟨_, _, _, _, hcore, hpackage⟩ := hentry t hmem
      exact ⟨hcore, hpackage⟩
    · intro t hmem t' hmem' hpackage hcore
      obtain ⟨_, _, _, hlt, hc, hp⟩ := hentry t hmem
      obtain ⟨_, _, _, hlt', hc', hp'⟩ := hentry t' hmem'
      rw [hc, hc'] at hcore
      rw [hp, hp'] at hpackage
      exact amdIds_injective hwidth hlt hlt' hcore hpackage

end Rounds

/-- An AMD processor's pool is filled if and only if the APIC ids are the CPUs' numbers. -/
theorem fillsPool_iff (family : AmdFamily) {cpuid : Cpuid} {ids : ℕ → BitVec 8}
    (cpu : ℕ) (ecx : BitVec 32) (malloced : List HWThread)
    (hids : AssignsApicIds cpuid malloced.length ids) :
    FillsPool family cpuid cpu ecx malloced ↔ ∀ i < malloced.length, (ids i).toNat = i := by
  have h0 : ∀ r, AmdRounds (family.width cpuid cpu ecx) malloced.length ids 0
      ⟨r, malloced, []⟩ := fun r =>
    ⟨rfl, rfl, fun j hj => absurd hj (Nat.not_lt_zero j),
      fun j hj => absurd hj (Nat.not_lt_zero j)⟩
  have hwidth := family.width_le cpuid cpu ecx
  cases family with
  | k8 => exact amdHwThreads_filled_iff hids (h0 _) hwidth
  | k10 => exact amdHwThreads_filled_iff hids (h0 _) hwidth
  | k15 => exact amdHwThreads_filled_iff hids (h0 _) hwidth
  | k16 => exact amdHwThreads_filled_iff hids (h0 _) hwidth

/-- A processor of two cores in one package, whose CPU `i` has the APIC id `ids i` -/
def twoCores (ids : ℕ → BitVec 8) : Cpuid := fun i leaf _ =>
  if leaf = 0x01 then ⟨0, (ids i).setWidth 32 <<< 24, 0, 0⟩ else ⟨0, 0, 1, 0⟩

def noThread : HWThread := ⟨0, 0, 0, 0, 0⟩

theorem twoCores_ids (ids : ℕ → BitVec 8) (i : ℕ) (ecx : BitVec 32) :
    extractBitField (twoCores ids i 0x01 ecx).ebx 8 24 = (ids i).setWidth 32 := by
  show extractBitField ((ids i).setWidth 32 <<< 24) 8 24 = _
  apply BitVec.eq_of_toNat_eq
  rw [extractBitField_toNat (by omega) (by omega), BitVec.toNat_shiftLeft, toNat_setWidth_id,
    Nat.shiftLeft_eq]
  have := (ids i).isLt
  omega

theorem fillsPool_twoCores :
    FillsPool .k10 (twoCores fun i => BitVec.ofNat 8 i) 0 0 [noThread, noThread] :=
  (fillsPool_iff .k10 0 0 [noThread, noThread]
    { reported := fun i _ ecx => twoCores_ids _ i ecx
      distinct := by decide }).mpr (by decide)

/-- With the ids the other way round, entry 0 is cut from what `malloc` left in it. -/
theorem not_fillsPool_swapped :
    ¬∀ (cpuid : Cpuid) (malloced : List HWThread) (ids : ℕ → BitVec 8),
      AssignsApicIds cpuid malloced.length ids → FillsPool .k8 cpuid 0 0 malloced := by
  intro h
  obtain ⟨s, hrun, hfilled⟩ := h (twoCores fun i => BitVec.ofNat 8 (1 - i)) [noThread, noThread]
    (fun i => BitVec.ofNat 8 (1 - i))
    { reported := fun i _ ecx => twoCores_ids _ i ecx
      distinct := by decide }
  have hswapped : amdInitNodeTopology .k8 (twoCores fun i => BitVec.ofNat 8 (1 - i)) 0 0
      [noThread, noThread] = some ⟨0, [⟨0, 1, 0, 0, 0⟩, ⟨0, 0, 0, 1, 0⟩], [1, 0]⟩ := rfl
  obtain rfl := Option.some_inj.mp (hrun.symm.trans hswapped)
  have hcore := (hfilled.own ⟨0, 0, 0, 1, 0⟩ (by decide)).1
  exact absurd hcore (by decide)

end Likwid
