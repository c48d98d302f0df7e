import Likwid.Frames
import Likwid.UncoreReset

/-!
# Processor features (`cpuFeatures.c`)

`cpuFeatures_enable` and `cpuFeatures_disable` change one bit of an MSR, and `cpuFeatures_update`
keeps a mask of the features that are on. A call that returns 0 should leave the register and the
mask in agreement, and one that cannot reach the register should return an error
(`FeatureLaw`). When this is so is `featureLaw_iff`: enabling does not tell that its write has
failed, nobody tells that the mask could not be read again, and on processors without a test for
the prefetchers the mask does not follow.
-/

namespace Likwid

/-! ## Features -/

/-- `CpuFeature` -/
inductive CpuFeature where
  | hwPrefetcher
  | clPrefetcher
  | dcuPrefetcher
  | ipPrefetcher
  | fastStrings
  | thermalControl
  | perfMon
  | ferrMultiplex
  | branchTraceStorage
  | xtprMessage
  | pebs
  | speedstep
  | monitor
  | speedstepLock
  | cpuidMaxVal
  | xdBit
  | dynAccel
  | turboMode
  | tm2
deriving DecidableEq, Repr

def CpuFeature.index (f : CpuFeature) : ℕ := f.ctorIdx

/-- The shared state and `cpuFeatureMask`, by CPU -/
structure FeatureState where
  core : Core
  mask : ℕ → Word

/-- `IF_FLAG` -/
def FeatureState.ifFlag (s : FeatureState) (cpu : ℕ) (f : CpuFeature) : Bool :=
  (s.mask cpu).getLsbD f.index

/-- `TEST_FLAG(feature,flag)`, or `TEST_FLAG_INV` -/
structure FlagTest where
  feature : CpuFeature
  flag : ℕ
  inverted : Bool := false
deriving DecidableEq, Repr

def FlagTest.enabled (t : FlagTest) (flags : Word) : Bool := flags.getLsbD t.flag != t.inverted

def FlagTest.apply (t : FlagTest) (flags mask : Word) : Word :=
  if t.enabled flags then mask ||| bit t.feature.index else mask &&& ~~~bit t.feature.index

def testFlags (tests : List FlagTest) (flags mask : Word) : Word :=
  tests.foldl (fun mask t => t.apply flags mask) mask

/-! ## Processors -/

abbrev msrIa32MiscEnable : ℕ := 0x1A0

abbrev msrPrefetchEnable : ℕ := 0x1A4

/-- `CORE2_45`, `CORE2_65` -/
def core2Models : List ℕ := [0x17, 0x0F]

/-- `ATOM_SILVERMONT_E`, `_C`, `_Z1`, `_Z2`, `_F`, `_AIR` -/
def silvermontModels : List ℕ := [0x37, 0x4D, 0x4A, 0x5A, 0x5D, 0x4C]

/-- From `NEHALEM` to `WESTMERE_EX`, from `SANDYBRIDGE` to `HASWELL_EP`, and from `BROADWELL` to
`SKYLAKE2` -/
def newOffsetModels : List ℕ :=
  [0x1A, 0x1A, 0x1E, 0x2C, 0x25, 0x2E, 0x2F, 0x2A, 0x2D, 0x3A, 0x3E, 0x3C, 0x45, 0x46, 0x3F,
    0x3D, 0x56, 0x4F, 0x4E, 0x5E]

def commonTests : List FlagTest :=
  [⟨.fastStrings, 0, false⟩, ⟨.thermalControl, 3, false⟩, ⟨.perfMon, 7, false⟩,
    ⟨.branchTraceStorage, 11, true⟩, ⟨.pebs, 12, true⟩, ⟨.speedstep, 16, false⟩,
    ⟨.monitor, 18, false⟩, ⟨.cpuidMaxVal, 22, false⟩, ⟨.xtprMessage, 23, true⟩, ⟨.xdBit, 34, true⟩]

def core2Tests : List FlagTest :=
  [⟨.hwPrefetcher, 9, true⟩, ⟨.ferrMultiplex, 10, false⟩, ⟨.tm2, 13, false⟩,
    ⟨.clPrefetcher, 19, true⟩, ⟨.speedstepLock, 20, false⟩, ⟨.dcuPrefetcher, 37, true⟩,
    ⟨.dynAccel, 38, true⟩, ⟨.ipPrefetcher, 39, true⟩]

def turboTests : List FlagTest := [⟨.turboMode, 38, true⟩]

def prefetchTests : List FlagTest :=
  [⟨.ipPrefetcher, 3, true⟩, ⟨.dcuPrefetcher, 2, true⟩, ⟨.clPrefetcher, 1, true⟩,
    ⟨.hwPrefetcher, 0, true⟩]

/-- The tests of `MSR_IA32_MISC_ENABLE` -/
def miscTests (model : ℕ) : List FlagTest :=
  commonTests ++
    if model ∈ core2Models then core2Tests
    else if model ∈ newOffsetModels ∨ model ∈ silvermontModels then turboTests
    else []

/-! ## The functions -/

variable (M : Machine)

/-- `HPMread` as a function: the error code, the value and the state -/
def hpmReadResult (cpu : ℕ) (dev : PciDeviceIndex) (reg : ℕ) (c : Core) : (Int × Word) × Core :=
  let answer := readAnswer M c cpu dev reg
  (answer, c.log ⟨.read, cpu, dev, reg, answer.2, answer.1⟩)

def FeatureState.setMask (s : FeatureState) (cpu : ℕ) (v : Word) : FeatureState :=
  { s with mask := fun c => if c = cpu then v else s.mask c }

/-- The errors of the reads are only printed. -/
def cpuFeaturesUpdate (cpu : ℕ) (s : FeatureState) : FeatureState :=
  let ((_, flags), core) := hpmReadResult M cpu msrDev msrIa32MiscEnable s.core
  let s := { s with core }.setMask cpu (testFlags (miscTests M.model) flags (s.mask cpu))
  if M.model ∈ newOffsetModels then
    let ((_, flags), core) := hpmReadResult M cpu msrDev msrPrefetchEnable s.core
    { s with core }.setMask cpu (testFlags prefetchTests flags (s.mask cpu))
  else s

/-- The bit for a prefetcher; no other feature can be switched. -/
def prefetchOffset (newOffsets : Bool) : CpuFeature → Option ℕ
  | .hwPrefetcher => some (if newOffsets then 0 else 9)
  | .clPrefetcher => some (if newOffsets then 1 else 19)
  | .dcuPrefetcher => some (if newOffsets then 2 else 37)
  | .ipPrefetcher => some (if newOffsets then 3 else 39)
  | _ => none

def newOffsets (model : ℕ) : Bool := decide (model ∈ newOffsetModels)

def featureReg (model : ℕ) : ℕ := if newOffsets model then msrPrefetchEnable else msrIa32MiscEnable

def cpuFeaturesEnable (cpu : ℕ) (type : CpuFeature) (s : FeatureState) : Int × FeatureState :=
  if s.ifFlag cpu type then (0, s)
  else
    let ((ret, flags), core) := hpmReadResult M cpu msrDev (featureReg M.model) s.core
    let s := { s with core }
    if ret ≠ 0 then (ret, s)
    else
      match prefetchOffset (newOffsets M.model) type with
      | none => (-einval, s)
      | some offset =>
          let flags := flags &&& ~~~bit offset
          let (_, core) := hpmWriteResult M cpu msrDev (featureReg M.model) flags s.core
          (0, cpuFeaturesUpdate M cpu { s with core })

def cpuFeaturesDisable (cpu : ℕ) (type : CpuFeature) (s : FeatureState) : Int × FeatureState :=
  if !s.ifFlag cpu type then (0, s)
  else
    let ((ret, flags), core) := hpmReadResult M cpu msrDev (featureReg M.model) s.core
    let s := { s with core }
    if ret ≠ 0 then (ret, s)
    else
      match prefetchOffset (newOffsets M.model) type with
      | none => (-einval, s)
      | some offset =>
          let flags := flags ||| bit offset
          let (ret, core) := hpmWriteResult M cpu msrDev (featureReg M.model) flags s.core
          (if ret ≠ 0 then -efault else 0, cpuFeaturesUpdate M cpu { s with core })

def cpuFeaturesGet (cpu : ℕ) (type : CpuFeature) (s : FeatureState) : Int :=
  if s.ifFlag cpu type then 1 else 0

/-- `cpuFeatures_enable` or `cpuFeatures_disable` -/
def cpuFeaturesSwitch (requested : Bool) (cpu : ℕ) (type : CpuFeature) (s : FeatureState) :
    Int × FeatureState :=
  if requested then cpuFeaturesEnable M cpu type s else cpuFeaturesDisable M cpu type s

/-! ## The law -/

/-- All tests of `cpuFeatures_update`, with their registers -/
def featureTests (model : ℕ) : List (ℕ × FlagTest) :=
  (miscTests model).map (msrIa32MiscEnable, ·) ++
    if newOffsets model then prefetchTests.map (msrPrefetchEnable, ·) else []

/-- The register and the bit of a feature, if the processor has it -/
def featureBit (model : ℕ) (type : CpuFeature) : Option (ℕ × FlagTest) :=
  match prefetchOffset (newOffsets model) type with
  | some offset => some (featureReg model, ⟨type, offset, true⟩)
  | none => (featureTests model).find? fun p => decide (p.2.feature = type)

/-- `r` is the result and `s'` the state after `requested` for a feature. -/
structure FeatureLaw (cpu : ℕ) (type : CpuFeature) (requested : Bool) (s : FeatureState) (r : Int)
    (s' : FeatureState) : Prop where
  switched : r = 0 → ∀ p ∈ featureBit M.model type,
    p.2.enabled (s'.core.regs cpu msrDev p.1) = requested
  reported : r = 0 → cpuFeaturesGet cpu type s' = if requested then 1 else 0
  bits : r = 0 → ∀ owner dev reg i, (∀ p ∈ featureBit M.model type,
      ¬(owner = cpu ∧ dev = msrDev ∧ reg = p.1 ∧ i = p.2.flag)) →
    (s'.core.regs owner dev reg).getLsbD i = (s.core.regs owner dev reg).getLsbD i
  flags : r = 0 → ∀ c f, ¬(c = cpu ∧ f = type) → s'.ifFlag c f = s.ifFlag c f
  failed : ¬Answered s.core s'.core → r ≠ 0 ∧ s'.mask = s.mask

/-- What is written for a prefetcher -/
def switchedFlags (requested : Bool) (offset : ℕ) (flags : Word) : Word :=
  if requested then flags &&& ~~~bit offset else flags ||| bit offset

/-- What the read of a register in `cpuFeatures_update` answers, if the call begins with `c` -/
def updateAnswer (cpu : ℕ) (c : Core) (reg : ℕ) : Int × Word :=
  if reg = msrPrefetchEnable then
    readAnswer M (hpmReadResult M cpu msrDev msrIa32MiscEnable c).2 cpu msrDev msrPrefetchEnable
  else readAnswer M c cpu msrDev msrIa32MiscEnable

/-- Where a feature is as requested by the mask, the register has to agree. Else the feature is a
prefetcher or not; the read or the write fails or does not; and in the end all that the mask says
has to be what the registers say. -/
def FeatureLawful (cpu : ℕ) (type : CpuFeature) (requested : Bool) (s : FeatureState) : Prop :=
  if s.ifFlag cpu type = requested then
    ∀ p ∈ featureBit M.model type, p.2.enabled (s.core.regs cpu msrDev p.1) = requested
  else
    let read := hpmReadResult M cpu msrDev (featureReg M.model) s.core
    ∀ offset ∈ prefetchOffset (newOffsets M.model) type, read.1.1 = 0 →
      let write := hpmWriteResult M cpu msrDev (featureReg M.model)
        (switchedFlags requested offset read.1.2) read.2
      if write.1 ≠ 0 then
        requested = false ∧ ∀ p ∈ featureTests M.model,
          s.ifFlag cpu p.2.feature = p.2.enabled (updateAnswer M cpu write.2 p.1).2
      else
        (M.model ∈ core2Models ∨ M.model ∈ newOffsetModels) ∧
        (∀ p ∈ featureTests M.model, (updateAnswer M cpu write.2 p.1).1 = 0) ∧
        ∀ p ∈ featureTests M.model, p.2.feature ≠ type →
          s.ifFlag cpu p.2.feature = p.2.enabled (s.core.regs cpu msrDev p.1)

/-- A read of an MSR that succeeds delivers what the register holds. -/
def MsrsRead (cpu : ℕ) : Prop :=
  ∀ n reg v, M.accessRead n msrDev cpu reg = 0 → M.accessData n msrDev cpu reg v = v

/-! ## The tests -/

section Tests

variable {tests : List FlagTest} {flags mask : Word} {model : ℕ} {type : CpuFeature} {offset : ℕ}

theorem CpuFeature.index_lt (f : CpuFeature) : f.index < 64 := by
  cases f <;> decide

theorem CpuFeature.index_inj {f g : CpuFeature} (h : f.index = g.index) : f = g := by
  cases f <;> cases g <;> first | rfl | exact absurd h (by decide)

theorem getLsbD_apply (t : FlagTest) (i : ℕ) : (t.apply flags mask).getLsbD i =
    if i = t.feature.index then t.enabled flags else mask.getLsbD i := by
  unfold FlagTest.apply
  cases henabled : t.enabled flags with
  | true => rw [if_pos rfl, getLsbD_or_bit _ t.feature.index_lt]
  | false => rw [if_neg Bool.false_ne_true, getLsbD_andNot_bit _ t.feature.index_lt]

theorem getLsbD_testFlags_absent {i : ℕ} (h : ∀ t ∈ tests, t.feature.index ≠ i) :
    (testFlags tests flags mask).getLsbD i = mask.getLsbD i := by
  induction tests generalizing mask with
  | nil => rfl
  | cons t tests ih =>
      obtain ⟨ht, htests⟩ := List.forall_mem_cons.mp h
      rw [testFlags, List.foldl_cons]
      refine (ih htests).trans ?_
      rw [getLsbD_apply, if_neg (Ne.symm ht)]

theorem getLsbD_testFlags_mem (hnodup : (tests.map FlagTest.feature).Nodup) {t : FlagTest}
    (h : t ∈ tests) : (testFlags tests flags mask).getLsbD t.feature.index = t.enabled flags := by
  induction tests generalizing mask with
  | nil => cases h
  | cons t' tests ih =>
      obtain ⟨ht', hnodup⟩ := List.nodup_cons.mp hnodup
      rw [testFlags, List.foldl_cons]
      rcases List.mem_cons.mp h with rfl | h
      · refine (getLsbD_testFlags_absent fun t' hmem heq => ht' ?_).trans ?_
        · exact CpuFeature.index_inj heq ▸ List.mem_map_of_mem hmem
        · rw [getLsbD_apply, if_pos rfl]
      · exact ih hnodup h

/-! ### The kinds of processors -/

theorem featureTests_core2 (h : model ∈ core2Models) :
    featureTests model = (commonTests ++ core2Tests).map (msrIa32MiscEnable, ·) ∧
      newOffsets model = false := by
  have hmodel : model = 0x17 ∨ model = 0x0F := by simpa [core2Models] using h
  rcases hmodel with rfl | rfl <;> exact ⟨by decide, by decide⟩

theorem featureTests_newOffsets (h : newOffsets model = true) :
    featureTests model = (commonTests ++ turboTests).map (msrIa32MiscEnable, ·) ++
      prefetchTests.map (msrPrefetchEnable, ·) := by
  have hnew : model ∈ newOffsetModels := by simpa [newOffsets] using h
  have hcore2 : model ∉ core2Models := fun hmem => by
    rw [(featureTests_core2 hmem).2] at h
    cases h
  rw [featureTests, miscTests, if_neg hcore2, if_pos (Or.inl hnew), if_pos h]

theorem featureTests_other (h : model ∉ core2Models) (hnew : newOffsets model = false) :
    featureTests model = commonTests.map (msrIa32MiscEnable, ·) ∨
      featureTests model = (commonTests ++ turboTests).map (msrIa32MiscEnable, ·) := by
  have hnew' : model ∉ newOffsetModels := by simpa [newOffsets] using hnew
  rw [featureTests, miscTests, if_neg h, hnew, if_neg Bool.false_ne_true, List.append_nil]
  split
  · exact Or.inr rfl
  · exact Or.inl (by rw [List.append_nil])

/-- A fact about the tests is a fact about each kind of processor. -/
theorem featureTests_kinds {P : Bool → List (ℕ × FlagTest) → Prop} (model : ℕ)
    (hcore2 : P false ((commonTests ++ core2Tests).map (msrIa32MiscEnable, ·)))
    (hnew : P true ((commonTests ++ turboTests).map (msrIa32MiscEnable, ·) ++
      prefetchTests.map (msrPrefetchEnable, ·)))
    (hturbo : P false ((commonTests ++ turboTests).map (msrIa32MiscEnable, ·)))
    (hcommon : P false (commonTests.map (msrIa32MiscEnable, ·))) :
    P (newOffsets model) (featureTests model) := by
  cases hnew' : newOffsets model with
  | true => rwa [featureTests_newOffsets hnew']
  | false =>
      by_cases hmem : model ∈ core2Models
      · rwa [(featureTests_core2 hmem).1]
      · rcases featureTests_other hmem hnew' with heq | heq <;> rwa [heq]

theorem featureTests_nodup (model : ℕ) : ((featureTests model).map (·.2.feature)).Nodup := by
  refine featureTests_kinds (P := fun _ tests => (tests.map (·.2.feature)).Nodup) model ?_ ?_ ?_ ?_
    <;> decide

/-- Two tests look at different bits. -/
theorem featureTests_bits (model : ℕ) {p q : ℕ × FlagTest} (hp : p ∈ featureTests model)
    (hq : q ∈ featureTests model) (hreg : p.1 = q.1) (hflag : p.2.flag = q.2.flag) : p = q := by
  have hall : ∀ p ∈ featureTests model, ∀ q ∈ featureTests model, p.1 = q.1 →
      p.2.flag = q.2.flag → p = q := by
    refine featureTests_kinds (P := fun _ tests => ∀ p ∈ tests, ∀ q ∈ tests, p.1 = q.1 →
      p.2.flag = q.2.flag → p = q) model ?_ ?_ ?_ ?_ <;> decide
  exact hall p hp q hq hreg hflag

/-- On the processors that test the prefetchers the bit that is switched is the one that is
tested. -/
theorem prefetch_mem (hmodel : model ∈ core2Models ∨ model ∈ newOffsetModels)
    (h : prefetchOffset (newOffsets model) type = some offset) :
    (featureReg model, (⟨type, offset, true⟩ : FlagTest)) ∈ featureTests model := by
  rcases hmodel with hmodel | hmodel
  · obtain ⟨htests, hnew⟩ := featureTests_core2 hmodel
    rw [hnew] at h
    rw [htests, featureReg, hnew]
    cases type <;> cases h <;> decide
  · have hnew : newOffsets model = true := by simpa [newOffsets] using hmodel
    rw [hnew] at h
    rw [featureTests_newOffsets hnew, featureReg, hnew]
    cases type <;> cases h <;> decide

/-- Elsewhere nobody tests a prefetcher. -/
theorem prefetch_untested (hcore2 : model ∉ core2Models) (hnew : model ∉ newOffsetModels)
    (h : prefetchOffset (newOffsets model) type = some offset) :
    ∀ p ∈ featureTests model, p.2.feature ≠ type := by
  have hnew' : newOffsets model = false := by simpa [newOffsets] using hnew
  rw [hnew'] at h
  rcases featureTests_other hcore2 hnew' with heq | heq
  · rw [heq]
    cases type <;> cases h <;> decide
  · rw [heq]
    cases type <;> cases h <;> decide

end Tests

/-! ## The update -/

section Update

variable {M : Machine} {cpu : ℕ} {s : FeatureState} {p : ℕ × FlagTest}

theorem features_eq (model : ℕ) : (featureTests model).map (·.2.feature) =
    (miscTests model).map FlagTest.feature ++
      if newOffsets model then prefetchTests.map FlagTest.feature else [] := by
  rw [featureTests, List.map_append, List.map_map]
  split
  · rw [List.map_map]
    rfl
  · rfl

/-- `cpuFeatures_update` step by step -/
theorem cpuFeaturesUpdate_eq (M : Machine) (cpu : ℕ) (s : FeatureState) :
    cpuFeaturesUpdate M cpu s =
      let misc := hpmReadResult M cpu msrDev msrIa32MiscEnable s.core
      let mask := testFlags (miscTests M.model) misc.1.2 (s.mask cpu)
      let pref := hpmReadResult M cpu msrDev msrPrefetchEnable misc.2
      if newOffsets M.model then
        { core := pref.2
          mask := fun c => if c = cpu then testFlags prefetchTests pref.1.2 mask else s.mask c }
      else { core := misc.2, mask := fun c => if c = cpu then mask else s.mask c } := by
  unfold cpuFeaturesUpdate newOffsets
  generalize hpmReadResult M cpu msrDev msrIa32MiscEnable s.core = misc
  obtain ⟨⟨err, flags⟩, core⟩ := misc
  by_cases h : M.model ∈ newOffsetModels
  · have hnew : decide (M.model ∈ newOffsetModels) = true := decide_eq_true h
    dsimp only [FeatureState.setMask]
    generalize hpmReadResult M cpu msrDev msrPrefetchEnable core = pref
    obtain ⟨⟨err', flags'⟩, core'⟩ := pref
    rw [if_pos h, if_pos (rfl : cpu = cpu), if_pos hnew]
    congr 1
    funext c
    split <;> rfl
  · have hold : ¬decide (M.model ∈ newOffsetModels) = true := by simpa using h
    dsimp only
    rw [if_neg h, if_neg hold]
    rfl

theorem update_regs : (cpuFeaturesUpdate M cpu s).core.regs = s.core.regs := by
  rw [cpuFeaturesUpdate_eq]
  dsimp only
  split <;> rfl

theorem update_mask_other {c : ℕ} (h : c ≠ cpu) :
    (cpuFeaturesUpdate M cpu s).mask c = s.mask c := by
  rw [cpuFeaturesUpdate_eq]
  dsimp only
  split <;> exact if_neg h

/-- **The mask shows what was read**, for each feature with a test. -/
theorem update_tested (h : p ∈ featureTests M.model) :
    (cpuFeaturesUpdate M cpu s).ifFlag cpu p.2.feature =
      p.2.enabled (updateAnswer M cpu s.core p.1).2 := by
  have hnodup := featureTests_nodup M.model
  rw [features_eq, List.nodup_append] at hnodup
  obtain ⟨hmisc, hpref, hapart⟩ := hnodup
  rw [cpuFeaturesUpdate_eq]
  unfold FeatureState.ifFlag featureTests at *
  cases hnew : newOffsets M.model with
  | true =>
      rw [hnew, if_pos rfl] at h hpref hapart
      dsimp only
      rw [if_pos rfl]
      dsimp only
      rw [if_pos rfl]
      rcases List.mem_append.mp h with h | h
      · obtain ⟨t, ht, rfl⟩ := List.mem_map.mp h
        have habsent : ∀ t' ∈ prefetchTests, t'.feature.index ≠ t.feature.index :=
          fun t' ht' heq => hapart _ (List.mem_map_of_mem ht) _ (List.mem_map_of_mem ht')
            (CpuFeature.index_inj heq).symm
        rw [getLsbD_testFlags_absent habsent, getLsbD_testFlags_mem hmisc ht]
        rfl
      · obtain ⟨t, ht, rfl⟩ := List.mem_map.mp h
        rw [getLsbD_testFlags_mem hpref ht]
        rfl
  | false =>
      rw [hnew, if_neg Bool.false_ne_true, List.append_nil] at h
      obtain ⟨t, ht, rfl⟩ := List.mem_map.mp h
      dsimp only
      rw [if_neg Bool.false_ne_true]
      dsimp only
      rw [if_pos rfl, getLsbD_testFlags_mem hmisc ht]
      rfl

theorem update_untested {i : ℕ} (h : ∀ p ∈ featureTests M.model, p.2.feature.index ≠ i) :
    ((cpuFeaturesUpdate M cpu s).mask cpu).getLsbD i = (s.mask cpu).getLsbD i := by
  have hmisc : ∀ t ∈ miscTests M.model, t.feature.index ≠ i := fun t ht =>
    h (msrIa32MiscEnable, t) (List.mem_append_left _ (List.mem_map_of_mem ht))
  rw [cpuFeaturesUpdate_eq]
  cases hnew : newOffsets M.model with
  | true =>
      have hpref : ∀ t ∈ prefetchTests, t.feature.index ≠ i := by
        intro t ht
        refine h (msrPrefetchEnable, t) (List.mem_append_right _ ?_)
        rw [hnew]
        exact List.mem_map_of_mem ht
      dsimp only
      rw [if_pos rfl]
      dsimp only
      rw [if_pos rfl, getLsbD_testFlags_absent hpref, getLsbD_testFlags_absent hmisc]
  | false =>
      dsimp only
      rw [if_neg Bool.false_ne_true]
      dsimp only
      rw [if_pos rfl, getLsbD_testFlags_absent hmisc]

theorem common_mem (model : ℕ) :
    (msrIa32MiscEnable, (⟨.fastStrings, 0, false⟩ : FlagTest)) ∈ featureTests model :=
  featureTests_kinds (P := fun _ tests =>
    (msrIa32MiscEnable, (⟨.fastStrings, 0, false⟩ : FlagTest)) ∈ tests) model
    (by decide) (by decide) (by decide) (by decide)

/-- The accesses of an update -/
theorem update_trace (M : Machine) (cpu : ℕ) (s : FeatureState) :
    ∃ l, (cpuFeaturesUpdate M cpu s).core.trace = l ++ s.core.trace ∧
      ((∀ a ∈ l, a.err = 0) ↔ ∀ p ∈ featureTests M.model,
        (updateAnswer M cpu s.core p.1).1 = 0) := by
  have hmisc : ∀ p ∈ (miscTests M.model).map (msrIa32MiscEnable, ·),
      (updateAnswer M cpu s.core p.1).1 =
        (readAnswer M s.core cpu msrDev msrIa32MiscEnable).1 := by
    intro p hp
    obtain ⟨t, -, rfl⟩ := List.mem_map.mp hp
    rfl
  have hfirst := common_mem M.model
  rw [cpuFeaturesUpdate_eq]
  cases hnew : newOffsets M.model with
  | true =>
      refine ⟨[_, _], rfl, ?_⟩
      have hpref : ∀ p ∈ prefetchTests.map (msrPrefetchEnable, ·),
          (updateAnswer M cpu s.core p.1).1 = (updateAnswer M cpu s.core msrPrefetchEnable).1 := by
        intro p hp
        obtain ⟨t, -, rfl⟩ := List.mem_map.mp hp
        rfl
      have htests : featureTests M.model = (miscTests M.model).map (msrIa32MiscEnable, ·) ++
          prefetchTests.map (msrPrefetchEnable, ·) := by
        rw [featureTests, hnew, if_pos rfl]
      rw [List.forall_mem_cons, List.forall_mem_singleton]
      constructor
      · rintro ⟨hread, hread'⟩ p hp
        rw [htests] at hp
        rcases List.mem_append.mp hp with hp | hp
        · rw [hmisc p hp]
          exact hread'
        · rw [hpref p hp]
          exact hread
      · intro hall
        refine ⟨?_, hall _ hfirst⟩
        have hlast : (msrPrefetchEnable, (⟨.hwPrefetcher, 0, true⟩ : FlagTest)) ∈
            featureTests M.model := by
          rw [htests]
          exact List.mem_append_right _ (by decide)
        exact hall _ hlast
  | false =>
      refine ⟨[_], rfl, ?_⟩
      have htests : featureTests M.model = (miscTests M.model).map (msrIa32MiscEnable, ·) := by
        rw [featureTests, hnew, if_neg Bool.false_ne_true, List.append_nil]
      rw [List.forall_mem_singleton]
      constructor
      · intro hread p hp
        rw [htests] at hp
        rw [hmisc p hp]
        exact hread
      · exact fun hall => hall _ hfirst

theorem update_mask_iff : (cpuFeaturesUpdate M cpu s).mask = s.mask ↔
    ∀ p ∈ featureTests M.model,
      s.ifFlag cpu p.2.feature = p.2.enabled (updateAnswer M cpu s.core p.1).2 := by
  constructor
  · intro h p hp
    rw [← update_tested hp, FeatureState.ifFlag, FeatureState.ifFlag, h]
  · intro h
    funext c
    by_cases hc : c = cpu
    · subst hc
      refine BitVec.eq_of_getLsbD_eq fun i _ => ?_
      by_cases hi : ∃ p ∈ featureTests M.model, p.2.feature.index = i
      · obtain ⟨p, hp, rfl⟩ := hi
        exact (update_tested hp).trans (h p hp).symm
      · push Not at hi
        exact update_untested hi
    · exact update_mask_other hc

end Update

/-! ## Switching a feature -/

section Switch

variable {M : Machine} {cpu offset reg : ℕ} {type : CpuFeature} {requested : Bool}
  {s : FeatureState} {c : Core} {p : ℕ × FlagTest}

theorem readAnswer_msr (hread : MsrsRead M cpu) (h : (readAnswer M c cpu msrDev reg).1 = 0) :
    (readAnswer M c cpu msrDev reg).2 = c.regs cpu msrDev reg := by
  unfold readAnswer at h ⊢
  rw [if_neg (by decide)] at h ⊢
  split at h
  · exact absurd h (by decide)
  next hcpu =>
    rw [if_neg hcpu]
    split at h
    · exact absurd h (by decide)
    next hregistered =>
      rw [if_neg hregistered]
      exact hread _ _ _ h

theorem reg_of_mem (h : p ∈ featureTests M.model) :
    p.1 = msrIa32MiscEnable ∨ p.1 = msrPrefetchEnable := by
  rcases List.mem_append.mp h with h | h
  · obtain ⟨t, -, rfl⟩ := List.mem_map.mp h
    exact Or.inl rfl
  · split at h
    · obtain ⟨t, -, rfl⟩ := List.mem_map.mp h
      exact Or.inr rfl
    · cases h

theorem updateAnswer_msr (hread : MsrsRead M cpu) (hp : p ∈ featureTests M.model)
    (h : (updateAnswer M cpu c p.1).1 = 0) :
    (updateAnswer M cpu c p.1).2 = c.regs cpu msrDev p.1 := by
  rcases reg_of_mem hp with hreg | hreg
  · rw [hreg] at h ⊢
    exact readAnswer_msr hread h
  · rw [hreg] at h ⊢
    exact readAnswer_msr hread h

theorem getLsbD_switchedFlags (requested : Bool) (flags : Word) (hoffset : offset < 64) (i : ℕ) :
    (switchedFlags requested offset flags).getLsbD i =
      if i = offset then !requested else flags.getLsbD i := by
  cases requested with
  | true => exact getLsbD_andNot_bit flags hoffset i
  | false => exact getLsbD_or_bit flags hoffset i

theorem offset_lt {new : Bool} (h : prefetchOffset new type = some offset) : offset < 64 := by
  cases type <;> cases new <;> cases h <;> decide

theorem cpuFeaturesSwitch_eq (M : Machine) (requested : Bool) (cpu : ℕ) (type : CpuFeature)
    (s : FeatureState) :
    cpuFeaturesSwitch M requested cpu type s =
      let read := hpmReadResult M cpu msrDev (featureReg M.model) s.core
      if s.ifFlag cpu type = requested then (0, s)
      else if read.1.1 ≠ 0 then (read.1.1, { s with core := read.2 })
      else
        match prefetchOffset (newOffsets M.model) type with
        | none => (-einval, { s with core := read.2 })
        | some offset =>
            let write := hpmWriteResult M cpu msrDev (featureReg M.model)
              (switchedFlags requested offset read.1.2) read.2
            (if requested then 0 else if write.1 ≠ 0 then -efault else 0,
              cpuFeaturesUpdate M cpu { s with core := write.2 }) := by
  unfold cpuFeaturesSwitch cpuFeaturesEnable cpuFeaturesDisable
  generalize hpmReadResult M cpu msrDev (featureReg M.model) s.core = read
  obtain ⟨⟨ret, flags⟩, core⟩ := read
  cases prefetchOffset (newOffsets M.model) type with
  | none => cases requested <;> cases s.ifFlag cpu type <;> rfl
  | some offset => cases requested <;> cases s.ifFlag cpu type <;> rfl

/-! ### Without a write -/

theorem featureLaw_cached (h : s.ifFlag cpu type = requested) :
    FeatureLaw M cpu type requested s 0 s ↔
      ∀ p ∈ featureBit M.model type, p.2.enabled (s.core.regs cpu msrDev p.1) = requested := by
  constructor
  · exact fun hlaw => hlaw.switched rfl
  · intro hbit
    refine ⟨fun _ => hbit, fun _ => ?_, fun _ _ _ _ _ _ => rfl, fun _ _ _ _ => rfl, ?_⟩
    · rw [cpuFeaturesGet, h]
    · intro hno
      have hnew : newAccesses s.core s.core = [] := newAccesses_append rfl
      exact absurd (fun a ha => absurd (hnew ▸ ha) List.not_mem_nil) hno

theorem featureLaw_error {r : Int} (core : Core) (hr : r ≠ 0) :
    FeatureLaw M cpu type requested s r { s with core } :=
  ⟨fun h => absurd h hr, fun h => absurd h hr, fun h => absurd h hr, fun h => absurd h hr,
    fun _ => ⟨hr, rfl⟩⟩

/-! ### With a write -/

section Write

variable (M cpu offset requested s)

/-- The state before the update -/
def writtenState : FeatureState :=
  let read := hpmReadResult M cpu msrDev (featureReg M.model) s.core
  { s with core := (hpmWriteResult M cpu msrDev (featureReg M.model)
      (switchedFlags requested offset read.1.2) read.2).2 }

def writeReturn : Int :=
  let read := hpmReadResult M cpu msrDev (featureReg M.model) s.core
  (hpmWriteResult M cpu msrDev (featureReg M.model)
    (switchedFlags requested offset read.1.2) read.2).1

end Write

theorem hpmWriteResult_trace (M : Machine) (cpu : ℕ) (dev : PciDeviceIndex) (reg : ℕ) (data : Word)
    (c : Core) : (hpmWriteResult M cpu dev reg data c).2.trace =
      ⟨.write, cpu, dev, reg, data, (hpmWriteResult M cpu dev reg data c).1⟩ :: c.trace := by
  unfold hpmWriteResult
  dsimp only
  rw [Core.log_trace]
  split <;> rfl

/-- The accesses of a call that reads, writes and updates -/
theorem answered_iff (hread : (hpmReadResult M cpu msrDev (featureReg M.model) s.core).1.1 = 0) :
    Answered s.core (cpuFeaturesUpdate M cpu (writtenState M cpu offset requested s)).core ↔
      writeReturn M cpu offset requested s = 0 ∧ ∀ p ∈ featureTests M.model,
        (updateAnswer M cpu (writtenState M cpu offset requested s).core p.1).1 = 0 := by
  obtain ⟨l, htrace, hl⟩ := update_trace M cpu (writtenState M cpu offset requested s)
  obtain ⟨a, b, ha, hb, hwritten⟩ : ∃ a b : Access,
      a.err = writeReturn M cpu offset requested s ∧
      b.err = (hpmReadResult M cpu msrDev (featureReg M.model) s.core).1.1 ∧
      (writtenState M cpu offset requested s).core.trace = [a, b] ++ s.core.trace :=
    ⟨_, _, rfl, rfl, hpmWriteResult_trace M cpu msrDev (featureReg M.model) _ _⟩
  rw [hwritten, ← List.append_assoc] at htrace
  unfold Answered
  rw [newAccesses_append htrace, ← hl]
  constructor
  · intro hall
    exact ⟨ha ▸ hall a (List.mem_append_right _ List.mem_cons_self),
      fun a' ha' => hall a' (List.mem_append_left _ ha')⟩
  · rintro ⟨hwrite, hreads⟩ a' ha'
    rcases List.mem_append.mp ha' with ha' | ha'
    · exact hreads a' ha'
    rcases List.mem_cons.mp ha' with rfl | ha'
    · exact ha.trans hwrite
    · obtain rfl := List.mem_singleton.mp ha'
      exact hb.trans hread

theorem featureLaw_unwritten
    (hread : (hpmReadResult M cpu msrDev (featureReg M.model) s.core).1.1 = 0)
    (hwrite : writeReturn M cpu offset requested s ≠ 0) :
    FeatureLaw M cpu type requested s (if requested then 0 else -efault)
        (cpuFeaturesUpdate M cpu (writtenState M cpu offset requested s)) ↔
      requested = false ∧ ∀ p ∈ featureTests M.model, s.ifFlag cpu p.2.feature =
        p.2.enabled (updateAnswer M cpu (writtenState M cpu offset requested s).core p.1).2 := by
  have hno : ¬Answered s.core
      (cpuFeaturesUpdate M cpu (writtenState M cpu offset requested s)).core :=
    fun h => hwrite ((answered_iff hread).mp h).1
  constructor
  · intro hlaw
    obtain ⟨hr, hmask⟩ := hlaw.failed hno
    cases requested with
    | true => exact absurd rfl hr
    | false => exact ⟨rfl, update_mask_iff.mp hmask⟩
  · rintro ⟨rfl, hall⟩
    have hr : (if false then 0 else -efault : Int) ≠ 0 := by decide
    exact ⟨fun h => absurd h hr, fun h => absurd h hr, fun h => absurd h hr, fun h => absurd h hr,
      fun _ => ⟨hr, update_mask_iff.mpr hall⟩⟩

section Written

variable (hread : MsrsRead M cpu)
  (hanswer : (hpmReadResult M cpu msrDev (featureReg M.model) s.core).1.1 = 0)
  (hwrite : writeReturn M cpu offset requested s = 0)

include hread hanswer hwrite

/-- The registers after the write -/
theorem writtenState_regs (hoffset : offset < 64) (owner : ℕ) (dev : PciDeviceIndex) (reg i : ℕ) :
    ((writtenState M cpu offset requested s).core.regs owner dev reg).getLsbD i =
      if owner = cpu ∧ dev = msrDev ∧ reg = featureReg M.model ∧ i = offset then !requested
      else (s.core.regs owner dev reg).getLsbD i := by
  have hflags : (hpmReadResult M cpu msrDev (featureReg M.model) s.core).1.2 =
      s.core.regs cpu msrDev (featureReg M.model) := readAnswer_msr hread hanswer
  have hset : (writtenState M cpu offset requested s).core.regs = fun owner' dev' reg' =>
      if owner' = cpu ∧ dev' = msrDev ∧ reg' = featureReg M.model then
        switchedFlags requested offset (s.core.regs cpu msrDev (featureReg M.model))
      else s.core.regs owner' dev' reg' := by
    unfold writeReturn hpmWriteResult at hwrite
    unfold writtenState hpmWriteResult
    dsimp only at hwrite ⊢
    rw [Core.log_regs, if_pos hwrite, hflags]
    rfl
  rw [hset]
  dsimp only
  by_cases hown : owner = cpu ∧ dev = msrDev ∧ reg = featureReg M.model
  · obtain ⟨rfl, rfl, rfl⟩ := hown
    rw [if_pos ⟨rfl, rfl, rfl⟩, getLsbD_switchedFlags requested _ hoffset]
    by_cases hi : i = offset
    · rw [if_pos hi, if_pos ⟨rfl, rfl, rfl, hi⟩]
    · rw [if_neg hi, if_neg fun h => hi h.2.2.2]
  · rw [if_neg hown, if_neg fun h => hown ⟨h.1, h.2.1, h.2.2.1⟩]

/-- **After a write that succeeds** the mask follows if everything can be read, the prefetchers are
tested, and the mask was right before. -/
theorem featureLaw_written (hne : s.ifFlag cpu type ≠ requested)
    (hoffset : prefetchOffset (newOffsets M.model) type = some offset) :
    FeatureLaw M cpu type requested s 0
        (cpuFeaturesUpdate M cpu (writtenState M cpu offset requested s)) ↔
      (M.model ∈ core2Models ∨ M.model ∈ newOffsetModels) ∧
      (∀ p ∈ featureTests M.model,
        (updateAnswer M cpu (writtenState M cpu offset requested s).core p.1).1 = 0) ∧
      ∀ p ∈ featureTests M.model, p.2.feature ≠ type →
        s.ifFlag cpu p.2.feature = p.2.enabled (s.core.regs cpu msrDev p.1) := by
  have hlt := offset_lt hoffset
  have hregs := writtenState_regs hread hanswer hwrite hlt
  have hbit : featureBit M.model type = some (featureReg M.model, ⟨type, offset, true⟩) := by
    rw [featureBit, hoffset]
  -- what is tested for another feature is as before
  have hkept : (M.model ∈ core2Models ∨ M.model ∈ newOffsetModels) →
      ∀ p ∈ featureTests M.model, p.2.feature ≠ type →
      p.2.enabled ((writtenState M cpu offset requested s).core.regs cpu msrDev p.1) =
        p.2.enabled (s.core.regs cpu msrDev p.1) := by
    intro hmodel p hp hother
    unfold FlagTest.enabled
    rw [hregs, if_neg]
    rintro ⟨-, -, hreg, hflag⟩
    have heq := featureTests_bits M.model hp (prefetch_mem hmodel hoffset) hreg hflag
    exact hother (congrArg (·.2.feature) heq)
  constructor
  · intro hlaw
    have hanswered := (answered_iff hanswer).mp (by
      by_contra hno
      exact (hlaw.failed hno).1 rfl)
    have hmodel : M.model ∈ core2Models ∨ M.model ∈ newOffsetModels := by
      by_contra hno
      rw [not_or] at hno
      have huntested := prefetch_untested hno.1 hno.2 hoffset
      have hsame : (cpuFeaturesUpdate M cpu (writtenState M cpu offset requested s)).ifFlag cpu
          type = s.ifFlag cpu type :=
        update_untested fun p hp heq => huntested p hp (CpuFeature.index_inj heq)
      have hreported := hlaw.reported rfl
      rw [cpuFeaturesGet, hsame] at hreported
      revert hne hreported
      cases s.ifFlag cpu type <;> cases requested <;> decide
    refine ⟨hmodel, hanswered.2, fun p hp hother => ?_⟩
    rw [← hkept hmodel p hp hother, ← updateAnswer_msr hread hp (hanswered.2 p hp),
      ← update_tested hp]
    exact (hlaw.flags rfl cpu p.2.feature fun h => hother h.2).symm
  · rintro ⟨hmodel, hreads, hagree⟩
    have hmem := prefetch_mem hmodel hoffset
    have henabled : (⟨type, offset, true⟩ : FlagTest).enabled
        ((writtenState M cpu offset requested s).core.regs cpu msrDev (featureReg M.model)) =
          requested := by
      unfold FlagTest.enabled
      rw [hregs, if_pos ⟨rfl, rfl, rfl, rfl⟩]
      cases requested <;> rfl
    constructor
    · intro _ p hp
      rw [hbit] at hp
      obtain rfl := Option.some.inj hp
      rw [update_regs]
      exact henabled
    · intro _
      have htested := @update_tested M cpu (writtenState M cpu offset requested s) _ hmem
      rw [updateAnswer_msr hread hmem (hreads _ hmem), henabled] at htested
      rw [cpuFeaturesGet, htested]
    · intro _ owner dev reg i hother
      rw [update_regs, hregs, if_neg (hother _ hbit)]
    · intro _ c f hother
      by_cases hc : c = cpu
      · subst hc
        have hf : f ≠ type := fun h => hother ⟨rfl, h⟩
        by_cases htest : ∃ p ∈ featureTests M.model, p.2.feature = f
        · obtain ⟨p, hp, rfl⟩ := htest
          rw [update_tested hp, updateAnswer_msr hread hp (hreads p hp),
            hkept hmodel p hp hf, hagree p hp hf]
        · push Not at htest
          exact update_untested fun p hp heq => htest p hp (CpuFeature.index_inj heq)
      · unfold FeatureState.ifFlag
        rw [update_mask_other hc]
        rfl
    · intro hno
      exact absurd ((answered_iff hanswer).mpr ⟨hwrite, hreads⟩) hno

end Written

/-- **A call obeys the law just if** the mask is right and no failure goes unnoticed. -/
theorem featureLaw_iff (hread : MsrsRead M cpu) (type : CpuFeature) (requested : Bool)
    (s : FeatureState) :
    FeatureLaw M cpu type requested s (cpuFeaturesSwitch M requested cpu type s).1
        (cpuFeaturesSwitch M requested cpu type s).2 ↔
      FeatureLawful M cpu type requested s := by
  rw [cpuFeaturesSwitch_eq]
  unfold FeatureLawful
  dsimp only
  by_cases hflag : s.ifFlag cpu type = requested
  · rw [if_pos hflag, if_pos hflag]
    exact featureLaw_cached hflag
  rw [if_neg hflag, if_neg hflag]
  by_cases hanswer : (hpmReadResult M cpu msrDev (featureReg M.model) s.core).1.1 = 0
  · rw [if_neg fun hne => hne hanswer]
    cases hoffset : prefetchOffset (newOffsets M.model) type with
    | none =>
        refine iff_of_true (featureLaw_error _ (show (-einval : Int) ≠ 0 by decide)) ?_
        intro offset h
        cases h
    | some offset =>
        have honly : ∀ P : ℕ → Prop, (∀ o ∈ some offset, P o) ↔ P offset := by simp
        rw [honly]
        dsimp only
        rw [forall_prop_of_true hanswer]
        change FeatureLaw M cpu type requested s
            (if requested then 0
              else if writeReturn M cpu offset requested s ≠ 0 then -efault else 0)
            (cpuFeaturesUpdate M cpu (writtenState M cpu offset requested s)) ↔
          if writeReturn M cpu offset requested s ≠ 0 then _ else _
        by_cases hwrite : writeReturn M cpu offset requested s = 0
        · have hok : ¬writeReturn M cpu offset requested s ≠ 0 := fun hne => hne hwrite
          have hzero : (if requested then 0
              else if writeReturn M cpu offset requested s ≠ 0 then -efault else 0 : Int) = 0 := by
            rw [if_neg hok, ite_self]
          rw [hzero, if_neg hok]
          exact featureLaw_written hread hanswer hwrite hflag hoffset
        · have hfault : (if requested then 0
              else if writeReturn M cpu offset requested s ≠ 0 then -efault else 0 : Int) =
              if requested then 0 else -efault := by
            rw [if_pos hwrite]
          rw [hfault, if_pos hwrite]
          exact featureLaw_unwritten hanswer hwrite
  · rw [if_pos hanswer]
    refine iff_of_true (featureLaw_error _ hanswer) ?_
    intro offset _ h
    exact absurd h hanswer

end Switch

/-! ## A prefetcher -/

/-- The mask as `cpuFeatures_init` computes it from the registers, all of which hold `v` -/
def initialFeatures (M : Machine) (v : Word) : FeatureState :=
  cpuFeaturesUpdate M 0 ⟨{ ownerCore with regs := fun _ _ _ => v }, fun _ => 0⟩

theorem msrsRead_haswellMachine : MsrsRead haswellMachine 0 := fun _ _ _ _ => rfl

theorem featureLaw_haswell : MsrsRead haswellMachine 0 ∧
    FeatureLaw haswellMachine 0 .hwPrefetcher false (initialFeatures haswellMachine 0)
      (cpuFeaturesSwitch haswellMachine false 0 .hwPrefetcher (initialFeatures haswellMachine 0)).1
      (cpuFeaturesSwitch haswellMachine false 0 .hwPrefetcher
        (initialFeatures haswellMachine 0)).2 := by
  refine ⟨msrsRead_haswellMachine, (featureLaw_iff msrsRead_haswellMachine .hwPrefetcher false
    (initialFeatures haswellMachine 0)).mpr ?_⟩
  unfold FeatureLawful
  rw [if_neg (by decide +kernel)]
  intro read offset hoffset hread
  obtain rfl : 0 = offset := Option.some.inj hoffset
  dsimp only
  rw [if_neg (by decide +kernel)]
  exact ⟨by decide, by decide +kernel, by decide +kernel⟩

/-- A machine whose prefetchers cannot be switched -/
def prefetchLocked : Machine :=
  { haswellMachine with
    accessWrite := fun _ _ _ reg _ => if reg = msrPrefetchEnable then -eio else 0 }

/-- The prefetcher is not switched on, and the call returns 0. -/
theorem not_featureLaw_locked :
    ¬FeatureLaw prefetchLocked 0 .hwPrefetcher true
      (initialFeatures prefetchLocked (BitVec.allOnes 64))
      (cpuFeaturesEnable prefetchLocked 0 .hwPrefetcher
        (initialFeatures prefetchLocked (BitVec.allOnes 64))).1
      (cpuFeaturesEnable prefetchLocked 0 .hwPrefetcher
        (initialFeatures prefetchLocked (BitVec.allOnes 64))).2 := by
  intro h
  have hzero : (cpuFeaturesEnable prefetchLocked 0 .hwPrefetcher
      (initialFeatures prefetchLocked (BitVec.allOnes 64))).1 = 0 := by
    decide +kernel
  exact (h.failed (by decide +kernel)).1 hzero

end Likwid
