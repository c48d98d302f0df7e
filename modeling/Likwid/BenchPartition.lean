import Likwid.BenchThreads
import Likwid.BenchSize
import Mathlib.Data.Finset.Card
import Mathlib.Data.Int.Interval
import Mathlib.Order.Interval.Finset.Nat

/-!
# The parts of a vector (`bench.c`, `allocator.c`, `gas.pm`)

`runTest` divides a vector among the threads of a group. The kernels' loop has its test at the
end and compares signed, and the offset of a thread is an `int`: the parts are what the threads
touch exactly if no part is empty and the last offset is one of 31 bits
(`partitions_iff`). The parts are those of the 64-bit kernels.
-/

namespace Likwid

/-- The loop that `loop_entry` and `loop_exit` make: a round touches `step` elements from `rax`
on, then adds `step` to `rax` and goes round again if the sum is below `rdi`, as signed numbers.
The result is the touched elements. -/
def kernelLoop (rdi : BitVec 64) (step : ℕ) : (fuel : ℕ) → (rax : BitVec 64) → Option (List ℕ)
  | 0, _ => none
  | fuel + 1, rax =>
    let touched := (List.range step).map fun k => rax.toNat + k
    let rax := rax + BitVec.ofNat 64 step
    if rax.slt rdi then (kernelLoop rdi step fuel rax).map (touched ++ ·) else some touched

/-- `bytesize` in `allocator_allocateVector` -/
def vectorBytes (size offset : ℕ) (type : DataType) : ℕ :=
  (size + offset) % 2 ^ 64 * type.bytes % 2 ^ 64

/-! ## The parts -/

/-- Thread `i` of the group of `t` -/
def ThreadData.at (t : ThreadData) (i : ℕ) : ThreadData := { t with threadId := i }

/-- Element `e` of a stream belongs to the part of the thread. -/
def InPart (t : ThreadData) (e : ℤ) : Prop := threadOffset t ≤ e ∧ e < threadOffset t + threadSize t

instance (t : ThreadData) (e : ℤ) : Decidable (InPart t e) :=
  inferInstanceAs (Decidable (_ ∧ _))

/-- The kernel's loop ends and touches the elements of the part, from the thread's pointer on. -/
def TouchesPart (t : ThreadData) : Prop :=
  ∃ bound, ∀ fuel ≥ bound, ∃ touched,
    kernelLoop (BitVec.ofNat 64 (threadSize t)) t.data.test.stride fuel 0 = some touched ∧
      ∀ e : ℤ, (∃ k ∈ touched, e = threadOffset t + (k : ℤ)) ↔ InPart t e

/-- The parts of the `n` threads of a group, in a vector allocated with `offset` elements in front
of it -/
structure Partitions (t : ThreadData) (n offset : ℕ) : Prop where
  disjoint : ∀ i < n, ∀ j < n, ∀ e, InPart (t.at i) e → InPart (t.at j) e → i = j
  inside : ∀ i < n, ∀ e, InPart (t.at i) e → 0 ≤ e ∧ e < t.data.size ∧
    (offset + e + 1) * t.data.test.type.bytes ≤ vectorBytes t.data.size offset t.data.test.type
  multiple : ∀ i < n, t.data.test.stride ∣ threadSize (t.at i)
  rest : ((Finset.range t.data.size).filter fun e : ℕ => ∀ i < n, ¬InPart (t.at i) e).card <
    n * t.data.test.stride
  touches : ∀ i < n, TouchesPart (t.at i)

/-- The types of the numbers; `parse_streams` refuses a negative offset. -/
structure ThreadTypes (t : ThreadData) (n offset : ℕ) : Prop where
  threads : t.numberOfThreads = n
  positive : 0 < n
  int : n < 2 ^ 31
  size : t.data.size < 2 ^ 64
  stride : t.data.test.stride < 2 ^ 31
  offset : offset < 2 ^ 31

/-- Each thread has an element, the last offset is an `int`, and the bytes of the vector are
counted in 64 bits. -/
structure PartsFit (t : ThreadData) (n offset : ℕ) : Prop where
  long : n * t.data.test.stride ≤ t.data.size
  last : (n - 1) * (t.data.size / n / t.data.test.stride * t.data.test.stride) < 2 ^ 31
  bytes : (t.data.size + offset) * t.data.test.type.bytes < 2 ^ 64

/-! ## The kernel's loop -/

section KernelLoop

variable {step m j k fuel : ℕ} {rdi rax : BitVec 64} {touched : List ℕ}

theorem slt_ofNat {a b : ℕ} (ha : a < 2 ^ 63) (hb : b < 2 ^ 63) :
    (BitVec.ofNat 64 a).slt (BitVec.ofNat 64 b) = decide (a < b) := by
  have hint : ∀ x < 2 ^ 63, (BitVec.ofNat 64 x).toInt = x := by
    intro x hx
    have hnat : (BitVec.ofNat 64 x).toNat = x := by
      rw [BitVec.toNat_ofNat, Nat.mod_eq_of_lt (by omega)]
    rw [BitVec.toInt_eq_toNat_of_lt (by rw [hnat]; omega), hnat]
  rw [BitVec.slt, hint a ha, hint b hb]
  exact decide_eq_decide.mpr Int.ofNat_lt

theorem kernelLoop_first (h : kernelLoop rdi step fuel rax = some touched) (hk : k < step) :
    rax.toNat + k ∈ touched := by
  cases fuel with
  | zero => cases h
  | succ fuel =>
    have hmem : rax.toNat + k ∈ (List.range step).map fun k => rax.toNat + k :=
      List.mem_map.mpr ⟨k, List.mem_range.mpr hk, rfl⟩
    rw [kernelLoop] at h
    split at h
    · obtain ⟨rest, _, rfl⟩ := Option.map_eq_some_iff.mp h
      exact List.mem_append_left _ hmem
    · cases h
      exact hmem

theorem mem_round : k ∈ (List.range step).map (fun k => j + k) ↔ j ≤ k ∧ k < j + step := by
  rw [List.mem_map]
  constructor
  · rintro ⟨i, hi, rfl⟩
    have := List.mem_range.mp hi
    omega
  · intro hk
    exact ⟨k - j, List.mem_range.mpr (by omega), by omega⟩

theorem kernelLoop_round (hm : m * step < 2 ^ 63) (hj : (j + 1) * step < 2 ^ 63) :
    kernelLoop (BitVec.ofNat 64 (m * step)) step (fuel + 1) (BitVec.ofNat 64 (j * step)) =
      if (j + 1) * step < m * step then
        (kernelLoop (BitVec.ofNat 64 (m * step)) step fuel
          (BitVec.ofNat 64 ((j + 1) * step))).map
            ((List.range step).map (fun k => j * step + k) ++ ·)
      else some ((List.range step).map fun k => j * step + k) := by
  have hsucc : (j + 1) * step = j * step + step := Nat.succ_mul j step
  have hrax : (BitVec.ofNat 64 (j * step)).toNat = j * step := by
    rw [BitVec.toNat_ofNat, Nat.mod_eq_of_lt (by omega)]
  have hnext : BitVec.ofNat 64 (j * step) + BitVec.ofNat 64 step =
      BitVec.ofNat 64 ((j + 1) * step) := by
    rw [← BitVec.ofNat_add, hsucc]
  rw [kernelLoop, hrax, hnext, slt_ofNat hj hm]
  simp only [decide_eq_true_eq]

/-- From round `j` of `m` on the loop touches what is left. The induction is on the rounds. -/
theorem kernelLoop_rounds (hstep : 0 < step) (hm : m * step < 2 ^ 63) (n : ℕ)
    (hn : j + n + 1 = m) (hfuel : n < fuel) :
    ∃ touched, kernelLoop (BitVec.ofNat 64 (m * step)) step fuel (BitVec.ofNat 64 (j * step)) =
        some touched ∧ ∀ k, k ∈ touched ↔ j * step ≤ k ∧ k < m * step := by
  obtain ⟨fuel, rfl⟩ := Nat.exists_eq_succ_of_ne_zero (Nat.ne_of_gt (Nat.zero_lt_of_lt hfuel))
  have hsucc : (j + 1) * step = j * step + step := Nat.succ_mul j step
  have hle : (j + 1) * step ≤ m * step := Nat.mul_le_mul_right step (by omega)
  rw [kernelLoop_round hm (Nat.lt_of_le_of_lt hle hm)]
  induction n generalizing j fuel with
  | zero =>
    obtain rfl : j + 1 = m := hn
    rw [if_neg (Nat.lt_irrefl _)]
    refine ⟨_, rfl, fun k => ?_⟩
    rw [mem_round, hsucc]
  | succ n ih =>
    have hlt : (j + 1) * step < m * step := Nat.mul_lt_mul_of_pos_right (by omega) hstep
    obtain ⟨fuel, rfl⟩ := Nat.exists_eq_succ_of_ne_zero (by omega : fuel ≠ 0)
    have hsucc' : (j + 1 + 1) * step = (j + 1) * step + step := Nat.succ_mul (j + 1) step
    have hle' : (j + 1 + 1) * step ≤ m * step := Nat.mul_le_mul_right step (by omega)
    obtain ⟨touched, hrun, hmem⟩ := ih (j := j + 1) (by omega) fuel (by omega) hsucc' hle'
    rw [if_pos hlt, kernelLoop_round hm (Nat.lt_of_le_of_lt hle' hm), hrun]
    refine ⟨_, rfl, fun k => ?_⟩
    rw [List.mem_append, mem_round, hmem]
    omega

end KernelLoop

/-! ## The parts -/

section Parts

variable {t : ThreadData} {n offset i j : ℕ} {e : ℤ}

/-- The size of the parts -/
def partSize (t : ThreadData) (n : ℕ) : ℕ :=
  t.data.size / n / t.data.test.stride * t.data.test.stride

theorem threadSize_eq (h : ThreadTypes t n offset) (i : ℕ) :
    threadSize (t.at i) = partSize t n := by
  have hn : toUInt64 t.numberOfThreads = n := by
    have := h.int
    rw [h.threads, toUInt64]
    omega
  show t.data.size / toUInt64 t.numberOfThreads -
    t.data.size / toUInt64 t.numberOfThreads % t.data.test.stride = _
  rw [hn, partSize]
  have := Nat.div_add_mod (t.data.size / n) t.data.test.stride
  rw [Nat.mul_comm] at this
  omega

theorem threadOffset_eq (h : ThreadTypes t n offset) (i : ℕ) :
    threadOffset (t.at i) = toInt32 ((i * partSize t n : ℕ) : ℤ) := by
  rw [threadOffset, threadSize_eq h]
  rfl

theorem size_lt (h : ThreadTypes t n offset) :
    t.data.size < n * partSize t n + n * t.data.test.stride := by
  have hn := Nat.div_add_mod t.data.size n
  have hmod := Nat.mod_lt t.data.size h.positive
  have hs := Nat.div_add_mod (t.data.size / n) t.data.test.stride
  have hsmod := Nat.mod_lt (t.data.size / n) t.data.test.stride_pos
  have hq : t.data.size / n + 1 ≤ partSize t n + t.data.test.stride := by
    rw [partSize, Nat.mul_comm]
    omega
  have hmul := Nat.mul_le_mul_left n hq
  rw [Nat.mul_add, Nat.mul_add, Nat.mul_one] at hmul
  omega

theorem partSize_mul_le (n : ℕ) (t : ThreadData) : n * partSize t n ≤ t.data.size :=
  Nat.le_trans (Nat.mul_le_mul_left n (Nat.div_mul_le_self _ _)) (Nat.mul_div_le _ _)

theorem partSize_pos_iff (h : ThreadTypes t n offset) :
    0 < partSize t n ↔ n * t.data.test.stride ≤ t.data.size := by
  rw [partSize, Nat.mul_pos_iff_of_pos_right t.data.test.stride_pos,
    Nat.div_pos_iff, Nat.le_div_iff_mul_le h.positive, Nat.mul_comm]
  exact and_iff_right t.data.test.stride_pos

theorem PartsFit.offset_eq (h : ThreadTypes t n offset) (hfit : PartsFit t n offset)
    (hi : i < n) : threadOffset (t.at i) = ((i * partSize t n : ℕ) : ℤ) := by
  have hle : i * partSize t n ≤ (n - 1) * partSize t n :=
    Nat.mul_le_mul_right _ (by omega)
  rw [threadOffset_eq h, toInt32_of_lt (Nat.lt_of_le_of_lt hle hfit.last)]

theorem PartsFit.inPart_iff (h : ThreadTypes t n offset) (hfit : PartsFit t n offset)
    (hi : i < n) :
    InPart (t.at i) e ↔ ∃ k : ℕ, e = k ∧ i * partSize t n ≤ k ∧
      k < (i + 1) * partSize t n := by
  have hsucc : (i + 1) * partSize t n = i * partSize t n + partSize t n := Nat.succ_mul _ _
  rw [InPart, hfit.offset_eq h hi, threadSize_eq h, hsucc]
  constructor
  · rintro ⟨hge, hlt⟩
    refine ⟨e.toNat, ?_, ?_, ?_⟩ <;> omega
  · rintro ⟨k, rfl, hge, hlt⟩
    exact ⟨by omega, by omega⟩

/-- Where the condition holds, the parts lie one behind the other from the first element on. -/
theorem PartsFit.partitions (h : ThreadTypes t n offset) (hfit : PartsFit t n offset) :
    Partitions t n offset where
  disjoint i hi j hj e hin hin' := by
    rw [hfit.inPart_iff h hi] at hin
    rw [hfit.inPart_iff h hj] at hin'
    obtain ⟨k, rfl, hge, hlt⟩ := hin
    obtain ⟨k', hk, hge', hlt'⟩ := hin'
    obtain rfl : k = k' := Int.ofNat_inj.mp hk
    have hij : i < j + 1 := Nat.lt_of_mul_lt_mul_right (Nat.lt_of_le_of_lt hge hlt')
    have hji : j < i + 1 := Nat.lt_of_mul_lt_mul_right (Nat.lt_of_le_of_lt hge' hlt)
    omega
  inside i hi e hin := by
    rw [hfit.inPart_iff h hi] at hin
    obtain ⟨k, rfl, hge, hlt⟩ := hin
    have hle : (i + 1) * partSize t n ≤ n * partSize t n :=
      Nat.mul_le_mul_right _ (Nat.succ_le_of_lt hi)
    have hk : k < t.data.size :=
      Nat.lt_of_lt_of_le hlt (Nat.le_trans hle (partSize_mul_le n t))
    refine ⟨Int.natCast_nonneg k, Int.ofNat_lt.mpr hk, ?_⟩
    have hone := (bytes_range t.data.test.type).1
    have hvector : vectorBytes t.data.size offset t.data.test.type =
        (t.data.size + offset) * t.data.test.type.bytes := by
      have hlt64 := Nat.lt_of_le_of_lt (Nat.le_mul_of_pos_right _ hone) hfit.bytes
      rw [vectorBytes, Nat.mod_eq_of_lt hlt64, Nat.mod_eq_of_lt hfit.bytes]
    have hbytes : (offset + k + 1) * t.data.test.type.bytes ≤
        (t.data.size + offset) * t.data.test.type.bytes :=
      Nat.mul_le_mul_right _ (by omega)
    rw [hvector]
    exact_mod_cast hbytes
  multiple i _ := by
    rw [threadSize_eq h]
    exact Nat.dvd_mul_left _ _
  rest := by
    have hsub : ((Finset.range t.data.size).filter fun e : ℕ => ∀ i < n, ¬InPart (t.at i) e) ⊆
        Finset.Ico (n * partSize t n) t.data.size := by
      intro k hk
      rw [Finset.mem_filter, Finset.mem_range] at hk
      rw [Finset.mem_Ico]
      refine ⟨?_, hk.1⟩
      by_contra hlt
      -- the thread whose part the element is in
      have hpos : 0 < partSize t n := Nat.pos_of_ne_zero fun h0 => by
        rw [h0] at hlt
        omega
      have hi : k / partSize t n < n := Nat.div_lt_of_lt_mul (by rw [Nat.mul_comm]; omega)
      refine hk.2 _ hi ((hfit.inPart_iff h hi).mpr ⟨k, rfl, Nat.div_mul_le_self _ _, ?_⟩)
      rw [Nat.mul_comm]
      exact Nat.lt_mul_div_succ k hpos
    have hcard := Finset.card_le_card hsub
    rw [Nat.card_Ico] at hcard
    have hsize := size_lt h
    have hle := partSize_mul_le n t
    omega
  touches i hi := by
    have hpos := (partSize_pos_iff h).mpr hfit.long
    have hq : 0 < t.data.size / n / t.data.test.stride :=
      Nat.pos_of_mul_pos_right hpos
    obtain ⟨m, hm⟩ : ∃ m, t.data.size / n / t.data.test.stride = m + 1 :=
      Nat.exists_eq_succ_of_ne_zero (Nat.ne_of_gt hq)
    have hlt : partSize t n < 2 ^ 63 := by
      have hle := Nat.le_trans (Nat.le_mul_of_pos_left _ h.positive) (partSize_mul_le n t)
      have hb : t.data.size * 2 ≤ (t.data.size + offset) * t.data.test.type.bytes :=
        Nat.mul_le_mul (Nat.le_add_right _ _) (by cases t.data.test.type <;> decide)
      have := hfit.bytes
      omega
    have hfirst : threadSize (t.at i) = (m + 1) * t.data.test.stride := by
      rw [threadSize_eq h, partSize, hm]
    rw [partSize, hm] at hlt
    refine ⟨m + 1, fun fuel hfuel => ?_⟩
    obtain ⟨touched, hrun, hmem⟩ := kernelLoop_rounds (m := m + 1) (j := 0)
      t.data.test.stride_pos hlt m (by omega) hfuel
    rw [Nat.zero_mul] at hrun hmem
    refine ⟨touched, ?_, fun e => ?_⟩
    · rw [hfirst]
      exact hrun
    · rw [InPart, hfirst]
      constructor
      · rintro ⟨k, hk, he⟩
        have hbounds := (hmem k).mp hk
        rw [he]
        exact ⟨by omega, by omega⟩
      · rintro ⟨hge, hbelow⟩
        exact ⟨(e - threadOffset (t.at i)).toNat, (hmem _).mpr (by omega), by omega⟩

/-! ## What follows from a partition -/

/-- An empty part is touched all the same. -/
theorem Partitions.long (h : ThreadTypes t n offset) (hpart : Partitions t n offset) :
    n * t.data.test.stride ≤ t.data.size := by
  rw [← partSize_pos_iff h]
  by_contra hzero
  obtain ⟨bound, htouch⟩ := hpart.touches 0 h.positive
  obtain ⟨touched, hrun, hmem⟩ := htouch bound (Nat.le_refl bound)
  have hfirst := kernelLoop_first hrun t.data.test.stride_pos
  have hin := (hmem _).mp ⟨_, hfirst, rfl⟩
  rw [InPart, threadSize_eq h] at hin
  have hrax : (0 : BitVec 64).toNat = 0 := by decide
  rw [hrax] at hin
  omega

/-- The first offset that is no `int` is negative or in the first part. -/
theorem Partitions.last (h : ThreadTypes t n offset) (hpart : Partitions t n offset) :
    (n - 1) * partSize t n < 2 ^ 31 := by
  have hpos : 0 < partSize t n := (partSize_pos_iff h).mpr (hpart.long h)
  have hown : ∀ i, InPart (t.at i) (threadOffset (t.at i)) := by
    intro i
    rw [InPart, threadSize_eq h]
    omega
  by_contra hge
  rcases Nat.lt_or_ge (partSize t n) (2 ^ 31) with hlt | hbig
  · -- the first thread whose offset is too large
    obtain ⟨d, hd⟩ : ∃ d, (2 ^ 31 - 1) / partSize t n = d := ⟨_, rfl⟩
    have hi : d < n - 1 := by
      rw [← hd]
      apply Nat.div_lt_of_lt_mul
      rw [Nat.mul_comm]
      omega
    have hdiv := Nat.div_mul_le_self (2 ^ 31 - 1) (partSize t n)
    have hnext := Nat.lt_mul_div_succ (2 ^ 31 - 1) hpos
    have hsucc : (d + 1) * partSize t n = d * partSize t n + partSize t n := Nat.succ_mul _ _
    rw [Nat.mul_comm, hd] at hnext
    rw [hd] at hdiv
    obtain ⟨hin, _⟩ := hpart.inside (d + 1) (by omega) _ (hown _)
    rw [threadOffset_eq h, toInt32, Int.bmod_def] at hin
    omega
  · have hn : 1 < n := by
      by_contra h1
      have : n - 1 = 0 := by omega
      rw [this, Nat.zero_mul] at hge
      omega
    obtain ⟨hin, _⟩ := hpart.inside 1 hn _ (hown 1)
    have hrange := toInt32_range ((1 * partSize t n : ℕ) : ℤ)
    have hfirst : InPart (t.at 0) (threadOffset (t.at 1)) := by
      have hzero : threadOffset (t.at 0) = 0 := by
        rw [threadOffset_eq h, Nat.zero_mul]
        rfl
      rw [InPart, hzero, threadSize_eq h, threadOffset_eq h 1]
      rw [threadOffset_eq h 1] at hin
      omega
    exact absurd (hpart.disjoint 0 h.positive 1 hn _ hfirst (hown 1)) (by omega)

/-- The last element of the last part lies in the bytes that were asked for. -/
theorem Partitions.bytes (h : ThreadTypes t n offset) (hpart : Partitions t n offset) :
    (t.data.size + offset) * t.data.test.type.bytes < 2 ^ 64 := by
  have hlong := hpart.long h
  have hpos : 0 < partSize t n := (partSize_pos_iff h).mpr hlong
  have hlast := hpart.last h
  have hn := h.positive
  have hsucc : n * partSize t n = (n - 1) * partSize t n + partSize t n := by
    rw [← Nat.succ_mul]
    congr 1
    omega
  have hend : InPart (t.at (n - 1)) ((n * partSize t n - 1 : ℕ) : ℤ) := by
    rw [InPart, threadOffset_eq h, threadSize_eq h, toInt32_of_lt hlast]
    omega
  obtain ⟨_, _, hbytes⟩ := hpart.inside (n - 1) (by omega) _ hend
  -- the remainder is too small to make up for a wrapped number of bytes
  have hrest : n * t.data.test.stride ≤ 2 ^ 32 := by
    have hstride := h.stride
    rcases Nat.lt_or_ge 1 n with h1 | h1
    · have hle : t.data.test.stride ≤ partSize t n :=
        Nat.le_of_dvd hpos (Nat.dvd_mul_left _ _)
      have hone : partSize t n ≤ (n - 1) * partSize t n :=
        Nat.le_mul_of_pos_left _ (by omega)
      have := Nat.mul_le_mul_left n hle
      omega
    · obtain rfl : n = 1 := by omega
      omega
  have hsize := size_lt h
  have hle : offset + n * partSize t n ≤ t.data.size + offset := by
    have := partSize_mul_le n t
    omega
  have hend' : (offset + n * partSize t n) * t.data.test.type.bytes ≤
      vectorBytes t.data.size offset t.data.test.type := by
    have hcast : (offset : ℤ) + ((n * partSize t n - 1 : ℕ) : ℤ) + 1 =
        ((offset + n * partSize t n : ℕ) : ℤ) := by omega
    rw [hcast] at hbytes
    exact_mod_cast hbytes
  by_contra hwrap
  have hmod : vectorBytes t.data.size offset t.data.test.type =
      (t.data.size + offset) * t.data.test.type.bytes % 2 ^ 64 := by
    rw [vectorBytes, Nat.mod_mul_mod]
  rw [hmod] at hend'
  cases htype : t.data.test.type with
  | single =>
    rw [htype] at hend' hwrap
    change _ * 4 ≤ _ * 4 % 2 ^ 64 at hend'
    change ¬_ * 4 < 2 ^ 64 at hwrap
    omega
  | double =>
    rw [htype] at hend' hwrap
    change _ * 8 ≤ _ * 8 % 2 ^ 64 at hend'
    change ¬_ * 8 < 2 ^ 64 at hwrap
    omega

/-- The threads' parts are a partition that the kernels keep to exactly if every thread gets
elements, the offsets are ints and the bytes of the vector do not overflow. -/
theorem partitions_iff (h : ThreadTypes t n offset) :
    Partitions t n offset ↔ PartsFit t n offset :=
  ⟨fun hpart => ⟨hpart.long h, hpart.last h, hpart.bytes h⟩, fun hfit => hfit.partitions h⟩

end Parts

/-- A thread of a group of two, for a kernel of doubles with a stride of 4 -/
def strideFour (size : ℕ) : ThreadData where
  globalNumberOfThreads := 2
  numberOfThreads := 2
  globalThreadId := 0
  threadId := 0
  numberOfGroups := 1
  groupId := 0
  cycles := 0
  data :=
    { size := size
      iter := 10
      minRuntime := 1
      test := copyTest
      cycles := 0
      numberOfThreads := 2
      processors := [some 0, some 1]
      streams := [0, 0] }

theorem strideFour_types {size : ℕ} (h : size < 2 ^ 64) : ThreadTypes (strideFour size) 2 0 where
  threads := rfl
  positive := by decide
  int := by decide
  size := h
  stride := by
    show 4 < 2 ^ 31
    decide
  offset := by decide

theorem partitions_strideFour : Partitions (strideFour 12) 2 0 :=
  (partitions_iff (strideFour_types (by decide))).mpr ⟨by decide, by decide, by decide⟩

/-- With seven elements both parts are empty, and both threads touch the first four. -/
theorem not_partitions_short :
    ¬∀ (t : ThreadData) (n offset : ℕ), ThreadTypes t n offset → Partitions t n offset := by
  intro h
  have htypes : ThreadTypes (strideFour 7) 2 0 := strideFour_types (by decide)
  have hlong := (h _ 2 0 htypes).long htypes
  exact absurd hlong (by decide)

end Likwid
