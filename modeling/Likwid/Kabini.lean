import Likwid.Haswell.Setup
import Likwid.Lib.Mask
import Likwid.UncoreReset

/-!
# Kabini: setting up the counters of a thread

`perfmon_setupCounterThread_kabini` and its helpers. The helper of the second level cache or-s the
options `TID` and `NID` in as complements of words, which reach up to bit 63, so that the control
word has its fields apart only without them (`k16CacheFields_iff`).
-/

namespace Likwid

/-! ## Flags -/

/-- `((uint64_t)(event->eventId>>8)<<32) + (event->umask<<8) + (event->eventId & ~(0xF00U))` -/
def k16EventBits (event : PerfmonEvent) : Word :=
  ((event.eventId.setWidth 64 >>> 8) <<< 32) + (event.umask.setWidth 64 <<< 8) +
    (event.eventId.setWidth 64 &&& ~~~0xF00)

/-- `INVERT`, and `THRESHOLD` below 4 -/
def k16Option (flags : Word) (option : PerfmonEventOption) : Word :=
  match option.type with
  | .invert => flags ||| bit 23
  | .threshold =>
      if option.value &&& 0xFF < 0x04 then flags ||| ((option.value &&& 0xFF) <<< 24) else flags
  | _ => flags

def k16CacheOption (flags : Word) (option : PerfmonEventOption) : Word :=
  match option.type with
  | .tid => flags ||| ((~~~(option.value &&& 0xF)) <<< 56)
  | .nid => flags ||| ((~~~(option.value &&& 0xF)) <<< 48)
  | _ => k16Option flags option

def k16CacheFlags (event : PerfmonEvent) : Word :=
  event.optionList.foldl k16CacheOption (k16EventBits event)

/-! ## Set-up -/

variable (M : Machine)

/-- `tile_lock[affinity_thread2tile_lookup[cpu_id]] != cpu_id`: leave with 0. -/
def requireTile (cpu : ℕ) : Prog Int Core Unit := do
  let c ← Prog.get
  Prog.when (c.tileLock (M.thread2tile cpu) ≠ cpu) (Prog.ret 0)

def k16CacheSetup (cpu : ℕ) (index : RegisterIndex) (event : PerfmonEvent) :
    Prog Int Core Unit := do
  requireTile M cpu
  writeConfig M cpu index (k16CacheFlags event)

/-! ## The bits of the control word -/

section Bits

variable {event : PerfmonEvent} {i : ℕ}

theorem k16EventBits_low (event : PerfmonEvent) :
    ((event.umask.setWidth 64 <<< 8) +
      (event.eventId.setWidth 64 &&& ~~~0xF00) : Word).toNat < 2 ^ 32 := by
  have hu : (event.umask.setWidth 64 <<< 8 : Word).toNat < 2 ^ 16 := by
    have humask := event.umask.isLt
    simp only [BitVec.toNat_shiftLeft, BitVec.toNat_setWidth, Nat.shiftLeft_eq]
    omega
  have hi : (event.eventId.setWidth 64 &&& ~~~0xF00 : Word).toNat < 2 ^ 16 := by
    rw [BitVec.toNat_and]
    refine Nat.lt_of_le_of_lt Nat.and_le_left ?_
    rw [BitVec.toNat_setWidth]
    have hid := event.eventId.isLt
    omega
  rw [BitVec.toNat_add]
  omega

theorem k16EventBits_eq (event : PerfmonEvent) :
    k16EventBits event = ((event.eventId.setWidth 64 >>> 8) <<< 32) |||
      ((event.umask.setWidth 64 <<< 8) + (event.eventId.setWidth 64 &&& ~~~0xF00)) := by
  unfold k16EventBits
  rw [BitVec.add_assoc]
  refine BitVec.add_eq_or_of_and_eq_zero _ _ ?_
  ext j hj
  rw [BitVec.getElem_and, BitVec.getElem_zero]
  by_cases h32 : j < 32
  · rw [BitVec.getElem_shiftLeft]
    simp [h32]
  · have hzero : ((event.umask.setWidth 64 <<< 8) +
        (event.eventId.setWidth 64 &&& ~~~0xF00) : Word)[j] = false := by
      rw [← BitVec.getLsbD_eq_getElem, ← BitVec.testBit_toNat]
      exact Nat.testBit_lt_two_pow
        ((k16EventBits_low event).trans_le (Nat.pow_le_pow_right (by omega) (by omega)))
    rw [hzero, Bool.and_false]

/-- Bits 7 to 4 of the event's high byte stand above the field of the event select. -/
theorem k16EventBits_high (hi : 32 ≤ i) (hlt : i < 40) :
    (k16EventBits event).getLsbD i = event.eventId.getLsbD (i - 24) := by
  have hlow : ((event.umask.setWidth 64 <<< 8) +
      (event.eventId.setWidth 64 &&& ~~~0xF00) : Word).getLsbD i = false := by
    have hsum := k16EventBits_low event
    rw [← BitVec.testBit_toNat]
    exact Nat.testBit_lt_two_pow (hsum.trans_le (Nat.pow_le_pow_right (by omega) hi))
  rw [k16EventBits_eq, BitVec.getLsbD_or, hlow, Bool.or_false, BitVec.getLsbD_shiftLeft,
    BitVec.getLsbD_ushiftRight, BitVec.getLsbD_setWidth]
  have hsub : 8 + (i - 32) = i - 24 := by omega
  simp [show i < 64 by omega, show ¬i < 32 by omega, hsub, show i - 24 < 64 by omega]

theorem getLsbD_selectMask (hi : i < 64) :
    (0xF00 : Word).getLsbD i = decide (8 ≤ i ∧ i < 12) := by
  have hall : ∀ j : Fin 64, (0xF00 : Word).getLsbD j = decide (8 ≤ j.val ∧ j.val < 12) := by
    decide
  exact hall ⟨i, hi⟩

/-- The bits of an event of twelve bits -/
theorem k16EventBits_bits (hid : event.eventId.toNat < 2 ^ 12) :
    (k16EventBits event).getLsbD i = true ↔
      (i < 8 ∧ event.eventId.getLsbD i = true) ∨
      (8 ≤ i ∧ i < 16 ∧ event.umask.getLsbD (i - 8) = true) ∨
      (32 ≤ i ∧ i < 36 ∧ event.eventId.getLsbD (i - 24) = true) := by
  have hhigh : ∀ j, 12 ≤ j → event.eventId.getLsbD j = false := by
    intro j hj
    rw [← BitVec.testBit_toNat]
    exact Nat.testBit_lt_two_pow (hid.trans_le (Nat.pow_le_pow_right (by omega) hj))
  have hmasked : ∀ j, (event.eventId.setWidth 64 &&& ~~~0xF00 : Word).getLsbD j =
      (decide (j < 8) && event.eventId.getLsbD j) := by
    intro j
    by_cases hj : j < 64
    · rw [BitVec.getLsbD_and, BitVec.getLsbD_not, BitVec.getLsbD_setWidth, getLsbD_selectMask hj]
      by_cases h12 : 12 ≤ j
      · simp [hhigh j h12]
      · by_cases h8 : j < 8
        · simp [h8, hj, show ¬8 ≤ j by omega]
        · simp [h8, hj, show 8 ≤ j by omega, show j < 12 by omega]
    · simp [hj, show ¬j < 8 by omega]
  have hor : ((event.umask.setWidth 64 <<< 8) + (event.eventId.setWidth 64 &&& ~~~0xF00) : Word) =
      (event.umask.setWidth 64 <<< 8) ||| (event.eventId.setWidth 64 &&& ~~~0xF00) := by
    refine BitVec.add_eq_or_of_and_eq_zero _ _ (BitVec.eq_of_getLsbD_eq fun j hj => ?_)
    rw [BitVec.getLsbD_and, hmasked, BitVec.getLsbD_shiftLeft, BitVec.getLsbD_zero]
    by_cases h8 : j < 8
    · simp [h8]
    · simp [h8]
  rw [k16EventBits_eq, hor]
  simp only [BitVec.getLsbD_or, hmasked, BitVec.getLsbD_shiftLeft, BitVec.getLsbD_ushiftRight,
    BitVec.getLsbD_setWidth, Bool.or_eq_true, Bool.and_eq_true, decide_eq_true_eq,
    Bool.not_eq_true']
  by_cases h8 : i < 8
  · simp [h8, show ¬32 ≤ i by omega, show i < 32 by omega, show ¬8 ≤ i by omega]
  · by_cases h32 : i < 32
    · have humask : 8 ≤ i - 8 → event.umask.getLsbD (i - 8) = false := BitVec.getLsbD_of_ge _ _
      by_cases h16 : i < 16
      · simp [h8, h32, h16, show ¬32 ≤ i by omega, show 8 ≤ i by omega, show i < 64 by omega,
          show i - 8 < 64 by omega]
      · simp [h8, h32, h16, show ¬32 ≤ i by omega, humask (by omega)]
    · have humask : event.umask.getLsbD (i - 8) = false := BitVec.getLsbD_of_ge _ _ (by omega)
      have hsub : 8 + (i - 32) = i - 24 := by omega
      by_cases h36 : i < 36
      · simp [h8, h32, h36, hsub, humask, show 32 ≤ i by omega, show i < 64 by omega,
          show i - 24 < 64 by omega]
      · simp [h8, h32, h36, hsub, humask, hhigh (i - 24) (by omega)]

theorem k16CacheOption_eq (flags : Word) (option : PerfmonEventOption) :
    k16CacheOption flags option = flags ||| k16CacheOption 0 option := by
  unfold k16CacheOption k16Option
  cases option.type
  case threshold =>
    dsimp only
    split <;> simp
  all_goals simp

theorem k16CacheOption_bits {option : PerfmonEventOption} :
    (k16CacheOption 0 option).getLsbD i = true ↔
      (option.type = .invert ∧ i = 23) ∨
      (option.type = .threshold ∧ option.value &&& 0xFF < 0x04 ∧ 24 ≤ i ∧ i < 32 ∧
        option.value.getLsbD (i - 24) = true) ∨
      (option.type = .tid ∧ 56 ≤ i ∧ i < 64 ∧ (i < 60 → option.value.getLsbD (i - 56) = false)) ∨
      (option.type = .nid ∧ 48 ≤ i ∧ i < 64 ∧
        (i < 52 → option.value.getLsbD (i - 48) = false)) := by
  have hnibble : ∀ j < 64, (0xF : Word).getLsbD j = decide (j < 4) := by
    have hall : ∀ j : Fin 64, (0xF : Word).getLsbD j = decide (j.val < 4) := by decide
    exact fun j hj => hall ⟨j, hj⟩
  have hbyte : ∀ j < 64, (0xFF : Word).getLsbD j = decide (j < 8) := by
    have hall : ∀ j : Fin 64, (0xFF : Word).getLsbD j = decide (j.val < 8) := by decide
    exact fun j hj => hall ⟨j, hj⟩
  -- the complement of a word has the upper bits set
  have hcomplement : ∀ k, ((~~~(option.value &&& 0xF)) <<< k : Word).getLsbD i = true ↔
      k ≤ i ∧ i < 64 ∧ (i < k + 4 → option.value.getLsbD (i - k) = false) := by
    intro k
    rw [BitVec.getLsbD_shiftLeft]
    by_cases hi : i < 64
    · by_cases hk : i < k
      · simp [hk, show ¬k ≤ i by omega]
      · rw [BitVec.getLsbD_not, BitVec.getLsbD_and, hnibble _ (by omega)]
        have hiff : i - k < 4 ↔ i < k + 4 := by omega
        by_cases h4 : i < k + 4
        · simp [hi, hk, h4, hiff, show k ≤ i by omega, show i - k < 64 by omega]
        · simp [hi, hk, h4, hiff, show k ≤ i by omega, show i - k < 64 by omega]
    · simp [hi]
  have hthreshold : (((option.value &&& 0xFF) <<< 24 : Word)).getLsbD i = true ↔
      24 ≤ i ∧ i < 32 ∧ option.value.getLsbD (i - 24) = true := by
    rw [BitVec.getLsbD_shiftLeft]
    by_cases hi : i < 64
    · rw [BitVec.getLsbD_and, hbyte _ (by omega)]
      have hiff : i - 24 < 8 ↔ i < 32 := by omega
      by_cases h24 : i < 24
      · simp [h24, show ¬24 ≤ i by omega]
      · simp [hi, h24, hiff, show 24 ≤ i by omega, and_comm]
    · simp [hi, show ¬i < 32 by omega]
  have hinvert : (bit 23).getLsbD i = true ↔ i = 23 := bit_getLsbD (by omega)
  unfold k16CacheOption k16Option
  cases option.type
  case invert => simpa using hinvert
  case tid => simpa using hcomplement 56
  case nid => simpa using hcomplement 48
  case threshold =>
    dsimp only
    have hzero : ∀ x : Word, 0 ||| x = x := fun _ => BitVec.zero_or
    by_cases hlow : option.value &&& 0xFF < 0x04
    · rw [if_pos hlow, hzero, hthreshold]
      constructor
      · exact fun h => Or.inr (Or.inl ⟨rfl, hlow, h⟩)
      · rintro (⟨hno, -⟩ | ⟨-, -, h⟩ | ⟨hno, -⟩ | ⟨hno, -⟩)
        · cases hno
        · exact h
        · cases hno
        · cases hno
    · rw [if_neg hlow]
      refine iff_of_false (by simp) ?_
      rintro (⟨hno, -⟩ | ⟨-, h, -⟩ | ⟨hno, -⟩ | ⟨hno, -⟩)
      · cases hno
      · exact hlow h
      · cases hno
      · cases hno
  all_goals simp

theorem k16CacheFlags_bits : (k16CacheFlags event).getLsbD i = true ↔
    (k16EventBits event).getLsbD i = true ∨
      ∃ o ∈ event.optionList, (k16CacheOption 0 o).getLsbD i = true := by
  have hfold : k16CacheFlags event =
      event.optionList.foldl (fun v o => v ||| k16CacheOption 0 o) (k16EventBits event) := by
    have hstep : k16CacheOption = fun v o => v ||| k16CacheOption 0 o := by
      funext v o
      exact k16CacheOption_eq v o
    rw [k16CacheFlags, ← hstep]
  rw [hfold]
  exact Mask.getLsbD_foldl_or _ _ _

end Bits

/-! ## The fields -/

/-- The four bits from `start` on are the complement of the value of an option `type` if there is
one, and 0 if there is none. -/
structure ComplementField (event : PerfmonEvent) (type : EventOptionType) (start : ℕ) (w : Word) :
    Prop where
  given : (∃ o ∈ event.optionList, o.type = type) →
    ∃ o ∈ event.optionList, o.type = type ∧
      ∀ i < 4, w.getLsbD (start + i) = !o.value.getLsbD i
  absent : (¬∃ o ∈ event.optionList, o.type = type) → ∀ i < 4, w.getLsbD (start + i) = false

/-- Each field of the control word shows what it stands for, and the bits between are 0. -/
structure K16CacheFields (event : PerfmonEvent) (w : Word) : Prop where
  select : ∀ i < 8, w.getLsbD i = event.eventId.getLsbD i
  selectHigh : ∀ i < 4, w.getLsbD (32 + i) = event.eventId.getLsbD (8 + i)
  umask : ∀ i < 8, w.getLsbD (8 + i) = event.umask.getLsbD i
  invert : w.getLsbD 23 = true ↔ ∃ o ∈ event.optionList, o.type = .invert
  threshold : ∀ i < 8, w.getLsbD (24 + i) = true ↔
    ∃ o ∈ event.optionList, o.type = .threshold ∧ o.value &&& 0xFF < 0x04 ∧
      o.value.getLsbD i = true
  tid : ComplementField event .tid 56 w
  nid : ComplementField event .nid 48 w
  rest : ∀ i, (16 ≤ i ∧ i < 23) ∨ (36 ≤ i ∧ i < 48) ∨ (52 ≤ i ∧ i < 56) ∨ 60 ≤ i →
    w.getLsbD i = false

section Fields

variable {event : PerfmonEvent}

/-- Neither of the complements is asked for. -/
def NoComplement (event : PerfmonEvent) : Prop :=
  ∀ o ∈ event.optionList, o.type ≠ .tid ∧ o.type ≠ .nid

theorem K16CacheFields.noComplement (h : K16CacheFields event (k16CacheFlags event)) :
    NoComplement event := by
  intro o ho
  constructor
  · intro htid
    have hset : (k16CacheFlags event).getLsbD 60 = true :=
      k16CacheFlags_bits.mpr (Or.inr ⟨o, ho, k16CacheOption_bits.mpr
        (Or.inr (Or.inr (Or.inl ⟨htid, by omega, by omega, by omega⟩)))⟩)
    rw [h.rest 60 (by omega)] at hset
    cases hset
  · intro hnid
    have hset : (k16CacheFlags event).getLsbD 52 = true :=
      k16CacheFlags_bits.mpr (Or.inr ⟨o, ho, k16CacheOption_bits.mpr
        (Or.inr (Or.inr (Or.inr ⟨hnid, by omega, by omega, by omega⟩)))⟩)
    rw [h.rest 52 (by omega)] at hset
    cases hset

theorem K16CacheFields.eventId_lt (h : K16CacheFields event (k16CacheFlags event)) :
    event.eventId.toNat < 2 ^ 12 := by
  refine Nat.lt_pow_two_of_testBit _ fun j hj => ?_
  rw [BitVec.testBit_toNat]
  by_cases h16 : j < 16
  · have hhigh : (k16EventBits event).getLsbD (j + 24) = event.eventId.getLsbD j := by
      rw [k16EventBits_high (by omega) (by omega), Nat.add_sub_cancel]
    rw [← hhigh, ← Bool.not_eq_true]
    intro hset
    have hflag := k16CacheFlags_bits.mpr (Or.inl hset)
    rw [h.rest _ (by omega)] at hflag
    cases hflag
  · exact BitVec.getLsbD_of_ge _ _ (by omega)

/-- The bits that `INVERT` and `THRESHOLD` set -/
theorem k16CacheFlags_plain (hid : event.eventId.toNat < 2 ^ 12) (hplain : NoComplement event)
    (i : ℕ) : (k16CacheFlags event).getLsbD i = true ↔
      ((i < 8 ∧ event.eventId.getLsbD i = true) ∨
        (8 ≤ i ∧ i < 16 ∧ event.umask.getLsbD (i - 8) = true) ∨
        (32 ≤ i ∧ i < 36 ∧ event.eventId.getLsbD (i - 24) = true)) ∨
      (i = 23 ∧ ∃ o ∈ event.optionList, o.type = .invert) ∨
      (24 ≤ i ∧ i < 32 ∧ ∃ o ∈ event.optionList, o.type = .threshold ∧
        o.value &&& 0xFF < 0x04 ∧ o.value.getLsbD (i - 24) = true) := by
  rw [k16CacheFlags_bits, k16EventBits_bits hid]
  refine or_congr_right ?_
  constructor
  · rintro ⟨o, ho, hset⟩
    rcases k16CacheOption_bits.mp hset with ⟨ht, rfl⟩ | ⟨ht, hv, h24, h32, hb⟩ | ⟨ht, -⟩ | ⟨ht, -⟩
    · exact Or.inl ⟨rfl, o, ho, ht⟩
    · exact Or.inr ⟨h24, h32, o, ho, ht, hv, hb⟩
    · exact absurd ht (hplain o ho).1
    · exact absurd ht (hplain o ho).2
  · rintro (⟨rfl, o, ho, ht⟩ | ⟨h24, h32, o, ho, ht, hv, hb⟩)
    · exact ⟨o, ho, k16CacheOption_bits.mpr (Or.inl ⟨ht, rfl⟩)⟩
    · exact ⟨o, ho, k16CacheOption_bits.mpr (Or.inr (Or.inl ⟨ht, hv, h24, h32, hb⟩))⟩

theorem k16CacheFields_plain (hid : event.eventId.toNat < 2 ^ 12) (hplain : NoComplement event) :
    K16CacheFields event (k16CacheFlags event) := by
  have hbits := k16CacheFlags_plain hid hplain
  have hclear : ∀ i, (16 ≤ i ∧ i < 23) ∨ 36 ≤ i → (k16CacheFlags event).getLsbD i = false := by
    intro i hi
    rw [← Bool.not_eq_true, hbits]
    omega
  have habsent : ∀ type, type = .tid ∨ type = .nid → ¬∃ o ∈ event.optionList, o.type = type := by
    rintro type (rfl | rfl) ⟨o, ho, ht⟩
    · exact (hplain o ho).1 ht
    · exact (hplain o ho).2 ht
  refine ⟨fun i hi => ?_, fun i hi => ?_, fun i hi => ?_, ?_, fun i hi => ?_,
    ⟨fun h => absurd h (habsent _ (Or.inl rfl)), fun _ i _ => hclear _ (by omega)⟩,
    ⟨fun h => absurd h (habsent _ (Or.inr rfl)), fun _ i _ => hclear _ (by omega)⟩,
    fun i hi => hclear i (by omega)⟩
  · rw [Bool.eq_iff_iff, hbits]
    constructor
    · rintro ((⟨-, h⟩ | ⟨h8, -⟩ | ⟨h32, -⟩) | ⟨h23, -⟩ | ⟨h24, -⟩)
      · exact h
      all_goals omega
    · exact fun h => Or.inl (Or.inl ⟨hi, h⟩)
  · have hsub : 32 + i - 24 = 8 + i := by omega
    rw [Bool.eq_iff_iff, hbits, hsub]
    constructor
    · rintro ((⟨h8, -⟩ | ⟨-, h16, -⟩ | ⟨-, -, h⟩) | ⟨h23, -⟩ | ⟨-, h32, -⟩)
      · omega
      · omega
      · exact h
      all_goals omega
    · exact fun h => Or.inl (Or.inr (Or.inr ⟨by omega, by omega, h⟩))
  · have hsub : 8 + i - 8 = i := by omega
    rw [Bool.eq_iff_iff, hbits, hsub]
    constructor
    · rintro ((⟨h8, -⟩ | ⟨-, -, h⟩ | ⟨h32, -⟩) | ⟨h23, -⟩ | ⟨h24, -⟩)
      · omega
      · exact h
      all_goals omega
    · exact fun h => Or.inl (Or.inr (Or.inl ⟨by omega, by omega, h⟩))
  · rw [hbits]
    constructor
    · rintro ((⟨h8, -⟩ | ⟨-, h16, -⟩ | ⟨h32, -⟩) | ⟨-, h⟩ | ⟨h24, -⟩)
      · omega
      · omega
      · omega
      · exact h
      · omega
    · exact fun h => Or.inr (Or.inl ⟨rfl, h⟩)
  · have hsub : 24 + i - 24 = i := by omega
    rw [hbits, hsub]
    constructor
    · rintro ((⟨h8, -⟩ | ⟨-, h16, -⟩ | ⟨h32, -⟩) | ⟨h23, -⟩ | ⟨-, -, h⟩)
      · omega
      · omega
      · omega
      · omega
      · exact h
    · exact fun h => Or.inr (Or.inr ⟨by omega, by omega, h⟩)

/-! ## What a set-up computes -/

variable {M : Machine} {cpu : ℕ} {index : RegisterIndex} {c c' : Core}

/-- After a set-up that completes, the cached control word is the one of the event. -/
theorem k16CacheSetup_config (h : k16CacheSetup M cpu index event c = .done () c') :
    c'.currentConfig cpu index = k16CacheFlags event := by
  obtain ⟨⟨⟩, c₁, htile, hwrite⟩ := Prog.bind_eq_done.mp h
  obtain ⟨_, _, hget, hwrite⟩ := Prog.bind_eq_done.mp hwrite
  cases hget
  by_cases hsame : k16CacheFlags event ≠ c₁.currentConfig cpu index
  · rw [Prog.when_of_pos hsame] at hwrite
    obtain ⟨row, c₂, -, hwrite⟩ := Prog.bind_eq_done.mp hwrite
    obtain ⟨⟨⟩, c₃, -, hsave⟩ := Prog.bind_eq_done.mp hwrite
    cases hsave
    simp
  · rw [Prog.when_of_neg hsame] at hwrite
    cases hwrite
    exact (not_not.mp hsame).symm

/-- **The fields are apart** if and only if the options give no `TID` and no `NID` (and the event
has twelve bits, as those of the processor have). -/
theorem k16CacheFields_iff (h : k16CacheSetup M cpu index event c = .done () c') :
    K16CacheFields event (c'.currentConfig cpu index) ↔
      event.eventId.toNat < 2 ^ 12 ∧ NoComplement event := by
  rw [k16CacheSetup_config h]
  constructor
  · exact fun hfields => ⟨hfields.eventId_lt, hfields.noComplement⟩
  · rintro ⟨hid, hplain⟩
    exact k16CacheFields_plain hid hplain

end Fields

/-- The counters of a Kabini processor -/
def kabiniCounterMap : List RegisterMap := [
  ⟨"PMC0", 0, .pmc, 0xC0010000, 0xC0010004, 0, msrDev, 0⟩,
  ⟨"PMC1", 1, .pmc, 0xC0010001, 0xC0010005, 0, msrDev, 0⟩,
  ⟨"PMC2", 2, .pmc, 0xC0010002, 0xC0010006, 0, msrDev, 0⟩,
  ⟨"PMC3", 3, .pmc, 0xC0010003, 0xC0010007, 0, msrDev, 0⟩,
  ⟨"CPMC0", 4, .cbox0, 0xC0010230, 0xC0010231, 0, msrDev, 0⟩,
  ⟨"CPMC1", 5, .cbox0, 0xC0010232, 0xC0010233, 0, msrDev, 0⟩,
  ⟨"CPMC2", 6, .cbox0, 0xC0010234, 0xC0010235, 0, msrDev, 0⟩,
  ⟨"CPMC3", 7, .cbox0, 0xC0010236, 0xC0010237, 0, msrDev, 0⟩,
  ⟨"UPMC0", 8, .uncore, 0xC0010240, 0xC0010241, 0, msrDev, 0⟩,
  ⟨"UPMC1", 9, .uncore, 0xC0010242, 0xC0010243, 0, msrDev, 0⟩,
  ⟨"UPMC2", 10, .uncore, 0xC0010244, 0xC0010245, 0, msrDev, 0⟩,
  ⟨"UPMC3", 11, .uncore, 0xC0010246, 0xC0010247, 0, msrDev, 0⟩]

def kabiniMachine : Machine :=
  { haswellMachine with
    family := 0x16
    model := 0
    perfNumFixedCtr := 0
    toTables :=
      { counterMap := kabiniCounterMap
        boxMap := fun t =>
          if t = .pmc ∨ t = .uncore ∨ t = .cbox0 then { regWidth := 48 } else {}
        index_eq := index_eq_of_map (by decide)
        unit_row := by decide
        fixed_row := by decide
        fixed_private := by decide
        fixed_filter := by intro t; cases t <;> decide
        pmc_row := by decide
        pmc_private := by decide
        pmc_counter := by decide
        pmc_filter := by intro t row hrow; cases t <;> revert row <;> decide } }

/-- An event of the second level cache with one option -/
def l2Event (type : EventOptionType) (value : Word) : PerfmonEvent where
  name := "L2_REQUEST_ALL"
  limit := "CPMC"
  eventId := 0x7D
  umask := 0x01
  numberOfOptions := 1
  options := [⟨type, value⟩]

theorem k16CacheFields_threshold : ∃ c',
    k16CacheSetup kabiniMachine 0 4 (l2Event .threshold 3) ownerCore = .done () c' ∧
      K16CacheFields (l2Event .threshold 3) (c'.currentConfig 0 4) := by
  refine ⟨_, rfl, (k16CacheFields_iff (M := kabiniMachine) (c := ownerCore) rfl).mpr
    ⟨by decide, ?_⟩⟩
  intro o ho
  rw [List.mem_singleton.mp ho]
  exact ⟨nofun, nofun⟩

/-- `TID=0` sets bits 63 to 60 as well. -/
theorem not_k16CacheFields_tid : ∃ c',
    k16CacheSetup kabiniMachine 0 4 (l2Event .tid 0) ownerCore = .done () c' ∧
      ¬K16CacheFields (l2Event .tid 0) (c'.currentConfig 0 4) := by
  refine ⟨_, rfl, fun hfields => ?_⟩
  have hrest := hfields.rest 60 (by omega)
  exact absurd hrest (by decide)

end Likwid
