import Likwid.BenchWorkgroup
import Mathlib.Data.List.TakeWhile

/-!
# The size of a workgroup (`bstr_to_doubleSize`)

A size is a number and one of the units `B`, `kB`, `KB`, `MB` and `GB`. The unit is cut off as the
last two characters, which are never `B` alone, the number goes through an `int`, and what follows
its digits is not looked at (`sizeLaw_iff`).
-/

namespace Likwid

/-! ## Sizes -/

def sizeUnits : List (List Char × ℕ) :=
  [(['B'], 1), (['k', 'B'], 1000), (['K', 'B'], 1000), (['M', 'B'], 1000000),
   (['G', 'B'], 1000000000)]

/-- A decimal number followed by a unit -/
structure SizeText (str digits unit : List Char) (factor : ℕ) : Prop where
  text : str = digits ++ unit
  digits_ne : digits ≠ []
  isDigit : ∀ c ∈ digits, c.isDigit = true
  unit : (unit, factor) ∈ sizeUnits

/-- The number that the digits denote -/
abbrev numeralOf (digits : List Char) : ℕ := Nat.ofDigitChars 10 digits 0

/-- A size is converted to a number of elements, and any other string to 0. -/
structure SizeLaw (str : List Char) (type : DataType) : Prop where
  size : ∀ digits unit factor, SizeText str digits unit factor →
    numeralOf digits * factor < 2 ^ 64 →
    bstrToDoubleSize str type = numeralOf digits * factor / type.bytes
  other : (¬∃ digits unit factor, SizeText str digits unit factor) → bstrToDoubleSize str type = 0

/-- The last two characters are a unit, and in front of them, after blanks and a sign, there are
digits whose value is positive as an `int`. -/
def ReadsAsSize (str : List Char) : Prop :=
  unitFactor (str.drop (str.length - 2)) ≠ 0 ∧ ∃ z rest,
    Scan.readInt ((str.take (str.length - 2)).dropWhile Scan.isSpace) = some (z, rest) ∧
    z.natAbs < 2 ^ 64 ∧ 0 < toInt32 z

/-- A number of bytes is less than an element, any other size has a number below `2 ^ 31`, and
nothing else reads as a size. -/
structure SizeMatches (str : List Char) (type : DataType) : Prop where
  size : ∀ digits unit factor, SizeText str digits unit factor →
    numeralOf digits * factor < 2 ^ 64 →
    if unit = ['B'] then numeralOf digits < type.bytes else numeralOf digits < 2 ^ 31
  other : (¬∃ digits unit factor, SizeText str digits unit factor) → ¬ReadsAsSize str

variable {str digits unit : List Char} {factor : ℕ} {type : DataType}

theorem bytes_range (type : DataType) : 0 < type.bytes ∧ type.bytes ≤ 8 := by
  cases type <;> decide

/-- A negative number and no number at all come out alike. -/
theorem bstrToDoubleSize_eq (str : List Char) (type : DataType) :
    bstrToDoubleSize str type = if str.take (str.length - 2) = [] then 0
      else (str2int (str.take (str.length - 2))).toNat *
        unitFactor (str.drop (str.length - 2)) / type.bytes := by
  unfold bstrToDoubleSize
  dsimp only
  split
  · rfl
  · split
    · next hneg => rw [Int.toNat_of_nonpos (by omega), Nat.zero_mul, Nat.zero_div]
    · rfl

/-! ## The number -/

theorem readInt_digits (hne : digits ≠ []) (hdigit : ∀ c ∈ digits, c.isDigit = true) :
    Scan.readInt (digits.dropWhile Scan.isSpace) = some ((numeralOf digits : Int), []) := by
  obtain ⟨c, cs, rfl⟩ := List.exists_cons_of_ne_nil hne
  have hc := hdigit c (List.mem_cons_self ..)
  have htake : (c :: cs).takeWhile Char.isDigit = c :: cs := List.takeWhile_eq_self_iff.mpr hdigit
  have hdrop : (c :: cs).dropWhile Char.isDigit = [] := List.dropWhile_eq_nil_iff.mpr hdigit
  rw [List.dropWhile_cons_of_neg (by simp [Scan.isSpace_of_isDigit hc]), Scan.readInt_digit hc,
    htake, hdrop]

theorem str2int_digits (hne : digits ≠ []) (hdigit : ∀ c ∈ digits, c.isDigit = true)
    (hlt : numeralOf digits < 2 ^ 64) : str2int digits = toInt32 (numeralOf digits) := by
  rw [str2int, readInt_digits hne hdigit]
  show (if 2 ^ 64 ≤ (numeralOf digits : Int).natAbs then -1 else _) = _
  rw [if_neg (by omega)]

theorem toNat_toInt32_lt {n : ℕ} (h : 2 ^ 31 ≤ n) : (toInt32 n).toNat < n := by
  have hrange := toInt32_range n
  omega

theorem str2int_pos_iff (a : List Char) : 0 < str2int a ↔ ∃ z rest,
    Scan.readInt (a.dropWhile Scan.isSpace) = some (z, rest) ∧ z.natAbs < 2 ^ 64 ∧
      0 < toInt32 z := by
  rw [str2int]
  cases hread : Scan.readInt (a.dropWhile Scan.isSpace) with
  | none =>
    refine iff_of_false (by decide) ?_
    rintro ⟨z, rest, hsome, -⟩
    cases hsome
  | some read =>
    obtain ⟨z, rest⟩ := read
    show 0 < (if 2 ^ 64 ≤ z.natAbs then -1 else toInt32 z) ↔ _
    by_cases hlarge : 2 ^ 64 ≤ z.natAbs
    · rw [if_pos hlarge]
      refine iff_of_false (by decide) ?_
      rintro ⟨z', rest', hsome, hlt, -⟩
      cases hsome
      omega
    · rw [if_neg hlarge]
      constructor
      · exact fun hpos => ⟨z, rest, rfl, by omega, hpos⟩
      · rintro ⟨z', rest', hsome, -, hpos⟩
        cases hsome
        exact hpos

/-! ## Sizes and other strings -/

theorem SizeText.two (h : SizeText str digits unit factor) (hunit : unit ≠ ['B']) :
    unit.length = 2 ∧ unitFactor unit = factor ∧ 1000 ≤ factor := by
  have hmem := h.unit
  simp only [sizeUnits, List.mem_cons, Prod.mk.injEq, List.not_mem_nil, or_false] at hmem
  rcases hmem with ⟨rfl, -⟩ | ⟨rfl, rfl⟩ | ⟨rfl, rfl⟩ | ⟨rfl, rfl⟩ | ⟨rfl, rfl⟩
  · exact absurd rfl hunit
  all_goals decide

theorem SizeText.cut (h : SizeText str digits unit factor) (hunit : unit ≠ ['B']) :
    str.take (str.length - 2) = digits ∧ str.drop (str.length - 2) = unit := by
  have hlength : str.length - 2 = digits.length := by
    rw [h.text, List.length_append, (h.two hunit).1, Nat.add_sub_cancel]
  rw [hlength, h.text, List.take_left, List.drop_left]
  exact ⟨rfl, rfl⟩

/-- With `B`, a digit is taken for a part of the unit. -/
theorem SizeText.cut_bytes (h : SizeText str digits ['B'] factor) :
    unitFactor (str.drop (str.length - 2)) = 0 := by
  obtain ⟨front, d, hdigits⟩ := List.eq_nil_or_concat digits |>.resolve_left h.digits_ne
  have hd : d.isDigit = true := h.isDigit d (by rw [hdigits]; simp)
  have htext : str = front ++ [d, 'B'] := by
    rw [h.text, hdigits]
    simp
  have hlength : str.length - 2 = front.length := by
    rw [htext, List.length_append]
    exact Nat.add_sub_cancel _ 2
  rw [hlength, htext, List.drop_left]
  have hne : ∀ c : Char, c.isDigit = false → ¬([d, 'B'] = [c, 'B']) := by
    intro c hc heq
    rw [(List.cons.inj heq).1, hc] at hd
    cases hd
  unfold unitFactor
  rw [if_neg (by rintro (h | h); exacts [hne 'k' (by decide) h, hne 'K' (by decide) h]),
    if_neg (hne 'M' (by decide)), if_neg (hne 'G' (by decide)), if_neg (by simp)]

theorem SizeText.law_iff (h : SizeText str digits unit factor)
    (hfit : numeralOf digits * factor < 2 ^ 64) :
    bstrToDoubleSize str type = numeralOf digits * factor / type.bytes ↔
      if unit = ['B'] then numeralOf digits < type.bytes else numeralOf digits < 2 ^ 31 := by
  obtain ⟨hpos, hbytes⟩ := bytes_range type
  by_cases hunit : unit = ['B']
  · subst hunit
    have hfactor : factor = 1 := by
      have hmem := h.unit
      simp only [sizeUnits, List.mem_cons, Prod.mk.injEq, List.not_mem_nil, or_false] at hmem
      rcases hmem with ⟨-, rfl⟩ | ⟨hno, -⟩ | ⟨hno, -⟩ | ⟨hno, -⟩ | ⟨hno, -⟩
      · rfl
      all_goals cases hno
    have hresult : bstrToDoubleSize str type = 0 := by
      rw [bstrToDoubleSize_eq, h.cut_bytes, Nat.mul_zero, Nat.zero_div, ite_self]
    rw [hresult, hfactor, Nat.mul_one, if_pos rfl, eq_comm, Nat.div_eq_zero_iff]
    constructor
    · exact fun hzero => hzero.resolve_left (Nat.ne_of_gt hpos)
    · exact Or.inr
  · obtain ⟨hlength, hfactor, hlarge⟩ := h.two hunit
    obtain ⟨htake, hdrop⟩ := h.cut hunit
    have hlt : numeralOf digits < 2 ^ 64 :=
      Nat.lt_of_le_of_lt (Nat.le_mul_of_pos_right _ (by omega)) hfit
    have hresult : bstrToDoubleSize str type =
        (toInt32 (numeralOf digits)).toNat * factor / type.bytes := by
      rw [bstrToDoubleSize_eq, htake, hdrop, if_neg h.digits_ne,
        str2int_digits h.digits_ne h.isDigit hlt, hfactor]
    rw [hresult, if_neg hunit]
    constructor
    · intro heq
      by_contra hge
      have hless := toNat_toInt32_lt (Nat.le_of_not_lt hge)
      -- one element more in every step of the factor
      have hstep : (toInt32 (numeralOf digits)).toNat * factor + type.bytes ≤
          numeralOf digits * factor := by
        have hmul := Nat.mul_le_mul_right factor (Nat.succ_le_of_lt hless)
        rw [Nat.succ_mul] at hmul
        omega
      have hdiv := Nat.div_le_div_right (c := type.bytes) hstep
      rw [Nat.add_div_right _ hpos, ← heq] at hdiv
      omega
    · intro hsmall
      rw [toInt32_eq_self (by omega) (by omega), Int.toNat_natCast]

/-- Any string comes out as more than 0 exactly if it reads as a size. -/
theorem bstrToDoubleSize_ne_zero : bstrToDoubleSize str type ≠ 0 ↔ ReadsAsSize str := by
  obtain ⟨hpos, hbytes⟩ := bytes_range type
  rw [bstrToDoubleSize_eq, ReadsAsSize, ← str2int_pos_iff]
  by_cases hempty : str.take (str.length - 2) = []
  · rw [if_pos hempty, hempty]
    exact iff_of_false (by decide) fun h => absurd h.2 (by decide)
  · rw [if_neg hempty]
    generalize str2int (str.take (str.length - 2)) = z
    have hunit : unitFactor (str.drop (str.length - 2)) ≠ 0 →
        1000 ≤ unitFactor (str.drop (str.length - 2)) := by
      have htwo : (str.drop (str.length - 2)).length ≠ 1 := by
        have hlong : 2 < str.length := by
          by_contra hshort
          exact hempty (by rw [Nat.sub_eq_zero_of_le (by omega), List.take_zero])
        rw [List.length_drop]
        omega
      unfold unitFactor
      split_ifs with h1 h2 h3 h4
      · omega
      · omega
      · omega
      · rw [h4] at htwo
        exact absurd rfl htwo
      · omega
    rw [ne_eq, Nat.div_eq_zero_iff]
    constructor
    · intro hnot
      have hprod : type.bytes ≤ z.toNat * unitFactor (str.drop (str.length - 2)) := by
        omega
      constructor
      · intro hzero
        rw [hzero] at hprod
        omega
      · by_contra hneg
        rw [Int.toNat_of_nonpos (by omega), Nat.zero_mul] at hprod
        omega
    · rintro ⟨hne, hz⟩
      have hmul : 1 * 1000 ≤ z.toNat * unitFactor (str.drop (str.length - 2)) :=
        Nat.mul_le_mul (by omega) (hunit hne)
      omega

/-- **The size comes out right** if and only if the string matches. -/
theorem sizeLaw_iff (str : List Char) (type : DataType) :
    SizeLaw str type ↔ SizeMatches str type := by
  constructor
  · intro hlaw
    refine ⟨fun digits unit factor h hfit => (h.law_iff hfit).mp (hlaw.size _ _ _ h hfit),
      fun hother hreads => ?_⟩
    exact bstrToDoubleSize_ne_zero.mpr hreads (hlaw.other hother)
  · intro hmatches
    refine ⟨fun digits unit factor h hfit => (h.law_iff hfit).mpr (hmatches.size _ _ _ h hfit),
      fun hother => ?_⟩
    by_contra hne
    exact hmatches.other hother (bstrToDoubleSize_ne_zero.mp hne)

/-- `16B` is two doubles, and comes out as none. -/
theorem not_sizeLaw_bytes : ¬SizeLaw ['1', '6', 'B'] .double := by
  intro hlaw
  have hsize : SizeText ['1', '6', 'B'] ['1', '6'] ['B'] 1 :=
    ⟨rfl, by decide, List.all_eq_true.mp rfl, by decide⟩
  exact absurd (hlaw.size _ _ _ hsize (by decide)) (by decide)

end Likwid
