import Likwid.Lib.Text
import Mathlib.Data.Int.Log
import Mathlib.Data.Rat.Floor
import Mathlib.Tactic.FieldSimp
import Mathlib.Tactic.Linarith
import Mathlib.Tactic.Ring

/-!
# Numbers with a fraction in text

`printE` is `%e`: a rational number rounded to seven significant digits. `number` reads
a decimal numeral. It reads back what is printed (`number_printE`), and that is close to
the number printed (`abs_printed_sub_le`).
-/

namespace Text

/-! ## Digits -/

/-- The last `w` digits of a number. -/
def padded : ℕ → ℕ → List Char
  | 0, _ => []
  | w + 1, n => padded w (n / 10) ++ [Nat.digitChar (n % 10)]

theorem length_padded (w n : ℕ) : (padded w n).length = w := by
  induction w generalizing n with
  | zero => rfl
  | succ w ih => rw [padded, List.length_append, ih, List.length_singleton]

theorem isDigit_of_mem_padded {w n : ℕ} {c : Char} (hc : c ∈ padded w n) : c.isDigit = true := by
  induction w generalizing n with
  | zero => cases hc
  | succ w ih =>
      rcases List.mem_append.mp hc with hc | hc
      · exact ih hc
      · rw [List.mem_singleton.mp hc]
        simp [Nat.isDigit_digitChar, Nat.mod_lt]

theorem ofDigitChars_padded (w n init : ℕ) :
    Nat.ofDigitChars 10 (padded w n) init = 10 ^ w * init + n % 10 ^ w := by
  induction w generalizing n with
  | zero => simp [padded, Nat.mod_one]
  | succ w ih =>
      have hlt : n % 10 < 10 := Nat.mod_lt _ (by decide)
      rw [padded, Nat.ofDigitChars_append, ih,
        Nat.ofDigitChars_cons_digitChar_of_lt_ten hlt, Nat.ofDigitChars_nil]
      have hsplit : n % 10 ^ (w + 1) = 10 * (n / 10 % 10 ^ w) + n % 10 := by
        rw [Nat.pow_succ, Nat.mul_comm, Nat.mod_mul]
        omega
      rw [hsplit, Nat.pow_succ]
      ring

/-! ## Printing -/

/-- To the nearest integer, and to the even one of two. -/
def roundHalfEven (x : ℚ) : ℤ :=
  if x - ⌊x⌋ < 1 / 2 ∨ x - ⌊x⌋ = 1 / 2 ∧ ⌊x⌋ % 2 = 0 then ⌊x⌋ else ⌊x⌋ + 1

theorem abs_roundHalfEven_sub_le (x : ℚ) : |(roundHalfEven x : ℚ) - x| ≤ 1 / 2 := by
  have hle := Int.floor_le x
  have hlt := Int.lt_floor_add_one x
  unfold roundHalfEven
  split
  · next h =>
      have hhalf : x - ⌊x⌋ ≤ 1 / 2 := by
        rcases h with h | ⟨h, -⟩
        · exact h.le
        · exact h.le
      rw [abs_le]
      constructor <;> linarith
  · next h =>
      have hhalf : 1 / 2 ≤ x - ⌊x⌋ := not_lt.mp fun hlt => h (Or.inl hlt)
      push_cast
      rw [abs_le]
      constructor <;> linarith

/-- Seven significant digits and the exponent of the first of them. -/
def scientific (x : ℚ) : ℕ × ℤ :=
  if x = 0 then (0, 0)
  else
    let e := Int.log 10 |x|
    let m := (roundHalfEven (|x| / 10 ^ e * 10 ^ 6)).toNat
    if m = 10 ^ 7 then (10 ^ 6, e + 1) else (m, e)

/-- `%e` -/
def printE (x : ℚ) : List Char :=
  let (m, e) := scientific x
  (if x < 0 then ['-'] else []) ++ decimal (m / 10 ^ 6) ++ '.' :: (padded 6 m ++
    'e' :: (if e < 0 then '-' else '+') ::
      if e.natAbs < 10 then padded 2 e.natAbs else decimal e.natAbs)

/-- The value of what `%e` prints. -/
def printed (x : ℚ) : ℚ :=
  (if x < 0 then -1 else 1) * (scientific x).1 * 10 ^ ((scientific x).2 - 6)

/-- The seven digits are those of the absolute value, up to half of the last one. -/
theorem abs_scientific_sub_le {x : ℚ} (hx : x ≠ 0) :
    |(scientific x).1 * (10 : ℚ) ^ ((scientific x).2 - 6) - (|x|)| ≤ |x| / (2 * 10 ^ 6) := by
  have hpos : 0 < |x| := abs_pos.mpr hx
  have hlog : (10 : ℚ) ^ Int.log 10 |x| ≤ |x| := by
    simpa using Int.zpow_log_le_self (b := 10) (by decide) hpos
  generalize he : Int.log 10 |x| = e at hlog
  have hunit : (0 : ℚ) < 10 ^ e := zpow_pos (by norm_num) e
  -- the digits before the carry, in units of the last of them
  have hround := abs_roundHalfEven_sub_le (|x| / 10 ^ e * 10 ^ 6)
  generalize hr : roundHalfEven (|x| / 10 ^ e * 10 ^ 6) = r at hround
  have hr0 : 0 ≤ r := by
    have hlow : (1 : ℚ) ≤ |x| / 10 ^ e := (one_le_div hunit).mpr hlog
    have : (0 : ℚ) < r := by
      have := (abs_le.mp hround).1
      nlinarith
    exact_mod_cast this.le
  have hvalue : (scientific x).1 * (10 : ℚ) ^ ((scientific x).2 - 6) = r * 10 ^ (e - 6) := by
    have hm : ((r.toNat : ℕ) : ℚ) = r := by exact_mod_cast Int.toNat_of_nonneg hr0
    unfold scientific
    simp only [if_neg hx, he, hr]
    split
    · next hcarry =>
        rw [← hm, hcarry, show e + 1 - 6 = (e - 6) + 1 by ring, zpow_add₀ (by norm_num), zpow_one]
        push_cast
        ring
    · rw [hm]
  have hscale : (10 : ℚ) ^ (e - 6) * 10 ^ 6 = 10 ^ e := by
    rw [← zpow_natCast, ← zpow_add₀ (by norm_num)]
    congr 1
    push_cast
    ring
  have hlast : (0 : ℚ) < 10 ^ (e - 6) := zpow_pos (by norm_num) _
  have herror : r * (10 : ℚ) ^ (e - 6) - |x| =
      (r - |x| / 10 ^ e * 10 ^ 6) * 10 ^ (e - 6) := by
    rw [sub_mul, mul_assoc _ ((10 : ℚ) ^ 6), mul_comm ((10 : ℚ) ^ 6), hscale,
      div_mul_cancel₀ _ hunit.ne']
  rw [hvalue, herror, abs_mul, abs_of_pos hlast]
  calc |(r : ℚ) - |x| / 10 ^ e * 10 ^ 6| * 10 ^ (e - 6)
      ≤ 1 / 2 * 10 ^ (e - 6) := mul_le_mul_of_nonneg_right hround hlast.le
    _ = 10 ^ e / (2 * 10 ^ 6) := by rw [← hscale]; ring
    _ ≤ |x| / (2 * 10 ^ 6) := div_le_div_of_nonneg_right hlog (by norm_num)

/-- **What is printed is close to the number.** -/
theorem abs_printed_sub_le (x : ℚ) : |printed x - x| ≤ |x| / (2 * 10 ^ 6) := by
  rcases lt_trichotomy x 0 with hneg | rfl | hpos
  · have h := abs_scientific_sub_le hneg.ne
    have hsplit : printed x - x =
        -((scientific x).1 * (10 : ℚ) ^ ((scientific x).2 - 6) - |x|) := by
      rw [printed, if_pos hneg, abs_of_neg hneg]
      ring
    rw [hsplit, abs_neg]
    exact h
  · simp [printed, scientific]
  · have h := abs_scientific_sub_le hpos.ne'
    have hsplit : printed x - x = (scientific x).1 * (10 : ℚ) ^ ((scientific x).2 - 6) - |x| := by
      rw [printed, if_neg hpos.not_gt, abs_of_pos hpos]
      ring
    rw [hsplit]
    exact h

/-! ## Reading -/

/-- A sign, and what is behind it. -/
def sign : List Char → Bool × List Char
  | '-' :: s => (true, s)
  | '+' :: s => (false, s)
  | s => (false, s)

/-- The exponent a numeral ends in. -/
def exponent : List Char → Option ℤ
  | [] => some 0
  | c :: s =>
      let (neg, ds) := sign s
      if (c = 'e' ∨ c = 'E') ∧ ds ≠ [] ∧ ds.all Char.isDigit then
        some (if neg then -(readNat ds) else readNat ds)
      else none

/-- The value of a decimal numeral. -/
def number (s : List Char) : Option ℚ :=
  let (neg, s) := sign s
  let int := s.takeWhile Char.isDigit
  let s := s.dropWhile Char.isDigit
  let (frac, s) := match s with
    | '.' :: s => (s.takeWhile Char.isDigit, s.dropWhile Char.isDigit)
    | s => ([], s)
  if int = [] ∧ frac = [] then none
  else (exponent s).map fun e =>
    (if neg then -1 else 1) * (Nat.ofDigitChars 10 (int ++ frac) 0 : ℕ) *
      10 ^ (e - (frac.length : ℤ))

variable {s ds : List Char} {c : Char}

theorem span_digits (hds : ∀ c ∈ ds, c.isDigit = true) (hs : s.head?.all (!·.isDigit) = true) :
    (ds ++ s).takeWhile Char.isDigit = ds ∧ (ds ++ s).dropWhile Char.isDigit = s := by
  rw [List.takeWhile_append_of_pos hds, List.dropWhile_append_of_pos hds]
  cases s with
  | nil => simp
  | cons c s =>
      have hc : c.isDigit = false := by simpa using hs
      simp [hc]

theorem sign_digits (hds : ∀ c ∈ ds, c.isDigit = true) (hne : ds ≠ []) :
    sign (ds ++ s) = (false, ds ++ s) := by
  cases ds with
  | nil => exact absurd rfl hne
  | cons c ds =>
      have hc := hds c List.mem_cons_self
      unfold sign
      split
      · next h =>
          obtain ⟨rfl, -⟩ := List.cons.inj h
          exact absurd hc (by decide)
      · next h =>
          obtain ⟨rfl, -⟩ := List.cons.inj h
          exact absurd hc (by decide)
      · rfl

theorem exponent_digits {e : ℤ} (hds : ∀ c ∈ ds, c.isDigit = true) (hne : ds ≠ [])
    (hvalue : readNat ds = e.natAbs) :
    exponent ('e' :: (if e < 0 then '-' else '+') :: ds) = some e := by
  have hall : ds.all Char.isDigit = true := List.all_eq_true.mpr hds
  by_cases he : e < 0
  · rw [if_pos he, exponent]
    simp only [sign, true_or, ne_eq, hne, not_false_eq_true, hall, and_self, if_true, hvalue]
    congr 1
    omega
  · rw [if_neg he, exponent]
    simp only [sign, true_or, ne_eq, hne, not_false_eq_true, hall, and_self, if_true, hvalue,
      Bool.false_eq_true, if_false]
    congr 1
    omega

/-- A numeral with a point, behind its sign. -/
theorem number_fraction {neg : Bool} {int frac tail : List Char} {e : ℤ}
    (hint : ∀ c ∈ int, c.isDigit = true) (hne : int ≠ []) (hfrac : ∀ c ∈ frac, c.isDigit = true)
    (htail : tail.head?.all (!·.isDigit) = true) (he : exponent tail = some e) :
    number ((if neg then ['-'] else []) ++ int ++ '.' :: (frac ++ tail)) =
      some ((if neg then (-1 : ℚ) else 1) * (Nat.ofDigitChars 10 (int ++ frac) 0 : ℕ) *
        10 ^ (e - (frac.length : ℤ))) := by
  have hsign : sign ((if neg then ['-'] else []) ++ int ++ '.' :: (frac ++ tail)) =
      (neg, int ++ '.' :: (frac ++ tail)) := by
    cases neg with
    | true => rfl
    | false => exact sign_digits hint hne
  obtain ⟨htake, hdrop⟩ := span_digits hint (s := '.' :: (frac ++ tail)) (by simp)
  obtain ⟨htake', hdrop'⟩ := span_digits hfrac htail
  unfold number
  simp only [hsign, htake, hdrop, htake', hdrop', hne, false_and, if_false, he, Option.map_some]

/-- **What is printed is read back.** -/
theorem number_printE (x : ℚ) : number (printE x) = some (printed x) := by
  unfold printE printed
  obtain ⟨m, e⟩ := scientific x
  dsimp only
  let ds := if e.natAbs < 10 then padded 2 e.natAbs else decimal e.natAbs
  have hds : (∀ c ∈ ds, c.isDigit = true) ∧ ds ≠ [] ∧ readNat ds = e.natAbs := by
    show (∀ c ∈ ite _ _ _, _) ∧ ite _ _ _ ≠ _ ∧ readNat (ite _ _ _) = _
    split
    · next hlt =>
        refine ⟨fun c => isDigit_of_mem_padded, fun hnil => ?_, ?_⟩
        · have := congrArg List.length hnil
          rw [length_padded] at this
          cases this
        · have htake := (span_digits (s := [])
            (fun c => isDigit_of_mem_padded (w := 2) (n := e.natAbs)) rfl).1
          rw [List.append_nil] at htake
          rw [readNat, htake, ofDigitChars_padded]
          omega
    · exact ⟨fun c => isDigit_of_mem_decimal, decimal_ne_nil _, readNat_decimal _⟩
  have hneg : (if x < 0 then ['-'] else []) = if decide (x < 0) then ['-'] else [] := by simp
  rw [hneg, number_fraction (fun c => isDigit_of_mem_decimal) (decimal_ne_nil _)
    (fun c => isDigit_of_mem_padded) (by simp) (exponent_digits hds.1 hds.2.1 hds.2.2)]
  have hdigits : Nat.ofDigitChars 10 (decimal (m / 10 ^ 6) ++ padded 6 m) 0 = m := by
    rw [Nat.ofDigitChars_append, decimal, Nat.ofDigitChars_ten_toDigits, ofDigitChars_padded]
    exact Nat.div_add_mod m (10 ^ 6)
  rw [hdigits, length_padded]
  simp

/-- A whole number is read as it is. -/
theorem number_decimal (n : ℕ) : number (decimal n) = some (n : ℚ) := by
  have hdigits : ∀ c ∈ decimal n, c.isDigit = true := fun c => isDigit_of_mem_decimal
  obtain ⟨htake, hdrop⟩ := span_digits (s := []) hdigits rfl
  have hsign := sign_digits (s := []) hdigits (decimal_ne_nil n)
  rw [List.append_nil] at htake hdrop hsign
  unfold number
  simp only [hsign, htake, hdrop, decimal_ne_nil, false_and, if_false, exponent, Option.map_some,
    List.append_nil]
  rw [decimal, Nat.ofDigitChars_ten_toDigits]
  simp

/-- A printed number has a point, and no characters but these. -/
theorem mem_printE {x : ℚ} :
    '.' ∈ printE x ∧ ∀ c ∈ printE x, c.isDigit = true ∨ c ∈ ['-', '+', '.', 'e'] := by
  unfold printE
  refine ⟨by simp, fun c hc => ?_⟩
  simp only [List.mem_append, List.mem_cons] at hc
  rcases hc with (hc | hc) | rfl | hc | rfl | rfl | hc
  · split at hc
    · rw [List.mem_singleton.mp hc]
      exact Or.inr (by simp)
    · cases hc
  · exact Or.inl (isDigit_of_mem_decimal hc)
  · exact Or.inr (by simp)
  · exact Or.inl (isDigit_of_mem_padded hc)
  · exact Or.inr (by simp)
  · exact Or.inr (by split <;> simp)
  · split at hc
    · exact Or.inl (isDigit_of_mem_padded hc)
    · exact Or.inl (isDigit_of_mem_decimal hc)

end Text
