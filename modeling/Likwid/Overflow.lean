import Mathlib.Tactic.Linarith
import Mathlib.Data.Rat.Cast.Order
import Likwid.Tables

/-!
# Overflows and results

What the results of a wrapped counter are worth. Both result functions take
the largest counter value for the length of a full period, so each recorded
overflow loses one event. They compute with doubles, which hold every count up to
`2 ^ 53` and round the larger ones.
-/

namespace Likwid

open Rounding

variable {M : Machine}

/-! ## Results of a wrapped counter -/

/-- The events a counter of `width` bits has seen from `start` to `stop` when it
wrapped `k` times in between. -/
def trueCount (width : ℕ) (start stop : Word) (k : ℕ) : ℕ :=
  k * 2 ^ width + stop.toNat - start.toNat

/-- The marker copy computes what `calculateResult` computes. -/
theorem calculateResult_fst (index : RegisterIndex) (type : RegisterType)
    (counter : PerfmonCounter) :
    (calculateResult M index type counter).1 =
      calculateMarkerResult M index type counter.startData counter.counterData
        counter.overflows := by
  unfold calculateResult calculateMarkerResult
  split_ifs <;> rfl

/-- The result before it is scaled to the counter's unit. -/
def countedResult (M : Machine) (type : RegisterType) (start stop : Word) (overflows : Int) : ℚ :=
  let max := perfmonGetMaxCounterValue M type
  let st : ℚ × Int :=
    if overflows = 0 then (toDouble M (stop - start), overflows)
    else if 0 < overflows then
      (M.fl (0 + toDouble M ((max - start) + stop)), overflows - 1)
    else (0, overflows)
  M.fl (st.1 + toDouble M (BitVec.ofInt 64 st.2 * max))

/-! ### In doubles -/

/-- Natural numbers, as far as they occur here, are rounded to 53 significant bits. -/
def Machine.RoundsNaturals (M : Machine) : Prop := ∀ n : ℕ, n < 2 ^ 128 → M.fl n = nearest 53 n

/-- `(max - start) + stop` -/
def firstPart (width : ℕ) (start stop : Word) : ℕ :=
  (2 ^ width - 1 - start.toNat + stop.toNat) % 2 ^ 64

/-- `(k - 1) * max` -/
def furtherPart (width k : ℕ) : ℕ := (k - 1) % 2 ^ 64 * (2 ^ width - 1) % 2 ^ 64

/-- The two parts fall short of the true count, and their sum in doubles is the true count
nevertheless. -/
def MadeUp (width : ℕ) (start stop : Word) (k : ℕ) : Prop :=
  nearest 53 (nearest 53 (firstPart width start stop) + nearest 53 (furtherPart width k)) =
    trueCount width start stop k

section Marker

variable {index : RegisterIndex} {type : RegisterType} {start stop : Word} {k : ℕ}

theorem calculateMarkerResult_of_ne (hp : type ≠ .power) (ht : type ≠ .thermal) (k : Int) :
    calculateMarkerResult M index type start stop k = countedResult M type start stop k := by
  simp only [calculateMarkerResult, hp, ht, if_false]
  rfl

theorem trueCount_zero (h : start.toNat ≤ stop.toNat) (width : ℕ) :
    (stop - start).toNat = trueCount width start stop 0 := by
  rw [BitVec.toNat_sub_of_le (BitVec.le_def.mpr h), trueCount]
  omega

/-- Each overflow loses one event: the parts never exceed what they stand for. -/
theorem parts_le {width : ℕ} (hstart : start.toNat < 2 ^ width) (hk : 0 < k) :
    firstPart width start stop + furtherPart width k + k ≤ trueCount width start stop k := by
  have hfirst : firstPart width start stop ≤ 2 ^ width - 1 - start.toNat + stop.toNat :=
    Nat.mod_le _ _
  have hfurther : furtherPart width k ≤ (k - 1) * (2 ^ width - 1) :=
    (Nat.mod_le _ _).trans (Nat.mul_le_mul_right _ (Nat.mod_le _ _))
  obtain ⟨j, rfl⟩ : ∃ j, k = j + 1 := ⟨k - 1, by omega⟩
  have hmul : j * (2 ^ width - 1) + j = j * 2 ^ width := by
    rw [← Nat.mul_succ, Nat.succ_eq_add_one, Nat.sub_add_cancel (Nat.two_pow_pos width)]
  have hsucc : (j + 1) * 2 ^ width = j * 2 ^ width + 2 ^ width := Nat.succ_mul _ _
  simp only [trueCount, Nat.add_sub_cancel] at hfurther ⊢
  omega

theorem MadeUp.large {width : ℕ} (h : MadeUp width start stop k)
    (hstart : start.toNat < 2 ^ width) (hk : 0 < k) : 2 ^ 53 < trueCount width start stop k := by
  by_contra hle
  have hparts : firstPart width start stop + furtherPart width k + k ≤
      trueCount width start stop k := parts_le hstart hk
  have hholds : ∀ {n : ℕ}, n ≤ trueCount width start stop k → nearest 53 n = n := fun hn =>
    nearest_of_holds (holds_of_le (by decide) (by omega))
  unfold MadeUp at h
  rw [hholds (n := firstPart width start stop) (by omega),
    hholds (n := furtherPart width k) (by omega), hholds (by omega)] at h
  omega

variable (hfl : M.RoundsNaturals)

include hfl

theorem toDouble_eq (w : Word) : toDouble M w = nearest 53 w.toNat :=
  hfl _ (w.isLt.trans (by decide))

theorem countedResult_zero :
    countedResult M type start stop 0 = nearest 53 (stop - start).toNat := by
  have hrest : toDouble M (BitVec.ofInt 64 0 * perfmonGetMaxCounterValue M type) = 0 := by
    rw [toDouble_eq hfl]
    simp
  have hdiff := nearest_le_two_mul (p := 53) (stop - start).toNat
  have hlt := (stop - start).isLt
  simp only [countedResult, if_true, hrest, add_zero, toDouble_eq hfl]
  rw [hfl _ (by omega), nearest_nearest (by decide)]

theorem countedResult_wrapped (hw : counterWidth M type ≤ 64)
    (hstart : start.toNat < 2 ^ counterWidth M type) (hk : 0 < k) :
    countedResult M type start stop k =
      (nearest 53 (nearest 53 (firstPart (counterWidth M type) start stop) +
        nearest 53 (furtherPart (counterWidth M type) k)) : ℕ) := by
  have hmax : (perfmonGetMaxCounterValue M type).toNat = 2 ^ counterWidth M type - 1 :=
    perfmonGetMaxCounterValue_toNat M hw
  have hle : start ≤ perfmonGetMaxCounterValue M type := by
    rw [BitVec.le_def, hmax]
    omega
  have hfirst : (perfmonGetMaxCounterValue M type - start + stop).toNat =
      firstPart (counterWidth M type) start stop := by
    rw [BitVec.toNat_add, BitVec.toNat_sub_of_le hle, hmax]
    rfl
  have hfurther : (BitVec.ofInt 64 ((k : Int) - 1) * perfmonGetMaxCounterValue M type).toNat =
      furtherPart (counterWidth M type) k := by
    have hcast : ((k : Int) - 1) = ((k - 1 : ℕ) : Int) := by omega
    rw [hcast, BitVec.ofInt_natCast, BitVec.toNat_mul, BitVec.toNat_ofNat, hmax]
    rfl
  have hfirst_lt : firstPart (counterWidth M type) start stop < 2 ^ 64 :=
    Nat.mod_lt _ (by decide)
  have hfurther_lt : furtherPart (counterWidth M type) k < 2 ^ 64 := Nat.mod_lt _ (by decide)
  have hfirst_le := nearest_le_two_mul (p := 53) (firstPart (counterWidth M type) start stop)
  have hfurther_le := nearest_le_two_mul (p := 53) (furtherPart (counterWidth M type) k)
  have hk0 : (k : Int) ≠ 0 := by omega
  have hkpos : (0 : Int) < k := by omega
  simp only [countedResult, hk0, if_false, hkpos, if_true, zero_add, toDouble_eq hfl, hfirst,
    hfurther]
  rw [hfl _ (by omega), nearest_nearest (by decide), ← Nat.cast_add, hfl _ (by omega)]

end Marker

/-- The results of the two functions for a record are the true number of events,
and they agree. -/
def ResultsExact (M : Machine) (index : RegisterIndex) (type : RegisterType)
    (start stop : Word) (k : ℕ) : Prop :=
  let counter : PerfmonCounter := ⟨true, k, start, stop, 0⟩
  let count : ℚ := trueCount (counterWidth M type) start stop k
  (calculateResult M index type counter).1 = count ∧
    calculateMarkerResult M index type start stop k = count ∧
    (calculateResult M index type counter).1 = calculateMarkerResult M index type start stop k

theorem roundingMachine_rounds : roundingMachine.RoundsNaturals := fun n _ =>
  Rounding.roundInteger_natCast n

end Likwid
