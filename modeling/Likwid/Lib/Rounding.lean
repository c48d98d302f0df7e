import Mathlib.Data.Nat.Log
import Mathlib.Algebra.Order.Field.Rat
import Mathlib.Algebra.Order.Ring.Nat
import Mathlib.Tactic.Ring

/-!
# Rounding to a number of significant bits

Floating point arithmetic on natural numbers: the numbers that have `p` significant
bits, and the one next to a number, with ties to even.
-/

namespace Rounding

/-- The number has `p` significant bits. -/
def Holds (p n : ℕ) : Prop := ∃ m e, m < 2 ^ p ∧ n = m * 2 ^ e

/-- The nearest number of `p` significant bits, the even one of two -/
def nearest (p n : ℕ) : ℕ :=
  let e := n.log2 + 1 - p
  if e = 0 then n
  else if 2 ^ e < 2 * (n % 2 ^ e) ∨ 2 * (n % 2 ^ e) = 2 ^ e ∧ n / 2 ^ e % 2 = 1 then
    (n / 2 ^ e + 1) * 2 ^ e
  else n / 2 ^ e * 2 ^ e

variable {p n m : ℕ}

theorem holds_of_lt (h : n < 2 ^ p) : Holds p n := ⟨n, 0, h, by simp⟩

theorem Holds.of_le (hp : 0 < p) (hm : m ≤ 2 ^ p) (e : ℕ) : Holds p (m * 2 ^ e) := by
  rcases Nat.lt_or_eq_of_le hm with hlt | rfl
  · exact ⟨m, e, hlt, rfl⟩
  · exact ⟨1, p + e, Nat.one_lt_two_pow hp.ne', by rw [Nat.one_mul, Nat.pow_add]⟩

theorem holds_of_le (hp : 0 < p) (h : n ≤ 2 ^ p) : Holds p n := by
  simpa using Holds.of_le hp h 0

@[simp] theorem nearest_zero (p : ℕ) : nearest p 0 = 0 := by
  simp [nearest]

theorem nearest_of_holds (h : Holds p n) : nearest p n = n := by
  obtain ⟨m, e, hm, rfl⟩ := h
  by_cases hpos : m * 2 ^ e = 0
  · rw [hpos, nearest_zero]
  unfold nearest
  dsimp only
  split
  · rfl
  · next hbits =>
      -- the bits that are cut off are among the trailing zeros
      have hlog : (m * 2 ^ e).log2 < p + e := by
        rw [Nat.log2_lt hpos, Nat.pow_add]
        exact Nat.mul_lt_mul_of_pos_right hm (Nat.two_pow_pos e)
      have hdvd : 2 ^ ((m * 2 ^ e).log2 + 1 - p) ∣ m * 2 ^ e :=
        Dvd.dvd.mul_left (Nat.pow_dvd_pow 2 (by omega)) m
      have hmod := Nat.mod_eq_zero_of_dvd hdvd
      have hpow := Nat.two_pow_pos ((m * 2 ^ e).log2 + 1 - p)
      rw [hmod, if_neg (by omega), Nat.div_mul_cancel hdvd]

theorem holds_nearest (hp : 0 < p) (n : ℕ) : Holds p (nearest p n) := by
  have hlt : n / 2 ^ (n.log2 + 1 - p) < 2 ^ p := by
    rw [Nat.div_lt_iff_lt_mul (Nat.two_pow_pos _), ← Nat.pow_add]
    exact Nat.lt_of_lt_of_le Nat.lt_log2_self (Nat.pow_le_pow_right (by decide) (by omega))
  unfold nearest
  dsimp only
  split
  · next hbits =>
      rw [hbits, Nat.pow_zero, Nat.div_one] at hlt
      exact holds_of_lt hlt
  · split
    · exact Holds.of_le hp hlt _
    · exact ⟨_, _, hlt, rfl⟩

theorem nearest_eq_self_iff (hp : 0 < p) : nearest p n = n ↔ Holds p n :=
  ⟨fun h => h ▸ holds_nearest hp n, nearest_of_holds⟩

theorem nearest_nearest (hp : 0 < p) (n : ℕ) : nearest p (nearest p n) = nearest p n :=
  nearest_of_holds (holds_nearest hp n)

theorem nearest_le_two_mul (n : ℕ) : nearest p n ≤ 2 * n := by
  unfold nearest
  dsimp only
  split
  · omega
  · have hdiv := Nat.div_add_mod n (2 ^ (n.log2 + 1 - p))
    rw [Nat.mul_comm] at hdiv
    split
    · next hup =>
        have hmod : 2 ^ (n.log2 + 1 - p) ≤ 2 * (n % 2 ^ (n.log2 + 1 - p)) := by
          rcases hup with hup | ⟨hup, -⟩
          · exact hup.le
          · exact hup.ge
        rw [Nat.add_mul, Nat.one_mul]
        omega
    · omega

/-! ## Doubles -/

/-- Natural numbers are rounded as doubles are; fractions are kept. -/
def roundInteger (x : ℚ) : ℚ := if x.den = 1 ∧ 0 ≤ x.num then nearest 53 x.num.toNat else x

theorem roundInteger_natCast (n : ℕ) : roundInteger n = nearest 53 n := by
  simp [roundInteger]

theorem roundInteger_of_le {n : ℕ} (h : n ≤ 2 ^ 53) : roundInteger n = n := by
  rw [roundInteger_natCast, nearest_of_holds (holds_of_le (by decide) h)]

end Rounding
