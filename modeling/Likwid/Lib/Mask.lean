import Mathlib.Tactic.Common
import Mathlib.Algebra.Group.Nat.Defs

/-!
# Masks of consecutive bits

The mask `2 ^ n - 2 ^ k` keeps the bits `k` up to `n - 1`. Comparing them with a
value singles a block of `2 ^ k` numbers out among those below `2 ^ n`, and
repeats it beyond: the bits from `n` on are not looked at. Words that are or-ed together have the
bits of each, and the numbers of a list are the bits of one mask, so that two long lists are
compared at once.
-/

namespace Mask

variable {x v n k : ℕ}

theorem and_eq (hk : k ≤ n) : x &&& (2 ^ n - 2 ^ k) = x % 2 ^ n / 2 ^ k * 2 ^ k := by
  have hmask : 2 ^ n - 2 ^ k = (2 ^ (n - k) - 1) * 2 ^ k := by
    rw [Nat.sub_mul, ← Nat.pow_add, Nat.sub_add_cancel hk, Nat.one_mul]
  apply Nat.eq_of_testBit_eq
  intro i
  rw [hmask, Nat.testBit_and, Nat.testBit_mul_two_pow, Nat.testBit_mul_two_pow,
    Nat.testBit_two_pow_sub_one, Nat.testBit_div_two_pow, Nat.testBit_mod_two_pow]
  by_cases hi : k ≤ i
  · have hlt : i - k < n - k ↔ i < n := by omega
    simp [hi, hlt, Bool.and_comm]
  · simp [hi]

/-- Below `2 ^ n` the masked comparison singles one block out. -/
theorem and_eq_iff (hk : k ≤ n) (hx : x < 2 ^ n) (hv : 2 ^ k ∣ v) :
    x &&& (2 ^ n - 2 ^ k) = v ↔ v ≤ x ∧ x < v + 2 ^ k := by
  obtain ⟨q, rfl⟩ := hv
  have hpos : 0 < 2 ^ k := Nat.two_pow_pos k
  rw [and_eq hk, Nat.mod_eq_of_lt hx, Nat.mul_comm (2 ^ k) q, Nat.mul_right_cancel_iff hpos,
    Nat.div_eq_iff hpos]
  constructor
  · rintro ⟨hlow, hhigh⟩
    exact ⟨hlow, by omega⟩
  · rintro ⟨hlow, hhigh⟩
    exact ⟨hlow, by omega⟩

theorem getLsbD_foldl_or {α : Type} {w i : ℕ} (f : α → BitVec w) (l : List α) (v : BitVec w) :
    (l.foldl (fun v a => v ||| f a) v).getLsbD i = true ↔
      v.getLsbD i = true ∨ ∃ a ∈ l, (f a).getLsbD i = true := by
  induction l generalizing v with
  | nil => simp
  | cons a l ih =>
      rw [List.foldl_cons, ih, BitVec.getLsbD_or, Bool.or_eq_true]
      simp only [List.mem_cons, exists_eq_or_imp]
      exact or_assoc

/-- The numbers of a list, as the bits of a mask -/
def ofList (l : List ℕ) : ℕ := l.foldr (fun i mask => (1 <<< i) ||| mask) 0

theorem testBit_ofList {l : List ℕ} {i : ℕ} : (ofList l).testBit i = true ↔ i ∈ l := by
  induction l with
  | nil => simp [ofList]
  | cons j l ih =>
      show ((1 <<< j) ||| ofList l).testBit i = true ↔ i ∈ j :: l
      rw [Nat.testBit_or, Bool.or_eq_true, ih, List.mem_cons, Nat.one_shiftLeft,
        Nat.testBit_two_pow, decide_eq_true_eq, eq_comm]

theorem disjoint_of_ofList {l l' : List ℕ} (h : ofList l &&& ofList l' = 0) :
    ∀ i ∈ l, i ∉ l' := by
  intro i hi hi'
  have hbit := congrArg (fun mask => mask.testBit i) h
  simp only [Nat.testBit_and, testBit_ofList.mpr hi, testBit_ofList.mpr hi', Bool.and_self,
    Nat.zero_testBit] at hbit
  cases hbit

end Mask
