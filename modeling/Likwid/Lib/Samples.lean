import Mathlib.Data.Nat.Notation
import Mathlib.Data.List.Chain

/-!
# Samples of a counter that wraps

A counter that only counts up, modulo its period, is read now and then. If
less than a period passes from one reading to the next, the readings say how
far it has come: a reading below the previous one is a wrap.
-/

namespace Samples

/-- How often the counter wrapped between consecutive readings, the first of
which is `s`. -/
def wraps : ℕ → List ℕ → ℕ
  | _, [] => 0
  | s, x :: xs => (if x < s then 1 else 0) + wraps x xs

/-- The way from the first reading to the last: the sum of the distances of
consecutive readings, each less than a period. -/
def advance (period : ℕ) : ℕ → List ℕ → ℕ
  | _, [] => 0
  | s, x :: xs => (x + period - s) % period + advance period x xs

variable {period s : ℕ} {xs : List ℕ}

theorem wraps_concat (s : ℕ) (xs : List ℕ) (x : ℕ) :
    wraps s (xs ++ [x]) = wraps s xs + if x < xs.getLastD s then 1 else 0 := by
  induction xs generalizing s with
  | nil => simp [wraps]
  | cons y ys ih =>
      rw [List.cons_append, wraps, wraps, ih, List.getLastD_cons]
      omega

/-- Every wrap is a full period on top of what the last reading shows. -/
theorem advance_add (hs : s < period) (h : ∀ x ∈ xs, x < period) :
    advance period s xs + s = wraps s xs * period + xs.getLastD s := by
  induction xs generalizing s with
  | nil => simp [advance, wraps]
  | cons x xs ih =>
      have hx : x < period := h x List.mem_cons_self
      have hrest := ih hx fun y hy => h y (List.mem_cons_of_mem _ hy)
      have hdist : (x + period - s) % period + s = (if x < s then period else 0) + x := by
        split_ifs with hlt
        · rw [Nat.mod_eq_of_lt (by omega)]
          omega
        · rw [show x + period - s = (x - s) + period by omega, Nat.add_mod_right,
            Nat.mod_eq_of_lt (by omega)]
          omega
      have hwrap : (if x < s then 1 else 0) * period = if x < s then period else 0 := by
        split_ifs <;> simp
      rw [advance, wraps, List.getLastD_cons, Nat.add_mul, hwrap]
      omega

theorem wraps_cons_zero (s x : ℕ) (xs : List ℕ) :
    wraps s (x :: xs) = (if x < s then 1 else 0) + wraps 0 (x :: xs) := by
  simp [wraps]

theorem wraps_eq_zero_iff : wraps s xs = 0 ↔ (s :: xs).IsChain (· ≤ ·) := by
  induction xs generalizing s with
  | nil => simp [wraps]
  | cons x xs ih =>
      rw [wraps, List.isChain_cons_cons, ← ih]
      split_ifs with hlt
      · omega
      · omega

end Samples
