import Mathlib.Data.List.Nodup
import Mathlib.Data.List.Perm.Basic
import Mathlib.Data.List.Range
import Mathlib.Algebra.Order.Group.Nat

/-!
# Lists read by columns

The positions of a list that is written in rows of `n` entries, column by column: `Columns.order`
has the positions that are 0 modulo `n` first, then those that are 1, and so on. `Columns.grid`
reads `q` full rows that way; the two agree as long as the last row is full.
-/

namespace Columns

variable {α : Type} {n size off q j p : ℕ}

/-- Column `off` of the positions below `size` -/
def column (n size off : ℕ) : List ℕ := (List.range size).filter (· % n = off)

/-- The positions below `size`, column by column -/
def order (n size : ℕ) : List ℕ := (List.range n).flatMap (column n size)

/-- The entries of a grid with `n` columns and `q` rows, column by column -/
def grid (n q : ℕ) (entry : ℕ → ℕ → α) : List α :=
  (List.range n).flatMap fun off => (List.range q).map (entry off)

/-! ## Grids -/

@[simp] theorem length_grid (entry : ℕ → ℕ → α) : (grid n q entry).length = n * q := by
  induction n with
  | zero => simp [grid]
  | succ n ih =>
      rw [grid, List.range_succ, List.flatMap_append, List.length_append]
      show (grid n q entry).length + _ = _
      rw [ih, List.flatMap_singleton, List.length_map, List.length_range, Nat.succ_mul]

theorem getElem?_grid (entry : ℕ → ℕ → α) (hj : j < n * q) :
    (grid n q entry)[j]? = some (entry (j / q) (j % q)) := by
  have hq : 0 < q := Nat.pos_of_ne_zero fun hq => by simp [hq] at hj
  induction n with
  | zero => simp at hj
  | succ n ih =>
      have hgrid : grid (n + 1) q entry = grid n q entry ++ (List.range q).map (entry n) := by
        rw [grid, List.range_succ, List.flatMap_append, List.flatMap_singleton]
        rfl
      rw [hgrid]
      rcases Nat.lt_or_ge j (n * q) with hlt | hge
      · rw [List.getElem?_append_left (by rwa [length_grid]), ih hlt]
      · rw [List.getElem?_append_right (by rwa [length_grid]), length_grid, List.getElem?_map]
        obtain ⟨i, rfl⟩ := Nat.exists_eq_add_of_le hge
        have hi : i < q := by
          rw [Nat.succ_mul] at hj
          omega
        rw [Nat.add_sub_cancel_left, List.getElem?_range hi, Nat.mul_comm n q,
          Nat.mul_add_div hq, Nat.mul_add_mod, Nat.div_eq_of_lt hi, Nat.mod_eq_of_lt hi]
        rfl

/-! ## Columns -/

theorem div_eq_of_mul_le {a k : ℕ} (h : n * k ≤ a) (h' : a < n * k + n) : a / n = k :=
  Nat.div_eq_of_lt_le (by rwa [Nat.mul_comm]) (by rwa [Nat.mul_comm, Nat.mul_succ])

theorem column_eq (h : off < n) :
    column n size off = (List.range ((size + n - 1 - off) / n)).map (· * n + off) := by
  have hn : 0 < n := Nat.lt_of_le_of_lt (Nat.zero_le _) h
  induction size with
  | zero =>
      rw [Nat.div_eq_of_lt (by omega)]
      rfl
  | succ size ih =>
      have hsplit : column n (size + 1) off =
          column n size off ++ if size % n = off then [size] else [] := by
        rw [column, List.range_succ, List.filter_append, List.filter_singleton]
        by_cases hoff : size % n = off
        · simp [column, hoff]
        · simp [column, hoff]
      have hsize := Nat.div_add_mod size n
      have hr := Nat.mod_lt size hn
      generalize size / n = k at hsize
      generalize size % n = r at hsize hr hsplit
      rw [hsplit, ih]
      rcases Nat.lt_trichotomy r off with hlt | rfl | hgt
      · have hdiv : (size + n - 1 - off) / n = k := div_eq_of_mul_le (by omega) (by omega)
        have hdiv' : (size + 1 + n - 1 - off) / n = k := div_eq_of_mul_le (by omega) (by omega)
        rw [if_neg (Nat.ne_of_lt hlt), List.append_nil, hdiv, hdiv']
      · have hdiv : (size + n - 1 - r) / n = k := div_eq_of_mul_le (by omega) (by omega)
        have hdiv' : (size + 1 + n - 1 - r) / n = k + 1 :=
          div_eq_of_mul_le (by rw [Nat.mul_succ]; omega) (by rw [Nat.mul_succ]; omega)
        rw [if_pos rfl, hdiv, hdiv', List.range_succ, List.map_append, List.map_singleton,
          Nat.mul_comm k n, hsize]
      · have hdiv : (size + n - 1 - off) / n = k + 1 :=
          div_eq_of_mul_le (by rw [Nat.mul_succ]; omega) (by rw [Nat.mul_succ]; omega)
        have hdiv' : (size + 1 + n - 1 - off) / n = k + 1 :=
          div_eq_of_mul_le (by rw [Nat.mul_succ]; omega) (by rw [Nat.mul_succ]; omega)
        rw [if_neg (Nat.ne_of_gt hgt), List.append_nil, hdiv, hdiv']

theorem mem_column : p ∈ column n size off ↔ p < size ∧ p % n = off := by
  simp [column, List.mem_filter]

theorem mem_order (hn : 0 < n) : p ∈ order n size ↔ p < size := by
  rw [order, List.mem_flatMap]
  constructor
  · rintro ⟨off, -, hp⟩
    exact (mem_column.mp hp).1
  · intro hp
    exact ⟨p % n, List.mem_range.mpr (Nat.mod_lt p hn), mem_column.mpr ⟨hp, rfl⟩⟩

theorem nodup_order : (order n size).Nodup := by
  refine List.nodup_flatMap.mpr ⟨fun off _ => List.nodup_range.filter _, ?_⟩
  refine List.nodup_range.imp fun {a b} hab p ha hb => hab ?_
  exact (mem_column.mp ha).2.symm.trans (mem_column.mp hb).2

theorem order_perm (hn : 0 < n) : (order n size).Perm (List.range size) :=
  (List.perm_ext_iff_of_nodup nodup_order List.nodup_range).mpr fun p => by
    rw [mem_order hn, List.mem_range]

theorem order_of_dvd (h : n ∣ size) :
    order n size = grid n (size / n) fun off i => i * n + off := by
  obtain ⟨k, rfl⟩ := h
  refine List.flatMap_congr fun off hoff => ?_
  have hlt := List.mem_range.mp hoff
  have hdiv : (n * k + n - 1 - off) / n = k := div_eq_of_mul_le (by omega) (by omega)
  have hdiv' : n * k / n = k := div_eq_of_mul_le le_rfl (by omega)
  rw [column_eq hlt, hdiv, hdiv']

end Columns
