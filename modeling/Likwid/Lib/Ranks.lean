import Mathlib.Data.List.Nodup
import Mathlib.Data.List.Perm.Basic
import Mathlib.Data.List.Range
import Mathlib.Algebra.Order.Group.Nat

/-!
# Lists in the order of a rank

The positions of a list by rank, and those of one rank in the order of the list (`Ranks.order`). The
rank of a key counts the earlier positions with the same key, so that the first positions of all
keys come first, then the second ones, and so on. For a list in full rows of one key each, that is
the list read by columns (`Ranks.before_rows`).
-/

namespace Ranks

variable {κ : Type} [DecidableEq κ] {rank : ℕ → ℕ} {key : ℕ → κ} {size p r j n q c k : ℕ}

/-- The positions of rank `r` -/
def level (rank : ℕ → ℕ) (size r : ℕ) : List ℕ := (List.range size).filter (rank · = r)

/-- The positions below `size`, rank by rank -/
def order (rank : ℕ → ℕ) (size : ℕ) : List ℕ := (List.range size).flatMap (level rank size)

/-- How many positions come before `p` -/
def before (rank : ℕ → ℕ) (size p : ℕ) : ℕ :=
  (List.range size).countP (rank · < rank p) + (List.range p).countP (rank · = rank p)

/-- How often the key of `p` stands before it -/
def ofKey (key : ℕ → κ) (p : ℕ) : ℕ := (List.range p).countP (key · = key p)

theorem ofKey_le (key : ℕ → κ) (p : ℕ) : ofKey key p ≤ p := by
  refine (List.countP_le_length).trans ?_
  rw [List.length_range]

/-! ## The order -/

theorem mem_level : p ∈ level rank size r ↔ p < size ∧ rank p = r := by
  simp [level, List.mem_filter]

theorem mem_order (h : ∀ p, rank p ≤ p) : p ∈ order rank size ↔ p < size := by
  rw [order, List.mem_flatMap]
  constructor
  · rintro ⟨r, -, hp⟩
    exact (mem_level.mp hp).1
  · intro hp
    exact ⟨rank p, List.mem_range.mpr ((h p).trans_lt hp), mem_level.mpr ⟨hp, rfl⟩⟩

theorem nodup_order : (order rank size).Nodup := by
  refine List.nodup_flatMap.mpr ⟨fun r _ => List.nodup_range.filter _, ?_⟩
  refine List.nodup_range.imp fun {a b} hab p ha hb => hab ?_
  exact (mem_level.mp ha).2.symm.trans (mem_level.mp hb).2

theorem order_perm (h : ∀ p, rank p ≤ p) : (order rank size).Perm (List.range size) :=
  (List.perm_ext_iff_of_nodup nodup_order List.nodup_range).mpr fun p => by
    rw [mem_order h, List.mem_range]

theorem length_order (h : ∀ p, rank p ≤ p) : (order rank size).length = size := by
  rw [(order_perm h).length_eq, List.length_range]

/-- The positions of lower ranks -/
theorem length_levels (rank : ℕ → ℕ) (size r : ℕ) :
    ((List.range r).flatMap (level rank size)).length = (List.range size).countP (rank · < r) := by
  induction r with
  | zero => simp
  | succ r ih =>
      rw [List.range_succ, List.flatMap_append, List.length_append, List.flatMap_singleton, ih,
        level, ← List.countP_eq_length_filter]
      induction List.range size with
      | nil => rfl
      | cons a as ih' =>
          simp only [List.countP_cons, decide_eq_true_eq] at ih' ⊢
          split_ifs <;> omega

theorem getElem?_order_before (h : ∀ p, rank p ≤ p) (hp : p < size) :
    (order rank size)[before rank size p]? = some p := by
  obtain ⟨m, hm⟩ := Nat.exists_eq_add_of_lt ((h p).trans_lt hp)
  obtain ⟨d, hd⟩ := Nat.exists_eq_add_of_lt hp
  have hsplit : order rank size = (List.range (rank p)).flatMap (level rank size) ++
      (level rank size (rank p) ++ ((List.range m).map (rank p + 1 + ·)).flatMap
        (level rank size)) := by
    unfold order
    conv_lhs => rw [show List.range size = List.range (rank p + 1 + m) by rw [hm]; congr 1; omega]
    rw [List.range_add, List.range_succ, List.flatMap_append, List.flatMap_append,
      List.flatMap_singleton, List.append_assoc]
  have hlevel : level rank size (rank p) = (List.range p).filter (rank · = rank p) ++
      p :: ((List.range d).map (p + 1 + ·)).filter (rank · = rank p) := by
    rw [level, show size = p + 1 + d by omega, List.range_add, List.range_succ,
      List.filter_append, List.filter_append, List.filter_singleton]
    simp
  have hlen : ((List.range p).filter (rank · = rank p)).length =
      (List.range p).countP (rank · = rank p) := List.countP_eq_length_filter.symm
  rw [hsplit, hlevel, before, ← length_levels rank size (rank p), List.getElem?_append_right
    (Nat.le_add_right ..), Nat.add_sub_cancel_left, ← hlen, List.append_assoc,
    List.getElem?_append_right (Nat.le_refl _), Nat.sub_self]
  rfl

/-- A position is where as many come before it. -/
theorem getElem?_order_iff (h : ∀ p, rank p ≤ p) (hp : p < size) :
    (order rank size)[j]? = some p ↔ before rank size p = j := by
  have hget := getElem?_order_before h hp
  constructor
  · intro heq
    exact (List.getElem?_inj (List.getElem?_eq_some_iff.mp hget).1 nodup_order).mp
      (hget.trans heq.symm)
  · rintro rfl
    exact hget

/-! ## Full rows -/

theorem countP_mod_lt (hc : c ≤ n) (q : ℕ) : (List.range (n * q)).countP (· % n < c) = q * c := by
  induction q with
  | zero => simp
  | succ q ih =>
      have hrow : (List.range n).countP (fun a => (n * q + a) % n < c) = c := by
        have hall : (List.range n).countP (fun a => (n * q + a) % n < c) =
            (List.range n).countP (· < c) := by
          refine List.countP_congr fun a ha => ?_
          rw [Nat.mul_add_mod, Nat.mod_eq_of_lt (List.mem_range.mp ha)]
        obtain ⟨m, rfl⟩ := Nat.exists_eq_add_of_le hc
        rw [hall, List.range_add, List.countP_append, List.countP_eq_length.mpr (by simp),
          List.countP_eq_zero.mpr (by simp), List.length_range, Nat.add_zero]
      rw [Nat.mul_succ, List.range_add, List.countP_append, ih, List.countP_map]
      show _ + (List.range n).countP (fun a => (n * q + a) % n < c) = _
      rw [hrow, Nat.succ_mul]

theorem countP_mod_eq (hc : c < n) (q : ℕ) :
    (List.range (n * q + c)).countP (· % n = c) = q := by
  have hlow := countP_mod_lt hc.le q
  have hhigh := countP_mod_lt (Nat.succ_le_of_lt hc) q
  have hrest : ((List.range c).map (n * q + ·)).countP (· % n = c) = 0 := by
    refine List.countP_eq_zero.mpr fun a ha => ?_
    obtain ⟨i, hi, rfl⟩ := List.mem_map.mp ha
    have hlt := List.mem_range.mp hi
    simp only [Nat.mul_add_mod, Nat.mod_eq_of_lt (hlt.trans hc), decide_eq_true_eq]
    omega
  have hsum : (List.range (n * q)).countP (· % n < c + 1) =
      (List.range (n * q)).countP (· % n < c) + (List.range (n * q)).countP (· % n = c) := by
    induction List.range (n * q) with
    | nil => rfl
    | cons a as ih =>
        simp only [List.countP_cons, decide_eq_true_eq] at ih ⊢
        split_ifs <;> omega
  rw [List.range_add, List.countP_append, hrest, Nat.add_zero]
  rw [hlow, hhigh, Nat.mul_succ] at hsum
  omega

/-- In rows of `n` positions of one key each, the rank is the column. -/
theorem ofKey_rows (hn : 0 < n) (hrows : ∀ a < p, key a = key p ↔ a / n = p / n) :
    ofKey key p = p % n := by
  have hp := Nat.div_add_mod p n
  have hr := Nat.mod_lt p hn
  have hcount : ofKey key p = (List.range p).countP (· / n = p / n) := by
    refine List.countP_congr fun a ha => ?_
    simp only [decide_eq_true_eq]
    exact hrows a (List.mem_range.mp ha)
  have hbelow : (List.range (n * (p / n))).countP (· / n = p / n) = 0 := by
    refine List.countP_eq_zero.mpr fun a ha => ?_
    have hlt := Nat.div_lt_of_lt_mul (List.mem_range.mp ha)
    simpa using hlt.ne
  have hsame : (List.range (p % n)).countP (fun a => (n * (p / n) + a) / n = p / n) = p % n := by
    rw [List.countP_eq_length.mpr, List.length_range]
    intro a ha
    have hlt := (List.mem_range.mp ha).trans hr
    simp [Nat.mul_add_div hn, Nat.div_eq_of_lt hlt]
  have hsplit : List.range p = List.range (n * (p / n)) ++
      (List.range (p % n)).map (n * (p / n) + ·) := by rw [← List.range_add, hp]
  rw [hcount, hsplit, List.countP_append, hbelow, List.countP_map, Nat.zero_add]
  exact hsame

/-- In full rows of one key each, the order goes by columns. -/
theorem before_rows (hn : 0 < n) (hp : p < n * q)
    (hrows : ∀ a < n * q, ∀ b < n * q, key a = key b ↔ a / n = b / n) :
    before (ofKey key) (n * q) p = p % n * q + p / n := by
  have hrank : ∀ a < n * q, ofKey key a = a % n := fun a ha =>
    ofKey_rows hn fun b hb => hrows b (hb.trans ha) a ha
  have hlower : (List.range (n * q)).countP (ofKey key · < ofKey key p) = q * (p % n) := by
    rw [← countP_mod_lt (Nat.mod_lt p hn).le q, hrank p hp]
    refine List.countP_congr fun a ha => ?_
    rw [hrank a (List.mem_range.mp ha)]
  have hlevel : (List.range p).countP (ofKey key · = ofKey key p) = p / n := by
    have hmod := countP_mod_eq (Nat.mod_lt p hn) (p / n)
    rw [Nat.div_add_mod] at hmod
    rw [hrank p hp]
    conv_rhs => rw [← hmod]
    refine List.countP_congr fun a ha => ?_
    rw [hrank a ((List.mem_range.mp ha).trans hp)]
  rw [before, hlower, hlevel, Nat.mul_comm]

end Ranks
