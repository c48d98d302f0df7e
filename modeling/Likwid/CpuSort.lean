import Likwid.CpuLogical

/-!
# Sorted processor lists (`cpustring.c`)

`cpulist_sort` fills an array by a running index, in two nested loops. What the loops write one
after the other is the list `cpulistSort`; if the rows are full, it has every entry of the input
once, the first hardware threads of all cores before the second ones.
-/

namespace Likwid

/-! ## The loops -/

/-- The running index `insert` and the array `outcpus` -/
structure SortOutput where
  insert : ℕ
  outcpus : ℕ → CpuCell

/-- `outcpus[insert] = cpu; insert++;` -/
def SortOutput.put (s : SortOutput) (cpu : CpuCell) : SortOutput :=
  { insert := s.insert + 1, outcpus := Function.update s.outcpus s.insert cpu }

/-- The loop over `i` -/
def sortThread (numThreadsPerCore : ℕ) (incpus : ℕ → CpuCell) (length : ℕ) (s : SortOutput)
    (off : ℕ) : SortOutput :=
  (List.range (length / numThreadsPerCore)).foldl
    (fun s i => s.put (incpus (i * numThreadsPerCore + off))) s

/-- `cpulist_sort` as it fills the array it is given, with the value it returns -/
def cpulistSortInto (numThreadsPerCore : ℕ) (incpus outcpus : ℕ → CpuCell) (length : Int) :
    Int × (ℕ → CpuCell) :=
  if length ≤ 0 then (-1, outcpus)
  else
    let s := (List.range numThreadsPerCore).foldl
      (sortThread numThreadsPerCore incpus length.toNat) ⟨0, outcpus⟩
    (s.insert, s.outcpus)

/-! ## What the loops write -/

section Writing

variable {n length : ℕ} {incpus outcpus : ℕ → CpuCell} {l : List CpuCell} {s : SortOutput} {p : ℕ}

theorem SortOutput.insert_foldl : (l.foldl SortOutput.put s).insert = s.insert + l.length := by
  induction l generalizing s with
  | nil => rfl
  | cons cpu l ih =>
      rw [List.foldl_cons, ih, List.length_cons, Nat.add_comm l.length, ← Nat.add_assoc]
      rfl

theorem SortOutput.outcpus_foldl_lt (hp : p < s.insert) :
    (l.foldl SortOutput.put s).outcpus p = s.outcpus p := by
  induction l generalizing s with
  | nil => rfl
  | cons cpu l ih =>
      rw [List.foldl_cons, ih (Nat.lt_succ_of_lt hp)]
      exact Function.update_of_ne (Nat.ne_of_lt hp) ..

/-- From the running index on stand the entries, and behind them what was there. -/
theorem SortOutput.outcpus_foldl_add (p : ℕ) :
    (l.foldl SortOutput.put s).outcpus (s.insert + p) =
      (l[p]?).getD (s.outcpus (s.insert + p)) := by
  induction l generalizing s p with
  | nil => rfl
  | cons cpu l ih =>
      rw [List.foldl_cons]
      cases p with
      | zero =>
          rw [outcpus_foldl_lt (Nat.lt_succ_self _)]
          exact Function.update_self ..
      | succ p =>
          have hput := ih (s := s.put cpu) p
          have hindex : (s.put cpu).insert + p = s.insert + (p + 1) := by
            show s.insert + 1 + p = _
            omega
          have hne : s.insert + (p + 1) ≠ s.insert := by omega
          rw [hindex] at hput
          rw [hput, List.getElem?_cons_succ]
          exact congrArg (l[p]?).getD (Function.update_of_ne hne ..)

theorem foldl_sortThread :
    (List.range n).foldl (sortThread n incpus length) s =
      (cpulistSort n incpus length).foldl SortOutput.put s := by
  rw [cpulistSort, List.foldl_flatMap]
  congr 1
  funext s off
  rw [List.foldl_map]
  rfl

theorem cpulistSortInto_insert {length : Int} (h : 0 < length) :
    (cpulistSortInto n incpus outcpus length).1 = (cpulistSort n incpus length.toNat).length := by
  have hinsert := SortOutput.insert_foldl (l := cpulistSort n incpus length.toNat)
    (s := ⟨0, outcpus⟩)
  unfold cpulistSortInto
  rw [if_neg (Int.not_le.mpr h), foldl_sortThread]
  show ((_ : ℕ) : Int) = _
  rw [hinsert]
  show ((0 + _ : ℕ) : Int) = _
  rw [Nat.zero_add]

theorem cpulistSortInto_outcpus {length : Int} (h : 0 < length) (p : ℕ) :
    (cpulistSortInto n incpus outcpus length).2 p =
      ((cpulistSort n incpus length.toNat)[p]?).getD (outcpus p) := by
  have hput := SortOutput.outcpus_foldl_add (l := cpulistSort n incpus length.toNat)
    (s := ⟨0, outcpus⟩) p
  unfold cpulistSortInto
  rw [if_neg (Int.not_le.mpr h), foldl_sortThread]
  rwa [Nat.zero_add] at hput

end Writing

/-! ## Full rows -/

section Full

variable {n length : ℕ} {incpus outcpus : ℕ → CpuCell}

theorem cpulistSort_length (h : n ∣ length) : (cpulistSort n incpus length).length = length := by
  rw [length_cpulistSort, Nat.mul_div_cancel' h]

theorem cpulistSort_order (h : n ∣ length) :
    cpulistSort n incpus length = (Columns.order n length).map incpus := by
  rw [Columns.order_of_dvd h, Columns.grid, List.map_flatMap, cpulistSort]
  congr 1
  funext off
  rw [List.map_map]
  rfl

theorem cpulistSort_perm (hn : 0 < n) (h : n ∣ length) :
    (cpulistSort n incpus length).Perm ((List.range length).map incpus) := by
  rw [cpulistSort_order h]
  exact (Columns.order_perm hn).map incpus

/-- The array has hardware thread `off` of core `i` in column `off`, every entry of the input
once, and is as it was behind them. -/
structure SortedByThread (n : ℕ) (incpus outcpus : ℕ → CpuCell) (length : Int)
    (result : Int × (ℕ → CpuCell)) : Prop where
  returned : result.1 = if length ≤ 0 then -1 else length
  perm : ((List.range length.toNat).map result.2).Perm ((List.range length.toNat).map incpus)
  column : ∀ off < n, ∀ i < length.toNat / n,
    result.2 (off * (length.toNat / n) + i) = incpus (i * n + off)
  kept : ∀ p, length.toNat ≤ p → result.2 p = outcpus p

theorem cpulistSortInto_sorted (n : ℕ) (incpus outcpus : ℕ → CpuCell) {length : Int}
    (h : (n : Int) ∣ length) :
    SortedByThread n incpus outcpus length (cpulistSortInto n incpus outcpus length) := by
  rcases lt_or_ge 0 length with hpos | hneg
  · obtain ⟨size, rfl⟩ := Int.eq_ofNat_of_zero_le hpos.le
    have hdvd : n ∣ size := Int.natCast_dvd_natCast.mp h
    have hsize : 0 < size := Int.natCast_pos.mp hpos
    have hn : 0 < n := Nat.pos_of_dvd_of_pos hdvd hsize
    have hlength : (cpulistSort n incpus size).length = size := cpulistSort_length hdvd
    have hcells : ∀ p, (cpulistSortInto n incpus outcpus size).2 p =
        ((cpulistSort n incpus size)[p]?).getD (outcpus p) := cpulistSortInto_outcpus hpos
    constructor
    case returned =>
      rw [cpulistSortInto_insert hpos, if_neg (Int.not_le.mpr hpos)]
      exact congrArg Nat.cast hlength
    case perm =>
      have hlist : (List.range size).map (cpulistSortInto n incpus outcpus size).2 =
          cpulistSort n incpus size := by
        refine List.ext_getElem (by rw [List.length_map, List.length_range, hlength]) ?_
        intro p hp hp'
        rw [List.getElem_map, List.getElem_range, hcells, List.getElem?_eq_getElem hp']
        rfl
      rw [Int.toNat_natCast, hlist]
      exact cpulistSort_perm hn hdvd
    case column =>
      intro off hoff i hi
      rw [Int.toNat_natCast] at hi ⊢
      have hrow : 0 < size / n := Nat.lt_of_le_of_lt (Nat.zero_le i) hi
      have hposition : off * (size / n) + i < n * (size / n) := by
        have hmul := Nat.mul_le_mul_right (size / n) (Nat.succ_le_of_lt hoff)
        rw [Nat.succ_mul] at hmul
        omega
      rw [hcells, cpulistSort_eq, Columns.getElem?_grid _ hposition, Nat.mul_comm off,
        Nat.mul_add_div hrow, Nat.mul_add_mod, Nat.div_eq_of_lt hi, Nat.mod_eq_of_lt hi]
      rfl
    case kept =>
      intro p hp
      rw [Int.toNat_natCast] at hp
      rw [hcells, List.getElem?_eq_none (by rwa [hlength])]
      rfl
  · have hrun : cpulistSortInto n incpus outcpus length = (-1, outcpus) := if_pos hneg
    have hzero : length.toNat = 0 := Int.toNat_of_nonpos hneg
    rw [hrun]
    constructor
    case returned => rw [if_pos hneg]
    case perm => rw [hzero]; exact List.Perm.refl _
    case column =>
      intro off _ i hi
      rw [hzero, Nat.zero_div] at hi
      exact absurd hi (Nat.not_lt_zero i)
    case kept => exact fun _ _ => rfl

theorem cpulistSortInto_sorted_pairs :
    (List.range 6).map (cpulistSortInto 2 (fun p => some (10 * p)) (fun _ => none) 6).2 =
        [some 0, some 20, some 40, some 10, some 30, some 50] ∧
      SortedByThread 2 (fun p => some (10 * p)) (fun _ => none) 6
        (cpulistSortInto 2 (fun p => some (10 * p)) (fun _ => none) 6) :=
  ⟨rfl, cpulistSortInto_sorted 2 _ _ (by decide)⟩

end Full

end Likwid
