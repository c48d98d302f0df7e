import Likwid.Lib.Prog

/-!
# Counted loops over a table

`Prog.forRange` is the loop over `0, 1, …, n - 1` as a program. `swept` is a table of which
the first entries are rewritten already: a loop that rewrites one entry after the other runs
through these tables (`swept_set`), from the old table to the new one.
-/

namespace Prog

variable {ρ σ β : Type} {body : β → ℕ → Prog ρ σ β} {n : ℕ}

/-- `for (i = 0; i < n; i++)`, with a loop variable `β` -/
def forRange (n : ℕ) (body : β → ℕ → Prog ρ σ β) (b : β) : Prog ρ σ β :=
  (List.range n).foldlM body b

theorem forRange_done (body : β → ℕ → Prog ρ σ β) (B : ℕ → β) (I : ℕ → σ)
    (h : ∀ i < n, body (B i) i (I i) = .done (B (i + 1)) (I (i + 1))) :
    forRange n body (B 0) (I 0) = .done (B n) (I n) := by
  induction n with
  | zero => rfl
  | succ n ih =>
      have hrun : (List.range n).foldlM body (B 0) (I 0) = .done (B n) (I n) :=
        ih fun i hi => h i (Nat.lt_succ_of_lt hi)
      rw [forRange, List.range_succ, foldlM_concat n hrun]
      exact h n (Nat.lt_succ_self n)

theorem forRange_halt {b : β} {s : σ} {k : Halt} (hn : 0 < n) (h : body b 0 s = .halt k) :
    forRange n body b s = .halt k := by
  obtain ⟨m, rfl⟩ := Nat.exists_eq_succ_of_ne_zero (Nat.ne_of_gt hn)
  rw [forRange, List.range_succ_eq_map, List.foldlM_cons]
  exact bind_of_halt h

end Prog

namespace Slots

variable {α : Type} {new old : ℕ → α} {n k i : ℕ}

/-- A table of `n` entries, of which the first `k` are rewritten. -/
def swept (new old : ℕ → α) (n k : ℕ) : List α :=
  (List.range n).map fun i => if i < k then new i else old i

theorem swept_zero : swept new old n 0 = (List.range n).map old := rfl

theorem swept_all : swept new old n n = (List.range n).map new :=
  List.map_congr_left fun _ hi => if_pos (List.mem_range.mp hi)

theorem getElem?_swept (hi : i < n) :
    (swept new old n k)[i]? = some (if i < k then new i else old i) := by
  rw [swept, List.getElem?_map, List.getElem?_range hi]
  rfl

theorem swept_set (hk : k < n) :
    (swept new old n k).set k (new k) = swept new old n (k + 1) := by
  refine List.ext_getElem? fun i => ?_
  rw [List.getElem?_set, swept, List.length_map, List.length_range, List.getElem?_map, swept,
    List.getElem?_map]
  rcases Nat.lt_or_ge i n with hi | hi
  · rw [List.getElem?_range hi]
    rcases Nat.lt_trichotomy i k with hlt | rfl | hgt
    · rw [if_neg (Nat.ne_of_gt hlt), Option.map_some, Option.map_some, if_pos hlt,
        if_pos (Nat.lt_succ_of_lt hlt)]
    · rw [if_pos rfl, if_pos hi, Option.map_some, if_pos (Nat.lt_succ_self i)]
    · rw [if_neg (Nat.ne_of_lt hgt), Option.map_some, Option.map_some,
        if_neg (Nat.not_lt_of_gt hgt), if_neg (by omega)]
  · rw [if_neg (by omega), List.getElem?_eq_none (by rwa [List.length_range])]
    rfl

end Slots
