import Mathlib.Data.List.Basic

/-!
# Tables with a fixed number of slots

A slot that was never written holds nothing, and a write behind the last slot fails.
`filled` is a table whose first slots are written, one after the other. `loop` is a loop
over `0, 1, …, n - 1` whose body may fail; `loop_spec` and `loop_eq_none` are its rules.
-/

namespace Slots

variable {α σ : Type}

def put (i : ℕ) (a : α) (table : List (Option α)) : Option (List (Option α)) :=
  if i < table.length then some (table.set i (some a)) else none

/-- A table of `size` slots with these entries in the first of them -/
def filled (as : List α) (size : ℕ) : List (Option α) :=
  as.map some ++ List.replicate (size - as.length) none

theorem length_filled {as : List α} {size : ℕ} (h : as.length ≤ size) :
    (filled as size).length = size := by
  rw [filled, List.length_append, List.length_map, List.length_replicate]
  omega

theorem filled_nil (size : ℕ) : filled ([] : List α) size = List.replicate size none := rfl

theorem put_filled (a : α) {as : List α} {size i : ℕ} (hi : i = as.length) (h : i < size) :
    put i a (filled as size) = some (filled (as ++ [a]) size) := by
  subst hi
  obtain ⟨rest, hrest⟩ := Nat.exists_eq_add_of_lt h
  have hsize : size - as.length = rest + 1 := by omega
  have hsize' : size - (as.length + 1) = rest := by omega
  rw [put, length_filled (Nat.le_of_lt h), if_pos h, filled, filled, hsize, List.map_append,
    List.length_append, List.length_singleton, hsize', List.replicate_succ]
  rw [List.set_append_right _ _ (by simp)]
  simp

theorem put_full (a : α) {as : List α} {size i : ℕ} (has : as.length ≤ size) (h : size ≤ i) :
    put i a (filled as size) = none := by
  rw [put, length_filled has, if_neg (Nat.not_lt.mpr h)]

theorem getElem?_filled {as : List α} {size i : ℕ} {a : α} :
    (filled as size)[i]? = some (some a) ↔ as[i]? = some a := by
  rw [filled]
  rcases Nat.lt_or_ge i as.length with hlt | hge
  · rw [List.getElem?_append_left (by simpa using hlt), List.getElem?_map]
    cases as[i]? with
    | none => simp
    | some b => simp
  · rw [List.getElem?_append_right (by simpa using hge), List.getElem?_eq_none hge]
    simp only [List.getElem?_replicate]
    split <;> simp

/-- All slots are written exactly if there are as many entries. -/
theorem filled_complete {as : List α} {size : ℕ} (h : as.length ≤ size) :
    (∀ i < size, ∃ a, (filled as size)[i]? = some (some a)) ↔ as.length = size := by
  constructor
  · intro hall
    by_contra hne
    obtain ⟨a, ha⟩ := hall as.length (by omega)
    rw [getElem?_filled, List.getElem?_eq_none (Nat.le_refl _)] at ha
    cases ha
  · rintro rfl i hi
    exact ⟨as[i], getElem?_filled.mpr (List.getElem?_eq_getElem hi)⟩

/-! ## Loops -/

/-- `for (i = 0; i < n; i++)` -/
def loop (n : ℕ) (body : σ → ℕ → Option σ) (s : σ) : Option σ := (List.range n).foldlM body s

theorem loop_zero (body : σ → ℕ → Option σ) (s : σ) : loop 0 body s = some s := rfl

theorem loop_succ (n : ℕ) (body : σ → ℕ → Option σ) (s : σ) :
    loop (n + 1) body s = (loop n body s).bind (body · n) := by
  rw [loop, List.range_succ, List.foldlM_append]
  show (loop n body s).bind _ = _
  congr 1
  funext s'
  exact bind_pure _

theorem loop_spec (body : σ → ℕ → Option σ) (I : ℕ → σ → Prop) {n : ℕ} {s : σ} (h0 : I 0 s)
    (h : ∀ i < n, ∀ s, I i s → ∃ s', body s i = some s' ∧ I (i + 1) s') :
    ∃ s', loop n body s = some s' ∧ I n s' := by
  induction n with
  | zero => exact ⟨s, rfl, h0⟩
  | succ n ih =>
      obtain ⟨s', hrun, hs'⟩ := ih fun i hi => h i (Nat.lt_succ_of_lt hi)
      obtain ⟨s'', hbody, hs''⟩ := h n (Nat.lt_succ_self n) s' hs'
      exact ⟨s'', by rw [loop_succ, hrun]; exact hbody, hs''⟩

theorem loop_eq_none_of_le {body : σ → ℕ → Option σ} {k n : ℕ} {s : σ} (hk : k ≤ n)
    (h : loop k body s = none) : loop n body s = none := by
  induction hk with
  | refl => exact h
  | step _ ih => rw [loop_succ, ih]; rfl

end Slots
