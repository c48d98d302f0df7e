import Mathlib.Algebra.BigOperators.Group.List.Basic
import Mathlib.Data.List.Infix
import Mathlib.Algebra.GroupWithZero.Nat

/-!
# Merging the entries of a list while deleting them

`mergeAll` lets each entry absorb the later ones with its key, and deletes them from the list it is
walking along: the walk goes on behind the entry that has moved up, so that one is not looked at.
What a key has in total stays as it is (`weightOf_mergeAll`), but entries with the key are left just
where two of them stood next to each other (`nodup_mergeAll`).
-/

namespace Merging

variable {α κ σ : Type}

/-! ## Weights -/

/-- What the entries with certain keys weigh -/
def weightOf (key : α → κ) (weight : α → ℕ) (p : κ → Bool) (l : List α) : ℕ :=
  (l.map fun y => if p (key y) then weight y else 0).sum

section Weight

variable {key : α → κ} {weight : α → ℕ} {x y : α} {l : List α} {k : κ} {p : κ → Bool}

@[simp] theorem weightOf_cons :
    weightOf key weight p (x :: l) =
      (if p (key x) then weight x else 0) + weightOf key weight p l := by
  simp [weightOf]

@[simp] theorem weightOf_nil : weightOf key weight p [] = 0 := rfl

theorem weightOf_map : weightOf Prod.fst Prod.snd p (l.map fun y => (key y, weight y)) =
    weightOf key weight p l := by
  rw [weightOf, List.map_map]
  rfl

theorem weightOf_true : weightOf key weight (fun _ => true) l = (l.map weight).sum := by
  simp [weightOf]

theorem weightOf_zero (h : ∀ y ∈ l, weight y = 0) : weightOf key weight p l = 0 := by
  refine List.sum_eq_zero fun a ha => ?_
  obtain ⟨y, hy, rfl⟩ := List.mem_map.mp ha
  rw [h y hy, ite_self]

variable [DecidableEq κ]

theorem weightOf_absent (h : k ∉ l.map key) : weightOf key weight (· = k) l = 0 := by
  refine List.sum_eq_zero fun a ha => ?_
  obtain ⟨y, hy, rfl⟩ := List.mem_map.mp ha
  rw [if_neg]
  rintro hk
  exact h (List.mem_map.mpr ⟨y, hy, by simpa using hk⟩)

/-- The weight of a key that stands in the list once -/
theorem weightOf_of_nodup (h : (l.map key).Nodup) (hx : x ∈ l) :
    weightOf key weight (· = key x) l = weight x := by
  induction l with
  | nil => cases hx
  | cons y l ih =>
      obtain ⟨hy, hl⟩ := List.nodup_cons.mp h
      rw [weightOf_cons]
      rcases List.mem_cons.mp hx with rfl | hx
      · rw [if_pos (by simp), weightOf_absent hy, Nat.add_zero]
      · have hne : key y ≠ key x := fun heq => hy (heq ▸ List.mem_map_of_mem hx)
        rw [if_neg (by simpa using hne), ih hl hx, Nat.zero_add]

end Weight

/-! ## Merging -/

variable [DecidableEq κ] (key : α → κ) (combine : σ → α → α → σ × α)

/-- `x` walks along a list. -/
def mergeInto : σ → α → List α → (σ × α) × List α
  | s, x, [] => ((s, x), [])
  | s, x, [y] => if key y = key x then (combine s x y, []) else ((s, x), [y])
  | s, x, y :: z :: r =>
      if key y = key x then
        let (s, x) := combine s x y
        let (x, r) := mergeInto s x r
        (x, z :: r)
      else
        let (x, r) := mergeInto s x (z :: r)
        (x, y :: r)

def mergeAll : ℕ → σ → List α → σ × List α
  | 0, s, l => (s, l)
  | _, s, [] => (s, [])
  | n + 1, s, x :: r =>
      let ((s, x), r) := mergeInto key combine s x r
      let (s, r) := mergeAll n s r
      (s, x :: r)

/-- Behind the first entry with a key no two others stand next to each other, once the keys before
it are taken out. -/
def Spread : List κ → Prop
  | [] => True
  | x :: r => ¬[x, x] <:+: r ∧ Spread (r.filter (· ≠ x))
termination_by l => l.length
decreasing_by
  refine Nat.lt_succ_of_le ?_
  rw [List.length_unattach, ← List.length_attach (l := r)]
  exact List.length_filter_le _ _

section Laws

variable {key combine} {weight : α → ℕ} {s : σ} {x y : α} {l r : List α}
  {k : κ} {p : κ → Bool} {n : ℕ}

/-! ## One walk -/

theorem key_mergeInto (hkey : ∀ s x y, key (combine s x y).2 = key x) :
    key (mergeInto key combine s x l).1.2 = key x := by
  fun_induction mergeInto key combine s x l with
  | case1 s x => rfl
  | case2 s x y hy => exact hkey s x y
  | case3 s x y hy => rfl
  | case4 s x y z r hy s' x' hc x'' r' hrec ih =>
      rw [hrec] at ih
      have hx : key x' = key x := by
        have := hkey s x y
        rwa [hc] at this
      exact ih.trans hx
  | case5 s x y z r hy x' r' hrec ih =>
      rw [hrec] at ih
      exact ih

/-- What the walk absorbs and what it leaves weigh what was there. -/
theorem weightOf_mergeInto (hkey : ∀ s x y, key (combine s x y).2 = key x)
    (hweight : ∀ s x y, weight (combine s x y).2 = weight x + weight y) :
    weightOf key weight p ((mergeInto key combine s x l).1.2 :: (mergeInto key combine s x l).2) =
      weightOf key weight p (x :: l) := by
  fun_induction mergeInto key combine s x l with
  | case1 s x => rfl
  | case2 s x y hy =>
      rw [weightOf_cons, weightOf_cons, weightOf_cons, hkey, hweight, hy]
      by_cases hk : p (key x) = true
      · simp only [if_pos hk, weightOf_nil]
        omega
      · simp only [if_neg hk, weightOf_nil]
  | case3 s x y hy => rfl
  | case4 s x y z r hy s' x' hc x'' r' hrec ih =>
      have hx : key x' = key x := by
        have := hkey s x y
        rwa [hc] at this
      have hw : weight x' = weight x + weight y := by
        have := hweight s x y
        rwa [hc] at this
      rw [hrec] at ih
      simp only [weightOf_cons, hy, hx, hw] at ih ⊢
      by_cases hk : p (key x) = true
      · simp only [if_pos hk] at ih ⊢
        omega
      · simp only [if_neg hk] at ih ⊢
        omega
  | case5 s x y z r hy x' r' hrec ih =>
      rw [hrec] at ih
      simp only [weightOf_cons] at ih ⊢
      omega

/-- Nothing else comes into the list. -/
theorem mem_mergeInto (h : y ∈ (mergeInto key combine s x l).2) : y ∈ l := by
  fun_induction mergeInto key combine s x l with
  | case1 s x => exact h
  | case2 s x z hz => cases h
  | case3 s x z hz => exact h
  | case4 s x z z' r hz s' x' hc x'' r' hrec ih =>
      rcases List.mem_cons.mp h with rfl | h
      · simp
      · rw [hrec] at ih
        simp [ih h]
  | case5 s x z z' r hz x' r' hrec ih =>
      rcases List.mem_cons.mp h with rfl | h
      · simp
      · rw [hrec] at ih
        exact List.mem_cons_of_mem _ (ih h)

/-- The entries of other keys are left. -/
theorem mem_of_key_ne (hkey : ∀ s x y, key (combine s x y).2 = key x) (h : y ∈ l)
    (hne : key y ≠ key x) : y ∈ (mergeInto key combine s x l).2 := by
  fun_induction mergeInto key combine s x l with
  | case1 s x => cases h
  | case2 s x z hz =>
      obtain rfl := List.mem_singleton.mp h
      exact absurd hz hne
  | case3 s x z hz => exact h
  | case4 s x z z' r hz s' x' hc x'' r' hrec ih =>
      have hx : key x' = key x := by
        have := hkey s x z
        rwa [hc] at this
      rw [hrec, hx] at ih
      rcases List.mem_cons.mp h with rfl | h
      · exact absurd hz hne
      rcases List.mem_cons.mp h with rfl | h
      · simp
      · exact List.mem_cons_of_mem _ (ih h hne)
  | case5 s x z z' r hz x' r' hrec ih =>
      rw [hrec] at ih
      rcases List.mem_cons.mp h with rfl | h
      · simp
      · exact List.mem_cons_of_mem _ (ih h hne)

theorem length_mergeInto : (mergeInto key combine s x l).2.length ≤ l.length := by
  fun_induction mergeInto key combine s x l with
  | case1 s x => exact Nat.le_refl _
  | case2 s x y hy => exact Nat.zero_le _
  | case3 s x y hy => exact Nat.le_refl _
  | case4 s x y z r hy s' x' hc x'' r' hrec ih =>
      rw [hrec] at ih
      dsimp only [List.length_cons] at ih ⊢
      omega
  | case5 s x y z r hy x' r' hrec ih =>
      rw [hrec] at ih
      simpa using ih

/-- **A walk takes everything with its key, unless two such entries stand next to each other.** -/
theorem mergeInto_eq_filter (hkey : ∀ s x y, key (combine s x y).2 = key x)
    (h : ¬[key x, key x] <:+: l.map key) :
    (mergeInto key combine s x l).2 = l.filter (key · ≠ key x) := by
  fun_induction mergeInto key combine s x l with
  | case1 s x => rfl
  | case2 s x y hy => simp [hy]
  | case3 s x y hy => simp [hy]
  | case4 s x y z r hy s' x' hc x'' r' hrec ih =>
      have hx : key x' = key x := by
        have := hkey s x y
        rwa [hc] at this
      have hz : key z ≠ key x := by
        intro hz
        refine h ⟨[], r.map key, ?_⟩
        simp [hy, hz]
      rw [hrec, hx] at ih
      have hr := ih fun hin => h (hin.trans ⟨[key y, key z], [], by simp⟩)
      dsimp only at hr ⊢
      rw [hr, List.filter_cons_of_neg (by simpa using hy),
        List.filter_cons_of_pos (by simpa using hz)]
  | case5 s x y z r hy x' r' hrec ih =>
      rw [hrec] at ih
      have hr := ih fun hin => h (hin.trans ⟨[key y], [], by simp⟩)
      dsimp only at hr ⊢
      rw [hr]
      exact (List.filter_cons_of_pos (by simpa using hy)).symm

theorem exists_left (hkey : ∀ s x y, key (combine s x y).2 = key x)
    (h : [key x, key x] <:+: l.map key) : ∃ y ∈ (mergeInto key combine s x l).2, key y = key x := by
  fun_induction mergeInto key combine s x l with
  | case1 s x => exact absurd h.length_le (by simp)
  | case2 s x y hy => exact absurd h.length_le (by simp)
  | case3 s x y hy => exact absurd h.length_le (by simp)
  | case4 s x y z r hy s' x' hc x'' r' hrec ih =>
      have hx : key x' = key x := by
        have := hkey s x y
        rwa [hc] at this
      by_cases hz : key z = key x
      · exact ⟨z, by simp, hz⟩
      · have hin : [key x, key x] <:+: r.map key := by
          rw [List.map_cons, List.map_cons, List.infix_cons_iff, List.infix_cons_iff] at h
          rcases h with hpre | hpre | hin
          · have := (List.cons_prefix_cons.mp hpre).2
            exact absurd (List.cons_prefix_cons.mp this).1.symm hz
          · exact absurd (List.cons_prefix_cons.mp hpre).1.symm hz
          · exact hin
        rw [hrec, hx] at ih
        obtain ⟨w, hw, hkeyw⟩ := ih hin
        exact ⟨w, List.mem_cons_of_mem _ hw, hkeyw⟩
  | case5 s x y z r hy x' r' hrec ih =>
      have hin : [key x, key x] <:+: (z :: r).map key := by
        rw [List.map_cons, List.infix_cons_iff] at h
        rcases h with hpre | hin
        · exact absurd (List.cons_prefix_cons.mp hpre).1.symm hy
        · exact hin
      rw [hrec] at ih
      obtain ⟨w, hw, hkeyw⟩ := ih hin
      exact ⟨w, List.mem_cons_of_mem _ hw, hkeyw⟩

/-! ## The whole merge -/

theorem mergeAll_cons (n : ℕ) (s : σ) (x : α) (r : List α) :
    (mergeAll key combine (n + 1) s (x :: r)).2 =
      (mergeInto key combine s x r).1.2 ::
        (mergeAll key combine n (mergeInto key combine s x r).1.1
          (mergeInto key combine s x r).2).2 := rfl

/-- **What a key has in total stays as it is.** -/
theorem weightOf_mergeAll (hkey : ∀ s x y, key (combine s x y).2 = key x)
    (hweight : ∀ s x y, weight (combine s x y).2 = weight x + weight y) :
    weightOf key weight p (mergeAll key combine n s l).2 = weightOf key weight p l := by
  induction n generalizing s l with
  | zero => rfl
  | succ n ih =>
      cases l with
      | nil => rfl
      | cons x r =>
          rw [mergeAll_cons, weightOf_cons, ih, ← weightOf_cons, weightOf_mergeInto hkey hweight]

/-- The keys are those that were there. -/
theorem exists_key_mergeAll (hkey : ∀ s x y, key (combine s x y).2 = key x) :
    (∃ y ∈ (mergeAll key combine n s l).2, key y = k) ↔ ∃ y ∈ l, key y = k := by
  induction n generalizing s l with
  | zero => rfl
  | succ n ih =>
      cases l with
      | nil => rfl
      | cons x r =>
          rw [mergeAll_cons, List.exists_mem_cons_iff, List.exists_mem_cons_iff, ih,
            key_mergeInto hkey]
          constructor
          · rintro (hx | ⟨y, hy, hk⟩)
            · exact Or.inl hx
            · exact Or.inr ⟨y, mem_mergeInto hy, hk⟩
          · rintro (hx | ⟨y, hy, hk⟩)
            · exact Or.inl hx
            by_cases hne : key y = key x
            · exact Or.inl (hne ▸ hk)
            · exact Or.inr ⟨y, mem_of_key_ne hkey hy hne, hk⟩

/-- **Each key is left once just if the entries are spread.** -/
theorem nodup_mergeAll (hkey : ∀ s x y, key (combine s x y).2 = key x) (hn : l.length ≤ n) :
    ((mergeAll key combine n s l).2.map key).Nodup ↔ Spread (l.map key) := by
  induction n generalizing s l with
  | zero =>
      obtain rfl := List.length_eq_zero_iff.mp (Nat.le_zero.mp hn)
      simp [mergeAll, Spread]
  | succ n ih =>
      cases l with
      | nil => simp [mergeAll, Spread]
      | cons x r =>
          have hlen : (mergeInto key combine s x r).2.length ≤ n :=
            length_mergeInto.trans (Nat.le_of_succ_le_succ hn)
          rw [mergeAll_cons, List.map_cons, List.nodup_cons, key_mergeInto hkey, ih hlen,
            List.map_cons, Spread, List.mem_map, exists_key_mergeAll hkey]
          by_cases hin : [key x, key x] <:+: r.map key
          · have hleft : ∃ y ∈ (mergeInto key combine s x r).2, key y = key x :=
              exists_left hkey hin
            exact ⟨fun h => absurd hleft h.1, fun h => absurd hin h.1⟩
          · rw [mergeInto_eq_filter hkey hin]
            have hno : ¬∃ y ∈ r.filter (key · ≠ key x), key y = key x := by
              rintro ⟨y, hy, hk⟩
              have := (List.mem_filter.mp hy).2
              simp [hk] at this
            have hfilter : (r.filter (key · ≠ key x)).map key =
                (r.map key).filter (· ≠ key x) := by
              rw [List.filter_map]
              rfl
            rw [hfilter]
            exact ⟨fun h => ⟨hin, h.2⟩, fun h => ⟨hno, h.2⟩⟩

end Laws

end Merging
