import Mathlib.Data.List.Nodup
import Mathlib.Data.List.Induction

/-!
# Lists with one entry for each key

`Keyed.put` replaces the entry that has the key of the new one, or appends the new one. A
sequence of puts leaves one entry for each key: the keys stand in the order in which they
first appeared, each with the last entry that was put under it (`foldl_put`).
-/

namespace Keyed

variable {α κ : Type} [DecidableEq κ] (key : α → κ)

def put (l : List α) (x : α) : List α :=
  if key x ∈ l.map key then l.map fun y => if key y = key x then x else y else l ++ [x]

/-- The last entry with a key -/
def last? (k : κ) (l : List α) : Option α := l.reverse.find? (key · = k)

/-- The last entry for each key, in the order in which the keys first appear -/
def merged (l : List α) : List α := (l.map key).eraseDups.filterMap fun k => last? key k l

/-- The keys are pairwise distinct. -/
def Distinct (l : List α) : Prop := (l.map key).Nodup

variable {key} {l : List α} {x y : α} {k : κ}

/-! ## One put -/

theorem put_of_mem (h : key x ∈ l.map key) :
    put key l x = l.map fun y => if key y = key x then x else y := if_pos h

theorem put_of_not_mem (h : key x ∉ l.map key) : put key l x = l ++ [x] := if_neg h

omit [DecidableEq κ] in
theorem Distinct.sublist {l' : List α} (h : Distinct key l) (hl : l'.Sublist l) : Distinct key l' :=
  List.Nodup.sublist (hl.map key) h

omit [DecidableEq κ] in
theorem Distinct.index_unique (h : Distinct key l) {i j : ℕ} (hi : l[i]? = some x)
    (hj : l[j]? = some y) (hkey : key x = key y) : i = j := by
  obtain ⟨hil, rfl⟩ := List.getElem?_eq_some_iff.mp hi
  obtain ⟨hjl, rfl⟩ := List.getElem?_eq_some_iff.mp hj
  have hi' : i < (l.map key).length := by simpa using hil
  have hj' : j < (l.map key).length := by simpa using hjl
  refine (List.Nodup.getElem_inj_iff h).mp (show (l.map key)[i] = (l.map key)[j] from ?_)
  rw [List.getElem_map, List.getElem_map, hkey]

theorem Distinct.put_eq_set (h : Distinct key l) {i : ℕ} (hi : l[i]? = some y)
    (hy : key y = key x) : put key l x = l.set i x := by
  rw [put_of_mem (List.mem_map.mpr ⟨y, List.mem_of_getElem? hi, hy⟩)]
  refine List.ext_getElem (by simp) fun j hj _ => ?_
  have hjlen : j < l.length := by simpa using hj
  rw [List.getElem_map, List.getElem_set]
  by_cases hij : i = j
  · subst hij
    obtain ⟨hlen, rfl⟩ := List.getElem?_eq_some_iff.mp hi
    rw [if_pos hy, if_pos rfl]
  · rw [if_neg hij, if_neg fun hjx => hij ?_]
    exact h.index_unique hi (List.getElem?_eq_getElem hjlen) (hy.trans hjx.symm)

theorem map_key_put :
    (put key l x).map key = if key x ∈ l.map key then l.map key else l.map key ++ [key x] := by
  by_cases h : key x ∈ l.map key
  · rw [put_of_mem h, if_pos h, List.map_map]
    refine List.map_congr_left fun y _ => ?_
    by_cases hy : key y = key x
    · simp [hy]
    · simp [hy]
  · rw [put_of_not_mem h, if_neg h, List.map_append, List.map_singleton]

theorem Distinct.put (h : Distinct key l) (x : α) : Distinct key (put key l x) := by
  unfold Distinct
  rw [map_key_put]
  split
  · exact h
  · next hx =>
      refine List.nodup_append.mpr ⟨h, List.nodup_singleton _, fun a ha b hb => ?_⟩
      rw [List.mem_singleton.mp hb]
      rintro rfl
      exact hx ha

theorem mem_put (h : y ∈ put key l x) : y ∈ l ∨ y = x := by
  by_cases hx : key x ∈ l.map key
  · rw [put_of_mem hx] at h
    obtain ⟨z, hz, rfl⟩ := List.mem_map.mp h
    split
    · exact Or.inr rfl
    · exact Or.inl hz
  · rw [put_of_not_mem hx] at h
    exact (List.mem_append.mp h).imp_right List.mem_singleton.mp

/-- The entry with a key is the only one. -/
theorem Distinct.filter_eq (h : Distinct key l) (hx : x ∈ l) :
    l.filter (key · = key x) = [x] := by
  induction l with
  | nil => cases hx
  | cons y l ih =>
      obtain ⟨hy, hl⟩ := List.nodup_cons.mp h
      by_cases hyx : key y = key x
      · have hnone : l.filter (key · = key x) = [] := by
          refine List.filter_eq_nil_iff.mpr fun z hz => ?_
          simpa using fun hzx => hy (List.mem_map.mpr ⟨z, hz, hzx.trans hyx.symm⟩)
        rw [List.filter_cons_of_pos (by simpa using hyx), hnone]
        rcases List.mem_cons.mp hx with rfl | hmem
        · rfl
        · exact absurd (List.mem_map.mpr ⟨x, hmem, hyx.symm⟩) hy
      · rw [List.filter_cons_of_neg (by simpa using hyx)]
        refine ih hl ((List.mem_cons.mp hx).resolve_left ?_)
        rintro rfl
        exact hyx rfl

/-! ## Sequences of puts -/

theorem Distinct.foldl_put {xs : List α} (h : Distinct key l) :
    Distinct key (xs.foldl (Keyed.put key) l) := by
  induction xs generalizing l with
  | nil => exact h
  | cons x xs ih => exact ih (h.put x)

theorem forall_foldl_put {P : α → Prop} {xs : List α} (hl : ∀ y ∈ l, P y) (hxs : ∀ y ∈ xs, P y) :
    ∀ y ∈ xs.foldl (put key) l, P y := by
  induction xs generalizing l with
  | nil => exact hl
  | cons x xs ih =>
      refine ih (fun y hy => ?_) fun y hy => hxs y (List.mem_cons_of_mem _ hy)
      rcases mem_put hy with hmem | rfl
      · exact hl y hmem
      · exact hxs y List.mem_cons_self

theorem last?_concat : last? key k (l ++ [x]) = if key x = k then some x else last? key k l := by
  unfold last?
  rw [List.reverse_append, List.reverse_singleton, List.singleton_append, List.find?_cons]
  split
  · next h => rw [if_pos (of_decide_eq_true h)]
  · next h => rw [if_neg (of_decide_eq_false h)]

theorem key_of_last? (h : last? key k l = some x) : key x = k := by
  simpa using List.find?_some h

theorem exists_last? (h : k ∈ l.map key) : ∃ x, last? key k l = some x := by
  obtain ⟨y, hy, rfl⟩ := List.mem_map.mp h
  cases hlast : last? key (key y) l with
  | some x => exact ⟨x, rfl⟩
  | none =>
      have hnone := List.find?_eq_none.mp hlast y (List.mem_reverse.mpr hy)
      exact absurd rfl (of_decide_eq_false (Bool.eq_false_iff.mpr hnone))

theorem map_key_merged : (merged key l).map key = (l.map key).eraseDups := by
  have hkeys : ∀ ks : List κ, (∀ k ∈ ks, k ∈ l.map key) →
      (ks.filterMap fun k => last? key k l).map key = ks := by
    intro ks
    induction ks with
    | nil => exact fun _ => rfl
    | cons k ks ih =>
        intro h
        obtain ⟨x, hx⟩ := exists_last? (h k List.mem_cons_self)
        simp only [List.filterMap_cons, hx, List.map_cons, key_of_last? hx]
        rw [ih fun k' hk' => h k' (List.mem_cons_of_mem _ hk')]
  exact hkeys _ fun k hk => List.mem_eraseDups.mp hk

/-- A further entry is put into the merged list. -/
theorem merged_concat : merged key (l ++ [x]) = put key (merged key l) x := by
  have hmem : key x ∈ (merged key l).map key ↔ key x ∈ l.map key := by
    rw [map_key_merged, List.mem_eraseDups]
  have hlast : ∀ k ≠ key x, last? key k (l ++ [x]) = last? key k l := fun k hk => by
    rw [last?_concat, if_neg (Ne.symm hk)]
  have hkeys : ((l ++ [x]).map key).eraseDups =
      if key x ∈ l.map key then (l.map key).eraseDups else (l.map key).eraseDups ++ [key x] := by
    rw [List.map_append, List.map_singleton, List.eraseDups_append, List.removeAll]
    split
    · next h =>
        have hmem' : ∃ y, y ∈ l ∧ key y = key x := List.mem_map.mp h
        simp [hmem']
    · next h =>
        have hnone : ¬∃ y, y ∈ l ∧ key y = key x := fun hy => h (List.mem_map.mpr hy)
        simp [hnone, List.eraseDups_cons]
  by_cases h : key x ∈ l.map key
  · rw [put_of_mem (hmem.mpr h), merged, hkeys, if_pos h, merged, List.map_filterMap]
    refine List.filterMap_congr fun k hk => ?_
    obtain ⟨y, hy⟩ := exists_last? (List.mem_eraseDups.mp hk)
    rw [last?_concat, hy, Option.map_some, key_of_last? hy]
    by_cases hkx : k = key x
    · rw [if_pos hkx.symm, if_pos hkx]
    · rw [if_neg (Ne.symm hkx), if_neg hkx]
  · rw [put_of_not_mem (mt hmem.mp h), merged, hkeys, if_neg h, List.filterMap_append]
    refine congrArg₂ _ (List.filterMap_congr fun k hk => hlast k fun hkx => ?_) ?_
    · exact h (hkx ▸ List.mem_eraseDups.mp hk)
    · rw [List.filterMap_cons_some (by rw [last?_concat, if_pos rfl]), List.filterMap_nil]

theorem foldl_put_nil : l.foldl (put key) [] = merged key l := by
  induction l using List.reverseRecOn with
  | nil => rfl
  | append_singleton l x ih => rw [List.foldl_concat, ih, merged_concat]

theorem Distinct.merged_eq (h : Distinct key l) : merged key l = l := by
  induction l using List.reverseRecOn with
  | nil => rfl
  | append_singleton l x ih =>
      unfold Distinct at h
      rw [List.map_append, List.map_singleton] at h
      obtain ⟨hl, -, hdisjoint⟩ := List.nodup_append.mp h
      have hx : key x ∉ l.map key := fun hmem =>
        hdisjoint _ hmem _ (List.mem_singleton_self _) rfl
      rw [merged_concat, ih hl, put_of_not_mem hx]

/-- **A sequence of puts merges**: each key has its last entry, in the order in which the keys
first appear. -/
theorem Distinct.foldl_put_eq {xs : List α} (h : Distinct key l) :
    xs.foldl (Keyed.put key) l = merged key (l ++ xs) := by
  rw [← foldl_put_nil, List.foldl_append, foldl_put_nil, h.merged_eq]

end Keyed
