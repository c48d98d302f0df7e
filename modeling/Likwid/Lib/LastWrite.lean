import Mathlib.Logic.Function.Basic
import Mathlib.Data.List.Basic
import Mathlib.Data.List.Induction
import Mathlib.Data.List.Perm.Basic

/-!
# The last write

A store after a list of writes: every key holds the value written to it last. The list may come
from a list of writers, each of which writes once or not at all. The result is the same for every
order of the writers exactly if no two of them write different values to one key.
-/

namespace LastWrite

variable {κ ν ε : Type} [DecidableEq κ]

/-- The store `init` after the writes, the first one first -/
def store (writes : List (κ × ν)) (init : κ → ν) : κ → ν :=
  writes.foldl (fun f w => Function.update f w.1 w.2) init

/-- No two writes to one key differ. -/
def Agree (writes : List (κ × ν)) : Prop :=
  ∀ w ∈ writes, ∀ w' ∈ writes, w.1 = w'.1 → w.2 = w'.2

variable {writes writes' : List (κ × ν)} {init : κ → ν} {w : κ × ν} {k : κ}

theorem store_concat :
    store (writes ++ [w]) init = Function.update (store writes init) w.1 w.2 := by
  unfold store
  rw [List.foldl_append]
  rfl

@[simp] theorem store_concat_self : store (writes ++ [w]) init w.1 = w.2 := by
  rw [store_concat, Function.update_self]

theorem store_of_notMem (h : ∀ w ∈ writes, w.1 ≠ k) : store writes init k = init k := by
  induction writes using List.reverseRecOn with
  | nil => rfl
  | append_singleton writes w ih =>
      have hne : k ≠ w.1 := fun he => h w (by simp) he.symm
      rw [store_concat, Function.update_of_ne hne]
      exact ih fun w' hw' => h w' (by simp [hw'])

theorem Agree.store_eq (h : Agree writes) (hw : w ∈ writes) : store writes init w.1 = w.2 := by
  induction writes using List.reverseRecOn with
  | nil => cases hw
  | append_singleton writes v ih =>
      rw [store_concat]
      by_cases hk : w.1 = v.1
      · rw [hk, Function.update_self]
        exact (h w hw v (by simp) hk).symm
      · rw [Function.update_of_ne hk]
        have hmem : w ∈ writes := by
          rcases List.mem_append.mp hw with hw | hw
          · exact hw
          · exact absurd (congrArg Prod.fst (List.mem_singleton.mp hw)) hk
        exact ih (fun u hu u' hu' => h u (by simp [hu]) u' (by simp [hu'])) hmem

omit [DecidableEq κ] in
theorem Agree.of_perm (h : Agree writes) (hp : writes'.Perm writes) : Agree writes' :=
  fun w hw w' hw' => h w (hp.mem_iff.mp hw) w' (hp.mem_iff.mp hw')

/-- Then their order is of no consequence. -/
theorem Agree.store_perm (init : κ → ν) (h : Agree writes) (hp : writes'.Perm writes) :
    store writes' init = store writes init := by
  funext k
  by_cases hk : ∃ w ∈ writes, w.1 = k
  · obtain ⟨w, hw, rfl⟩ := hk
    rw [h.store_eq hw, (h.of_perm hp).store_eq (hp.mem_iff.mpr hw)]
  · have hno : ∀ w ∈ writes, w.1 ≠ k := fun w hw he => hk ⟨w, hw, he⟩
    rw [store_of_notMem hno, store_of_notMem fun w hw => hno w (hp.mem_iff.mp hw)]

theorem exists_perm_last (init : κ → ν) {f : ε → Option (κ × ν)} {writers : List ε} {e : ε}
    (he : e ∈ writers) (hw : f e = some w) :
    ∃ writers' : List ε, writers'.Perm writers ∧ store (writers'.filterMap f) init w.1 = w.2 := by
  obtain ⟨s, t, rfl⟩ := List.append_of_mem he
  refine ⟨(s ++ t) ++ [e], ?_, ?_⟩
  · exact (List.perm_append_singleton e (s ++ t)).trans List.perm_middle.symm
  · rw [List.filterMap_append, List.filterMap_cons_some hw, List.filterMap_nil]
    exact store_concat_self

/-- **The order of the writers is of no consequence** exactly if their writes agree. -/
theorem store_perm_iff (init : κ → ν) {f : ε → Option (κ × ν)} {writers : List ε} :
    (∀ writers' : List ε, writers'.Perm writers →
      store (writers'.filterMap f) init = store (writers.filterMap f) init) ↔
      Agree (writers.filterMap f) := by
  constructor
  · intro h w hw w' hw' hk
    obtain ⟨e, he, hew⟩ := List.mem_filterMap.mp hw
    obtain ⟨e', he', hew'⟩ := List.mem_filterMap.mp hw'
    obtain ⟨l, hl, hlast⟩ := exists_perm_last init he hew
    obtain ⟨l', hl', hlast'⟩ := exists_perm_last init he' hew'
    have hsame := (congrFun (h l hl) w.1).trans (congrFun (h l' hl') w.1).symm
    rw [hlast, hk, hlast'] at hsame
    exact hsame
  · exact fun h writers' hp => h.store_perm init (hp.filterMap f)

end LastWrite
