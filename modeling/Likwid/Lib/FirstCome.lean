import Mathlib.Data.List.Count
import Mathlib.Logic.ExistsUnique
import Mathlib.Order.Basic

/-!
# First come, first served

A table of slots, each free or held, and a list of claimants that come one after another. Each
claims the slot its key names and gets it if the slot is free. What the table holds in the end is
the first claimant of each slot.
-/

namespace FirstCome

variable {κ α : Type} [DecidableEq κ] {key : α → κ}

/-- `a` takes the slot it asks for if that one is free. -/
def claim (key : α → κ) (held : κ → Option α) (a : α) : κ → Option α := fun k =>
  if k = key a then (held k).or (some a) else held k

theorem claim_apply (held : κ → Option α) (a : α) (k : κ) :
    claim key held a k = (held k).or (if key a = k then some a else none) := by
  unfold claim
  by_cases hk : key a = k
  · rw [if_pos hk.symm, if_pos hk]
  · rw [if_neg fun h => hk h.symm, if_neg hk, Option.or_none]

/-- The first claimant of a slot -/
def first (key : α → κ) (l : List α) (k : κ) : Option α := l.find? fun a => decide (key a = k)

/-- **A slot that nobody held goes to its first claimant.** -/
theorem foldl_claim (l : List α) (held : κ → Option α) (k : κ) :
    l.foldl (claim key) held k = (held k).or (first key l k) := by
  induction l generalizing held with
  | nil => exact (Option.or_none).symm
  | cons a l ih =>
      rw [List.foldl_cons, ih, claim_apply]
      by_cases hk : key a = k
      · rw [if_pos hk]
        unfold first
        rw [List.find?_cons_of_pos (by simpa using hk)]
        cases held k <;> rfl
      · rw [if_neg hk, Option.or_none]
        unfold first
        rw [List.find?_cons_of_neg (by simpa using hk)]

variable {l : List α} {a : α} {k : κ}

theorem first_mem (h : first key l k = some a) : a ∈ l := List.mem_of_find?_eq_some h

theorem first_key (h : first key l k = some a) : key a = k := by
  simpa using List.find?_some h

theorem first_eq_none : first key l k = none ↔ ∀ a ∈ l, key a ≠ k := by
  simp [first]

theorem exists_first (h : ∃ a ∈ l, key a = k) : ∃ a, first key l k = some a := by
  cases hfirst : first key l k with
  | some a => exact ⟨a, rfl⟩
  | none =>
      obtain ⟨a, hmem, hkey⟩ := h
      exact absurd hkey (first_eq_none.mp hfirst a hmem)

/-! ## Flags -/

/-- A flag says that a slot is free. Each claimant is told whether it was, and clears the flag. -/
def turns (free : κ → Bool) : List κ → List Bool
  | [] => []
  | k :: ks => free k :: turns (fun k' => free k' && decide (k' ≠ k)) ks

theorem length_turns (free : κ → Bool) (ks : List κ) : (turns free ks).length = ks.length := by
  induction ks generalizing free with
  | nil => rfl
  | cons k ks ih => rw [turns, List.length_cons, ih, List.length_cons]

/-- **The first claimant of a free slot gets it**, and no other. -/
theorem getElem?_turns {free : κ → Bool} {ks : List κ} {i : ℕ} (h : ks[i]? = some k) :
    (turns free ks)[i]? = some (free k && decide (k ∉ ks.take i)) := by
  induction ks generalizing free i with
  | nil => cases h
  | cons k' ks ih =>
      cases i with
      | zero =>
          obtain rfl : k' = k := Option.some.inj h
          simp [turns]
      | succ i =>
          rw [List.getElem?_cons_succ] at h
          rw [turns, List.getElem?_cons_succ, ih h, List.take_succ_cons]
          simp [Bool.and_assoc]

end FirstCome
