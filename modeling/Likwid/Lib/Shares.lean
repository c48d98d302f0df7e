import Mathlib.Algebra.BigOperators.Group.List.Basic
import Mathlib.Algebra.GroupWithZero.Nat

/-!
# Handing out in order

`n` units are handed out to takers, each of which takes as much as it offers to or as is left
(`share`). `handOut` does so as well, but goes home as soon as at most one unit is left. It hands
out everything just if no beginning of the takers leaves exactly one unit (`sum_handOut_iff`).
-/

namespace Shares

def share : ℕ → List ℕ → List ℕ
  | _, [] => []
  | n, c :: cs => min c n :: share (n - c) cs

/-- The takers that are asked before nothing is left -/
def visits : ℕ → List ℕ → ℕ
  | 0, _ => 0
  | _ + 1, [] => 0
  | n + 1, c :: cs => visits (n + 1 - c) cs + 1

def handOut : ℕ → List ℕ → List ℕ
  | _, [] => []
  | n, c :: cs => min c n :: if n - c ≤ 1 then [] else handOut (n - c) cs

/-- No beginning of the takers leaves one unit. -/
def NoneLost (n : ℕ) (cs : List ℕ) : Prop := ∀ k, 0 < k → (cs.take k).sum + 1 ≠ n

section Laws

variable {n c : ℕ} {cs : List ℕ}

theorem share_zero (cs : List ℕ) : ∀ a ∈ share 0 cs, a = 0 := by
  induction cs with
  | nil => simp [share]
  | cons c cs ih =>
      rw [share, Nat.zero_sub]
      exact List.forall_mem_cons.mpr ⟨Nat.min_zero c, ih⟩

theorem sum_share (n : ℕ) (cs : List ℕ) : (share n cs).sum = min cs.sum n := by
  induction cs generalizing n with
  | nil => simp [share]
  | cons c cs ih =>
      rw [share, List.sum_cons, List.sum_cons, ih]
      omega

theorem length_handOut : (handOut n cs).length ≤ cs.length := by
  induction cs generalizing n with
  | nil => exact Nat.le_refl 0
  | cons c cs ih =>
      rw [handOut]
      split
      · exact Nat.succ_le_succ (Nat.zero_le _)
      · exact Nat.succ_le_succ ih

/-- Those who are not asked get nothing. -/
theorem drop_share (n : ℕ) (cs : List ℕ) : ∀ a ∈ (share n cs).drop (visits n cs), a = 0 := by
  induction cs generalizing n with
  | nil => simp [share]
  | cons c cs ih =>
      cases n with
      | zero =>
          intro a ha
          exact share_zero _ a (List.mem_of_mem_drop ha)
      | succ n =>
          rw [visits, share, List.drop_succ_cons]
          exact ih _

theorem NoneLost.tail (h : NoneLost n (c :: cs)) (hc : c ≤ n) : NoneLost (n - c) cs := by
  intro k hk hsum
  refine h (k + 1) (Nat.succ_pos k) ?_
  rw [List.take_succ_cons, List.sum_cons]
  omega

theorem NoneLost.first (h : NoneLost n (c :: cs)) : c + 1 ≠ n := by
  simpa using h 1 Nat.one_pos

/-- **Everybody gets a share** if no unit is lost. -/
theorem handOut_eq_share (hn : 0 < n) (h : NoneLost n cs) :
    handOut n cs = (share n cs).take (visits n cs) := by
  induction cs generalizing n with
  | nil => simp [handOut, share]
  | cons c cs ih =>
      obtain ⟨n, rfl⟩ := Nat.exists_eq_succ_of_ne_zero (Nat.ne_of_gt hn)
      rw [handOut, share, visits, List.take_succ_cons]
      have hfirst := h.first
      split
      · next hstop =>
          have hnone : n + 1 - c = 0 := by omega
          simp [hnone, visits]
      · next hgo =>
          rw [ih (by omega) (h.tail (by omega))]

theorem sum_of_noneLost (hn : 0 < n) (hcs : n ≤ cs.sum) (h : NoneLost n cs) :
    (handOut n cs).sum = n := by
  have hsplit := congrArg List.sum (List.take_append_drop (visits n cs) (share n cs))
  have hzero : ((share n cs).drop (visits n cs)).sum = 0 :=
    List.sum_eq_zero (drop_share n cs)
  rw [List.sum_append, hzero, Nat.add_zero, sum_share, Nat.min_eq_right hcs] at hsplit
  rw [handOut_eq_share hn h, hsplit]

theorem noneLost_of_sum (hn : 0 < n) (h : (handOut n cs).sum = n) : NoneLost n cs := by
  induction cs generalizing n with
  | nil =>
      rw [handOut, List.sum_nil] at h
      omega
  | cons c cs ih =>
      intro k hk
      obtain ⟨k, rfl⟩ := Nat.exists_eq_succ_of_ne_zero (Nat.ne_of_gt hk)
      rw [List.take_succ_cons, List.sum_cons]
      rw [handOut, List.sum_cons] at h
      split at h
      · rw [List.sum_nil] at h
        omega
      · next hgo =>
          cases k with
          | zero => simpa using by omega
          | succ k =>
              have hrest := ih (by omega) (by omega : (handOut (n - c) cs).sum = n - c) (k + 1)
                (Nat.succ_pos k)
              omega

/-- **Everything is handed out just if no unit is lost.** -/
theorem sum_handOut_iff (hn : 0 < n) (hcs : n ≤ cs.sum) :
    (handOut n cs).sum = n ↔ NoneLost n cs :=
  ⟨noneLost_of_sum hn, sum_of_noneLost hn hcs⟩

end Laws

end Shares
