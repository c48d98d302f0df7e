import Mathlib.Data.Fin.Basic
import Mathlib.Data.List.Basic
import Mathlib.Logic.Function.Basic

/-!
# The spin barrier of the benchmark (`barrier.c`)

Every thread has two flags, which it uses in turn, and it writes the same value twice, to one
and then to the other, before it takes the other value. The steps of a thread are the single
reads and writes of flags; they interleave in any order. No thread is more than one barrier
ahead of another (`BarrierInv`), so what a thread finds in a flag of another one tells the
barriers of these two apart (`written_of_flag`).
-/

namespace Likwid

structure BarrierGroup where
  numberOfThreads : ℕ
deriving DecidableEq, Repr

structure BarrierData where
  numberOfThreads : ℕ
  offset : ℕ
  val : Int
  index : List ℕ
deriving DecidableEq, Repr

/-- `barrier_registerThread`: the own id, then those of the others -/
def barrierRegisterThread (group : BarrierGroup) (threadId : ℕ) : BarrierData where
  numberOfThreads := group.numberOfThreads
  offset := 0
  val := 1
  index := (List.range group.numberOfThreads).foldl
    (fun index i => if i ≠ threadId then index ++ [i] else index) [threadId]

/-- Where a thread is: outside of `barrier_synchronize`, at its write, or in round `i` of its
loop. -/
inductive BarrierPoint where
  | outside
  | writing
  | reading (i : ℕ)
deriving DecidableEq, Repr

/-- A thread, and how often it entered the barrier and left it. -/
structure BarrierThread where
  barr : BarrierData
  point : BarrierPoint
  entered : ℕ
  left : ℕ

/-- The threads of a group, and `groupBval` -/
structure Barrier (n : ℕ) where
  threads : Fin n → BarrierThread
  bval : ℕ → Int

/-- `bval[thread * 32 + offset * 16]` -/
def flagIndex (thread offset : ℕ) : ℕ := thread * 32 + offset * 16

def BarrierData.indexAt (barr : BarrierData) (i : ℕ) : ℕ := barr.index.getD i 0

namespace Barrier

variable {n : ℕ}

def setThread (s : Barrier n) (t : Fin n) (thread : BarrierThread) : Barrier n :=
  { s with threads := Function.update s.threads t thread }

/-- The end of `barrier_synchronize` -/
def flip (barr : BarrierData) : BarrierData :=
  { barr with
    val := if barr.offset ≠ 0 then (if barr.val = 0 then 1 else 0) else barr.val
    offset := if barr.offset = 0 then 1 else 0 }

/-- One step of thread `t`: it calls `barrier_synchronize`, or goes on in it up to the next
read or write of a flag, or returns. -/
def step (t : Fin n) (s : Barrier n) : Barrier n :=
  let thread := s.threads t
  let barr := thread.barr
  match thread.point with
  | .outside => s.setThread t { thread with point := .writing, entered := thread.entered + 1 }
  | .writing =>
      { s.setThread t { thread with point := .reading 1 } with
        bval := Function.update s.bval (flagIndex (barr.indexAt 0) barr.offset) barr.val }
  | .reading i =>
      if i < barr.numberOfThreads then
        if s.bval (flagIndex (barr.indexAt i) barr.offset) ≠ barr.val then s
        else s.setThread t { thread with point := .reading (i + 1) }
      else
        s.setThread t
          { barr := flip barr, point := .outside, entered := thread.entered,
            left := thread.left + 1 }

/-- `n` threads are registered with their ids. -/
def registered (n : ℕ) (bval : ℕ → Int) : Barrier n where
  threads t :=
    { barr := barrierRegisterThread ⟨n⟩ t, point := .outside, entered := 0, left := 0 }
  bval := bval

end Barrier

/-! ## The rounds of a thread -/

/-- What a thread writes the `k`-th time -/
def barrierVal (k : ℕ) : Int := if k / 2 % 2 = 0 then 1 else 0

theorem barrierVal_add_two (k : ℕ) : barrierVal (k + 2) ≠ barrierVal k := by
  have hdiv : (k + 2) / 2 = k / 2 + 1 := by omega
  rw [barrierVal, barrierVal, hdiv]
  rcases Nat.mod_two_eq_zero_or_one (k / 2) with h | h
  · rw [if_neg (by omega), if_pos h]
    decide
  · rw [if_pos (by omega), if_neg (by omega)]
    decide

theorem barrierVal_of_lt_two {k : ℕ} (h : k < 2) : barrierVal k = 1 := by
  rw [barrierVal, if_pos (by omega)]

theorem barrierVal_succ (k : ℕ) :
    (if k % 2 ≠ 0 then (if barrierVal k = 0 then 1 else 0) else barrierVal k) =
      barrierVal (k + 1) := by
  unfold barrierVal
  rcases Nat.mod_two_eq_zero_or_one k with heven | hodd
  · have hdiv : (k + 1) / 2 = k / 2 := by omega
    rw [if_neg (not_not.mpr heven), hdiv]
  · have hdiv : (k + 1) / 2 = k / 2 + 1 := by omega
    rw [if_pos (by omega), hdiv]
    rcases Nat.mod_two_eq_zero_or_one (k / 2) with h | h
    · rw [if_pos h, if_neg (by decide), if_neg (by omega)]
    · rw [if_neg (show ¬k / 2 % 2 = 0 by omega), if_pos rfl,
        if_pos (show (k / 2 + 1) % 2 = 0 by omega)]

theorem flagIndex_inj {t t' o o' : ℕ} (ho : o < 2) (ho' : o' < 2) :
    flagIndex t o = flagIndex t' o' ↔ t = t' ∧ o = o' := by
  unfold flagIndex
  omega

/-- How often a thread has written a flag -/
def BarrierThread.written (thread : BarrierThread) : ℕ :=
  match thread.point with
  | .reading _ => thread.left + 1
  | _ => thread.left

/-- The ids in `index`: the own one and all others -/
theorem barrierRegisterThread_index (n threadId : ℕ) :
    (barrierRegisterThread ⟨n⟩ threadId).index =
      threadId :: (List.range n).filter (· ≠ threadId) := by
  have hloop : ∀ is index : List ℕ, is.foldl
      (fun index i => if i ≠ threadId then index ++ [i] else index) index =
        index ++ is.filter (· ≠ threadId) := by
    intro is
    induction is with
    | nil => exact fun index => (List.append_nil index).symm
    | cons i is ih =>
        intro index
        rw [List.foldl_cons, ih]
        by_cases hi : i = threadId
        · rw [if_neg (not_not.mpr hi), List.filter_cons_of_neg (by simpa using hi)]
        · rw [if_pos hi, List.filter_cons_of_pos (by simpa using hi), List.append_assoc]
          rfl
  exact hloop _ [threadId]

theorem length_others {n t : ℕ} (ht : t < n) :
    ((List.range n).filter (· ≠ t)).length = n - 1 := by
  have herase : (List.range n).erase t = (List.range n).filter (· ≠ t) := by
    rw [List.nodup_range.erase_eq_filter]
    refine List.filter_congr fun u _ => ?_
    by_cases hu : u = t <;> simp [hu]
  rw [← herase, List.length_erase_of_mem (List.mem_range.mpr ht), List.length_range]

/-- A round of the loop reads the flag of another thread, -/
theorem indexAt_others {n t j : ℕ} (hj : j < ((List.range n).filter (· ≠ t)).length) :
    (barrierRegisterThread ⟨n⟩ t).indexAt (j + 1) = ((List.range n).filter (· ≠ t))[j] := by
  rw [BarrierData.indexAt, barrierRegisterThread_index, List.getD_cons_succ, List.getD,
    List.getElem?_eq_getElem hj]
  rfl

/-- and the flag of each other thread is read. -/
theorem exists_indexAt {n t u : ℕ} (ht : t < n) (hu : u < n) (hne : u ≠ t) :
    ∃ j, 1 ≤ j ∧ j < n ∧ (barrierRegisterThread ⟨n⟩ t).indexAt j = u := by
  have hmem : u ∈ (List.range n).filter (· ≠ t) :=
    List.mem_filter.mpr ⟨List.mem_range.mpr hu, by simpa using hne⟩
  obtain ⟨j, hj, hget⟩ := List.mem_iff_getElem.mp hmem
  refine ⟨j + 1, Nat.succ_le_succ (Nat.zero_le j), ?_, ?_⟩
  · rw [length_others ht] at hj
    omega
  · rw [indexAt_others hj, hget]

/-! ## The invariant -/

/-- The data of a thread that has left the barrier so often -/
structure BarrierThread.Ok (n t : ℕ) (thread : BarrierThread) : Prop where
  numberOfThreads : thread.barr.numberOfThreads = n
  index : thread.barr.index = (barrierRegisterThread ⟨n⟩ t).index
  offset : thread.barr.offset = thread.left % 2
  val : thread.barr.val = barrierVal thread.left
  entered : thread.entered = if thread.point = .outside then thread.left else thread.left + 1

/-- What holds in every state: no thread has left a barrier that another one has not
written, and a flag shows what its thread wrote to it last. -/
structure BarrierInv {n : ℕ} (s : Barrier n) : Prop where
  ok : ∀ t, (s.threads t).Ok n t
  left_le : ∀ t u, (s.threads t).left ≤ (s.threads u).written
  checked : ∀ t i, (s.threads t).point = .reading i → ∀ j, 1 ≤ j → j < i → ∀ u : Fin n,
    (s.threads t).barr.indexAt j = u → (s.threads t).left < (s.threads u).written
  flag : ∀ (u : Fin n) k, k < (s.threads u).written → (s.threads u).written ≤ k + 2 →
    s.bval (flagIndex u (k % 2)) = barrierVal k
  fresh : ∀ (u : Fin n) o, o < 2 → (s.threads u).written ≤ o → s.bval (flagIndex u o) ≠ 1

variable {n : ℕ} {s : Barrier n} {t u : Fin n}

theorem BarrierThread.Ok.written_le {t : ℕ} {thread : BarrierThread} (h : thread.Ok n t) :
    thread.written ≤ thread.entered := by
  rw [h.entered, BarrierThread.written]
  cases thread.point <;> simp

theorem BarrierThread.written_le_succ (thread : BarrierThread) :
    thread.written ≤ thread.left + 1 := by
  rw [BarrierThread.written]
  split <;> omega

/-- **What a flag tells**: a thread in the loop that finds its value has found the other one
in the same barrier, or in the next. -/
theorem written_of_flag (h : BarrierInv s)
    (hflag : s.bval (flagIndex u (s.threads t).barr.offset) = (s.threads t).barr.val) :
    (s.threads t).left < (s.threads u).written := by
  rw [(h.ok t).offset, (h.ok t).val] at hflag
  have hle := h.left_le t u
  by_contra hno
  -- the other thread wrote its flag two barriers before, or never
  have hwritten : (s.threads u).written = (s.threads t).left := by omega
  rcases Nat.lt_or_ge (s.threads t).left 2 with hlt | hge
  · rw [barrierVal_of_lt_two hlt, Nat.mod_eq_of_lt hlt] at hflag
    exact h.fresh u _ hlt hwritten.le hflag
  · obtain ⟨k, hk⟩ := Nat.exists_eq_add_of_le' hge
    have hold := h.flag u k (by omega) (by omega)
    rw [hk, Nat.add_mod_right, hold] at hflag
    exact barrierVal_add_two k hflag.symm

/-! ## One step -/

namespace Barrier

theorem setThread_same (s : Barrier n) (t : Fin n) (thread : BarrierThread) :
    (s.setThread t thread).threads t = thread := Function.update_self ..

theorem setThread_other (s : Barrier n) {t u : Fin n} (h : u ≠ t) (thread : BarrierThread) :
    (s.setThread t thread).threads u = s.threads u := Function.update_of_ne h ..

end Barrier

/-- A change of a thread that writes no flag -/
theorem BarrierInv.setThread (h : BarrierInv s) {thread : BarrierThread} (hok : thread.Ok n t)
    (hwritten : thread.written = (s.threads t).written)
    (hleft : ∀ u, thread.left ≤ (s.threads u).written)
    (hchecked : ∀ i, thread.point = .reading i → ∀ j, 1 ≤ j → j < i → ∀ u : Fin n,
      thread.barr.indexAt j = u → thread.left < (s.threads u).written) :
    BarrierInv (s.setThread t thread) := by
  have hall : ∀ u, ((s.setThread t thread).threads u).written = (s.threads u).written := by
    intro u
    rcases eq_or_ne u t with rfl | hu
    · rw [Barrier.setThread_same, hwritten]
    · rw [Barrier.setThread_other s hu]
  refine ⟨fun u => ?_, fun u v => ?_, fun u i hi j hj hji v hv => ?_, fun u k hk hle => ?_,
    fun u o ho hle => ?_⟩
  · rcases eq_or_ne u t with rfl | hu
    · rw [Barrier.setThread_same]
      exact hok
    · rw [Barrier.setThread_other s hu]
      exact h.ok u
  · rw [hall]
    rcases eq_or_ne u t with rfl | hu
    · rw [Barrier.setThread_same]
      exact hleft v
    · rw [Barrier.setThread_other s hu]
      exact h.left_le u v
  · rw [hall]
    rcases eq_or_ne u t with rfl | hu
    · rw [Barrier.setThread_same] at hi hv ⊢
      exact hchecked i hi j hj hji v hv
    · rw [Barrier.setThread_other s hu] at hi hv ⊢
      exact h.checked u i hi j hj hji v hv
  · rw [hall] at hk hle
    exact h.flag u k hk hle
  · rw [hall] at hle
    exact h.fresh u o ho hle

theorem BarrierInv.enter (h : BarrierInv s) (hpoint : (s.threads t).point = .outside) :
    BarrierInv (s.setThread t { s.threads t with
      point := .writing, entered := (s.threads t).entered + 1 }) := by
  have hok := h.ok t
  have hentered := hok.entered
  rw [if_pos hpoint] at hentered
  refine h.setThread ⟨hok.numberOfThreads, hok.index, hok.offset, hok.val, ?_⟩ ?_
    (h.left_le t) nofun
  · show (s.threads t).entered + 1 = _
    rw [hentered, if_neg nofun]
  · rw [BarrierThread.written, BarrierThread.written, hpoint]

/-- A thread writes its flag. -/
theorem BarrierInv.write (h : BarrierInv s) (hpoint : (s.threads t).point = .writing) :
    BarrierInv { s.setThread t { s.threads t with point := .reading 1 } with
      bval := Function.update s.bval
        (flagIndex ((s.threads t).barr.indexAt 0) (s.threads t).barr.offset)
        (s.threads t).barr.val } := by
  have hok := h.ok t
  have hentered := hok.entered
  rw [hpoint, if_neg nofun] at hentered
  have hwritten : (s.threads t).written = (s.threads t).left := by
    rw [BarrierThread.written, hpoint]
  have hself : (s.threads t).barr.indexAt 0 = t := by
    rw [BarrierData.indexAt, hok.index, barrierRegisterThread_index]
    rfl
  have hall : ∀ u, (s.threads u).written ≤
      ((s.setThread t { s.threads t with point := .reading 1 }).threads u).written := by
    intro u
    rcases eq_or_ne u t with rfl | hu
    · rw [Barrier.setThread_same, hwritten]
      exact Nat.le_succ _
    · rw [Barrier.setThread_other s hu]
  -- the flags that keep their values
  have hkeep : ∀ (u : Fin n) o, o < 2 → u ≠ t ∨ o ≠ (s.threads t).left % 2 →
      Function.update s.bval
        (flagIndex ((s.threads t).barr.indexAt 0) (s.threads t).barr.offset)
        (s.threads t).barr.val (flagIndex u o) = s.bval (flagIndex u o) := by
    intro u o ho hne
    refine Function.update_of_ne (fun heq => ?_) _ _
    rw [hself, hok.offset] at heq
    obtain ⟨hu, rfl⟩ := (flagIndex_inj ho (Nat.mod_lt _ Nat.two_pos)).mp heq
    exact hne.elim (fun hut => hut (Fin.ext hu)) fun hno => hno rfl
  refine ⟨fun u => ?_, fun u v => ?_, fun u i hi j hj hji v hv => ?_, fun u k hk hle => ?_,
    fun u o ho hle => ?_⟩
  · show ((s.setThread t _).threads u).Ok n u
    rcases eq_or_ne u t with rfl | hu
    · rw [Barrier.setThread_same]
      refine ⟨hok.numberOfThreads, hok.index, hok.offset, hok.val, ?_⟩
      show (s.threads u).entered = _
      rw [hentered, if_neg nofun]
    · rw [Barrier.setThread_other s hu]
      exact h.ok u
  · refine le_trans ?_ (hall v)
    show ((s.setThread t _).threads u).left ≤ _
    rcases eq_or_ne u t with rfl | hu
    · rw [Barrier.setThread_same]
      exact h.left_le u v
    · rw [Barrier.setThread_other s hu]
      exact h.left_le u v
  · refine lt_of_lt_of_le ?_ (hall v)
    replace hi : ((s.setThread t _).threads u).point = _ := hi
    replace hv : ((s.setThread t _).threads u).barr.indexAt j = v := hv
    show ((s.setThread t _).threads u).left < _
    rcases eq_or_ne u t with rfl | hu
    · rw [Barrier.setThread_same] at hi
      obtain rfl := BarrierPoint.reading.inj hi
      omega
    · rw [Barrier.setThread_other s hu] at hi hv ⊢
      exact h.checked u i hi j hj hji v hv
  · replace hk : k < ((s.setThread t _).threads u).written := hk
    replace hle : ((s.setThread t _).threads u).written ≤ k + 2 := hle
    rcases eq_or_ne u t with rfl | hu
    · rw [Barrier.setThread_same] at hk hle
      change k < (s.threads u).left + 1 at hk
      change (s.threads u).left + 1 ≤ k + 2 at hle
      rcases Nat.lt_succ_iff_lt_or_eq.mp hk with hlt | rfl
      · refine (hkeep u _ (Nat.mod_lt _ Nat.two_pos) (Or.inr (by omega))).trans ?_
        exact h.flag u k (by omega) (by omega)
      · show Function.update _ _ _ _ = _
        rw [hself, hok.offset, Function.update_self, hok.val]
    · rw [Barrier.setThread_other s hu] at hk hle
      exact (hkeep u _ (Nat.mod_lt _ Nat.two_pos) (Or.inl hu)).trans (h.flag u k hk hle)
  · replace hle : ((s.setThread t _).threads u).written ≤ o := hle
    rcases eq_or_ne u t with rfl | hu
    · rw [Barrier.setThread_same] at hle
      change (s.threads u).left + 1 ≤ o at hle
      have hkept := hkeep u o ho (Or.inr (by omega))
      exact fun heq => h.fresh u o ho (by omega) (hkept.symm.trans heq)
    · rw [Barrier.setThread_other s hu] at hle
      exact fun heq => h.fresh u o ho hle ((hkeep u o ho (Or.inl hu)).symm.trans heq)

theorem BarrierInv.read (h : BarrierInv s) {i : ℕ} (hpoint : (s.threads t).point = .reading i)
    (hi : i < (s.threads t).barr.numberOfThreads)
    (hflag : s.bval (flagIndex ((s.threads t).barr.indexAt i) (s.threads t).barr.offset) =
      (s.threads t).barr.val) :
    BarrierInv (s.setThread t { s.threads t with point := .reading (i + 1) }) := by
  have hok := h.ok t
  have hentered := hok.entered
  rw [hpoint, if_neg nofun] at hentered
  refine h.setThread ⟨hok.numberOfThreads, hok.index, hok.offset, hok.val, ?_⟩ ?_
    (h.left_le t) fun i' hi' j hj hji u hu => ?_
  · show (s.threads t).entered = _
    rw [hentered, if_neg nofun]
  · rw [BarrierThread.written, BarrierThread.written, hpoint]
  · obtain rfl : i + 1 = i' := BarrierPoint.reading.inj hi'
    rcases Nat.lt_succ_iff_lt_or_eq.mp hji with hlt | rfl
    · exact h.checked t i hpoint j hj hlt u hu
    · have hu' : (s.threads t).barr.indexAt j = u := hu
      rw [hu'] at hflag
      exact written_of_flag h hflag

/-- A thread leaves the barrier. -/
theorem BarrierInv.leave (h : BarrierInv s) {i : ℕ} (hpoint : (s.threads t).point = .reading i)
    (hi : ¬i < (s.threads t).barr.numberOfThreads) :
    BarrierInv (s.setThread t
      { barr := Barrier.flip (s.threads t).barr, point := .outside,
        entered := (s.threads t).entered, left := (s.threads t).left + 1 }) := by
  have hok := h.ok t
  have hentered := hok.entered
  rw [hpoint, if_neg nofun] at hentered
  have hwritten : (s.threads t).written = (s.threads t).left + 1 := by
    rw [BarrierThread.written, hpoint]
  refine h.setThread ⟨hok.numberOfThreads, hok.index, ?_, ?_, ?_⟩ ?_ (fun u => ?_) nofun
  · show (if (s.threads t).barr.offset = 0 then 1 else 0) = ((s.threads t).left + 1) % 2
    rw [hok.offset]
    split <;> omega
  · show (if (s.threads t).barr.offset ≠ 0 then
      (if (s.threads t).barr.val = 0 then 1 else 0) else (s.threads t).barr.val) =
        barrierVal ((s.threads t).left + 1)
    rw [hok.offset, hok.val]
    exact barrierVal_succ _
  · show (s.threads t).entered = _
    rw [hentered, if_pos rfl]
  · rw [hwritten]
    rfl
  · show (s.threads t).left + 1 ≤ (s.threads u).written
    rcases eq_or_ne u t with rfl | hu
    · rw [hwritten]
    · have hne : (u : ℕ) ≠ t := fun heq => hu (Fin.ext heq)
      obtain ⟨j, hj, hjn, hget⟩ := exists_indexAt t.isLt u.isLt hne
      rw [hok.numberOfThreads] at hi
      refine h.checked t i hpoint j hj (by omega) u ?_
      rw [BarrierData.indexAt, hok.index]
      exact hget

theorem BarrierInv.step (h : BarrierInv s) (t : Fin n) : BarrierInv (s.step t) := by
  rw [Barrier.step]
  cases hpoint : (s.threads t).point with
  | outside => exact h.enter hpoint
  | writing => exact h.write hpoint
  | reading i =>
      show BarrierInv (if i < (s.threads t).barr.numberOfThreads then _ else _)
      split
      · next hi =>
          split
          · exact h
          · next hflag => exact h.read hpoint hi (not_not.mp hflag)
      · next hi => exact h.leave hpoint hi

theorem barrierInv_registered {bval : ℕ → Int}
    (hbval : ∀ t : Fin n, ∀ o < 2, bval (flagIndex t o) ≠ 1) :
    BarrierInv (Barrier.registered n bval) where
  ok _ := ⟨rfl, rfl, rfl, (barrierVal_of_lt_two Nat.two_pos).symm, rfl⟩
  left_le _ _ := Nat.zero_le _
  checked _ _ := nofun
  flag _ k hk := absurd hk (Nat.not_lt_zero k)
  fresh u o ho _ := hbval u o ho

/-! ## Every interleaving -/

/-- Steps of the threads in any order -/
def Barrier.run (ts : List (Fin n)) (s : Barrier n) : Barrier n :=
  ts.foldl (fun s t => s.step t) s

theorem BarrierInv.run (h : BarrierInv s) (ts : List (Fin n)) : BarrierInv (s.run ts) := by
  induction ts generalizing s with
  | nil => exact h
  | cons t ts ih => exact ih (h.step t)

/-- Thread `t` has entered the barrier, and the flag of thread `u` is still to be read. -/
def Barrier.WaitsFor (s : Barrier n) (t u : Fin n) : Prop :=
  ∃ j, 1 ≤ j ∧ j < (s.threads t).barr.numberOfThreads ∧ (s.threads t).barr.indexAt j = u ∧
    ((s.threads t).point = .writing ∨ ∃ i ≤ j, (s.threads t).point = .reading i)

/-- The flag of thread `u` in the slot that thread `t` reads -/
def Barrier.awaited (s : Barrier n) (t u : Fin n) : ℕ :=
  flagIndex u (s.threads t).barr.offset

/-- **The law of the barrier**: what a thread has left, all have entered; a thread that
another one waits for does not write a value to the awaited flag but the awaited one; and
once it has written it, the flag has this value. -/
structure BarrierSafe (s : Barrier n) : Prop where
  left_le : ∀ t u, (s.threads t).left ≤ (s.threads u).entered
  no_overwrite : ∀ t u, s.WaitsFor t u → (s.threads u).point = .writing →
    flagIndex ((s.threads u).barr.indexAt 0) (s.threads u).barr.offset = s.awaited t u →
      (s.threads u).barr.val = (s.threads t).barr.val
  not_passed : ∀ t u, s.WaitsFor t u → (s.threads t).left < (s.threads u).written →
    s.bval (s.awaited t u) = (s.threads t).barr.val

theorem BarrierInv.safe (h : BarrierInv s) : BarrierSafe s := by
  have hnext : ∀ t u, (s.threads u).left ≤ (s.threads t).left + 1 := fun t u =>
    (h.left_le u t).trans (s.threads t).written_le_succ
  refine ⟨fun t u => (h.left_le t u).trans (h.ok u).written_le, fun t u _ hpoint heq => ?_,
    fun t u _ hlt => ?_⟩
  · have hle := h.left_le t u
    rw [BarrierThread.written, hpoint] at hle
    change (s.threads t).left ≤ (s.threads u).left at hle
    rw [Barrier.awaited, BarrierData.indexAt, (h.ok u).index, barrierRegisterThread_index,
      (h.ok u).offset, (h.ok t).offset] at heq
    have hslot := ((flagIndex_inj (Nat.mod_lt _ Nat.two_pos) (Nat.mod_lt _ Nat.two_pos)).mp heq).2
    -- the barriers of the two differ by one at most, and they use the same slot
    have hsame : (s.threads u).left = (s.threads t).left := by
      have hle' := hnext t u
      omega
    rw [(h.ok u).val, (h.ok t).val, hsame]
  · have hle := (s.threads u).written_le_succ
    have hle' := hnext t u
    rw [Barrier.awaited, (h.ok t).offset, (h.ok t).val]
    exact h.flag u _ hlt (by omega)

/-- **The barrier is safe**, however the reads and writes of the flags interleave. -/
theorem barrier_safe (n : ℕ) {bval : ℕ → Int}
    (hbval : ∀ t : Fin n, ∀ o < 2, bval (flagIndex t o) ≠ 1) (ts : List (Fin n)) :
    BarrierSafe ((Barrier.registered n bval).run ts) :=
  ((barrierInv_registered hbval).run ts).safe

/-- Two threads, one of which enters its second barrier while the other is in its first. -/
theorem barrier_safe_two :
    BarrierSafe ((Barrier.registered 2 fun _ => 0).run [0, 0, 1, 1, 0, 0, 0, 0, 0, 1]) :=
  barrier_safe 2 (fun _ _ _ => by decide) _

end Likwid
