import Likwid.TopologyTypes

/-!
# The walk through the topology tree (`affinity.c`)

`treeFillNextEntries` collects the hardware threads in the cpuset from a core of a socket
on. It asks only between two cores whether the counter is 0. So the entries fit exactly if
there is a core at the offset and the threads of some leading cores are just as many as
requested, or those of all cores are not more (`fillsWithin_iff`).
-/

namespace Likwid

/-- `processorIds` as far as it is written, and the counter -/
structure Filled where
  processorIds : List Int
  counter : Int

/-- `cpuid_topology.threadPool[id].inCpuSet` -/
def inCpuSet (pool : List HWThread) (id : Int) : Option Bool :=
  if 0 ≤ id then pool[id.toNat]?.map fun hwThread => hwThread.inCpuSet ≠ 0 else none

/-- The inner loop: `processorIds[numberOfEntries-counter]` is the next entry. -/
def fillThreads (pool : List HWThread) : TreeNode → Filled → Option Filled
  | .null, s => some s
  | .node id _ r, s => do
      let inSet ← inCpuSet pool id
      fillThreads pool r (if inSet then ⟨s.processorIds ++ [id], s.counter - 1⟩ else s)

/-- The outer loop -/
def fillCores (pool : List HWThread) : TreeNode → Filled → Option Filled
  | .null, s => some s
  | .node _ thread r, s =>
      if s.counter = 0 then some s
      else (fillThreads pool thread s).bind (fillCores pool r)

/-- `treeFillNextEntries`: what is written to `processorIds`, and what is returned. Its
loops that look for the socket and for the core go on behind a null pointer. -/
def treeFillNextEntries (pool : List HWThread) (tree : TreeNode) (socketId offset : ℕ)
    (numberOfEntries : Int) : Option (List Int × Int) := do
  let socket ← treeSkip socketId (treeGetChildNode tree)
  let core ← treeSkip offset (treeGetChildNode socket)
  let s ← fillCores pool core ⟨[], numberOfEntries⟩
  some (s.processorIds, numberOfEntries - s.counter)

/-! ## The cores of a socket -/

/-- The ids of the threads of the cores in a row -/
def coreThreads (cores : TreeNode) : List (List Int) := (row cores).map fun c => keys (row c.2)

/-- The threads of the cores of a socket; a socket that is not there has none. -/
def coresOf (tree : TreeNode) (socketId : ℕ) : List (List Int) :=
  (tree.children[socketId]?.map fun s => coreThreads s.2).getD []

/-- The threads that are in the cpuset -/
def selected (pool : List HWThread) (ids : List Int) : List Int :=
  ids.filter fun id => inCpuSet pool id = some true

theorem coreThreads_child (t : TreeNode) :
    coreThreads (treeGetChildNode t) = ((row t).head?.map fun s => coreThreads s.2).getD [] := by
  cases t with
  | null => rfl
  | node i l r => rfl

theorem coreThreads_skip {i : ℕ} {t t' : TreeNode} (h : row t' = (row t).drop i) :
    coreThreads t' = (coreThreads t).drop i := by
  rw [coreThreads, coreThreads, h, List.map_drop]

/-- The walk begins at the cores from the offset on, if there are that many. -/
theorem treeFillNextEntries_of_le (pool : List HWThread) {tree : TreeNode}
    {socketId offset : ℕ} (n : Int) (hsocket : socketId ≤ tree.children.length)
    (hoffset : offset ≤ (coresOf tree socketId).length) :
    ∃ core, coreThreads core = (coresOf tree socketId).drop offset ∧
      treeFillNextEntries pool tree socketId offset n =
        (fillCores pool core ⟨[], n⟩).map fun s => (s.processorIds, n - s.counter) := by
  obtain ⟨socket, hskip, hrow⟩ := treeSkip_spec hsocket
  have hcores : coreThreads (treeGetChildNode socket) = coresOf tree socketId := by
    rw [coreThreads_child, hrow, List.head?_drop]
    rfl
  have hlen : offset ≤ (row (treeGetChildNode socket)).length := by
    rw [← hcores, coreThreads, List.length_map] at hoffset
    exact hoffset
  obtain ⟨core, hskip', hrow'⟩ := treeSkip_spec hlen
  refine ⟨core, hcores ▸ coreThreads_skip hrow', ?_⟩
  rw [treeFillNextEntries, hskip]
  show (treeSkip offset (treeGetChildNode socket)).bind _ = _
  rw [hskip']
  show (fillCores pool core ⟨[], n⟩).bind _ = _
  cases fillCores pool core ⟨[], n⟩ with
  | none => rfl
  | some s => rfl

/-- Otherwise a null pointer is dereferenced. -/
theorem treeFillNextEntries_eq_none {pool : List HWThread} {tree : TreeNode}
    {socketId offset : ℕ} {n : Int} (h : ¬(socketId ≤ tree.children.length ∧
      offset ≤ (coresOf tree socketId).length)) :
    treeFillNextEntries pool tree socketId offset n = none := by
  rw [treeFillNextEntries]
  by_cases hsocket : socketId ≤ tree.children.length
  · obtain ⟨socket, hskip, hrow⟩ := treeSkip_spec hsocket
    have hcores : coreThreads (treeGetChildNode socket) = coresOf tree socketId := by
      rw [coreThreads_child, hrow, List.head?_drop]
      rfl
    have hlen : (row (treeGetChildNode socket)).length < offset := by
      have hlt := not_le.mp fun hle => h ⟨hsocket, hle⟩
      rwa [← hcores, coreThreads, List.length_map] at hlt
    rw [hskip]
    show (treeSkip offset (treeGetChildNode socket)).bind _ = none
    rw [treeSkip_eq_none hlen]
    rfl
  · rw [treeSkip_eq_none (not_le.mp hsocket)]
    rfl

/-! ## The loops -/

variable {pool : List HWThread}

theorem selected_append (ids ids' : List Int) :
    selected pool (ids ++ ids') = selected pool ids ++ selected pool ids' :=
  List.filter_append ..

/-- The inner loop takes all threads in the cpuset. -/
theorem fillThreads_eq {t : TreeNode} (h : ∀ id ∈ keys (row t), (inCpuSet pool id).isSome)
    (s : Filled) :
    fillThreads pool t s = some ⟨s.processorIds ++ selected pool (keys (row t)),
      s.counter - (selected pool (keys (row t))).length⟩ := by
  induction t generalizing s with
  | null => simp [fillThreads, selected]
  | node id l r _ ih =>
      obtain ⟨inSet, hin⟩ := Option.isSome_iff_exists.mp (h id (by simp))
      have hrest : ∀ id ∈ keys (row r), (inCpuSet pool id).isSome := fun id hid =>
        h id (by simpa using Or.inr hid)
      rw [fillThreads, hin]
      show fillThreads pool r _ = _
      rw [ih hrest]
      cases inSet with
      | false => simp [selected, hin]
      | true =>
          have hsel : selected pool (keys (row (.node id l r))) =
              id :: selected pool (keys (row r)) := by
            simp [selected, hin]
          rw [hsel]
          simp only [if_true, List.append_assoc, List.singleton_append, List.length_cons]
          congr 2
          omega

theorem fillThreads_eq_none {t : TreeNode}
    (h : ¬∀ id ∈ keys (row t), (inCpuSet pool id).isSome) (s : Filled) :
    fillThreads pool t s = none := by
  induction t generalizing s with
  | null => exact absurd (fun _ hid => nomatch hid) h
  | node id l r _ ih =>
      rw [fillThreads]
      cases hin : inCpuSet pool id with
      | none => rfl
      | some inSet =>
          refine ih (fun hrest => h fun id' hid' => ?_) _
          rw [row_node, keys_cons, List.mem_cons] at hid'
          rcases hid' with rfl | hid'
          · rw [hin]
            rfl
          · exact hrest id' hid'

/-- The threads of some leading cores are `numberOfEntries`, or those of all cores are at
most as many, and all of them are in the thread pool. -/
def Fits (pool : List HWThread) (cores : List (List Int)) (numberOfEntries : Int) : Prop :=
  ∃ k ≤ cores.length, (∀ id ∈ (cores.take k).flatten, (inCpuSet pool id).isSome) ∧
    ((selected pool (cores.take k).flatten).length : Int) ≤ numberOfEntries ∧
    (k = cores.length ∨ (selected pool (cores.take k).flatten).length = numberOfEntries)

theorem fits_zero (cores : List (List Int)) : Fits pool cores 0 :=
  ⟨0, Nat.zero_le _, by simp, by simp [selected], Or.inr (by simp [selected])⟩

/-- With the counter at another value, the first core has to fit as well. -/
theorem fits_cons {core : List Int} {cores : List (List Int)} {n : Int} (hn : n ≠ 0) :
    Fits pool (core :: cores) n ↔ (∀ id ∈ core, (inCpuSet pool id).isSome) ∧
      Fits pool cores (n - (selected pool core).length) := by
  constructor
  · rintro ⟨k, hk, hpool, hle, hend⟩
    cases k with
    | zero =>
        refine absurd hend ?_
        simp only [List.take_zero, List.flatten_nil, selected, List.filter_nil, List.length_nil,
          List.length_cons, Int.ofNat_zero, not_or]
        exact ⟨(Nat.succ_ne_zero _).symm, hn.symm⟩
    | succ k =>
        rw [List.take_succ_cons, List.flatten_cons] at hpool hle hend
        rw [selected_append, List.length_append] at hle hend
        push_cast at hle hend
        refine ⟨fun id hid => hpool id (List.mem_append_left _ hid), k,
          Nat.le_of_succ_le_succ hk, fun id hid => hpool id (List.mem_append_right _ hid),
          by omega, ?_⟩
        rcases hend with heq | heq
        · exact Or.inl (Nat.succ.inj heq)
        · exact Or.inr (by omega)
  · rintro ⟨hcore, k, hk, hpool, hle, hend⟩
    refine ⟨k + 1, Nat.succ_le_succ hk, ?_, ?_, ?_⟩
    · intro id hid
      rw [List.take_succ_cons, List.flatten_cons, List.mem_append] at hid
      exact hid.elim (hcore id) (hpool id)
    · rw [List.take_succ_cons, List.flatten_cons, selected_append, List.length_append]
      push_cast
      omega
    · rw [List.take_succ_cons, List.flatten_cons, selected_append, List.length_append]
      push_cast
      rcases hend with heq | heq
      · exact Or.inl (congrArg Nat.succ heq)
      · exact Or.inr (by omega)

/-- The entries are behind those that are there, and the counter counts them. -/
theorem fillCores_counter {t : TreeNode} {s s' : Filled} (h : fillCores pool t s = some s') :
    ∃ ids, s'.processorIds = s.processorIds ++ ids ∧ s'.counter = s.counter - ids.length := by
  induction t generalizing s with
  | null =>
      obtain rfl := Option.some.inj h
      exact ⟨[], (List.append_nil _).symm, (Int.sub_zero _).symm⟩
  | node i l r _ ih =>
      rw [fillCores] at h
      split at h
      · obtain rfl := Option.some.inj h
        exact ⟨[], (List.append_nil _).symm, (Int.sub_zero _).symm⟩
      · by_cases hpool : ∀ id ∈ keys (row l), (inCpuSet pool id).isSome
        · rw [fillThreads_eq hpool] at h
          obtain ⟨ids, hids, hcounter⟩ := ih h
          refine ⟨selected pool (keys (row l)) ++ ids, ?_, ?_⟩
          · rw [hids, List.append_assoc]
          · rw [hcounter, List.length_append]
            show s.counter - _ - _ = _
            omega
        · rw [fillThreads_eq_none hpool] at h
          cases h

/-- The outer loop ends with the counter at 0 or above exactly if the entries fit. -/
theorem fillCores_nonneg (t : TreeNode) (s : Filled) :
    (∃ s', fillCores pool t s = some s' ∧ 0 ≤ s'.counter) ↔
      Fits pool (coreThreads t) s.counter := by
  induction t generalizing s with
  | null =>
      constructor
      · rintro ⟨s', hrun, hle⟩
        obtain rfl := Option.some.inj hrun
        exact ⟨0, le_rfl, by simp [coreThreads], by simpa [coreThreads, selected] using hle,
          Or.inl rfl⟩
      · rintro ⟨k, hk, -, hle, -⟩
        exact ⟨s, rfl, (Int.natCast_nonneg _).trans hle⟩
  | node i l r _ ih =>
      rw [fillCores]
      by_cases hn : s.counter = 0
      · rw [if_pos hn, hn]
        exact iff_of_true ⟨s, rfl, hn.ge⟩ (fits_zero _)
      · rw [if_neg hn]
        show _ ↔ Fits pool (keys (row l) :: coreThreads r) s.counter
        rw [fits_cons hn]
        by_cases hpool : ∀ id ∈ keys (row l), (inCpuSet pool id).isSome
        · rw [fillThreads_eq hpool]
          exact (ih _).trans (iff_and_self.mpr fun _ => hpool)
        · rw [fillThreads_eq_none hpool]
          exact iff_of_false (fun ⟨_, hrun, _⟩ => nomatch hrun) fun h => hpool h.1

/-! ## The bound -/

/-- **The entries**: at most `numberOfEntries` are written, and their number
is returned. -/
def FillsWithin (pool : List HWThread) (tree : TreeNode) (socketId offset : ℕ)
    (numberOfEntries : Int) : Prop :=
  ∃ processorIds returned,
    treeFillNextEntries pool tree socketId offset numberOfEntries =
      some (processorIds, returned) ∧
    (processorIds.length : Int) ≤ numberOfEntries ∧ returned = processorIds.length

/-- **The entries stay within the bound** exactly if the offset leads to the cores of a
socket and the threads there fit. -/
theorem fillsWithin_iff (pool : List HWThread) (tree : TreeNode) (socketId offset : ℕ)
    (numberOfEntries : Int) :
    FillsWithin pool tree socketId offset numberOfEntries ↔
      socketId ≤ tree.children.length ∧ offset ≤ (coresOf tree socketId).length ∧
        Fits pool ((coresOf tree socketId).drop offset) numberOfEntries := by
  by_cases h : socketId ≤ tree.children.length ∧ offset ≤ (coresOf tree socketId).length
  · obtain ⟨core, hcore, hrun⟩ :=
      treeFillNextEntries_of_le pool numberOfEntries h.1 h.2
    have hnonneg := @fillCores_nonneg pool core ⟨[], numberOfEntries⟩
    rw [hcore] at hnonneg
    rw [← and_assoc, and_iff_right h, ← hnonneg, FillsWithin, hrun]
    constructor
    · rintro ⟨ids, returned, hmap, hle, rfl⟩
      obtain ⟨s, hs, heq⟩ := Option.map_eq_some_iff.mp hmap
      obtain ⟨rfl, hret⟩ := Prod.mk.inj heq
      exact ⟨s, hs, by omega⟩
    · rintro ⟨s, hs, hle⟩
      obtain ⟨ids, hids, hcounter⟩ := fillCores_counter hs
      rw [show (Filled.mk [] numberOfEntries).counter = numberOfEntries from rfl] at hcounter
      refine ⟨s.processorIds, numberOfEntries - s.counter, by rw [hs]; rfl, ?_, ?_⟩
      · rw [hids, List.nil_append]
        omega
      · rw [hids, List.nil_append]
        omega
  · refine iff_of_false ?_ fun hall => h ⟨hall.1, hall.2.1⟩
    rintro ⟨ids, returned, hrun, -⟩
    rw [treeFillNextEntries_eq_none h] at hrun
    cases hrun

/-- A socket with a core of one thread and a core of two: two entries are requested, since
the first core counts for all, and three are written. -/
theorem not_fillsWithin_unequalCores :
    ¬FillsWithin [⟨0, 0, 0, 0, 1⟩, ⟨0, 1, 0, 1, 1⟩, ⟨1, 1, 0, 2, 1⟩]
      (.node 0 (.node 0 (.node 0 (.node 0 .null .null)
        (.node 1 (.node 1 .null (.node 2 .null .null)) .null)) .null) .null) 0 0 2 := by
  rintro ⟨ids, returned, hrun, hle, -⟩
  have hwritten : treeFillNextEntries [⟨0, 0, 0, 0, 1⟩, ⟨0, 1, 0, 1, 1⟩, ⟨1, 1, 0, 2, 1⟩]
      (.node 0 (.node 0 (.node 0 (.node 0 .null .null)
        (.node 1 (.node 1 .null (.node 2 .null .null)) .null)) .null) .null) 0 0 2 =
      some ([0, 1, 2], 3) := by decide
  rw [hwritten] at hrun
  obtain ⟨rfl, -⟩ := Prod.mk.inj (Option.some.inj hrun)
  exact absurd hle (by decide)

end Likwid
