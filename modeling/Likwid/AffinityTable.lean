import Likwid.Affinity
import Likwid.SetupTree

/-!
# The table of the affinity domains (`affinity.c`)

On the topology that `topology_init` leaves behind, every walk is a function of the hardware
threads in the cpuset (`treeFillNextEntries_eq`), and so are all entries of the table. The
loop over the memory domains goes by the rounded quotient of nodes and sockets, the table by
the number of nodes. So a run that writes the whole table was on a machine with one node or a
multiple of the sockets, where the walks begin within their sockets (`regularMachine_of_run`).
-/

namespace Likwid

/-! ## The walk, as a function of the cores -/

/-- The threads that the walk takes from the cores -/
def walk : List (List Int) → Int → List Int
  | [], _ => []
  | core :: cores, n => if n = 0 then [] else core ++ walk cores (n - core.length)

theorem walk_zero (cores : List (List Int)) : walk cores 0 = [] := by
  cases cores with
  | nil => rfl
  | cons core cores => rw [walk, if_pos rfl]

theorem walk_isPrefix (cores : List (List Int)) (n : Int) : walk cores n <+: cores.flatten := by
  induction cores generalizing n with
  | nil => exact List.prefix_rfl
  | cons core cores ih =>
      rw [walk, List.flatten_cons]
      split
      · exact List.nil_prefix
      · exact (List.prefix_append_right_inj core).mpr (ih _)

/-- It takes all of them or reaches the number. -/
theorem walk_eq_or_le (cores : List (List Int)) (n : Int) :
    walk cores n = cores.flatten ∨ n ≤ (walk cores n).length := by
  induction cores generalizing n with
  | nil => exact Or.inl rfl
  | cons core cores ih =>
      rw [walk, List.flatten_cons]
      split
      · next hn => exact Or.inr (hn.le.trans (Int.natCast_nonneg _))
      · rcases ih (n - core.length) with heq | hle
        · exact Or.inl (congrArg _ heq)
        · refine Or.inr ?_
          rw [List.length_append]
          push_cast
          omega

theorem walk_of_le {cores : List (List Int)} {n : Int} (h : (cores.flatten.length : Int) ≤ n) :
    walk cores n = cores.flatten := by
  rcases walk_eq_or_le cores n with heq | hle
  · exact heq
  · have hlen := (walk_isPrefix cores n).length_le
    exact (walk_isPrefix cores n).eq_of_length (by omega)

/-- Leading cores with just the number of threads are taken. -/
theorem walk_take {cores : List (List Int)} {k : ℕ} {n : Int}
    (h : ((cores.take k).flatten.length : Int) = n) :
    walk cores n = (cores.take k).flatten := by
  induction cores generalizing k n with
  | nil => simp [walk]
  | cons core cores ih =>
      cases k with
      | zero =>
          obtain rfl : n = 0 := by simpa using h.symm
          rw [walk_zero]
          rfl
      | succ k =>
          rw [List.take_succ_cons, List.flatten_cons] at h ⊢
          rw [List.length_append] at h
          push_cast at h
          rw [walk]
          split
          · next hn =>
              have hcore : core = [] := List.length_eq_zero_iff.mp (by omega)
              have hrest : (cores.take k).flatten = [] := List.length_eq_zero_iff.mp (by omega)
              rw [hcore, hrest]
              rfl
          · rw [ih (k := k) (by omega)]

theorem min_walk (cores : List (List Int)) {n k : ℕ} (h : k ≤ n) :
    min (walk cores n).length k = min cores.flatten.length k := by
  rcases walk_eq_or_le cores n with heq | hle
  · rw [heq]
  · have hlen := (walk_isPrefix cores n).length_le
    omega

/-- The threads in the cpuset of the cores of a socket -/
def selectedCores (topo : CpuTopology) (i : ℕ) : List (List Int) :=
  (coresOf topo.topologyTree i).map (selected topo.threadPool)

theorem selected_flatten {pool : List HWThread} (cores : List (List Int)) :
    selected pool cores.flatten = (cores.map (selected pool)).flatten := by
  rw [selected, List.filter_flatten]
  rfl

theorem fillCores_walk {pool : List HWThread} {t : TreeNode} {s : Filled}
    (h : ∀ id ∈ (coreThreads t).flatten, (inCpuSet pool id).isSome) :
    fillCores pool t s =
      some ⟨s.processorIds ++ walk ((coreThreads t).map (selected pool)) s.counter,
        s.counter - (walk ((coreThreads t).map (selected pool)) s.counter).length⟩ := by
  induction t generalizing s with
  | null => simp [fillCores, coreThreads, walk]
  | node i l r _ ih =>
      have hcores : coreThreads (.node i l r) = keys (row l) :: coreThreads r := rfl
      rw [hcores, List.flatten_cons] at h
      rw [fillCores, hcores, List.map_cons, walk]
      split
      · simp
      · rw [fillThreads_eq fun id hid => h id (List.mem_append_left _ hid)]
        show fillCores pool r _ = _
        rw [ih fun id hid => h id (List.mem_append_right _ hid), List.length_append,
          List.append_assoc]
        congr 2
        show _ - _ - _ = _
        push_cast
        omega

/-- What `topology_init` leaves behind: the sockets are counted, and the ids of the
hardware threads in the tree are distinct indices of the thread pool. -/
structure CpuTopology.Consistent (topo : CpuTopology) : Prop where
  numSockets : topo.numSockets.toNat = topo.topologyTree.children.length
  numHWThreads : topo.numHWThreads.toNat = topo.threadPool.length
  length_le : topo.threadPool.length ≤ maxNumThreads
  index : ∀ i, ∀ id ∈ (coresOf topo.topologyTree i).flatten,
    0 ≤ id ∧ id < topo.threadPool.length
  nodup : ((List.range topo.numSockets.toNat).flatMap fun i =>
    (coresOf topo.topologyTree i).flatten).Nodup

variable {topo : CpuTopology}

theorem CpuTopology.Consistent.isSome (h : topo.Consistent) {i : ℕ} {id : Int}
    (hid : id ∈ (coresOf topo.topologyTree i).flatten) :
    (inCpuSet topo.threadPool id).isSome := by
  obtain ⟨hge, hlt⟩ := h.index i id hid
  have hget : id.toNat < topo.threadPool.length := by omega
  rw [inCpuSet, if_pos hge, List.getElem?_eq_getElem hget]
  rfl

/-- The ids of the hardware threads on all paths of the tree -/
theorem flatMap_coresOf (t : TreeNode) :
    ((List.range t.children.length).flatMap fun i => (coresOf t i).flatten) =
      t.paths.map (·.2.2) := by
  have hrange : (List.range t.children.length).map (t.children[·]?) = t.children.map some := by
    refine List.ext_getElem? fun i => ?_
    rw [List.getElem?_map, List.getElem?_map]
    rcases Nat.lt_or_ge i t.children.length with hlt | hge
    · rw [List.getElem?_range hlt, List.getElem?_eq_getElem hlt, Option.map_some, Option.map_some,
        List.getElem?_eq_getElem hlt]
    · rw [List.getElem?_eq_none hge, List.getElem?_eq_none (by rwa [List.length_range])]
      rfl
  have hcores : ((List.range t.children.length).flatMap fun i => (coresOf t i).flatten) =
      ((List.range t.children.length).map (t.children[·]?)).flatMap fun s =>
        ((s.map fun s => coreThreads s.2).getD []).flatten := by
    rw [List.flatMap_map]
    rfl
  rw [hcores, hrange, List.flatMap_map, TreeNode.paths, List.map_flatMap]
  refine List.flatMap_congr fun s _ => ?_
  rw [List.map_flatMap, Option.map_some, Option.getD_some, coreThreads, ← List.flatMap_def]
  refine List.flatMap_congr fun c _ => ?_
  rw [List.map_map]
  exact (List.map_id _).symm

/-- **The tree of a thread pool** is consistent, if the ids of the hardware threads are
distinct indices of the pool. -/
theorem TreeOf.consistent (h : TreeOf topo.threadPool topo.topologyTree)
    (hsockets : topo.numSockets.toNat = topo.topologyTree.children.length)
    (hlen : topo.numHWThreads.toNat = topo.threadPool.length)
    (hmax : topo.threadPool.length ≤ maxNumThreads)
    (hindex : ∀ hwThread ∈ topo.threadPool, hwThread.apicId.toNat < topo.threadPool.length)
    (hnodup : (topo.threadPool.map (·.apicId)).Nodup) : topo.Consistent := by
  have hpath : ∀ x ∈ topo.topologyTree.paths, ∃ hwThread ∈ topo.threadPool,
      hwThread.path = x := by
    intro x hx
    by_contra hno
    have hcount := h.paths x
    rw [if_neg hno] at hcount
    exact List.count_eq_zero.mp hcount hx
  have hpaths : topo.topologyTree.paths.Nodup := by
    refine List.nodup_iff_count_le_one.mpr fun x => ?_
    rw [h.paths x]
    split <;> decide
  have hids := flatMap_coresOf topo.topologyTree
  refine ⟨hsockets, hlen, hmax, fun i id hid => ?_, ?_⟩
  · have hi : i < topo.topologyTree.children.length := by
      by_contra hge
      rw [coresOf, List.getElem?_eq_none (not_lt.mp hge)] at hid
      cases hid
    have hmem : id ∈ (List.range topo.topologyTree.children.length).flatMap fun i =>
        (coresOf topo.topologyTree i).flatten :=
      List.mem_flatMap.mpr ⟨i, List.mem_range.mpr hi, hid⟩
    rw [hids] at hmem
    obtain ⟨x, hx, rfl⟩ := List.mem_map.mp hmem
    obtain ⟨hwThread, hthread, rfl⟩ := hpath x hx
    have hlt := hindex hwThread hthread
    have hint : hwThread.apicId.toInt = hwThread.apicId.toNat :=
      BitVec.toInt_eq_toNat_of_lt (by rw [maxNumThreads] at hmax; omega)
    show 0 ≤ hwThread.apicId.toInt ∧ hwThread.apicId.toInt < _
    omega
  · rw [hsockets, hids]
    refine List.Nodup.map_on (fun x hx y hy heq => ?_) hpaths
    obtain ⟨a, ha, rfl⟩ := hpath x hx
    obtain ⟨b, hb, rfl⟩ := hpath y hy
    have hid : a.apicId = b.apicId := BitVec.eq_of_toInt_eq heq
    rw [List.inj_on_of_nodup_map hnodup ha hb hid]

/-- **A walk**, for a socket that is there. -/
theorem treeFillNextEntries_eq (h : topo.Consistent) {i : ℕ} (hi : i ≤ topo.numSockets.toNat)
    (offset : ℕ) (n : Int) :
    treeFillNextEntries topo.threadPool topo.topologyTree i offset n =
      if offset ≤ (selectedCores topo i).length then
        some (walk ((selectedCores topo i).drop offset) n,
          ((walk ((selectedCores topo i).drop offset) n).length : Int))
      else none := by
  rw [h.numSockets] at hi
  rw [selectedCores, List.length_map]
  by_cases ho : offset ≤ (coresOf topo.topologyTree i).length
  · obtain ⟨core, hcore, hrun⟩ := treeFillNextEntries_of_le topo.threadPool n hi ho
    have hpool : ∀ id ∈ (coreThreads core).flatten, (inCpuSet topo.threadPool id).isSome := by
      intro id hid
      rw [hcore] at hid
      exact h.isSome (List.mem_flatten.mpr (by
        obtain ⟨ids, hids, hmem⟩ := List.mem_flatten.mp hid
        exact ⟨ids, List.mem_of_mem_drop hids, hmem⟩))
    rw [hrun, if_pos ho, fillCores_walk hpool, hcore, ← List.map_drop]
    show some ([] ++ _, n - (n - _)) = _
    rw [List.nil_append, Int.sub_sub_self]
  · rw [if_neg ho]
    exact treeFillNextEntries_eq_none fun hle => ho hle.2

/-! ## The counts -/

/-- The hardware threads per socket, as the domains are allocated for them -/
def processorsPerSocket (topo : CpuTopology) : ℕ :=
  topo.numCoresPerSocket.toNat * topo.numThreadsPerCore.toNat

/-- The hardware threads of a last level cache; without cache levels there are none. -/
def lastLevelThreads (topo : CpuTopology) : ℕ :=
  (topo.cacheLevels[(topo.numCacheLevels - 1).toNat]?.map (·.threads.toNat)).getD 0

/-- The cores of a last level cache -/
def lastLevelCores (topo : CpuTopology) : ℕ :=
  lastLevelThreads topo / topo.numThreadsPerCore.toNat

/-- The last level caches of a socket -/
def lastLevelsPerSocket (topo : CpuTopology) : ℕ :=
  topo.numCoresPerSocket.toNat / lastLevelCores topo

/-- What `countDomains` computes, when it does not divide by 0 -/
def domainCounts (topo : CpuTopology) (numa : NumaTopology) : AffinityDomains where
  numberOfSocketDomains := topo.numSockets.toNat
  numberOfNumaDomains := numa.numberOfNodes.toNat
  numberOfProcessorsPerSocket := processorsPerSocket topo
  numberOfCacheDomains := topo.numSockets.toNat * lastLevelsPerSocket topo
  numberOfCoresPerCache := lastLevelCores topo
  numberOfProcessorsPerCache := lastLevelThreads topo
  numberOfAffinityDomains := 1 + (topo.numSockets.toNat +
    topo.numSockets.toNat * lastLevelsPerSocket topo + numa.numberOfNodes.toNat)
  domains := List.replicate (1 + (topo.numSockets.toNat +
    topo.numSockets.toNat * lastLevelsPerSocket topo + numa.numberOfNodes.toNat)) none

theorem countDomains_eq (topo : CpuTopology) (numa : NumaTopology) :
    countDomains topo numa =
      if 0 < lastLevelCores topo then some (domainCounts topo numa) else none := by
  rw [countDomains]
  cases hlevel : topo.cacheLevels[(topo.numCacheLevels - 1).toNat]? with
  | none =>
      have hcores : lastLevelCores topo = 0 := by
        rw [lastLevelCores, lastLevelThreads, hlevel]
        exact Nat.zero_div _
      rw [hcores, if_neg (Nat.lt_irrefl 0)]
      rfl
  | some lastLevel =>
      have hthreads : lastLevelThreads topo = lastLevel.threads.toNat := by
        rw [lastLevelThreads, hlevel]
        rfl
      show (divide lastLevel.threads.toNat topo.numThreadsPerCore.toNat).bind _ = _
      rw [← hthreads, divide]
      split
      · next hzero =>
          have hcores : lastLevelCores topo = 0 := by rw [lastLevelCores, hzero, Nat.div_zero]
          rw [hcores, if_neg (Nat.lt_irrefl 0)]
          rfl
      · show (divide topo.numCoresPerSocket.toNat (lastLevelCores topo)).bind _ = _
        rw [divide]
        split
        · next hzero =>
            rw [hzero, if_neg (Nat.lt_irrefl 0)]
            rfl
        · next hne =>
            rw [if_pos (Nat.pos_of_ne_zero hne)]
            rfl

/-! ## The entries -/

/-- What the walk for the whole of socket `i` takes -/
def socketWalk (topo : CpuTopology) (i : ℕ) : List Int :=
  walk (selectedCores topo i) (processorsPerSocket topo)

/-- The entry of socket `i` -/
def socketEntry (topo : CpuTopology) (i : ℕ) : AffinityDomain where
  tag := 'S' :: Text.decimal i
  numberOfProcessors := min (socketWalk topo i).length (processorsPerSocket topo)
  numberOfCores := topo.numCoresPerSocket.toNat
  size := processorsPerSocket topo
  processorList := writeEntries 0 (socketWalk topo i) fun _ => none

/-- The core where the `j`-th cache of a socket begins: there are `k` cores to a cache, but
the offset grows by the number of threads, if these are fewer. -/
def cacheOffset (k : ℕ) (cores : List (List Int)) : ℕ → ℕ
  | 0 => 0
  | j + 1 => cacheOffset k cores j + min (cores.drop (cacheOffset k cores j)).flatten.length k

/-- The threads in the cpuset from the `j`-th cache of socket `i` on -/
def cacheCores (topo : CpuTopology) (i j : ℕ) : List (List Int) :=
  (selectedCores topo i).drop (cacheOffset (lastLevelCores topo) (selectedCores topo i) j)

/-- The entry of the `j`-th cache of socket `i` -/
def cacheEntry (topo : CpuTopology) (i j : ℕ) : AffinityDomain where
  tag := 'C' :: Text.decimal (i * lastLevelsPerSocket topo + j)
  numberOfProcessors := (walk (cacheCores topo i j) (lastLevelThreads topo)).length
  numberOfCores := lastLevelCores topo
  size := lastLevelThreads topo
  processorList := writeEntries 0 (walk (cacheCores topo i j) (lastLevelThreads topo))
    fun _ => none

/-- The number of processors of a NUMA node; one that is not there has none. -/
def nodeProcessors (numa : NumaTopology) (k : ℕ) : ℕ :=
  (numa.nodes[k]?.map (·.numberOfProcessors.toNat)).getD 0

/-- The core where the `j`-th of the nodes of a socket begins, which are those from `first`
on. -/
def memoryOffset (topo : CpuTopology) (numa : NumaTopology) (first : ℕ) : ℕ → ℕ
  | 0 => 0
  | j + 1 => memoryOffset topo numa first j +
      nodeProcessors numa (first + j) / topo.numThreadsPerCore.toNat

/-- The threads in the cpuset from the `j`-th node of socket `i` on, when there are `n` nodes
to a socket. -/
def memoryCores (topo : CpuTopology) (numa : NumaTopology) (n i j : ℕ) : List (List Int) :=
  (selectedCores topo i).drop (memoryOffset topo numa (i * n) j)

/-- The entry of the `j`-th node of socket `i` -/
def memoryEntry (topo : CpuTopology) (numa : NumaTopology) (n i j : ℕ) : AffinityDomain where
  tag := 'M' :: Text.decimal (i * n + j)
  numberOfProcessors := (walk (memoryCores topo numa n i j)
    (nodeProcessors numa (i * n + j))).length
  numberOfCores := nodeProcessors numa (i * n + j) / topo.numThreadsPerCore.toNat
  size := nodeProcessors numa (i * n + j)
  processorList := writeEntries 0 (walk (memoryCores topo numa n i j)
    (nodeProcessors numa (i * n + j))) fun _ => none

/-- The entries of `n` groups of each of the first `i` sockets, and of `j` of the next -/
def entries (entry : ℕ → ℕ → AffinityDomain) (n i j : ℕ) : List AffinityDomain :=
  ((List.range i).flatMap fun i => (List.range n).map (entry i)) ++ (List.range j).map (entry i)

theorem length_entries (entry : ℕ → ℕ → AffinityDomain) (n i j : ℕ) :
    (entries entry n i j).length = i * n + j := by
  rw [entries, List.length_append, List.length_map, List.length_range]
  congr 1
  induction i with
  | zero => rw [List.range_zero, Nat.zero_mul]; rfl
  | succ i ih =>
      rw [List.range_succ, List.flatMap_append, List.length_append, ih, List.flatMap_singleton,
        List.length_map, List.length_range, Nat.succ_mul]

theorem entries_succ (entry : ℕ → ℕ → AffinityDomain) (n i j : ℕ) :
    entries entry n i (j + 1) = entries entry n i j ++ [entry i j] := by
  rw [entries, List.range_succ, List.map_append, ← List.append_assoc]
  rfl

theorem entries_next (entry : ℕ → ℕ → AffinityDomain) (n i : ℕ) :
    entries entry n (i + 1) 0 = entries entry n i n := by
  rw [entries, entries, List.range_succ, List.flatMap_append, List.range_zero, List.map_nil,
    List.append_nil, List.flatMap_singleton]

/-! ## The loops -/

variable {numa : NumaTopology}

theorem setNodes_some (i : ℕ) {ids : List Int} (h : ∀ id ∈ ids, 0 ≤ id ∧ id < maxNumThreads)
    (core2node : ℕ → Int) : ∃ c, ids.foldlM (setNode i) core2node = some c := by
  induction ids generalizing core2node with
  | nil => exact ⟨core2node, rfl⟩
  | cons id ids ih =>
      rw [List.foldlM_cons, setNode, if_pos (h id List.mem_cons_self)]
      exact ih (fun id' hid' => h id' (List.mem_cons_of_mem _ hid')) _

theorem mem_of_mem_walk {i : ℕ} (offset : ℕ) {n id : Int}
    (h : id ∈ walk ((selectedCores topo i).drop offset) n) :
    id ∈ (coresOf topo.topologyTree i).flatten := by
  have hflat := (walk_isPrefix _ _).mem h
  obtain ⟨ids, hids, hmem⟩ := List.mem_flatten.mp hflat
  obtain ⟨core, hcore, rfl⟩ := List.mem_map.mp (List.mem_of_mem_drop hids)
  exact List.mem_flatten.mpr ⟨core, hcore, List.mem_of_mem_filter hmem⟩

theorem treeFillNextEntries_socket (h : topo.Consistent) {i : ℕ}
    (hi : i ≤ topo.numSockets.toNat) :
    treeFillNextEntries topo.threadPool topo.topologyTree i 0
        (domainCounts topo numa).numberOfProcessorsPerSocket =
      some (socketWalk topo i, ((socketWalk topo i).length : Int)) := by
  rw [treeFillNextEntries_eq h hi, if_pos (Nat.zero_le _), List.drop_zero]
  rfl

theorem socketDomain_filled (numa : NumaTopology) (h : topo.Consistent)
    (as : List AffinityDomain) (size : ℕ) {i : ℕ}
    (hi : i < topo.numSockets.toNat) (has : 1 + i = as.length) (hsize : 1 + i < size)
    (core2node : ℕ → Int) :
    ∃ c, socketDomain topo (domainCounts topo numa) ⟨Slots.filled as size, core2node⟩ i =
      some ⟨Slots.filled (as ++ [socketEntry topo i]) size, c⟩ := by
  have hids : ∀ id ∈ (socketWalk topo i).take (socketEntry topo i).numberOfProcessors,
      0 ≤ id ∧ id < maxNumThreads := by
    intro id hid
    obtain ⟨hge, hlt⟩ := h.index i id (mem_of_mem_walk 0 (List.mem_of_mem_take hid))
    have hle := h.length_le
    exact ⟨hge, by omega⟩
  obtain ⟨c, hc⟩ := setNodes_some i hids core2node
  refine ⟨c, ?_⟩
  rw [socketDomain, treeFillNextEntries_socket h hi.le]
  show (List.foldlM (setNode i) core2node _).bind _ = _
  refine Option.bind_eq_some_iff.mpr ⟨c, hc, ?_⟩
  show (Slots.put (1 + i) (socketEntry topo i) (Slots.filled as size)).bind _ = _
  rw [Slots.put_filled _ has hsize]
  rfl

theorem socketDomains_spec (numa : NumaTopology) (h : topo.Consistent) (node : AffinityDomain)
    {size : ℕ}
    (hsize : 1 + topo.numSockets.toNat ≤ size) (core2node : ℕ → Int) :
    ∃ c, Slots.loop topo.numSockets.toNat (socketDomain topo (domainCounts topo numa))
        ⟨Slots.filled [node] size, core2node⟩ =
      some ⟨Slots.filled (node :: (List.range topo.numSockets.toNat).map (socketEntry topo)) size,
        c⟩ := by
  obtain ⟨s, hrun, hs⟩ := Slots.loop_spec (socketDomain topo (domainCounts topo numa))
    (fun i s => s.domains = Slots.filled (node :: (List.range i).map (socketEntry topo)) size)
    (n := topo.numSockets.toNat) (s := ⟨Slots.filled [node] size, core2node⟩) rfl
    (fun i hi s hs => by
      obtain ⟨c, hc⟩ := socketDomain_filled numa h
        (node :: (List.range i).map (socketEntry topo)) size hi
        (by simp [Nat.add_comm]) (by omega) s.core2node
      rw [← hs] at hc
      refine ⟨_, hc, ?_⟩
      rw [List.range_succ, List.map_append]
      rfl)
  exact ⟨s.core2node, by rw [hrun, ← hs]⟩

theorem cacheOffset_step (cores : List (List Int)) {k n : ℕ} (hk : k ≤ n) :
    (if ((walk cores n).length : Int) < k then ((walk cores n).length : Int).toNat else k) =
      min cores.flatten.length k := by
  rw [← min_walk cores hk, Int.toNat_natCast]
  split
  · omega
  · omega

/-- One round of the loop over the caches of a socket -/
theorem cacheDomain_filled (h : topo.Consistent) {as : List AffinityDomain} {size i j : ℕ}
    (hi : i < topo.numSockets.toNat)
    (has : 1 + topo.numSockets.toNat + (i * lastLevelsPerSocket topo + j) = as.length)
    (hsize : 1 + topo.numSockets.toNat + (i * lastLevelsPerSocket topo + j) < size) (j' : ℕ) :
    cacheDomain topo (domainCounts topo numa) i
        ⟨cacheOffset (lastLevelCores topo) (selectedCores topo i) j,
          i * lastLevelsPerSocket topo + j, Slots.filled as size⟩ j' =
      if cacheOffset (lastLevelCores topo) (selectedCores topo i) j ≤
          (selectedCores topo i).length then
        some ⟨cacheOffset (lastLevelCores topo) (selectedCores topo i) (j + 1),
          i * lastLevelsPerSocket topo + (j + 1),
          Slots.filled (as ++ [cacheEntry topo i j]) size⟩
      else none := by
  rw [cacheDomain, treeFillNextEntries_eq h hi.le]
  split
  · show (Slots.put (1 + topo.numSockets.toNat + (i * lastLevelsPerSocket topo + j))
      (cacheEntry topo i j) (Slots.filled as size)).bind _ = _
    rw [Slots.put_filled _ has hsize]
    have hle : lastLevelCores topo ≤ lastLevelThreads topo := Nat.div_le_self _ _
    have hstep := cacheOffset_step (cacheCores topo i j) hle
    show some _ = some _
    rw [cacheOffset]
    exact congrArg (fun o => some (⟨_ + o, _, _⟩ : GroupFill)) hstep
  · rfl

/-- The loops over the sockets and over the groups of each, where `ok` says that a round
does not fail. -/
structure GroupLoop (sockets n size : ℕ) (pre : List AffinityDomain)
    (body : ℕ → GroupFill → ℕ → Option GroupFill) (offset : ℕ → ℕ → ℕ)
    (entry : ℕ → ℕ → AffinityDomain) (ok : ℕ → ℕ → Prop) : Prop where
  offset_zero : ∀ i, offset i 0 = 0
  round : ∀ i < sockets, ∀ j < n, ok i j →
    body i ⟨offset i j, i * n + j, Slots.filled (pre ++ entries entry n i j) size⟩ j =
      some ⟨offset i (j + 1), i * n + (j + 1),
        Slots.filled (pre ++ entries entry n i (j + 1)) size⟩
  fail : ∀ i < sockets, ∀ j < n, ¬ok i j →
    body i ⟨offset i j, i * n + j, Slots.filled (pre ++ entries entry n i j) size⟩ j = none

namespace GroupLoop

variable {sockets n size : ℕ} {pre : List AffinityDomain}
  {body : ℕ → GroupFill → ℕ → Option GroupFill} {offset : ℕ → ℕ → ℕ}
  {entry : ℕ → ℕ → AffinityDomain} {ok : ℕ → ℕ → Prop}

theorem socket (g : GroupLoop sockets n size pre body offset entry ok) {i m : ℕ}
    (hi : i < sockets) (hm : m ≤ n) (hok : ∀ j < m, ok i j) :
    Slots.loop m (body i) ⟨0, i * n, Slots.filled (pre ++ entries entry n i 0) size⟩ =
      some ⟨offset i m, i * n + m, Slots.filled (pre ++ entries entry n i m) size⟩ := by
  obtain ⟨s, hrun, rfl⟩ := Slots.loop_spec (body i)
    (fun j s => s = ⟨offset i j, i * n + j,
      Slots.filled (pre ++ entries entry n i j) size⟩)
    (n := m) (s := ⟨0, i * n, Slots.filled (pre ++ entries entry n i 0) size⟩)
    (by rw [g.offset_zero]; rfl)
    (fun j hj s hs => ⟨_, hs ▸ g.round i hi j (hj.trans_le hm) (hok j hj), rfl⟩)
  exact hrun

theorem socket_eq_none (g : GroupLoop sockets n size pre body offset entry ok) {i : ℕ}
    (hi : i < sockets) (hfail : ∃ j < n, ¬ok i j) :
    Slots.loop n (body i) ⟨0, i * n, Slots.filled (pre ++ entries entry n i 0) size⟩ = none := by
  classical
  have hfind := Nat.find_spec hfail
  refine Slots.loop_eq_none_of_le (Nat.succ_le_of_lt hfind.1) ?_
  have hok : ∀ j < Nat.find hfail, ok i j := by
    intro j hj
    by_contra hno
    exact Nat.find_min hfail hj ⟨hj.trans hfind.1, hno⟩
  rw [Slots.loop_succ, g.socket hi hfind.1.le hok]
  exact g.fail i hi _ hfind.1 hfind.2

theorem sockets_spec (g : GroupLoop sockets n size pre body offset entry ok) {m : ℕ}
    (hm : m ≤ sockets) (hok : ∀ i < m, ∀ j < n, ok i j) :
    ∃ o, Slots.loop m (fun s i => Slots.loop n (body i) { s with offset := 0 })
        ⟨0, 0, Slots.filled pre size⟩ =
      some ⟨o, m * n, Slots.filled (pre ++ entries entry n m 0) size⟩ := by
  obtain ⟨s, hrun, o, rfl⟩ := Slots.loop_spec
    (fun s i => Slots.loop n (body i) { s with offset := 0 })
    (fun i s => ∃ o, s = ⟨o, i * n, Slots.filled (pre ++ entries entry n i 0) size⟩)
    (n := m) (s := ⟨0, 0, Slots.filled pre size⟩)
    ⟨0, by rw [Nat.zero_mul, show entries entry n 0 0 = [] from rfl, List.append_nil]⟩
    (fun i hi s hs => by
      obtain ⟨o, rfl⟩ := hs
      refine ⟨_, g.socket (hi.trans_le hm) le_rfl (hok i hi), offset i n, ?_⟩
      rw [entries_next, Nat.succ_mul])
  exact ⟨o, hrun⟩

theorem sockets_eq_none (g : GroupLoop sockets n size pre body offset entry ok)
    (hfail : ∃ i < sockets, ∃ j < n, ¬ok i j) :
    Slots.loop sockets (fun s i => Slots.loop n (body i) { s with offset := 0 })
        ⟨0, 0, Slots.filled pre size⟩ = none := by
  classical
  obtain ⟨hlt, hno⟩ := Nat.find_spec hfail
  refine Slots.loop_eq_none_of_le (Nat.succ_le_of_lt hlt) ?_
  have hok : ∀ i < Nat.find hfail, ∀ j < n, ok i j := by
    intro i hi j hj
    by_contra hno
    exact Nat.find_min hfail hi ⟨hi.trans hlt, j, hj, hno⟩
  obtain ⟨o, hrun⟩ := g.sockets_spec hlt.le hok
  rw [Slots.loop_succ, hrun]
  exact g.socket_eq_none hlt hno

end GroupLoop

/-! ## The node domain and the only memory domain -/

/-- The first `m` sockets in a list of their threads, one behind the other -/
def nodeList (topo : CpuTopology) : ℕ → ℕ × (ℕ → Option Int)
  | 0 => (0, fun _ => none)
  | m + 1 => ((nodeList topo m).1 + (socketWalk topo m).length,
      writeEntries (nodeList topo m).1 (socketWalk topo m) (nodeList topo m).2)

/-- The entry of the node -/
def nodeEntry (topo : CpuTopology) : AffinityDomain where
  tag := ['N']
  numberOfProcessors :=
    if 1 < topo.numSockets.toNat then topo.activeHWThreads.toNat
    else (walk (selectedCores topo 0) topo.activeHWThreads.toNat).length
  numberOfCores := topo.numSockets.toNat * topo.numCoresPerSocket.toNat
  size := topo.numHWThreads.toNat
  processorList :=
    if 1 < topo.numSockets.toNat then (nodeList topo topo.numSockets.toNat).2
    else writeEntries 0 (walk (selectedCores topo 0) topo.activeHWThreads.toNat) fun _ => none

/-- The first `m` sockets in the list of the only memory domain, each at its own place, and
the number of their threads. -/
def memoryList (topo : CpuTopology) : ℕ → ℕ × (ℕ → Option Int)
  | 0 => (0, fun _ => none)
  | m + 1 => ((memoryList topo m).1 + (socketWalk topo m).length,
      writeEntries (m * processorsPerSocket topo) (socketWalk topo m) (memoryList topo m).2)

/-- The entry of the only memory domain -/
def onlyMemoryEntry (topo : CpuTopology) : AffinityDomain where
  tag := 'M' :: Text.decimal 0
  numberOfProcessors := (memoryList topo topo.numSockets.toNat).1
  numberOfCores :=
    processorsPerSocket topo * topo.numSockets.toNat / topo.numThreadsPerCore.toNat
  size := processorsPerSocket topo * topo.numSockets.toNat
  processorList := (memoryList topo topo.numSockets.toNat).2

theorem nodeDomain_eq (h : topo.Consistent) :
    nodeDomain topo (domainCounts topo numa) = some (nodeEntry topo) := by
  rw [nodeDomain, show (domainCounts topo numa).numberOfSocketDomains = topo.numSockets.toNat
    from rfl]
  split
  · next hlt =>
      obtain ⟨s, hrun, rfl⟩ := Slots.loop_spec (fillNode topo (domainCounts topo numa))
        (fun i s => s = nodeList topo i) (n := topo.numSockets.toNat)
        (s := (0, fun _ => none)) rfl
        (fun i hi s hs => by
          subst hs
          refine ⟨_, ?_, rfl⟩
          rw [fillNode, treeFillNextEntries_socket h hi.le]
          rfl)
      rw [hrun, nodeEntry, if_pos hlt, if_pos hlt]
      rfl
  · next hle =>
      rw [treeFillNextEntries_eq h (Nat.zero_le _), if_pos (Nat.zero_le _), List.drop_zero,
        nodeEntry, if_neg hle, if_neg hle]
      rfl

theorem fillMemory_loop (h : topo.Consistent) :
    Slots.loop topo.numSockets.toNat (fillMemory topo (domainCounts topo numa))
        (0, 0, fun _ => none) =
      some (topo.numSockets.toNat * processorsPerSocket topo,
        memoryList topo topo.numSockets.toNat) := by
  obtain ⟨s, hrun, rfl⟩ := Slots.loop_spec (fillMemory topo (domainCounts topo numa))
    (fun i s => s = (i * processorsPerSocket topo, memoryList topo i))
    (n := topo.numSockets.toNat) (s := (0, 0, fun _ => none)) (by rw [Nat.zero_mul]; rfl)
    (fun i hi s hs => by
      subst hs
      refine ⟨_, ?_, rfl⟩
      rw [Nat.succ_mul, fillMemory, treeFillNextEntries_socket h hi.le]
      rfl)
  exact hrun

/-! ## The whole table -/

theorem group_lt {i j n sockets : ℕ} (hi : i < sockets) (hj : j < n) :
    i * n + j < sockets * n := by
  have hle : (i + 1) * n ≤ sockets * n := Nat.mul_le_mul_right n hi
  rw [Nat.succ_mul] at hle
  omega

/-- The entries of the node and of the sockets -/
def socketEntries (topo : CpuTopology) : List AffinityDomain :=
  nodeEntry topo :: (List.range topo.numSockets.toNat).map (socketEntry topo)

theorem length_socketEntries : (socketEntries topo).length = 1 + topo.numSockets.toNat := by
  rw [socketEntries, List.length_cons, List.length_map, List.length_range, Nat.add_comm]

/-- The `j`-th cache of socket `i` begins at a core or behind the last. -/
def CacheStart (topo : CpuTopology) (i j : ℕ) : Prop :=
  cacheOffset (lastLevelCores topo) (selectedCores topo i) j ≤
    (coresOf topo.topologyTree i).length

/-- The `j`-th of `n` nodes of socket `i` begins at a core or behind the last. -/
def MemoryStart (topo : CpuTopology) (numa : NumaTopology) (n i j : ℕ) : Prop :=
  memoryOffset topo numa (i * n) j ≤ (coresOf topo.topologyTree i).length

theorem length_selectedCores (i : ℕ) :
    (selectedCores topo i).length = (coresOf topo.topologyTree i).length := List.length_map ..

theorem cacheLoop (numa : NumaTopology) (h : topo.Consistent) {size : ℕ}
    (hsize : 1 + topo.numSockets.toNat + topo.numSockets.toNat * lastLevelsPerSocket topo ≤
      size) :
    GroupLoop topo.numSockets.toNat (lastLevelsPerSocket topo) size (socketEntries topo)
      (cacheDomain topo (domainCounts topo numa))
      (fun i => cacheOffset (lastLevelCores topo) (selectedCores topo i)) (cacheEntry topo)
      (CacheStart topo) where
  offset_zero _ := rfl
  round i hi j hj hok := by
    have hlt := group_lt hi hj
    rw [cacheDomain_filled h hi
      (by rw [List.length_append, length_socketEntries, length_entries]) (by omega),
      length_selectedCores, if_pos (show _ ≤ _ from hok), List.append_assoc, ← entries_succ]
  fail i hi j hj hok := by
    have hlt := group_lt hi hj
    rw [cacheDomain_filled h hi
      (by rw [List.length_append, length_socketEntries, length_entries]) (by omega),
      length_selectedCores, if_neg (show ¬_ ≤ _ from hok)]

/-- Where the memory domains begin in the table -/
def memoryBase (topo : CpuTopology) : ℕ :=
  1 + topo.numSockets.toNat + topo.numSockets.toNat * lastLevelsPerSocket topo

/-- The entries of the node, of the sockets and of the caches -/
def cacheEntries (topo : CpuTopology) : List AffinityDomain :=
  socketEntries topo ++ entries (cacheEntry topo) (lastLevelsPerSocket topo)
    topo.numSockets.toNat 0

theorem length_cacheEntries : (cacheEntries topo).length = memoryBase topo := by
  rw [cacheEntries, List.length_append, length_socketEntries, length_entries]
  rfl

theorem nodeProcessors_eq {k : ℕ} {node : NumaNode} (hk : numa.nodes[k]? = some node) :
    nodeProcessors numa k = node.numberOfProcessors.toNat := by
  rw [nodeProcessors, hk]
  rfl

theorem memoryLoop (numa : NumaTopology) (h : topo.Consistent)
    (hthreads : topo.numThreadsPerCore.toNat ≠ 0) (n : ℕ) :
    GroupLoop topo.numSockets.toNat n (memoryBase topo + numa.nodes.length) (cacheEntries topo)
      (memoryDomain topo (domainCounts topo numa) numa)
      (fun i => memoryOffset topo numa (i * n)) (memoryEntry topo numa n)
      (fun i j => i * n + j < numa.nodes.length ∧ MemoryStart topo numa n i j) where
  offset_zero _ := rfl
  round i hi j hj hok := by
    obtain ⟨hlt, hstart⟩ := hok
    have hget := List.getElem?_eq_getElem hlt
    rw [memoryDomain, hget]
    show (divide _ _).bind _ = _
    rw [divide, if_neg hthreads, ← nodeProcessors_eq hget]
    show (treeFillNextEntries _ _ i (memoryOffset topo numa (i * n) j) _).bind _ = _
    rw [treeFillNextEntries_eq h hi.le, length_selectedCores,
      if_pos (show _ ≤ _ from hstart)]
    show (Slots.put (memoryBase topo + (i * n + j)) (memoryEntry topo numa n i j) _).bind _ = _
    rw [Slots.put_filled _ (by rw [List.length_append, length_cacheEntries, length_entries])
      (by omega), List.append_assoc, ← entries_succ]
    rfl
  fail i hi j hj hok := by
    rw [memoryDomain]
    by_cases hlt : i * n + j < numa.nodes.length
    · have hget := List.getElem?_eq_getElem hlt
      have hstart : ¬MemoryStart topo numa n i j := fun hstart => hok ⟨hlt, hstart⟩
      rw [hget]
      show (divide _ _).bind _ = _
      rw [divide, if_neg hthreads, ← nodeProcessors_eq hget]
      show (treeFillNextEntries _ _ i (memoryOffset topo numa (i * n) j) _).bind _ = _
      rw [treeFillNextEntries_eq h hi.le, length_selectedCores,
        if_neg (show ¬_ ≤ _ from hstart)]
      rfl
    · rw [List.getElem?_eq_none (not_lt.mp hlt)]
      rfl

/-- The number of NUMA nodes of a socket, rounded up -/
def nodesPerSocket (topo : CpuTopology) (numa : NumaTopology) : ℕ :=
  ceilDiv numa.numberOfNodes.toNat topo.numSockets.toNat

/-- The nodes are dealt out to the sockets. -/
def DealsNodes (topo : CpuTopology) (numa : NumaTopology) : Prop :=
  topo.numSockets.toNat ≤ numa.numberOfNodes.toNat ∧ 1 < numa.numberOfNodes.toNat

theorem memoryDomains_deals (hdeals : DealsNodes topo numa)
    (domains : List (Option AffinityDomain)) :
    memoryDomains topo (domainCounts topo numa) numa domains =
      (Slots.loop topo.numSockets.toNat (fun s i => Slots.loop (nodesPerSocket topo numa)
        (memoryDomain topo (domainCounts topo numa) numa i) { s with offset := 0 })
        ⟨0, 0, domains⟩).map (·.domains) :=
  if_pos hdeals

theorem memoryDomains_dealt (h : topo.Consistent) (hthreads : topo.numThreadsPerCore.toNat ≠ 0)
    (hdeals : DealsNodes topo numa)
    (hok : ∀ i < topo.numSockets.toNat, ∀ j < nodesPerSocket topo numa,
      i * nodesPerSocket topo numa + j < numa.nodes.length ∧
        MemoryStart topo numa (nodesPerSocket topo numa) i j) :
    memoryDomains topo (domainCounts topo numa) numa
        (Slots.filled (cacheEntries topo) (memoryBase topo + numa.nodes.length)) =
      some (Slots.filled (cacheEntries topo ++
        entries (memoryEntry topo numa (nodesPerSocket topo numa)) (nodesPerSocket topo numa)
          topo.numSockets.toNat 0) (memoryBase topo + numa.nodes.length)) := by
  obtain ⟨o, hrun⟩ := (memoryLoop numa h hthreads _).sockets_spec le_rfl hok
  rw [memoryDomains_deals hdeals, hrun]
  rfl

theorem memoryDomains_eq_none (h : topo.Consistent) (hthreads : topo.numThreadsPerCore.toNat ≠ 0)
    (hdeals : DealsNodes topo numa)
    (hfail : ∃ i < topo.numSockets.toNat, ∃ j < nodesPerSocket topo numa,
      ¬(i * nodesPerSocket topo numa + j < numa.nodes.length ∧
        MemoryStart topo numa (nodesPerSocket topo numa) i j)) :
    memoryDomains topo (domainCounts topo numa) numa
        (Slots.filled (cacheEntries topo) (memoryBase topo + numa.nodes.length)) = none := by
  have hnone := (memoryLoop numa h hthreads (nodesPerSocket topo numa)).sockets_eq_none
    hfail
  rw [memoryDomains_deals hdeals, hnone]
  rfl

/-- Otherwise there is one memory domain, for which there may be no room. -/
theorem memoryDomains_only (h : topo.Consistent) (hthreads : topo.numThreadsPerCore.toNat ≠ 0)
    (hdeals : ¬DealsNodes topo numa) :
    memoryDomains topo (domainCounts topo numa) numa
        (Slots.filled (cacheEntries topo) (memoryBase topo + numa.nodes.length)) =
      if numa.nodes.length = 0 then none
      else some (Slots.filled (cacheEntries topo ++ [onlyMemoryEntry topo])
        (memoryBase topo + numa.nodes.length)) := by
  have hput : memoryDomains topo (domainCounts topo numa) numa
      (Slots.filled (cacheEntries topo) (memoryBase topo + numa.nodes.length)) =
      Slots.put (memoryBase topo) (onlyMemoryEntry topo)
        (Slots.filled (cacheEntries topo) (memoryBase topo + numa.nodes.length)) := by
    rw [memoryDomains]
    refine (if_neg hdeals).trans ?_
    show (divide _ _).bind _ = _
    rw [divide, if_neg hthreads]
    show (Slots.loop topo.numSockets.toNat _ _).bind _ = _
    rw [fillMemory_loop h]
    rfl
  rw [hput]
  split
  · next hzero =>
      exact Slots.put_full _ (by rw [length_cacheEntries]; omega) (by omega)
  · exact Slots.put_filled _ length_cacheEntries.symm (by omega)

/-! ## The run -/

/-- The run up to the cache domains -/
theorem affinityInit_sockets (h : topo.Consistent) (hcores : 0 < lastLevelCores topo)
    (hlen : numa.nodes.length = numa.numberOfNodes.toNat) (core2node : ℕ → Int) :
    ∃ c, affinityInit topo numa core2node =
      (Slots.loop topo.numSockets.toNat (cacheDomains topo (domainCounts topo numa))
        ⟨0, 0, Slots.filled (socketEntries topo) (memoryBase topo + numa.nodes.length)⟩).bind
        fun caches => (memoryDomains topo (domainCounts topo numa) numa caches.domains).map
          fun domains => ({ domainCounts topo numa with domains }, c) := by
  have hsize : 1 + (topo.numSockets.toNat + topo.numSockets.toNat * lastLevelsPerSocket topo +
      numa.numberOfNodes.toNat) = memoryBase topo + numa.nodes.length := by
    rw [memoryBase, hlen]
    omega
  have hput : Slots.put 0 (nodeEntry topo) (domainCounts topo numa).domains =
      some (Slots.filled [nodeEntry topo] (memoryBase topo + numa.nodes.length)) := by
    have hpos : 0 < memoryBase topo + numa.nodes.length := by
      rw [memoryBase]
      omega
    rw [← List.nil_append [nodeEntry topo], ← Slots.put_filled (nodeEntry topo) rfl hpos,
      Slots.filled_nil, ← hsize]
    rfl
  obtain ⟨c, hsockets⟩ := socketDomains_spec numa h (nodeEntry topo)
    (show _ ≤ memoryBase topo + numa.nodes.length by rw [memoryBase]; omega) core2node
  refine ⟨c, ?_⟩
  rw [affinityInit, countDomains_eq, if_pos hcores]
  show (nodeDomain topo (domainCounts topo numa)).bind _ = _
  rw [nodeDomain_eq h]
  show (Slots.put 0 (nodeEntry topo) (domainCounts topo numa).domains).bind _ = _
  rw [hput]
  show (Slots.loop topo.numSockets.toNat (socketDomain topo (domainCounts topo numa)) _).bind _ = _
  rw [hsockets]
  show (Slots.loop topo.numSockets.toNat (cacheDomains topo (domainCounts topo numa)) _).bind _ =
    _
  congr 1
  funext caches
  cases memoryDomains topo (domainCounts topo numa) numa caches.domains with
  | none => rfl
  | some domains => rfl

theorem cacheDomains_loop (s : GroupFill) :
    Slots.loop topo.numSockets.toNat (cacheDomains topo (domainCounts topo numa)) s =
      Slots.loop topo.numSockets.toNat (fun s i => Slots.loop (lastLevelsPerSocket topo)
        (cacheDomain topo (domainCounts topo numa) i) { s with offset := 0 }) s := by
  rcases Nat.eq_zero_or_pos topo.numSockets.toNat with hzero | hpos
  · rw [hzero, Slots.loop_zero, Slots.loop_zero]
  · have hdiv : (domainCounts topo numa).numberOfCacheDomains /
        (domainCounts topo numa).numberOfSocketDomains = lastLevelsPerSocket topo :=
      Nat.mul_div_cancel_left _ hpos
    congr 1
    funext s i
    rw [cacheDomains, hdiv]

theorem affinityInit_caches (h : topo.Consistent) (hcores : 0 < lastLevelCores topo)
    (hlen : numa.nodes.length = numa.numberOfNodes.toNat)
    (hcaches : ∀ i < topo.numSockets.toNat, ∀ j < lastLevelsPerSocket topo, CacheStart topo i j)
    (core2node : ℕ → Int) :
    ∃ c, affinityInit topo numa core2node =
      (memoryDomains topo (domainCounts topo numa) numa
        (Slots.filled (cacheEntries topo) (memoryBase topo + numa.nodes.length))).map
        fun domains => ({ domainCounts topo numa with domains }, c) := by
  obtain ⟨c, hrun⟩ := affinityInit_sockets h hcores hlen core2node
  obtain ⟨o, hloop⟩ := (cacheLoop numa h
    (Nat.le_add_right (memoryBase topo) numa.nodes.length)).sockets_spec le_rfl
    hcaches
  exact ⟨c, by rw [hrun, cacheDomains_loop, hloop]; rfl⟩

/-- Without a core at the begin of a cache, a null pointer is dereferenced. -/
theorem affinityInit_eq_none (h : topo.Consistent)
    (hlen : numa.nodes.length = numa.numberOfNodes.toNat)
    (hfail : ∃ i < topo.numSockets.toNat, ∃ j < lastLevelsPerSocket topo, ¬CacheStart topo i j)
    (core2node : ℕ → Int) : affinityInit topo numa core2node = none := by
  rcases Nat.eq_zero_or_pos (lastLevelCores topo) with hzero | hcores
  · rw [affinityInit, countDomains_eq, hzero]
    rfl
  · obtain ⟨c, hrun⟩ := affinityInit_sockets h hcores hlen core2node
    rw [hrun, cacheDomains_loop, (cacheLoop numa h
      (Nat.le_add_right (memoryBase topo) numa.nodes.length)).sockets_eq_none hfail]
    rfl

/-! ## The table is initialised -/

theorem entries_tags {entry : ℕ → ℕ → AffinityDomain} {n : ℕ} {t : Char}
    (h : ∀ i j, (entry i j).tag = t :: Text.decimal (i * n + j)) (i j : ℕ) :
    (entries entry n i j).map (·.tag) = (List.range (i * n + j)).map (t :: Text.decimal ·) := by
  induction i generalizing j with
  | zero =>
      induction j with
      | zero => rw [Nat.zero_mul]; rfl
      | succ j ih =>
          rw [entries_succ, List.map_append, ih, ← Nat.add_assoc, List.range_succ,
            List.map_append, List.map_singleton, List.map_singleton, h]
  | succ i ih =>
      induction j with
      | zero =>
          rw [entries_next, ih, Nat.succ_mul, Nat.add_zero]
      | succ j ih' =>
          rw [entries_succ, List.map_append, ih', ← Nat.add_assoc, List.range_succ,
            List.map_append, List.map_singleton, List.map_singleton, h]

theorem nodup_tags (t : Char) (n : ℕ) : ((List.range n).map (t :: Text.decimal ·)).Nodup := by
  refine List.Nodup.map (fun i j heq => ?_) List.nodup_range
  have hread := congrArg Text.readNat (List.cons.inj heq).2
  rw [Text.readNat_decimal, Text.readNat_decimal] at hread
  exact hread

theorem head_of_mem_tags {t : Char} {n : ℕ} {tag : List Char}
    (h : tag ∈ (List.range n).map (t :: Text.decimal ·)) : tag.head? = some t := by
  obtain ⟨i, -, rfl⟩ := List.mem_map.mp h
  rfl

/-- Tags of different kinds are distinct. -/
theorem nodup_allTags (s c m : ℕ) :
    ((['N'] :: (List.range s).map ('S' :: Text.decimal ·)) ++
      (List.range c).map ('C' :: Text.decimal ·) ++
        (List.range m).map ('M' :: Text.decimal ·)).Nodup := by
  have hnode : (['N'] :: (List.range s).map ('S' :: Text.decimal ·)).Nodup :=
    List.nodup_cons.mpr ⟨fun hmem => absurd (head_of_mem_tags hmem) (by decide), nodup_tags 'S' s⟩
  have hhead : ∀ tag ∈ ['N'] :: (List.range s).map ('S' :: Text.decimal ·),
      tag.head? = some 'N' ∨ tag.head? = some 'S' := by
    intro tag htag
    rcases List.mem_cons.mp htag with rfl | hmem
    · exact Or.inl rfl
    · exact Or.inr (head_of_mem_tags hmem)
  refine List.nodup_append.mpr ⟨List.nodup_append.mpr ⟨hnode, nodup_tags 'C' c, ?_⟩,
    nodup_tags 'M' m, ?_⟩
  · rintro tag htag tag' htag' rfl
    have hcache := head_of_mem_tags htag'
    rcases hhead tag htag with heq | heq <;> rw [heq] at hcache <;> cases hcache
  · rintro tag htag tag' htag' rfl
    have hmemory := head_of_mem_tags htag'
    rcases List.mem_append.mp htag with hmem | hmem
    · rcases hhead tag hmem with heq | heq <;> rw [heq] at hmemory <;> cases hmemory
    · rw [head_of_mem_tags hmem] at hmemory
      cases hmemory

theorem cacheEntries_tags :
    (cacheEntries topo).map (·.tag) =
      (['N'] :: (List.range topo.numSockets.toNat).map ('S' :: Text.decimal ·)) ++
        (List.range (topo.numSockets.toNat * lastLevelsPerSocket topo + 0)).map
          ('C' :: Text.decimal ·) := by
  rw [cacheEntries, List.map_append, entries_tags fun i j => rfl, socketEntries, List.map_cons,
    List.map_map]
  rfl

/-- The nodes are one, or a multiple of the sockets; and the caches and the nodes of a socket
begin at its cores or behind the last. -/
structure RegularMachine (topo : CpuTopology) (numa : NumaTopology) : Prop where
  lastLevel : 0 < lastLevelCores topo
  nodes : numa.nodes.length = 1 ∨ 0 < numa.nodes.length ∧ topo.numSockets.toNat ∣ numa.nodes.length
  caches : ∀ i < topo.numSockets.toNat, ∀ j < lastLevelsPerSocket topo, CacheStart topo i j
  memory : 1 < numa.nodes.length → ∀ i < topo.numSockets.toNat,
    ∀ j < numa.nodes.length / topo.numSockets.toNat,
      MemoryStart topo numa (numa.nodes.length / topo.numSockets.toNat) i j

theorem filled_eq_map {ds : List AffinityDomain} {size : ℕ} (h : ds.length ≤ size) :
    (∃ ds' : List AffinityDomain, Slots.filled ds size = ds'.map some) ↔ ds.length = size := by
  constructor
  · rintro ⟨ds', heq⟩
    refine (Slots.filled_complete h).mp fun i hi => ?_
    have hlen := congrArg List.length heq
    rw [Slots.length_filled h, List.length_map] at hlen
    exact ⟨ds'[i], by rw [heq, List.getElem?_map, List.getElem?_eq_getElem]; rfl⟩
  · rintro rfl
    exact ⟨ds, by rw [Slots.filled, Nat.sub_self, List.replicate_zero, List.append_nil]⟩

theorem ceilDiv_of_dvd {n d : ℕ} (hd : 0 < d) (h : d ∣ n) : ceilDiv n d = n / d := by
  obtain ⟨m, rfl⟩ := h
  rw [ceilDiv, Nat.mul_div_cancel_left m hd, Nat.add_sub_assoc hd, Nat.mul_add_div hd,
    Nat.div_eq_of_lt (by omega), Nat.add_zero]

theorem threads_ne_zero (h : 0 < lastLevelCores topo) : topo.numThreadsPerCore.toNat ≠ 0 := by
  intro hzero
  rw [lastLevelCores, hzero, Nat.div_zero] at h
  exact Nat.lt_irrefl 0 h

/-- The entries of the memory -/
def memoryEntries (topo : CpuTopology) (numa : NumaTopology) : List AffinityDomain :=
  if numa.nodes.length = 1 then [onlyMemoryEntry topo]
  else entries (memoryEntry topo numa (numa.nodes.length / topo.numSockets.toNat))
    (numa.nodes.length / topo.numSockets.toNat) topo.numSockets.toNat 0

theorem length_memoryEntries (hreg : RegularMachine topo numa) :
    (memoryEntries topo numa).length = numa.nodes.length := by
  rw [memoryEntries]
  split
  · next hone => exact hone.symm
  · next hone =>
      rw [length_entries, Nat.add_zero, Nat.mul_div_cancel' (hreg.nodes.resolve_left hone).2]

theorem memoryEntries_tags :
    (memoryEntries topo numa).map (·.tag) =
      (List.range (memoryEntries topo numa).length).map ('M' :: Text.decimal ·) := by
  rw [memoryEntries]
  split
  · rfl
  · rw [entries_tags fun i j => rfl, length_entries]

/-- The memory domains fill the rest of the table. -/
theorem memoryDomains_regular (h : topo.Consistent) (hreg : RegularMachine topo numa)
    (hlen : numa.nodes.length = numa.numberOfNodes.toNat) :
    memoryDomains topo (domainCounts topo numa) numa
        (Slots.filled (cacheEntries topo) (memoryBase topo + numa.nodes.length)) =
      some (Slots.filled (cacheEntries topo ++ memoryEntries topo numa)
        (memoryBase topo + numa.nodes.length)) := by
  have hthreads := threads_ne_zero hreg.lastLevel
  by_cases hone : numa.nodes.length = 1
  · have hdeals : ¬DealsNodes topo numa := by
      rintro ⟨-, hlt⟩
      omega
    rw [memoryDomains_only h hthreads hdeals, if_neg (by omega), memoryEntries, if_pos hone]
  · obtain ⟨hpos, hdvd⟩ := hreg.nodes.resolve_left hone
    have hle := Nat.le_of_dvd hpos hdvd
    have hsockets : 0 < topo.numSockets.toNat := Nat.pos_of_dvd_of_pos hdvd hpos
    have hper : nodesPerSocket topo numa = numa.nodes.length / topo.numSockets.toNat := by
      rw [nodesPerSocket, ← hlen, ceilDiv_of_dvd hsockets hdvd]
    have hmul : topo.numSockets.toNat * nodesPerSocket topo numa = numa.nodes.length := by
      rw [hper, Nat.mul_div_cancel' hdvd]
    rw [memoryEntries, if_neg hone, ← hper]
    refine memoryDomains_dealt h hthreads ⟨hlen ▸ hle, by omega⟩ fun i hi j hj => ⟨?_, ?_⟩
    · exact hmul ▸ group_lt hi hj
    · rw [hper] at hj ⊢
      exact hreg.memory (by omega) i hi j hj

/-- When the rest of the table is filled, the machine is regular. -/
theorem regularMachine_of_memoryDomains (h : topo.Consistent) (hcores : 0 < lastLevelCores topo)
    (hlen : numa.nodes.length = numa.numberOfNodes.toNat)
    (hcaches : ∀ i < topo.numSockets.toNat, ∀ j < lastLevelsPerSocket topo, CacheStart topo i j)
    {ds : List AffinityDomain} (hrun : memoryDomains topo (domainCounts topo numa) numa
      (Slots.filled (cacheEntries topo) (memoryBase topo + numa.nodes.length)) =
        some (ds.map some)) :
    RegularMachine topo numa := by
  have hthreads := threads_ne_zero hcores
  by_cases hdeals : DealsNodes topo numa
  · have hok : ∀ i < topo.numSockets.toNat, ∀ j < nodesPerSocket topo numa,
        i * nodesPerSocket topo numa + j < numa.nodes.length ∧
          MemoryStart topo numa (nodesPerSocket topo numa) i j := by
      intro i hi j hj
      by_contra hno
      rw [memoryDomains_eq_none h hthreads hdeals ⟨i, hi, j, hj, hno⟩] at hrun
      cases hrun
    rw [memoryDomains_dealt h hthreads hdeals hok] at hrun
    have hpos : 0 < numa.numberOfNodes.toNat := Nat.zero_lt_of_lt hdeals.2
    have hle : topo.numSockets.toNat * nodesPerSocket topo numa ≤ numa.nodes.length := by
      rcases Nat.eq_zero_or_pos (topo.numSockets.toNat * nodesPerSocket topo numa) with hz | hp
      · omega
      · have hs := Nat.pos_of_mul_pos_right hp
        have hn := Nat.pos_of_mul_pos_left hp
        have hlast := (hok (topo.numSockets.toNat - 1) (by omega)
          (nodesPerSocket topo numa - 1) (by omega)).1
        rw [Nat.sub_mul, Nat.one_mul] at hlast
        have hge : nodesPerSocket topo numa ≤
            topo.numSockets.toNat * nodesPerSocket topo numa := Nat.le_mul_of_pos_left _ hs
        omega
    have hcount := (filled_eq_map (show _ ≤ memoryBase topo + numa.nodes.length by
      rw [List.length_append, length_cacheEntries, length_entries]
      omega)).mp ⟨ds, Option.some.inj hrun⟩
    rw [List.length_append, length_cacheEntries, length_entries] at hcount
    have hmul : topo.numSockets.toNat * nodesPerSocket topo numa = numa.nodes.length := by omega
    have hsockets : 0 < topo.numSockets.toNat := by
      rcases Nat.eq_zero_or_pos topo.numSockets.toNat with hz | hp
      · rw [hz, Nat.zero_mul] at hmul
        omega
      · exact hp
    have hdvd : topo.numSockets.toNat ∣ numa.nodes.length := ⟨_, hmul.symm⟩
    have hper : nodesPerSocket topo numa = numa.nodes.length / topo.numSockets.toNat :=
      (Nat.div_eq_of_eq_mul_right hsockets hmul.symm).symm
    exact ⟨hcores, Or.inr ⟨by omega, hdvd⟩, hcaches, fun _ i hi j hj =>
      hper ▸ (hok i hi j (hper ▸ hj)).2⟩
  · rw [memoryDomains_only h hthreads hdeals] at hrun
    split at hrun
    · cases hrun
    · have hcount := (filled_eq_map (show _ ≤ memoryBase topo + numa.nodes.length by
        rw [List.length_append, length_cacheEntries, List.length_singleton]
        omega)).mp ⟨ds, Option.some.inj hrun⟩
      rw [List.length_append, length_cacheEntries, List.length_singleton] at hcount
      have hone : numa.nodes.length = 1 := by omega
      exact ⟨hcores, Or.inl hone, hcaches, fun hlt => by omega⟩

/-- A run that initialises the whole table was on a regular machine. -/
theorem regularMachine_of_run (h : topo.Consistent)
    (hlen : numa.nodes.length = numa.numberOfNodes.toNat) {core2node c : ℕ → Int}
    {a : AffinityDomains} {ds : List AffinityDomain}
    (hrun : affinityInit topo numa core2node = some (a, c)) (hds : a.domains = ds.map some) :
    RegularMachine topo numa := by
  have hcores : 0 < lastLevelCores topo := by
    rcases Nat.eq_zero_or_pos (lastLevelCores topo) with hzero | hpos
    · rw [affinityInit, countDomains_eq, hzero] at hrun
      cases hrun
    · exact hpos
  have hcaches : ∀ i < topo.numSockets.toNat, ∀ j < lastLevelsPerSocket topo,
      CacheStart topo i j := by
    intro i hi j hj
    by_contra hno
    rw [affinityInit_eq_none h hlen ⟨i, hi, j, hj, hno⟩] at hrun
    cases hrun
  obtain ⟨c', hinit⟩ := affinityInit_caches h hcores hlen hcaches core2node
  rw [hinit] at hrun
  obtain ⟨domains, hmem, heq⟩ := Option.map_eq_some_iff.mp hrun
  obtain ⟨rfl, rfl⟩ := Prod.mk.inj heq
  obtain rfl : domains = ds.map some := hds
  exact regularMachine_of_memoryDomains h hcores hlen hcaches hmem

theorem affinityInit_regular (h : topo.Consistent)
    (hlen : numa.nodes.length = numa.numberOfNodes.toNat) (hreg : RegularMachine topo numa)
    (core2node : ℕ → Int) :
    ∃ c, affinityInit topo numa core2node =
      some ({ domainCounts topo numa with
        domains := (cacheEntries topo ++ memoryEntries topo numa).map some }, c) := by
  obtain ⟨c, hinit⟩ := affinityInit_caches h hreg.lastLevel hlen hreg.caches core2node
  have hsize : (cacheEntries topo ++ memoryEntries topo numa).length =
      memoryBase topo + numa.nodes.length := by
    rw [List.length_append, length_cacheEntries, length_memoryEntries hreg]
  refine ⟨c, ?_⟩
  rw [hinit, memoryDomains_regular h hreg hlen, ← hsize, Slots.filled, Nat.sub_self,
    List.replicate_zero, List.append_nil]
  rfl

/-- Two sockets with one core of one hardware thread each. -/
def twoSockets : CpuTopology where
  numHWThreads := 2
  activeHWThreads := 2
  numSockets := 2
  numCoresPerSocket := 1
  numThreadsPerCore := 1
  numCacheLevels := 1
  threadPool := [⟨0, 0, 0, 0, 1⟩, ⟨0, 0, 1, 1, 1⟩]
  cacheLevels := [⟨1, .unifiedCache, 8, 64, 64, 32768, 1, 0⟩]
  topologyTree := .node 0 (.node 0 (.node 0 (.node 0 .null .null) .null)
    (.node 1 (.node 0 (.node 1 .null .null) .null) .null)) .null

theorem consistent_twoSockets : twoSockets.Consistent where
  numSockets := rfl
  numHWThreads := rfl
  length_le := by decide
  index := by
    intro i
    match i with
    | 0 => decide
    | 1 => decide
    | i + 2 => exact fun id hid => nomatch hid
  nodup := by decide

/-- NUMA nodes with these processors -/
def numaNodes (processors : List (List (BitVec 32))) : NumaTopology where
  numberOfNodes := BitVec.ofNat 32 processors.length
  nodes := processors.map fun ids => ⟨0, 0, 0, BitVec.ofNat 32 ids.length, ids, 0, []⟩

end Likwid
