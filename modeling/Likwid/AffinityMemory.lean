import Likwid.AffinityDomains

/-!
# The memory of the affinity domains (`affinity.c`)

The list of a domain is allocated for the number of processors that the walk is asked for,
but the walk takes whole cores and only stops at that number exactly. So the table and its
lists are initialised within their memory on the regular machines where no walk steps over
its number (`initialisesTable_iff`).
-/

namespace Likwid

variable {topo : CpuTopology} {numa : NumaTopology}

/-- **The table**: the run ends, all entries of the table are initialised, their tags are
distinct, and nothing is written behind the end of their lists. -/
def InitialisesTable (topo : CpuTopology) (numa : NumaTopology) (core2node : ℕ → Int) : Prop :=
  ∃ a c, affinityInit topo numa core2node = some (a, c) ∧
    a.domains.length = a.numberOfAffinityDomains ∧
    ∃ ds : List AffinityDomain, a.domains = ds.map some ∧ (ds.map (·.tag)).Nodup ∧
      ∀ d ∈ ds, d.InBounds

/-- There are at most `n` threads on the cores, or just `n` on the first of them. -/
def StopsAt (n : ℕ) (cores : List (List Int)) : Prop :=
  cores.flatten.length ≤ n ∨ ∃ k, (cores.take k).flatten.length = n

theorem length_walk_le_iff {cores : List (List Int)} {n : ℕ} :
    (walk cores n).length ≤ n ↔ StopsAt n cores := by
  constructor
  · intro hle
    obtain ⟨k, hk, hwalk, hend⟩ := walk_eq_take cores n
    rw [hwalk] at hle
    rcases hend with rfl | heq
    · rw [List.take_length] at hle
      exact Or.inl hle
    · exact Or.inr ⟨k, Int.ofNat_inj.mp heq⟩
  · rintro (hle | ⟨k, hk⟩)
    · exact ((walk_isPrefix cores n).length_le).trans hle
    · rw [walk_take (congrArg Nat.cast hk)]
      exact hk.le

/-- A regular machine, where the hardware threads in the cpuset on the cores of a socket, of
a cache and of a node are not more than these have, or the first of these cores have just as
many. -/
structure SizedMachine (topo : CpuTopology) (numa : NumaTopology) : Prop
    extends RegularMachine topo numa where
  socketLists : ∀ i < topo.numSockets.toNat,
    StopsAt (processorsPerSocket topo) (selectedCores topo i)
  cacheLists : ∀ i < topo.numSockets.toNat, ∀ j < lastLevelsPerSocket topo,
    StopsAt (lastLevelThreads topo) (cacheCores topo i j)
  nodeLists : numa.nodes.length ≠ 1 → ∀ i < topo.numSockets.toNat,
    ∀ j < numa.nodes.length / topo.numSockets.toNat,
      StopsAt (nodeProcessors numa (i * (numa.nodes.length / topo.numSockets.toNat) + j))
        (memoryCores topo numa (numa.nodes.length / topo.numSockets.toNat) i j)

theorem mem_entries {entry : ℕ → ℕ → AffinityDomain} {n m : ℕ} {d : AffinityDomain} :
    d ∈ entries entry n m 0 ↔ ∃ i < m, ∃ j < n, d = entry i j := by
  rw [entries, List.range_zero, List.map_nil, List.append_nil, List.mem_flatMap]
  constructor
  · rintro ⟨i, hi, hd⟩
    obtain ⟨j, hj, rfl⟩ := List.mem_map.mp hd
    exact ⟨i, List.mem_range.mp hi, j, List.mem_range.mp hj, rfl⟩
  · rintro ⟨i, hi, j, hj, rfl⟩
    exact ⟨i, List.mem_range.mpr hi, List.mem_map_of_mem (List.mem_range.mpr hj)⟩

theorem onlyMemoryEntry_inBounds (h : ∀ i < topo.numSockets.toNat,
    StopsAt (processorsPerSocket topo) (selectedCores topo i)) :
    (onlyMemoryEntry topo).InBounds := by
  intro p hp
  have hsize : processorsPerSocket topo * topo.numSockets.toNat ≤ p := hp
  exact (memoryList_snd fun i hi => length_walk_le_iff.mpr (h i hi)).2 p
    (Nat.mul_comm _ _ ▸ hsize)

/-- The lists of the table are written within their memory exactly if no walk steps over its
number. -/
theorem inBounds_iff_sized (h : topo.Consistent) (hreg : RegularMachine topo numa) :
    (∀ d ∈ cacheEntries topo ++ memoryEntries topo numa, d.InBounds) ↔
      SizedMachine topo numa := by
  constructor
  · intro hbounds
    refine ⟨hreg, fun i hi => ?_, fun i hi j hj => ?_, fun hone i hi j hj => ?_⟩
    · have hmem : socketEntry topo i ∈ cacheEntries topo ++ memoryEntries topo numa :=
        List.mem_of_getElem? (getElem?_socketEntries hi)
      exact length_walk_le_iff.mp ((inBounds_iff rfl).mp (hbounds _ hmem))
    · have hmem : cacheEntry topo i j ∈ cacheEntries topo :=
        List.mem_append_right _ (mem_entries.mpr ⟨i, hi, j, hj, rfl⟩)
      exact length_walk_le_iff.mp
        ((inBounds_iff rfl).mp (hbounds _ (List.mem_append_left _ hmem)))
    · have hmem : memoryEntry topo numa (numa.nodes.length / topo.numSockets.toNat) i j ∈
          memoryEntries topo numa := by
        rw [memoryEntries, if_neg hone]
        exact mem_entries.mpr ⟨i, hi, j, hj, rfl⟩
      exact length_walk_le_iff.mp
        ((inBounds_iff rfl).mp (hbounds _ (List.mem_append_right _ hmem)))
  · intro hsized d hd
    rcases List.mem_append.mp hd with hd | hd
    · rcases List.mem_append.mp hd with hd | hd
      · rcases List.mem_cons.mp hd with rfl | hd
        · exact nodeEntry_inBounds h
        · obtain ⟨i, hi, rfl⟩ := List.mem_map.mp hd
          exact (inBounds_iff rfl).mpr
            (length_walk_le_iff.mpr (hsized.socketLists i (List.mem_range.mp hi)))
      · obtain ⟨i, hi, j, hj, rfl⟩ := mem_entries.mp hd
        exact (inBounds_iff rfl).mpr (length_walk_le_iff.mpr (hsized.cacheLists i hi j hj))
    · rw [memoryEntries] at hd
      split at hd
      · rw [List.mem_singleton.mp hd]
        exact onlyMemoryEntry_inBounds hsized.socketLists
      · next hone =>
          obtain ⟨i, hi, j, hj, rfl⟩ := mem_entries.mp hd
          exact (inBounds_iff rfl).mpr
            (length_walk_le_iff.mpr (hsized.nodeLists hone i hi j hj))

/-- **The table is initialised** within its memory exactly on the regular machines where no
walk steps over its number. -/
theorem initialisesTable_iff (h : topo.Consistent)
    (hlen : numa.nodes.length = numa.numberOfNodes.toNat) (core2node : ℕ → Int) :
    InitialisesTable topo numa core2node ↔ SizedMachine topo numa := by
  constructor
  · rintro ⟨a, c, hrun, -, ds, hds, -, hbounds⟩
    have hreg := regularMachine_of_run h hlen hrun hds
    obtain ⟨c', hrun'⟩ := affinityInit_regular h hlen hreg core2node
    rw [hrun'] at hrun
    obtain ⟨rfl, rfl⟩ := Prod.mk.inj (Option.some.inj hrun)
    obtain rfl := List.map_injective_iff.mpr (Option.some_injective _) hds
    exact (inBounds_iff_sized h hreg).mp hbounds
  · intro hsized
    have hreg := hsized.toRegularMachine
    obtain ⟨c, hrun⟩ := affinityInit_regular h hlen hreg core2node
    refine ⟨_, c, hrun, ?_, _, rfl, ?_, (inBounds_iff_sized h hreg).mpr hsized⟩
    · show (List.map some _).length = 1 + (_ + _ + _)
      rw [List.length_map, List.length_append, length_cacheEntries, length_memoryEntries hreg,
        memoryBase, hlen]
      omega
    · rw [List.map_append, cacheEntries_tags, memoryEntries_tags]
      exact nodup_allTags _ _ _

theorem initialisesTable_twoNodes :
    InitialisesTable twoSockets (numaNodes [[0], [1]]) fun _ => 0 := by
  refine (initialisesTable_iff consistent_twoSockets rfl _).mpr
    ⟨⟨by decide, by decide, by unfold CacheStart; decide, by unfold MemoryStart; decide⟩,
      fun i hi => Or.inl ?_, fun i hi j hj => Or.inl ?_, fun _ i hi j hj => Or.inl ?_⟩
  · match i, hi with
    | 0, _ | 1, _ => decide
  · obtain rfl : j = 0 := Nat.lt_one_iff.mp hj
    match i, hi with
    | 0, _ | 1, _ => decide
  · obtain rfl : j = 0 := Nat.lt_one_iff.mp hj
    match i, hi with
    | 0, _ | 1, _ => decide

/-- A socket with four cores of two hardware threads and two last level caches; the first
hardware thread is not in the cpuset. -/
def fourByTwo : CpuTopology where
  numHWThreads := 8
  activeHWThreads := 7
  numSockets := 1
  numCoresPerSocket := 4
  numThreadsPerCore := 2
  numCacheLevels := 1
  threadPool := [⟨0, 0, 0, 0, 0⟩, ⟨0, 1, 0, 1, 1⟩, ⟨0, 2, 0, 2, 1⟩, ⟨0, 3, 0, 3, 1⟩,
    ⟨1, 0, 0, 4, 1⟩, ⟨1, 1, 0, 5, 1⟩, ⟨1, 2, 0, 6, 1⟩, ⟨1, 3, 0, 7, 1⟩]
  cacheLevels := [⟨2, .unifiedCache, 8, 512, 64, 262144, 4, 0⟩]
  topologyTree := .node 0 (.node 0
    (.node 0 (.node 0 .null (.node 4 .null .null))
      (.node 1 (.node 1 .null (.node 5 .null .null))
        (.node 2 (.node 2 .null (.node 6 .null .null))
          (.node 3 (.node 3 .null (.node 7 .null .null)) .null)))) .null) .null

/-- With two sockets and three NUMA nodes, one without processors, there are two nodes to a
socket, rounded up, and a fourth node is read and written behind the end of the table. On
`fourByTwo` the counter of the walk for the first cache goes 4, 3, 1, -1 and is never 0, and
seven processors are written to a list for four. -/
theorem not_initialisesTable_threeNodes :
    ¬InitialisesTable twoSockets (numaNodes [[0], [1], []]) (fun _ => 0) ∧
      ¬InitialisesTable fourByTwo (numaNodes [[0, 1, 2, 3, 4, 5, 6, 7]]) fun _ => 0 := by
  constructor
  · rintro ⟨a, c, hrun, -⟩
    have hnone : (affinityInit twoSockets (numaNodes [[0], [1], []]) fun _ => 0).isNone := by
      decide +kernel
    rw [hrun] at hnone
    cases hnone
  · rintro ⟨a, c, hrun, -, ds, hds, -, hbounds⟩
    have hcache : (affinityInit fourByTwo (numaNodes [[0, 1, 2, 3, 4, 5, 6, 7]]) fun _ => 0).map
        (fun r => (r.1.domains[2]?.bind id).map fun d => (d.size, d.processorList 6)) =
        some (some (4, some 7)) := by decide +kernel
    rw [hrun, Option.map_some, hds, List.getElem?_map] at hcache
    cases hd : ds[2]? with
    | none =>
        rw [hd] at hcache
        cases hcache
    | some d =>
        rw [hd] at hcache
        obtain ⟨hsize, hlist⟩ := Prod.mk.inj (Option.some.inj (Option.some.inj hcache))
        have hnone := hbounds d (List.mem_of_getElem? hd) 6 (by omega)
        rw [hnone] at hlist
        cases hlist

end Likwid
