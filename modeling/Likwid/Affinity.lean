import Likwid.Lib.Slots
import Likwid.Lib.Text
import Likwid.TreeWalk

/-!
# Building the affinity domains (`affinity.c`)

`affinity_init` counts the domains, allocates their table and fills the domains of the node,
of the sockets, of the last level caches and of the memory, one entry after the other, by
walks through the topology tree. Here is what it computes; what it does, entry by entry, is
`affinityInit_eq`.
-/

namespace Likwid

/-- `AffinityDomain`: `size` is the number of entries the list is allocated for. The list is
the memory from its first entry on, as far as it is written. -/
structure AffinityDomain where
  tag : List Char
  numberOfProcessors : ℕ
  numberOfCores : ℕ
  size : ℕ
  processorList : ℕ → Option Int

/-- `AffinityDomains`; an entry of the table that was never written is `none`. -/
structure AffinityDomains where
  numberOfSocketDomains : ℕ
  numberOfNumaDomains : ℕ
  numberOfProcessorsPerSocket : ℕ
  numberOfCacheDomains : ℕ
  numberOfCoresPerCache : ℕ
  numberOfProcessorsPerCache : ℕ
  numberOfAffinityDomains : ℕ
  domains : List (Option AffinityDomain)

/-- The division of C -/
def divide (a b : ℕ) : Option ℕ := if b = 0 then none else some (a / b)

/-- The entries from `processorIds` on are written, which points to entry `start`. -/
def writeEntries (start : ℕ) (ids : List Int) (processorList : ℕ → Option Int) (p : ℕ) :
    Option Int :=
  if start ≤ p ∧ p < start + ids.length then ids[p - start]? else processorList p

/-- The counts at the begin of `affinity_init`, and the table of the domains -/
def countDomains (topo : CpuTopology) (numa : NumaTopology) : Option AffinityDomains := do
  let lastLevel ← topo.cacheLevels[(topo.numCacheLevels - 1).toNat]?
  let numberOfCoresPerCache ← divide lastLevel.threads.toNat topo.numThreadsPerCore.toNat
  let cachesPerSocket ← divide topo.numCoresPerSocket.toNat numberOfCoresPerCache
  let numberOfSocketDomains := topo.numSockets.toNat
  let numberOfNumaDomains := numa.numberOfNodes.toNat
  let numberOfCacheDomains := topo.numSockets.toNat * cachesPerSocket
  let numberOfDomains :=
    1 + (numberOfSocketDomains + numberOfCacheDomains + numberOfNumaDomains)
  some
    { numberOfSocketDomains
      numberOfNumaDomains
      numberOfProcessorsPerSocket :=
        topo.numCoresPerSocket.toNat * topo.numThreadsPerCore.toNat
      numberOfCacheDomains
      numberOfCoresPerCache
      numberOfProcessorsPerCache := lastLevel.threads.toNat
      numberOfAffinityDomains := numberOfDomains
      domains := List.replicate numberOfDomains none }

section

variable (topo : CpuTopology) (a : AffinityDomains)

/-- One socket of the node domain -/
def fillNode (s : ℕ × (ℕ → Option Int)) (i : ℕ) : Option (ℕ × (ℕ → Option Int)) := do
  let (ids, tmp) ← treeFillNextEntries topo.threadPool topo.topologyTree i 0
    a.numberOfProcessorsPerSocket
  some (s.1 + tmp.toNat, writeEntries s.1 ids s.2)

/-- The node domain -/
def nodeDomain : Option AffinityDomain :=
  if 1 < a.numberOfSocketDomains then do
    let (_, processorList) ← Slots.loop a.numberOfSocketDomains (fillNode topo a)
      (0, fun _ => none)
    some
      { tag := ['N']
        numberOfProcessors := topo.activeHWThreads.toNat
        numberOfCores := topo.numSockets.toNat * topo.numCoresPerSocket.toNat
        size := topo.numHWThreads.toNat
        processorList }
  else do
    let (ids, tmp) ← treeFillNextEntries topo.threadPool topo.topologyTree 0 0
      topo.activeHWThreads.toNat
    some
      { tag := ['N']
        numberOfProcessors := tmp.toNat
        numberOfCores := topo.numSockets.toNat * topo.numCoresPerSocket.toNat
        size := topo.numHWThreads.toNat
        processorList := writeEntries 0 ids fun _ => none }

/-- The table of the domains and `affinity_core2node_lookup[MAX_NUM_THREADS]` -/
structure SocketFill where
  domains : List (Option AffinityDomain)
  core2node : ℕ → Int

/-- `affinity_core2node_lookup[id] = i` -/
def setNode (i : ℕ) (core2node : ℕ → Int) (id : Int) : Option (ℕ → Int) :=
  if 0 ≤ id ∧ id < maxNumThreads then some (Function.update core2node id.toNat i) else none

/-- One socket domain -/
def socketDomain (s : SocketFill) (i : ℕ) : Option SocketFill := do
  let numberOfProcessors := a.numberOfProcessorsPerSocket
  let (ids, tmp) ← treeFillNextEntries topo.threadPool topo.topologyTree i 0 numberOfProcessors
  let tmp := min tmp.toNat numberOfProcessors
  let core2node ← (ids.take tmp).foldlM (setNode i) s.core2node
  let domains ← Slots.put (1 + i)
    { tag := 'S' :: Text.decimal i
      numberOfProcessors := tmp
      numberOfCores := topo.numCoresPerSocket.toNat
      size := numberOfProcessors
      processorList := writeEntries 0 ids fun _ => none } s.domains
  some { domains, core2node }

/-- The variables of the loops over the cache domains and over the memory domains -/
structure GroupFill where
  offset : ℕ
  subCounter : ℕ
  domains : List (Option AffinityDomain)

/-- One cache domain of socket `i` -/
def cacheDomain (i : ℕ) (s : GroupFill) (_j : ℕ) : Option GroupFill := do
  let (ids, tmp) ← treeFillNextEntries topo.threadPool topo.topologyTree i s.offset
    a.numberOfProcessorsPerCache
  let domains ← Slots.put (1 + a.numberOfSocketDomains + s.subCounter)
    { tag := 'C' :: Text.decimal s.subCounter
      numberOfProcessors := tmp.toNat
      numberOfCores := a.numberOfCoresPerCache
      size := a.numberOfProcessorsPerCache
      processorList := writeEntries 0 ids fun _ => none } s.domains
  some
    { offset := s.offset +
        (if tmp < a.numberOfCoresPerCache then tmp.toNat else a.numberOfCoresPerCache)
      subCounter := s.subCounter + 1
      domains }

/-- The cache domains of one socket -/
def cacheDomains (s : GroupFill) (i : ℕ) : Option GroupFill :=
  Slots.loop (a.numberOfCacheDomains / a.numberOfSocketDomains) (cacheDomain topo a i)
    { s with offset := 0 }

/-- One memory domain of socket `i` -/
def memoryDomain (numa : NumaTopology) (i : ℕ) (s : GroupFill) (_j : ℕ) : Option GroupFill := do
  let node ← numa.nodes[s.subCounter]?
  let numberOfProcessors := node.numberOfProcessors.toNat
  let numberOfCores ← divide numberOfProcessors topo.numThreadsPerCore.toNat
  let (ids, tmp) ← treeFillNextEntries topo.threadPool topo.topologyTree i s.offset
    numberOfProcessors
  let domains ← Slots.put
    (1 + a.numberOfSocketDomains + a.numberOfCacheDomains + s.subCounter)
    { tag := 'M' :: Text.decimal s.subCounter
      numberOfProcessors := tmp.toNat
      numberOfCores
      size := numberOfProcessors
      processorList := writeEntries 0 ids fun _ => none } s.domains
  some { offset := s.offset + numberOfCores, subCounter := s.subCounter + 1, domains }

/-- `(int)ceil((double)(n)/d)` -/
def ceilDiv (n d : ℕ) : ℕ := (n + d - 1) / d

/-- The memory domains of one socket -/
def socketMemoryDomains (numa : NumaTopology) (s : GroupFill) (i : ℕ) : Option GroupFill :=
  Slots.loop (ceilDiv a.numberOfNumaDomains a.numberOfSocketDomains)
    (memoryDomain topo a numa i) { s with offset := 0 }

/-- One socket of the only memory domain -/
def fillMemory (s : ℕ × ℕ × (ℕ → Option Int)) (i : ℕ) : Option (ℕ × ℕ × (ℕ → Option Int)) := do
  let (offset, tmp, processorList) := s
  let (ids, n) ← treeFillNextEntries topo.threadPool topo.topologyTree i 0
    a.numberOfProcessorsPerSocket
  some (offset + a.numberOfProcessorsPerSocket, tmp + n.toNat,
    writeEntries offset ids processorList)

/-- The memory domains -/
def memoryDomains (numa : NumaTopology) (domains : List (Option AffinityDomain)) :
    Option (List (Option AffinityDomain)) :=
  if a.numberOfSocketDomains ≤ a.numberOfNumaDomains ∧ 1 < a.numberOfNumaDomains then
    (Slots.loop a.numberOfSocketDomains (socketMemoryDomains topo a numa) ⟨0, 0, domains⟩).map
      (·.domains)
  else do
    let numaThreads := a.numberOfProcessorsPerSocket * a.numberOfSocketDomains
    let numberOfCores ← divide numaThreads topo.numThreadsPerCore.toNat
    let (_, tmp, processorList) ← Slots.loop a.numberOfSocketDomains (fillMemory topo a)
      (0, 0, fun _ => none)
    Slots.put (1 + a.numberOfSocketDomains + a.numberOfCacheDomains)
      { tag := 'M' :: Text.decimal 0
        numberOfProcessors := tmp
        numberOfCores
        size := numaThreads
        processorList } domains

end

/-- `affinity_init`, the first time it is called -/
def affinityInit (topo : CpuTopology) (numa : NumaTopology) (core2node : ℕ → Int) :
    Option (AffinityDomains × (ℕ → Int)) := do
  let a ← countDomains topo numa
  let node ← nodeDomain topo a
  let domains ← Slots.put 0 node a.domains
  let sockets ← Slots.loop a.numberOfSocketDomains (socketDomain topo a) ⟨domains, core2node⟩
  let caches ← Slots.loop a.numberOfSocketDomains (cacheDomains topo a)
    ⟨0, 0, sockets.domains⟩
  let domains ← memoryDomains topo a numa caches.domains
  some ({ a with domains }, sockets.core2node)

end Likwid
