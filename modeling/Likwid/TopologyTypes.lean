import Likwid.AccessDaemon
import Likwid.Tree

/-!
# The data of the topology module (`likwid.h`)

The lengths of the arrays are kept beside them, as in the source.
-/

namespace Likwid

structure HWThread where
  threadId : BitVec 32
  coreId : BitVec 32
  packageId : BitVec 32
  apicId : BitVec 32
  inCpuSet : BitVec 32
deriving DecidableEq, Repr

inductive CacheType where
  | noCache
  | dataCache
  | instructionCache
  | unifiedCache
  | itlb
  | dtlb
deriving DecidableEq, Repr

structure CacheLevel where
  level : BitVec 32
  type : CacheType
  associativity : BitVec 32
  sets : BitVec 32
  lineSize : BitVec 32
  size : BitVec 32
  threads : BitVec 32
  inclusive : BitVec 32
deriving DecidableEq, Repr

structure CpuTopology where
  numHWThreads : BitVec 32
  activeHWThreads : BitVec 32
  numSockets : BitVec 32
  numCoresPerSocket : BitVec 32
  numThreadsPerCore : BitVec 32
  numCacheLevels : BitVec 32
  threadPool : List HWThread
  cacheLevels : List CacheLevel
  topologyTree : TreeNode
deriving DecidableEq, Repr

structure NumaNode where
  id : BitVec 32
  totalMemory : BitVec 64
  freeMemory : BitVec 64
  numberOfProcessors : BitVec 32
  processors : List (BitVec 32)
  numberOfDistances : BitVec 32
  distances : List (BitVec 32)
deriving DecidableEq, Repr

structure NumaTopology where
  numberOfNodes : BitVec 32
  nodes : List NumaNode
deriving DecidableEq, Repr

end Likwid
