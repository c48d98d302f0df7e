import Likwid.BenchTypes
import Likwid.Lib.Loop
import Mathlib.Data.Int.Init
import Mathlib.Data.List.Basic

/-!
# The thread groups of the benchmark (`threads.c`, `likwid-bench.c`)

The number of all threads is the sum over the workgroups, and `threads_createGroups` divides
it evenly again. An `int` that is not initialised is read if that leaves a rest, and groups
of one size are made of unequal workgroups if it does not; both stop nothing. The threads run
as the workgroups say exactly if all workgroups have as many threads
(`setsUpThreads_iff`). `malloc` fails for a negative size only.
-/

namespace Likwid

structure Threads where
  numThreads : Int
  threadsData : List ThreadData
  threadsGroups : List ThreadGroup

/-! ## `threads.c` -/

/-- `threads_init`; `malloc` leaves anything in the fields that are not written. -/
def threadsInit (left : ℕ → ThreadData) (numberOfThreads : Int) : Prog Unit Threads Unit :=
  Prog.modify fun s =>
    { s with
      numThreads := numberOfThreads
      threadsData := (List.range numberOfThreads.toNat).map fun i =>
        { left i with
          numberOfThreads := numberOfThreads
          globalNumberOfThreads := numberOfThreads
          globalThreadId := i
          threadId := i } }

/-- `threads_data[i]`, read and written -/
def modifyThread (i : ℕ) (f : ThreadData → ThreadData) : Prog Unit Threads Unit := do
  let s ← Prog.get
  let t ← Prog.orOutOfBounds s.threadsData[i]?
  Prog.modify fun s => { s with threadsData := s.threadsData.set i (f t) }

/-- The local variable `numThreadsPerGroup`, if it is initialised -/
def numThreadsPerGroup (numThreads numberOfGroups : Int) : Option Int :=
  if numThreads.tmod numberOfGroups ≠ 0 then none else some (numThreads.tdiv numberOfGroups)

/-- The inner loop of `threads_createGroups`, with `globalId` and the ids written so far -/
def createThread (numberOfGroups perGroup : Int) (i : ℕ) (ids : ℕ × List ℕ) (j : ℕ) :
    Prog Unit Threads (ℕ × List ℕ) := do
  modifyThread ids.1 fun t =>
    { t with
      threadId := j
      groupId := i
      numberOfGroups := numberOfGroups
      numberOfThreads := perGroup }
  pure (ids.1 + 1, ids.2 ++ [ids.1])

/-- The loop of `threads_createGroups` -/
def createGroup (numberOfGroups : Int) (globalId i : ℕ) : Prog Unit Threads ℕ := do
  let s ← Prog.get
  let perGroup ← Prog.orUndefined (numThreadsPerGroup s.numThreads numberOfGroups)
  Prog.when (perGroup < 0) (Prog.halt .exited)
  let ids ← Prog.forRange perGroup.toNat (createThread numberOfGroups perGroup i) (globalId, [])
  Prog.modify fun s =>
    { s with
      threadsGroups :=
        s.threadsGroups ++ [{ numberOfThreads := perGroup, threadIds := ids.2 }] }
  pure ids.1

def threadsCreateGroups (numberOfGroups : ℕ) : Prog Unit Threads Unit := do
  Prog.modify fun s => { s with threadsGroups := [] }
  let _ ← Prog.forRange numberOfGroups (createGroup numberOfGroups) 0
  pure ()

/-- `threads_data[threads_groups[groupId].threadIds[i]]`, for all `i` -/
def forThreadsOfGroup (groupId : ℕ) (f : ThreadData → ThreadData) : Prog Unit Threads Unit := do
  let s ← Prog.get
  let group ← Prog.orOutOfBounds s.threadsGroups[groupId]?
  Prog.forRange group.numberOfThreads.toNat
    (fun _ i => do
      let id ← Prog.orOutOfBounds group.threadIds[i]?
      modifyThread id f) ()

/-- The first `n` entries, copied to a new array -/
def copyArray {α : Type} (n : ℕ) (src : List α) : Option (List α) :=
  if n ≤ src.length then some (src.take n) else none

def copyThreadData (src : ThreadUserData) : Option ThreadUserData := do
  let streams ← copyArray src.test.streams src.streams
  let processors ← copyArray src.numberOfThreads src.processors
  some { src with processors, streams }

/-- `threads_registerDataGroup`, with `copyThreadData` -/
def threadsRegisterDataGroup (groupId : ℕ) (data : ThreadUserData) : Prog Unit Threads Unit := do
  let copy ← Prog.orOutOfBounds (copyThreadData data)
  forThreadsOfGroup groupId fun t => { t with data := copy }

def minIterations : ℕ := 10

def threadsUpdateIterations (groupId demandIter : ℕ) : Prog Unit Threads Unit := do
  let s ← Prog.get
  let first ← Prog.orOutOfBounds s.threadsData[0]?
  let iterations := max minIterations (if 0 < demandIter then demandIter else first.data.iter)
  forThreadsOfGroup groupId fun t =>
    { t with data := { t.data with iter := iterations, cycles := 0 }, cycles := 0 }

/-! ## `likwid-bench.c` -/

/-- `globalNumberOfThreads += groups[i].numberOfThreads`, an `int` and a `uint32_t` -/
def globalNumberOfThreads (groups : List Workgroup) : Int :=
  groups.foldl (fun n group => toInt32 (n + group.numberOfThreads)) 0

/-- The data of the threads of a workgroup -/
def userData (test : TestCase) (iter minRuntime : ℕ) (group : Workgroup) :
    Option ThreadUserData := do
  let processors ← copyArray group.numberOfThreads group.processorIds
  let streams ← copyArray test.streams (group.streams.map (·.ptr))
  some
    { size := group.size
      iter := iter
      minRuntime := minRuntime
      test := test
      cycles := 0
      numberOfThreads := group.numberOfThreads
      processors := processors
      streams := streams }

/-- `getIterSingle` of the first thread; `measured` are the iterations that took long enough. -/
def getIterSingle (measured : ℕ) : Prog Unit Threads Unit := do
  let s ← Prog.get
  let first ← Prog.orOutOfBounds s.threadsData[0]?
  let _ ← Prog.orOutOfBounds first.data.processors[first.threadId]?
  modifyThread 0 fun t => { t with data := { t.data with iter := measured } }

/-- What the command line says besides the workgroups, and what is measured -/
structure BenchOptions where
  test : TestCase
  iter : ℕ
  demandIter : ℕ
  minRuntime : ℕ
  measured : ℕ

def registerGroup (o : BenchOptions) (groups : List Workgroup) (i : ℕ) :
    Prog Unit Threads Unit := do
  let group ← Prog.orOutOfBounds groups[i]?
  let data ← Prog.orOutOfBounds
    (userData o.test (if 0 < o.demandIter then o.demandIter else o.iter) o.minRuntime group)
  threadsRegisterDataGroup i data

/-- `main`, from the sum over the workgroups to `threads_create` -/
def setUpThreads (o : BenchOptions) (left : ℕ → ThreadData) (groups : List Workgroup) :
    Prog Unit Threads Unit := do
  threadsInit left (globalNumberOfThreads groups)
  threadsCreateGroups groups.length
  Prog.forRange groups.length (fun _ i => registerGroup o groups i) ()
  Prog.when (o.demandIter = 0) do
    getIterSingle o.measured
    Prog.forRange groups.length (fun _ i => threadsUpdateIterations i o.demandIter) ()

/-! ## `bench.c` -/

/-- What a thread runs with -/
structure TestRun where
  vecsize : ℕ
  size : ℕ
  offset : Int
  streams : List Int
  pinned : Option Int
deriving DecidableEq, Repr

/-- The part of the vector that a thread works on, a multiple of the stride -/
def threadSize (t : ThreadData) : ℕ :=
  let size := t.data.size / toUInt64 t.numberOfThreads
  size - size % t.data.test.stride

def threadOffset (t : ThreadData) : Int := toInt32 ((t.threadId * threadSize t : ℕ) : Int)

/-- `runTest`, up to the kernel: a division by 0 has no meaning. -/
def runTest (t : ThreadData) : Option TestRun :=
  if toUInt64 t.numberOfThreads = 0 then none
  else do
    let streams ← copyArray t.data.test.streams t.data.streams
    let pinned ← t.data.processors[t.threadId]?
    some
      { vecsize := t.data.size
        size := threadSize t
        offset := threadOffset t
        streams := streams.map (· + threadOffset t * t.data.test.type.bytes)
        pinned := pinned }

/-! ## The threads set up -/

/-- A workgroup that was accepted, for a test -/
structure Workgroup.Accepted (test : TestCase) (group : Workgroup) : Prop where
  positive : 0 < group.numberOfThreads
  int : group.numberOfThreads < 2 ^ 31
  processorIds : group.processorIds.length = group.numberOfThreads
  streams : group.streams.length = test.streams

/-- The threads of workgroup `i` -/
def Threads.ofGroup (s : Threads) (i : ℕ) : List ThreadData :=
  s.threadsData.filter (·.groupId = i)

/-- The `j`-th thread of a workgroup runs as the workgroup says. -/
structure RunsThread (group : Workgroup) (j : ℕ) (t : ThreadData) : Prop where
  threadId : t.threadId = j
  numberOfThreads : t.numberOfThreads = group.numberOfThreads
  size : t.data.size = group.size
  streams : t.data.streams = group.streams.map (·.ptr)
  pinned : ∃ run, runTest t = some run ∧ group.processorIds[j]? = some run.pinned

/-- Workgroup `i` has its threads, and the tables agree on them. -/
structure RunsGroup (s : Threads) (i : ℕ) (group : Workgroup) : Prop where
  table : ∃ tg, s.threadsGroups[i]? = some tg ∧ tg.numberOfThreads = group.numberOfThreads ∧
    tg.threadIds.map (s.threadsData[·]?) = (s.ofGroup i).map some
  count : (s.ofGroup i).length = group.numberOfThreads
  thread : ∀ j t, (s.ofGroup i)[j]? = some t → RunsThread group j t

/-- The set-up stops with an error before a thread is created, or all threads that are
created run as their workgroup says, without an index out of bounds. -/
def SetsUpThreads (o : BenchOptions) (left : ℕ → ThreadData) (groups : List Workgroup)
    (s : Threads) : Prop :=
  match setUpThreads o left groups s with
  | .done _ s' => (∀ i group, groups[i]? = some group → RunsGroup s' i group) ∧
      ∀ t ∈ s'.threadsData, t.groupId < groups.length
  | .ret _ _ => False
  | .halt h => h = .exited

/-! ## Sweeps over the threads -/

section Sweeps

variable {new old : ℕ → ThreadData} {f : ThreadData → ThreadData} {total : Int}
  {tgs : List ThreadGroup} {n q N i k : ℕ}

theorem modifyThread_swept (hk : k < N) (hf : f (old k) = new k) :
    modifyThread k f ⟨total, Slots.swept new old N k, tgs⟩ =
      .done () ⟨total, Slots.swept new old N (k + 1), tgs⟩ := by
  have hget : (Slots.swept new old N k)[k]? = some (if k < k then new k else old k) :=
    Slots.getElem?_swept hk
  rw [if_neg (Nat.lt_irrefl k)] at hget
  rw [modifyThread, Prog.bind_of_done (Prog.get_apply _), hget]
  show Prog.Outcome.done () (Threads.mk total ((Slots.swept new old N k).set k (f (old k))) tgs) = _
  rw [hf, Slots.swept_set hk]

/-- The table of groups that are all of one size -/
def groupTable (q n : ℕ) : List ThreadGroup :=
  (List.range n).map fun i => ⟨q, (List.range q).map (i * q + ·)⟩

theorem getElem?_groupTable (hi : i < n) :
    (groupTable q n)[i]? = some ⟨q, (List.range q).map (i * q + ·)⟩ := by
  rw [groupTable, List.getElem?_map, List.getElem?_range hi]
  rfl

theorem group_index_lt {j : ℕ} (hi : i < n) (hj : j < q) : i * q + j < n * q := by
  have hle := Nat.mul_le_mul_right q (Nat.succ_le_of_lt hi)
  rw [Nat.succ_mul] at hle
  omega

theorem forThreadsOfGroup_swept (hi : i < n)
    (hf : ∀ j < q, f (old (i * q + j)) = new (i * q + j)) :
    forThreadsOfGroup i f ⟨total, Slots.swept new old (n * q) (i * q), groupTable q n⟩ =
      .done () ⟨total, Slots.swept new old (n * q) ((i + 1) * q), groupTable q n⟩ := by
  rw [forThreadsOfGroup, Prog.bind_of_done (Prog.get_apply _), getElem?_groupTable hi,
    Nat.succ_mul]
  refine Prog.forRange_done (n := q) _ (fun _ => ())
    (fun j => Threads.mk total (Slots.swept new old (n * q) (i * q + j)) (groupTable q n))
    fun j hj => ?_
  have hid : ((List.range q).map (i * q + ·))[j]? = some (i * q + j) := by
    rw [List.getElem?_map, List.getElem?_range hj]
    rfl
  rw [hid]
  exact modifyThread_swept (group_index_lt hi hj) (hf j hj)

end Sweeps

/-! ## The groups -/

section Groups

variable (left : ℕ → ThreadData) {o : BenchOptions} {n q i g : ℕ}

/-- A thread after `threads_init` -/
def initialThread (total : Int) (g : ℕ) : ThreadData :=
  { left g with
    numberOfThreads := total
    globalNumberOfThreads := total
    globalThreadId := g
    threadId := g }

/-- A thread of one of `n` groups of size `q` -/
def groupedThread (n q g : ℕ) : ThreadData :=
  { initialThread left (n * q : ℕ) g with
    threadId := g % q
    groupId := g / q
    numberOfGroups := n
    numberOfThreads := q }

theorem numThreadsPerGroup_mul (hn : 0 < n) (z : Int) :
    numThreadsPerGroup (n * z) n = some z := by
  rw [numThreadsPerGroup, if_neg (by rw [Int.mul_tmod_right]; exact fun h => h rfl),
    Int.mul_tdiv_cancel_left z (by omega)]

theorem index_mod {j : ℕ} (hj : j < q) : (i * q + j) % q = j := by
  rw [Nat.add_comm, Nat.add_mul_mod_self_right, Nat.mod_eq_of_lt hj]

theorem index_div {j : ℕ} (hj : j < q) : (i * q + j) / q = i := by
  rw [Nat.add_comm, Nat.add_mul_div_right j i (by omega), Nat.div_eq_of_lt hj, Nat.zero_add]

theorem createGroup_swept (hi : i < n) :
    createGroup n (i * q) i
        ⟨(n * q : ℕ), Slots.swept (groupedThread left n q) (initialThread left (n * q : ℕ)) (n * q)
          (i * q), groupTable q i⟩ =
      .done ((i + 1) * q)
        ⟨(n * q : ℕ), Slots.swept (groupedThread left n q) (initialThread left (n * q : ℕ)) (n * q)
          ((i + 1) * q), groupTable q (i + 1)⟩ := by
  have hper : numThreadsPerGroup (n * q : ℕ) n = some (q : Int) := by
    rw [Int.natCast_mul]
    exact numThreadsPerGroup_mul (Nat.zero_lt_of_lt hi) q
  have hloop : Prog.forRange q (createThread n q i) (i * q, [])
      ⟨(n * q : ℕ), Slots.swept (groupedThread left n q) (initialThread left (n * q : ℕ)) (n * q)
        (i * q), groupTable q i⟩ =
      .done (i * q + q, (List.range q).map (i * q + ·))
        ⟨(n * q : ℕ), Slots.swept (groupedThread left n q) (initialThread left (n * q : ℕ)) (n * q)
          (i * q + q), groupTable q i⟩ := by
    refine Prog.forRange_done (n := q) _ (fun j => (i * q + j, (List.range j).map (i * q + ·)))
      (fun j => Threads.mk (n * q : ℕ) (Slots.swept (groupedThread left n q)
        (initialThread left (n * q : ℕ)) (n * q) (i * q + j)) (groupTable q i)) fun j hj => ?_
    rw [createThread, Prog.bind_of_done (modifyThread_swept (group_index_lt hi hj) ?_)]
    · show Prog.Outcome.done (i * q + j + 1, (List.range j).map (i * q + ·) ++ [i * q + j]) _ = _
      rw [List.range_succ, List.map_append]
      rfl
    · rw [groupedThread, index_mod hj, index_div hj]
  have hsome : (Prog.orUndefined (some (q : Int)) : Prog Unit Threads Int) = pure (q : Int) := rfl
  rw [createGroup, Prog.bind_of_done (Prog.get_apply _), hper, hsome, Prog.bind_pure_left,
    Prog.when_of_neg (by omega), Prog.bind_pure_left, Int.toNat_natCast, Nat.succ_mul,
    Prog.bind_of_done hloop, groupTable, groupTable, List.range_succ, List.map_append]
  rfl

theorem threadsInit_eq (N : ℕ) (s : Threads) :
    threadsInit left N s =
      .done () ⟨N, (List.range N).map (initialThread left N), s.threadsGroups⟩ := rfl

theorem threadsCreateGroups_eq (tgs : List ThreadGroup) :
    threadsCreateGroups n
        ⟨(n * q : ℕ), (List.range (n * q)).map (initialThread left (n * q : ℕ)), tgs⟩ =
      .done () ⟨(n * q : ℕ), (List.range (n * q)).map (groupedThread left n q),
        groupTable q n⟩ := by
  have hloop := Prog.forRange_done (n := n) (createGroup n) (fun i => i * q)
    (fun i => Threads.mk (n * q : ℕ) (Slots.swept (groupedThread left n q)
      (initialThread left (n * q : ℕ)) (n * q) (i * q)) (groupTable q i))
    fun i hi => createGroup_swept left hi
  rw [Nat.zero_mul, Slots.swept_zero, Slots.swept_all] at hloop
  rw [threadsCreateGroups, Prog.bind_of_done (Prog.modify_apply _ _)]
  exact Prog.bind_of_done hloop

/-! ## The data of the groups -/

/-- The data of a workgroup -/
def groupData (o : BenchOptions) (group : Workgroup) : ThreadUserData where
  size := group.size
  iter := if 0 < o.demandIter then o.demandIter else o.iter
  minRuntime := o.minRuntime
  test := o.test
  cycles := 0
  numberOfThreads := group.numberOfThreads
  processors := group.processorIds
  streams := group.streams.map (·.ptr)

theorem copyArray_length {α : Type} {l : List α} (h : l.length = n) : copyArray n l = some l := by
  rw [copyArray, if_pos (Nat.le_of_eq h.symm), List.take_of_length_le (Nat.le_of_eq h)]

theorem userData_eq {group : Workgroup} (h : group.Accepted o.test) :
    userData o.test (if 0 < o.demandIter then o.demandIter else o.iter) o.minRuntime group =
      some (groupData o group) := by
  rw [userData, copyArray_length h.processorIds,
    copyArray_length (by rw [List.length_map, h.streams])]
  rfl

theorem copyThreadData_eq {group : Workgroup} (h : group.Accepted o.test) :
    copyThreadData (groupData o group) = some (groupData o group) := by
  have hstreams : copyArray o.test.streams (groupData o group).streams =
      some (groupData o group).streams :=
    copyArray_length (by rw [groupData, List.length_map, h.streams])
  have hprocessors : copyArray (groupData o group).numberOfThreads (groupData o group).processors =
      some (groupData o group).processors := copyArray_length h.processorIds
  rw [copyThreadData]
  show (copyArray o.test.streams _).bind _ = _
  rw [hstreams]
  show (copyArray (groupData o group).numberOfThreads _).bind _ = _
  rw [hprocessors]
  rfl

/-- A thread with the data of its workgroup -/
def registeredThread (o : BenchOptions) (groups : List Workgroup) (q g : ℕ) : ThreadData :=
  { groupedThread left groups.length q g with
    data := (groups[g / q]?.map (groupData o)).getD (left g).data }

variable {groups : List Workgroup}

theorem registerGroup_swept (hacc : ∀ group ∈ groups, group.Accepted o.test)
    (hi : i < groups.length) :
    registerGroup o groups i
        ⟨(groups.length * q : ℕ), Slots.swept (registeredThread left o groups q)
          (groupedThread left groups.length q) (groups.length * q) (i * q),
          groupTable q groups.length⟩ =
      .done ()
        ⟨(groups.length * q : ℕ), Slots.swept (registeredThread left o groups q)
          (groupedThread left groups.length q) (groups.length * q) ((i + 1) * q),
          groupTable q groups.length⟩ := by
  have hget := List.getElem?_eq_getElem hi
  have hg := hacc groups[i] (List.getElem_mem hi)
  have hrun : registerGroup o groups i =
      forThreadsOfGroup i fun t => { t with data := groupData o groups[i] } := by
    rw [registerGroup, hget]
    show (Prog.orOutOfBounds (userData _ _ _ groups[i]) >>= _) = _
    rw [userData_eq hg]
    show threadsRegisterDataGroup i (groupData o groups[i]) = _
    rw [threadsRegisterDataGroup, copyThreadData_eq hg]
    rfl
  rw [hrun]
  refine forThreadsOfGroup_swept hi fun j hj => ?_
  rw [registeredThread, index_div hj, hget]
  rfl

/-- The rest of `main`, when the data is registered -/
def countIterations (o : BenchOptions) (n : ℕ) : Prog Unit Threads Unit :=
  Prog.when (o.demandIter = 0) do
    getIterSingle o.measured
    Prog.forRange n (fun _ i => threadsUpdateIterations i o.demandIter) ()

theorem setUpThreads_registered (hacc : ∀ group ∈ groups, group.Accepted o.test)
    (htotal : globalNumberOfThreads groups = (groups.length * q : ℕ)) (s : Threads) :
    setUpThreads o left groups s = countIterations o groups.length
      ⟨(groups.length * q : ℕ),
        (List.range (groups.length * q)).map (registeredThread left o groups q),
        groupTable q groups.length⟩ := by
  have hregister := Prog.forRange_done (n := groups.length)
    (fun _ i => registerGroup o groups i) (fun _ => ())
    (fun i => Threads.mk (groups.length * q : ℕ) (Slots.swept (registeredThread left o groups q)
      (groupedThread left groups.length q) (groups.length * q) (i * q))
      (groupTable q groups.length)) fun i hi => registerGroup_swept left hacc hi
  rw [Nat.zero_mul, Slots.swept_zero, Slots.swept_all] at hregister
  rw [setUpThreads, htotal, Prog.bind_of_done (threadsInit_eq left _ s)]
  exact (Prog.bind_of_done (threadsCreateGroups_eq left s.threadsGroups)).trans
    (Prog.bind_of_done hregister)

/-- A thread whose iterations are counted -/
def countedThread (o : BenchOptions) (t : ThreadData) : ThreadData :=
  { t with
    data := { t.data with iter := max minIterations o.measured, cycles := 0 }
    cycles := 0 }

/-- What is known of a thread, apart from its iterations -/
structure Placed (o : BenchOptions) (groups : List Workgroup) (q g : ℕ) (t : ThreadData) : Prop
    where
  groupId : t.groupId = g / q
  threadId : t.threadId = g % q
  numberOfThreads : t.numberOfThreads = q
  data : ∃ group, groups[g / q]? = some group ∧ t.data.size = group.size ∧
    t.data.test = o.test ∧ t.data.processors = group.processorIds ∧
    t.data.streams = group.streams.map (·.ptr)

theorem placed_registered (hg : g < groups.length * q) :
    Placed o groups q g (registeredThread left o groups q g) where
  groupId := rfl
  threadId := rfl
  numberOfThreads := rfl
  data := by
    have hlt : g / q < groups.length := Nat.div_lt_of_lt_mul (by rwa [Nat.mul_comm])
    have hget := List.getElem?_eq_getElem hlt
    refine ⟨groups[g / q], hget, ?_⟩
    rw [registeredThread, hget]
    exact ⟨rfl, rfl, rfl, rfl⟩

theorem Placed.counted {t : ThreadData} (h : Placed o groups q g t) :
    Placed o groups q g (countedThread o t) := ⟨h.groupId, h.threadId, h.numberOfThreads, h.data⟩

/-- The first thread, when its iterations are measured -/
def measuredThread (o : BenchOptions) (t : ThreadData) : ThreadData :=
  { t with data := { t.data with iter := o.measured } }

/-- The threads, of which the first is measured -/
def measuredThreads (o : BenchOptions) (F : ℕ → ThreadData) (g : ℕ) : ThreadData :=
  if g < 1 then measuredThread o (F g) else F g

theorem getIterSingle_eq {N : ℕ} (hN : 0 < N) {F : ℕ → ThreadData} {tgs : List ThreadGroup}
    (hpin : ((F 0).data.processors[(F 0).threadId]?).isSome) :
    getIterSingle o.measured ⟨N, (List.range N).map F, tgs⟩ =
      .done () ⟨N, (List.range N).map (measuredThreads o F), tgs⟩ := by
  obtain ⟨cpu, hcpu⟩ := Option.isSome_iff_exists.mp hpin
  have hget : ((List.range N).map F)[0]? = some (F 0) := by
    rw [List.getElem?_map, List.getElem?_range hN]
    rfl
  rw [getIterSingle, Prog.bind_of_done (Prog.get_apply _), hget]
  show (Prog.orOutOfBounds (F 0).data.processors[(F 0).threadId]? >>= _) _ = _
  rw [hcpu]
  exact @modifyThread_swept (measuredThread o ∘ F) F _ N tgs N 0 hN rfl

theorem threadsUpdateIterations_swept {F : ℕ → ThreadData} (hi : i < n) (hq : 0 < q) :
    threadsUpdateIterations i 0
        ⟨(n * q : ℕ), Slots.swept (countedThread o ∘ F) (measuredThreads o F) (n * q) (i * q),
          groupTable q n⟩ =
      .done ()
        ⟨(n * q : ℕ), Slots.swept (countedThread o ∘ F) (measuredThreads o F) (n * q)
          ((i + 1) * q), groupTable q n⟩ := by
  have hpos : 0 < n * q := Nat.mul_pos (Nat.zero_lt_of_lt hi) hq
  have hfirst : ∃ first, (Slots.swept (countedThread o ∘ F) (measuredThreads o F) (n * q)
      (i * q))[0]? = some first ∧
        max minIterations first.data.iter = max minIterations o.measured := by
    rw [Slots.getElem?_swept hpos]
    split
    · refine ⟨_, rfl, ?_⟩
      show max minIterations (max minIterations o.measured) = _
      rw [← Nat.max_assoc, Nat.max_self]
    · exact ⟨_, rfl, rfl⟩
  obtain ⟨first, hget, hmax⟩ := hfirst
  rw [threadsUpdateIterations, Prog.bind_of_done (Prog.get_apply _), hget]
  show forThreadsOfGroup i (fun t => { t with
    data := { t.data with iter := max minIterations first.data.iter, cycles := 0 }
    cycles := 0 }) _ = _
  rw [hmax]
  refine forThreadsOfGroup_swept hi fun j hj => ?_
  rw [measuredThreads]
  split <;> rfl

theorem countIterations_done (hacc : ∀ group ∈ groups, group.Accepted o.test) (hq : 0 < q)
    (hn : 0 < groups.length) :
    ∃ F, countIterations o groups.length
        ⟨(groups.length * q : ℕ),
          (List.range (groups.length * q)).map (registeredThread left o groups q),
          groupTable q groups.length⟩ =
        .done () ⟨(groups.length * q : ℕ), (List.range (groups.length * q)).map F,
          groupTable q groups.length⟩ ∧
      ∀ g < groups.length * q, Placed o groups q g (F g) := by
  by_cases hiter : o.demandIter = 0
  · have hpos : 0 < groups.length * q := Nat.mul_pos hn hq
    have hpin : ((registeredThread left o groups q 0).data.processors[
        (registeredThread left o groups q 0).threadId]?).isSome := by
      have hplaced := placed_registered left (o := o) hpos
      obtain ⟨group, hgroup, -, -, hproc, -⟩ := hplaced.data
      have hg := hacc group (List.mem_of_getElem? hgroup)
      rw [hproc, hplaced.threadId, Nat.zero_mod]
      rw [List.getElem?_eq_getElem (hg.processorIds ▸ hg.positive)]
      rfl
    have hloop := Prog.forRange_done (n := groups.length)
      (fun _ i => threadsUpdateIterations i 0) (fun _ => ())
      (fun i => Threads.mk (groups.length * q : ℕ) (Slots.swept
        (countedThread o ∘ registeredThread left o groups q)
        (measuredThreads o (registeredThread left o groups q)) (groups.length * q) (i * q))
        (groupTable q groups.length)) fun i hi => threadsUpdateIterations_swept hi hq
    rw [Nat.zero_mul, Slots.swept_zero, Slots.swept_all] at hloop
    refine ⟨_, ?_, fun g hg => (placed_registered left hg).counted⟩
    rw [countIterations, Prog.when_of_pos hiter, hiter,
      Prog.bind_of_done (getIterSingle_eq hpos hpin)]
    exact hloop
  · exact ⟨registeredThread left o groups q, by rw [countIterations, Prog.when_of_neg hiter]; rfl,
      fun g hg => placed_registered left hg⟩

end Groups

/-! ## The threads of a group -/

theorem filter_range_div {n q i : ℕ} (hi : i < n) :
    (List.range (n * q)).filter (fun g => g / q = i) = (List.range q).map (i * q + ·) := by
  induction n with
  | zero => exact absurd hi (Nat.not_lt_zero i)
  | succ n ih =>
      rw [Nat.succ_mul, List.range_add, List.filter_append, List.filter_map]
      rcases Nat.lt_succ_iff_lt_or_eq.mp hi with hlt | rfl
      · have hrest : (List.range q).filter ((fun g => decide (g / q = i)) ∘ (n * q + ·)) = [] := by
          refine List.filter_eq_nil_iff.mpr fun j hj => ?_
          simp [index_div (List.mem_range.mp hj), Nat.ne_of_gt hlt]
        rw [ih hlt, hrest, List.map_nil, List.append_nil]
      · have hfirst : (List.range (i * q)).filter (fun g => decide (g / q = i)) = [] := by
          refine List.filter_eq_nil_iff.mpr fun g hg => ?_
          have hlt : g / q < i := Nat.div_lt_of_lt_mul (by
            rw [Nat.mul_comm]
            exact List.mem_range.mp hg)
          simp [Nat.ne_of_lt hlt]
        have hrest : (List.range q).filter ((fun g => decide (g / q = i)) ∘ (i * q + ·)) =
            List.range q := by
          refine List.filter_eq_self.mpr fun j hj => ?_
          simp [index_div (List.mem_range.mp hj)]
        rw [hfirst, hrest, List.nil_append]

section Placed

variable {o : BenchOptions} {groups : List Workgroup} {q i j : ℕ} {F : ℕ → ThreadData}
  {group : Workgroup}

theorem ofGroup_eq (hplaced : ∀ g < groups.length * q, Placed o groups q g (F g))
    (hi : i < groups.length) (total : Int) (tgs : List ThreadGroup) :
    (Threads.mk total ((List.range (groups.length * q)).map F) tgs).ofGroup i =
      (List.range q).map fun j => F (i * q + j) := by
  have hfilter : (List.range (groups.length * q)).filter
      ((fun t : ThreadData => decide (t.groupId = i)) ∘ F) =
      (List.range q).map (i * q + ·) := by
    rw [← filter_range_div hi]
    refine List.filter_congr fun g hg => ?_
    show decide ((F g).groupId = i) = _
    rw [(hplaced g (List.mem_range.mp hg)).groupId]
  rw [Threads.ofGroup, List.filter_map, hfilter, List.map_map]
  rfl

/-- A thread that is placed runs as its workgroup says. -/
theorem runsThread_placed {t : ThreadData} (ht : Placed o groups q (i * q + j) t) (hj : j < q)
    (hgroup : groups[i]? = some group) (hacc : group.Accepted o.test)
    (hcount : group.numberOfThreads = q) : RunsThread group j t := by
  obtain ⟨group', hgroup', hsize, htest, hprocessors, hstreams⟩ := ht.data
  rw [index_div hj, hgroup] at hgroup'
  obtain rfl := Option.some.inj hgroup'
  have hid := ht.threadId
  rw [index_mod hj] at hid
  have hint := hacc.int
  have hdivisor : toUInt64 t.numberOfThreads = q := by
    rw [ht.numberOfThreads, toUInt64, Int.emod_eq_of_lt (by omega) (by omega)]
    rfl
  have hlt : j < group.processorIds.length := by
    rw [hacc.processorIds, hcount]
    exact hj
  have hpinned := List.getElem?_eq_getElem hlt
  have hcopy : copyArray t.data.test.streams t.data.streams = some t.data.streams :=
    copyArray_length (by rw [hstreams, htest, List.length_map, hacc.streams])
  refine ⟨hid, by rw [ht.numberOfThreads, hcount], hsize, hstreams, ?_⟩
  refine ⟨⟨t.data.size, threadSize t, threadOffset t,
    t.data.streams.map (· + threadOffset t * t.data.test.type.bytes), group.processorIds[j]⟩,
    ?_, hpinned⟩
  rw [runTest, if_neg (by omega)]
  show (copyArray t.data.test.streams t.data.streams).bind _ = _
  rw [hcopy]
  show (t.data.processors[t.threadId]?).bind _ = _
  rw [hid, hprocessors, hpinned]
  rfl

theorem runsGroup_placed (hplaced : ∀ g < groups.length * q, Placed o groups q g (F g))
    (hgroup : groups[i]? = some group) (hacc : group.Accepted o.test)
    (hcount : group.numberOfThreads = q) (total : Int) :
    RunsGroup ⟨total, (List.range (groups.length * q)).map F, groupTable q groups.length⟩ i
      group := by
  have hi : i < groups.length := (List.getElem?_eq_some_iff.mp hgroup).1
  have hof := ofGroup_eq hplaced hi total (groupTable q groups.length)
  refine ⟨⟨_, getElem?_groupTable hi, by rw [hcount], ?_⟩, ?_, ?_⟩
  · rw [hof, List.map_map, List.map_map]
    refine List.map_congr_left fun j hj => ?_
    show ((List.range (groups.length * q)).map F)[i * q + j]? = some (F (i * q + j))
    rw [List.getElem?_map, List.getElem?_range (group_index_lt hi (List.mem_range.mp hj))]
    rfl
  · rw [hof, List.length_map, List.length_range, hcount]
  · intro j t ht
    rw [hof, List.getElem?_map] at ht
    obtain ⟨j', hj', rfl⟩ := Option.map_eq_some_iff.mp ht
    obtain ⟨hj, hval⟩ := List.getElem?_eq_some_iff.mp hj'
    rw [List.getElem_range] at hval
    subst hval
    rw [List.length_range] at hj
    exact runsThread_placed (hplaced _ (group_index_lt hi hj)) hj hgroup hacc hcount

end Placed

/-! ## The totals -/

section Totals

variable {groups : List Workgroup}

/-- The number of all threads, without a bound -/
def totalThreads (groups : List Workgroup) : ℕ := (groups.map (·.numberOfThreads)).sum

theorem globalNumberOfThreads_eq (groups : List Workgroup) :
    globalNumberOfThreads groups = toInt32 (totalThreads groups) := by
  suffices h : ∀ n : Int, groups.foldl (fun n group => toInt32 (n + group.numberOfThreads))
      (toInt32 n) = toInt32 (n + totalThreads groups) from by
    have hzero := h 0
    rwa [Int.zero_add] at hzero
  induction groups with
  | nil =>
      intro n
      rw [totalThreads]
      simp
  | cons group groups ih =>
      intro n
      have hsum : totalThreads (group :: groups) = group.numberOfThreads + totalThreads groups :=
        rfl
      rw [List.foldl_cons, toInt32, toInt32, Int.bmod_add_bmod]
      show groups.foldl _ (toInt32 (n + group.numberOfThreads)) = _
      rw [ih, hsum, Int.natCast_add, Int.add_assoc]

/-- All workgroups have as many threads, and all threads can be counted. -/
def EqualGroups (groups : List Workgroup) : Prop :=
  ∃ q, (∀ group ∈ groups, group.numberOfThreads = q) ∧ groups.length * q < 2 ^ 31

/-- The number of all threads is a negative `int` that the groups divide. -/
def StopsOnTotal (groups : List Workgroup) : Prop :=
  toInt32 (totalThreads groups) < 0 ∧ (groups.length : Int) ∣ toInt32 (totalThreads groups)

theorem totalThreads_of_equal {q : ℕ} (h : ∀ group ∈ groups, group.numberOfThreads = q) :
    totalThreads groups = groups.length * q := by
  induction groups with
  | nil => rw [List.length_nil, Nat.zero_mul]; rfl
  | cons group groups ih =>
      have hsum : totalThreads (group :: groups) = group.numberOfThreads + totalThreads groups :=
        rfl
      rw [hsum, ih fun group' hmem => h group' (List.mem_cons_of_mem _ hmem),
        h group List.mem_cons_self, List.length_cons, Nat.succ_mul, Nat.add_comm]

theorem toInt32_of_lt {n : ℕ} (h : n < 2 ^ 31) : toInt32 n = n :=
  Int.bmod_eq_of_le (by omega) (by omega)

end Totals

/-! ## The set-up -/

section SetUp

variable (left : ℕ → ThreadData) {o : BenchOptions} {groups : List Workgroup} {s : Threads}

theorem setUpThreads_halt {k : Prog.Halt} (hne : groups ≠ [])
    (h : ∀ s : Threads, s.numThreads = globalNumberOfThreads groups →
      createGroup groups.length 0 0 s = .halt k) :
    setUpThreads o left groups s = .halt k := by
  have hrun : ∀ s : Threads, s.numThreads = globalNumberOfThreads groups →
      threadsCreateGroups groups.length s = .halt k := by
    intro s hs
    rw [threadsCreateGroups, Prog.bind_of_done (Prog.modify_apply _ _)]
    exact Prog.bind_of_halt (Prog.forRange_halt (List.length_pos_of_ne_nil hne) (h _ hs))
  rw [setUpThreads]
  exact (Prog.bind_of_done rfl).trans (Prog.bind_of_halt (hrun _ rfl))

/-- A rest of the division leaves the size of the groups without a value. -/
theorem setUpThreads_undefined (hne : groups ≠ [])
    (h : ¬(groups.length : Int) ∣ globalNumberOfThreads groups) :
    setUpThreads o left groups s = .halt .undefined := by
  refine setUpThreads_halt left hne fun s hs => ?_
  have hper : numThreadsPerGroup s.numThreads groups.length = none := by
    rw [hs, numThreadsPerGroup, if_pos fun hmod => h (Int.dvd_of_tmod_eq_zero hmod)]
  rw [createGroup, Prog.bind_of_done (Prog.get_apply _), hper]
  rfl

/-- A negative size makes `malloc` fail. -/
theorem setUpThreads_exited (hne : groups ≠ []) {z : Int} (hz : z < 0)
    (h : globalNumberOfThreads groups = groups.length * z) :
    setUpThreads o left groups s = .halt .exited := by
  refine setUpThreads_halt left hne fun s hs => ?_
  have hsome : (Prog.orUndefined (some z) : Prog Unit Threads Int) = pure z := rfl
  rw [createGroup, Prog.bind_of_done (Prog.get_apply _), hs, h,
    numThreadsPerGroup_mul (List.length_pos_of_ne_nil hne), hsome, Prog.bind_pure_left,
    Prog.when_of_pos hz]
  rfl

theorem setUpThreads_done (hne : groups ≠ []) (hacc : ∀ group ∈ groups, group.Accepted o.test)
    {q : ℕ} (hq : 0 < q) (htotal : globalNumberOfThreads groups = (groups.length * q : ℕ)) :
    ∃ F, setUpThreads o left groups s =
        .done () ⟨(groups.length * q : ℕ), (List.range (groups.length * q)).map F,
          groupTable q groups.length⟩ ∧
      ∀ g < groups.length * q, Placed o groups q g (F g) := by
  rw [setUpThreads_registered left hacc htotal s]
  exact countIterations_done left hacc hq (List.length_pos_of_ne_nil hne)

/-- Groups without a thread are not what the workgroups ask for. -/
theorem not_setsUpThreads_zero (hne : groups ≠ []) (hacc : ∀ group ∈ groups, group.Accepted o.test)
    (htotal : globalNumberOfThreads groups = 0) : ¬SetsUpThreads o left groups s := by
  intro h
  rw [SetsUpThreads, setUpThreads_registered (q := 0) left hacc htotal s, Nat.mul_zero] at h
  rcases Nat.eq_zero_or_pos o.demandIter with hzero | hpos
  · rw [countIterations, Prog.when_of_pos hzero] at h
    cases h
  · rw [countIterations, Prog.when_of_neg (Nat.ne_of_gt hpos)] at h
    have hi : 0 < groups.length := List.length_pos_of_ne_nil hne
    have hrun := h.1 0 groups[0] (List.getElem?_eq_getElem hi)
    have hpositive := (hacc groups[0] (List.getElem_mem hi)).positive
    rw [← hrun.count] at hpositive
    exact Nat.lt_irrefl 0 hpositive

/-- Groups of one size run as the workgroups say if that is what all workgroups ask for. -/
theorem setsUpThreads_of_total (hne : groups ≠ [])
    (hacc : ∀ group ∈ groups, group.Accepted o.test) {q : ℕ}
    (htotal : globalNumberOfThreads groups = (groups.length * q : ℕ)) :
    SetsUpThreads o left groups s ↔ ∀ group ∈ groups, group.numberOfThreads = q := by
  have hpos : 0 < groups.length := List.length_pos_of_ne_nil hne
  rcases Nat.eq_zero_or_pos q with rfl | hq
  · refine iff_of_false (not_setsUpThreads_zero left hne hacc htotal) fun hall => ?_
    have hpositive := (hacc groups[0] (List.getElem_mem hpos)).positive
    rw [hall groups[0] (List.getElem_mem hpos)] at hpositive
    exact Nat.lt_irrefl 0 hpositive
  · obtain ⟨F, hrun, hplaced⟩ := setUpThreads_done (s := s) left hne hacc hq htotal
    rw [SetsUpThreads, hrun]
    constructor
    · rintro ⟨hgroups, -⟩ group hmem
      obtain ⟨i, hi, rfl⟩ := List.mem_iff_getElem.mp hmem
      obtain ⟨tg, htg, hcount, -⟩ := (hgroups i _ (List.getElem?_eq_getElem hi)).table
      rw [getElem?_groupTable hi] at htg
      obtain rfl := Option.some.inj htg
      exact (Int.ofNat.inj hcount).symm
    · refine fun hall => ⟨fun i group hgroup => ?_, fun t ht => ?_⟩
      · have hmem := List.mem_of_getElem? hgroup
        exact runsGroup_placed hplaced hgroup (hacc group hmem) (hall group hmem) _
      · obtain ⟨g, hg, rfl⟩ := List.mem_map.mp ht
        have hlt := List.mem_range.mp hg
        rw [(hplaced g hlt).groupId]
        exact Nat.div_lt_of_lt_mul (by rwa [Nat.mul_comm])

/-- **The threads run as the workgroups say** exactly if all workgroups have as many threads,
or the number of all threads is no `int` and the run stops. -/
theorem setsUpThreads_iff (hne : groups ≠ []) (hacc : ∀ group ∈ groups, group.Accepted o.test) :
    SetsUpThreads o left groups s ↔ EqualGroups groups ∨ StopsOnTotal groups := by
  have hpos : 0 < groups.length := List.length_pos_of_ne_nil hne
  have hglobal := globalNumberOfThreads_eq groups
  by_cases hdvd : (groups.length : Int) ∣ toInt32 (totalThreads groups)
  · obtain ⟨z, hz⟩ := hdvd
    rcases Int.lt_or_le z 0 with hneg | hnonneg
    · have hlt : toInt32 (totalThreads groups) < 0 := by
        rw [hz]
        exact Int.mul_neg_of_pos_of_neg (by omega) hneg
      refine iff_of_true ?_ (Or.inr ⟨hlt, ⟨z, hz⟩⟩)
      rw [SetsUpThreads, setUpThreads_exited left hne hneg (hglobal.trans hz)]
    · obtain ⟨q, rfl⟩ := Int.eq_ofNat_of_zero_le hnonneg
      rw [← Int.natCast_mul] at hz
      have hbound : toInt32 (totalThreads groups) < 2 ^ 31 := Int.bmod_lt (by decide)
      have hstop : ¬StopsOnTotal groups := by
        rintro ⟨hlt, -⟩
        omega
      rw [or_iff_left hstop, setsUpThreads_of_total left hne hacc (hglobal.trans hz)]
      constructor
      · exact fun hall => ⟨q, hall, by omega⟩
      · rintro ⟨q', hall, hlt⟩
        have htotal := totalThreads_of_equal hall
        rw [htotal, toInt32_of_lt hlt] at hz
        have hq : q' = q := Nat.eq_of_mul_eq_mul_left hpos (Int.ofNat.inj hz)
        exact hq ▸ hall
  · refine iff_of_false (fun h => ?_) ?_
    · rw [SetsUpThreads, setUpThreads_undefined left hne (hglobal ▸ hdvd)] at h
      cases h
    · rintro (⟨q, hall, hlt⟩ | hstop)
      · rw [totalThreads_of_equal hall] at hdvd
        rw [toInt32_of_lt hlt, Int.natCast_mul] at hdvd
        exact hdvd (Int.dvd_mul_right _ _)
      · exact hdvd hstop.2

end SetUp

/-- The vector copy -/
def copyTest : TestCase := ⟨2, .double, 4, by decide⟩

/-- The vector copy, for one workgroup on the node and two streams -/
def copyOptions : BenchOptions where
  test := copyTest
  iter := 100
  demandIter := 0
  minRuntime := 1
  measured := 64

/-- A workgroup of the first CPUs -/
def copyGroup (numberOfThreads : ℕ) : Workgroup where
  numberOfThreads := numberOfThreads
  processorIds := (List.range numberOfThreads).map fun i : ℕ => some (i : Int)
  size := 1000
  streams := [⟨some ['N'], some 0, 4096⟩, ⟨some ['N'], some 0, 16384⟩]

theorem copyGroup_accepted {n : ℕ} (h : 0 < n) (hint : n < 2 ^ 31) :
    (copyGroup n).Accepted copyOptions.test :=
  ⟨h, hint, by rw [copyGroup, List.length_map, List.length_range], rfl⟩

/-- What is in memory at first -/
def freshThread (_ : ℕ) : ThreadData :=
  ⟨0, 0, 0, 0, 0, 0, 0, ⟨0, 0, 0, copyOptions.test, 0, 0, [], []⟩⟩

theorem setsUpThreads_twoGroups :
    SetsUpThreads copyOptions freshThread [copyGroup 2, copyGroup 2] ⟨0, [], []⟩ :=
  (setsUpThreads_iff freshThread (List.cons_ne_nil _ _) (by
    intro group hmem
    obtain rfl : group = copyGroup 2 := by simpa using hmem
    exact copyGroup_accepted (by decide) (by decide))).mpr
    (Or.inl ⟨2, fun group hmem => by
      obtain rfl : group = copyGroup 2 := by simpa using hmem
      rfl, by decide⟩)

/-- A workgroup of one thread and one of three: both get two threads, and the second thread
of the first has no processor. -/
theorem not_setsUpThreads_unequal :
    (∀ group ∈ [copyGroup 1, copyGroup 3], group.Accepted copyOptions.test) ∧
      ¬SetsUpThreads copyOptions freshThread [copyGroup 1, copyGroup 3] ⟨0, [], []⟩ := by
  have hacc : ∀ group ∈ [copyGroup 1, copyGroup 3], group.Accepted copyOptions.test := by
    intro group hmem
    rcases List.mem_pair.mp hmem with rfl | rfl
    · exact copyGroup_accepted (by decide) (by decide)
    · exact copyGroup_accepted (by decide) (by decide)
  refine ⟨hacc, fun h => ?_⟩
  have hall := (setsUpThreads_of_total (q := 2) freshThread (List.cons_ne_nil _ _) hacc
    (by decide)).mp h
  exact absurd (hall (copyGroup 1) List.mem_cons_self) (by decide)

end Likwid
