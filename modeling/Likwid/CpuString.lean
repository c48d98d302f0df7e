import Likwid.Affinity
import Likwid.Lib.Loop
import Likwid.Lib.Scan
import Mathlib.Data.List.Infix
import Mathlib.Algebra.GroupWithZero.Nat

/-!
# Lists of CPUs from strings (`cpustring.c`)

A string of CPUs is made of parts with `@` between them; each part is an expression, a
logical list, a physical list or a scatter expression. The parsers insert one CPU after the
other and end when the list is full. What an expression inserts is `expressionCpus_full` and
`expressionCpus_empty`.
-/

namespace Likwid

/-- An entry of an array of CPUs; `none` is what stands in memory that was never written. -/
abbrev CpuCell := Option Int

/-- What becomes of a value that is compared with a `uint32_t`. -/
def toUInt32 (z : Int) : ℕ := (z % 2 ^ 32).toNat

/-- `cpulist[insert] = cpu`, and the end of the parser when the list is full. A list of length 0 is
never found full. -/
def insertCpu (length : ℕ) (cpu : CpuCell) : Prog Unit (List CpuCell) Unit := do
  let cpulist ← Prog.get
  Prog.modify (· ++ [cpu])
  Prog.when (cpulist.length + 1 = length) (Prog.ret ())

def insertCpus (length : ℕ) (cpus : List CpuCell) : Prog Unit (List CpuCell) Unit :=
  cpus.foldlM (fun _ cpu => insertCpu length cpu) ()

/-- A parser that returns the number of CPUs it inserted -/
def inserted (m : Prog Unit (List CpuCell) Unit) : Except Prog.Halt (List CpuCell) :=
  match m [] with
  | .done _ cpulist => .ok cpulist
  | .ret _ cpulist => .ok cpulist
  | .halt h => .error h

/-! ## Expressions -/

/-- The entries of a chunk: the rounds over `j` go on as long as `offset + j` is in the
domain. -/
def chunkCells (domain : AffinityDomain) (chunk : Int) (offset : ℕ) : List CpuCell :=
  (List.range (min chunk.toNat (domain.numberOfProcessors - offset))).map fun j =>
    domain.processorList (offset + j)

/-- `offset += stride`, and 0 behind the domain -/
def nextOffset (domain : AffinityDomain) (stride : Int) (offset : ℕ) : ℕ :=
  if domain.numberOfProcessors ≤ toUInt32 (offset + stride) then 0
  else toUInt32 (offset + stride)

/-- One round over `i` -/
def expressionRound (domain : AffinityDomain) (length : ℕ) (count chunk stride : Int)
    (offset : ℕ) : Prog Unit (List CpuCell) ℕ := do
  insertCpus length (chunkCells domain chunk offset)
  let cpulist ← Prog.get
  Prog.when (count ≤ cpulist.length) (Prog.ret ())
  pure (nextOffset domain stride offset)

def expressionCpus (aff : List AffinityDomain) (bdomain : List Char) (count chunk stride : Int)
    (length : ℕ) : Except Prog.Halt (List CpuCell) :=
  match aff.find? (·.tag = bdomain) with
  | none => .ok []
  | some domain =>
      match Prog.forRange count.toNat
        (fun offset _ => expressionRound domain length count chunk stride offset) 0 [] with
      -- the loop over `i` has come to its end: 0 is returned
      | .done _ _ => .ok []
      | .ret _ cpulist => .ok cpulist
      | .halt h => .error h

/-- `bdomain` is not initialised for other numbers of fields. -/
def cpustrToCpulistExpression (aff : List AffinityDomain) (bcpustr : List Char) (length : ℕ) :
    Except Prog.Halt (List CpuCell) :=
  if bcpustr.head? ≠ some 'E' then .ok []
  else
    match bcpustr.splitOn ':' with
    | [_, bdomain, count] => expressionCpus aff bdomain (Scan.atoi count) 1 1 length
    | [_, bdomain, count, chunk, stride] =>
        expressionCpus aff bdomain (Scan.atoi count) (Scan.atoi chunk) (Scan.atoi stride) length
    | _ => .error .undefined

/-! ## Lists -/

/-- `cpulist_sort`: the first hardware threads of all cores, then the second ones, … -/
def cpulistSort (numThreadsPerCore : ℕ) (incpus : ℕ → CpuCell) (length : ℕ) : List CpuCell :=
  (List.range numThreadsPerCore).flatMap fun off =>
    (List.range (length / numThreadsPerCore)).map fun i => incpus (i * numThreadsPerCore + off)

/-- `for (j = a; j <= b; j++)`, or downwards; behind the last `int` it has no meaning. -/
def forInts (a b : Int) (body : Int → Prog Unit (List CpuCell) Unit) :
    Prog Unit (List CpuCell) Unit :=
  if a ≤ b then do
    Prog.forRange (b - a + 1).toNat (fun _ k => body (a + k)) ()
    Prog.when (b = 2 ^ 31 - 1) (Prog.halt .undefined)
  else do
    Prog.forRange (a - b + 1).toNat (fun _ k => body (a - k)) ()
    Prog.when (b = -2 ^ 31) (Prog.halt .undefined)

/-- The numbers and ranges of a list, one after the other -/
def forEntries (blist : List Char) (body : Int → Prog Unit (List CpuCell) Unit) :
    Prog Unit (List CpuCell) Unit :=
  (blist.splitOn ',').foldlM
    (fun _ entry =>
      if '-' ∈ entry then
        match entry.splitOn '-' with
        | a :: b :: _ => forInts (Scan.atoi a) (Scan.atoi b) body
        | _ => Prog.halt .undefined
      else body (Scan.atoi entry)) ()

/-- `inlist[j]`, with `inlist` sorted; what stands outside of the list is unknown. -/
def inlistCell (numThreadsPerCore : ℕ) (domain : AffinityDomain) (j : Int) : CpuCell :=
  if 0 ≤ j then
    (cpulistSort numThreadsPerCore domain.processorList domain.numberOfProcessors)[j.toNat]?.join
  else none

/-- `cpulist[insert] = inlist[j]` -/
def insertLogical (numThreadsPerCore : ℕ) (domain : AffinityDomain) (length : ℕ) (j : Int) :
    Prog Unit (List CpuCell) Unit :=
  insertCpu length (inlistCell numThreadsPerCore domain j)

def cpustrToCpulistLogical (topo : CpuTopology) (aff : List AffinityDomain)
    (bcpustr : List Char) (length : ℕ) : Except Prog.Halt (List CpuCell) :=
  if bcpustr.head? ≠ some 'L' then .ok []
  else
    match bcpustr.splitOn ':' with
    | [_, bdomain, blist] =>
        match aff.find? (·.tag = bdomain) with
        | none => .ok []
        | some domain =>
            inserted (forEntries blist
              (insertLogical topo.numThreadsPerCore.toNat domain length))
    | _ => .ok []

def cpuInDomain (domain : AffinityDomain) (cpu : Int) : Bool :=
  (List.range domain.numberOfProcessors).any fun i => domain.processorList i = some cpu

def insertPhysical (domain : AffinityDomain) (length : ℕ) (cpu : Int) :
    Prog Unit (List CpuCell) Unit :=
  Prog.when (cpuInDomain domain cpu) (insertCpu length (some cpu))

def cpustrToCpulistPhysical (aff : List AffinityDomain) (bcpustr : List Char) (length : ℕ) :
    Except Prog.Halt (List CpuCell) :=
  let (bdomain, blist) :=
    match bcpustr.splitOn ':' with
    | bdomain :: blist :: _ => (bdomain, blist)
    | _ => (['N'], bcpustr)
  match aff.find? (·.tag = bdomain) with
  | none => .ok []
  | some domain => inserted (forEntries blist (insertPhysical domain length))

/-! ## Scatter expressions -/

/-- `cpulist_sort` to `sortedList`, which is allocated for `size` entries -/
def sortInto (numThreadsPerCore size : ℕ) (domain : AffinityDomain) (sortedList : ℕ → CpuCell) :
    Prog Unit (List CpuCell) (ℕ → CpuCell) := do
  let sorted := cpulistSort numThreadsPerCore domain.processorList domain.numberOfProcessors
  Prog.when (size < sorted.length) (Prog.halt .outOfBounds)
  pure fun p => if p < sorted.length then sorted[p]?.join else sortedList p

/-- One round over `off`, over all domains -/
def scatterRound (numThreadsPerCore size length : ℕ) (suitable : List AffinityDomain)
    (sortedList : ℕ → CpuCell) (off : ℕ) : Prog Unit (List CpuCell) (ℕ → CpuCell) :=
  suitable.foldlM
    (fun sortedList domain => do
      let sortedList ← sortInto numThreadsPerCore size domain sortedList
      insertCpu length (sortedList off)
      pure sortedList) sortedList

/-- The domains are those with the first character of the string in their tag; without one,
`suitable[0]` is not initialised. -/
def cpustrToCpulistScatter (topo : CpuTopology) (aff : List AffinityDomain)
    (bcpustr : List Char) (length : ℕ) : Except Prog.Halt (List CpuCell) :=
  if ':' ∈ bcpustr then
    match aff.filter fun domain => bcpustr.head?.any (· ∈ domain.tag) with
    | [] => .error .undefined
    | first :: rest =>
        inserted do
          let _ ← Prog.forRange first.numberOfProcessors
            (scatterRound topo.numThreadsPerCore.toNat first.numberOfProcessors length
              (first :: rest)) fun _ => none
          pure ()
  else .ok []

/-! ## All parts -/

/-- The keyword of a scatter expression -/
def scatterKeyword : List Char := ['s', 'c', 'a', 't', 't', 'e', 'r']

/-- The string begins with the tag of a domain. -/
def IsTagged (bcpustr : List Char) : Prop :=
  bcpustr.head?.any (· ∈ ['N', 'S', 'C', 'M']) ∧ ':' ∈ bcpustr

instance (bcpustr : List Char) : Decidable (IsTagged bcpustr) :=
  inferInstanceAs (Decidable (_ ∧ _))

/-- One round of the loop of `cpustr_to_cpulist`: in a cpuset, lists are logical ones. -/
def cpustrToCpulistPart (topo : CpuTopology) (aff : List AffinityDomain) (part : List Char)
    (length : ℕ) : Except Prog.Halt (List CpuCell) :=
  if scatterKeyword <:+: part then cpustrToCpulistScatter topo aff part length
  else if part.head? = some 'E' then cpustrToCpulistExpression aff part length
  else if part.head? = some 'L' then cpustrToCpulistLogical topo aff part length
  else if topo.activeHWThreads.toNat < topo.numHWThreads.toNat then
    if IsTagged part then cpustrToCpulistLogical topo aff ('L' :: ':' :: part) length
    else cpustrToCpulistLogical topo aff ('L' :: ':' :: 'N' :: ':' :: part) length
  else if IsTagged part then cpustrToCpulistLogical topo aff ('L' :: ':' :: part) length
  else cpustrToCpulistPhysical aff part length

/-- `cpulist_concat`, for an array of `length` entries -/
def cpulistConcat (length : ℕ) (cpulist addlist : List CpuCell) :
    Except Prog.Halt (List CpuCell) :=
  if cpulist.length + addlist.length ≤ length then .ok (cpulist ++ addlist)
  else .error .outOfBounds

def cpustrToCpulist (topo : CpuTopology) (aff : List AffinityDomain) (cpustring : List Char)
    (length : ℕ) : Except Prog.Halt (List CpuCell) :=
  (cpustring.splitOn '@').foldlM
    (fun cpulist part => do
      let tmpList ← cpustrToCpulistPart topo aff part length
      cpulistConcat length cpulist tmpList) []

/-! ## What is inserted -/

section Insert

variable {length : ℕ} {cpu : CpuCell} {cpus l : List CpuCell}

theorem insertCpu_done (h : l.length + 1 ≠ length) :
    insertCpu length cpu l = .done () (l ++ [cpu]) := by
  rw [insertCpu, Prog.bind_of_done (Prog.get_apply _), Prog.bind_of_done (Prog.modify_apply _ _),
    Prog.when_of_neg h]
  rfl

theorem insertCpu_full (h : l.length + 1 = length) :
    insertCpu length cpu l = .ret () (l ++ [cpu]) := by
  rw [insertCpu, Prog.bind_of_done (Prog.get_apply _), Prog.bind_of_done (Prog.modify_apply _ _),
    Prog.when_of_pos h]
  rfl

theorem insertCpus_append (cpus cpus' : List CpuCell) : insertCpus length (cpus ++ cpus') =
    (insertCpus length cpus >>= fun _ => insertCpus length cpus') := by
  induction cpus with
  | nil => rfl
  | cons cpu cpus ih =>
      unfold insertCpus at ih ⊢
      rw [List.cons_append, List.foldlM_cons, List.foldlM_cons, Prog.bind_assoc]
      exact congrArg _ (funext fun _ => ih)

/-- Without a length, or with room for all, every CPU is inserted. -/
theorem insertCpus_done (h : length = 0 ∨ l.length + cpus.length < length) :
    insertCpus length cpus l = .done () (l ++ cpus) := by
  induction cpus generalizing l with
  | nil => rw [List.append_nil]; rfl
  | cons cpu cpus ih =>
      rw [List.length_cons] at h
      rw [insertCpus, List.foldlM_cons, Prog.bind_of_done (insertCpu_done (by omega)),
        List.append_cons l cpu cpus]
      exact ih (by rw [List.length_append, List.length_singleton]; omega)

/-- The parser ends with a full list. -/
theorem insertCpus_full (h : l.length < length) (hfull : length ≤ l.length + cpus.length) :
    insertCpus length cpus l = .ret () (l ++ cpus.take (length - l.length)) := by
  induction cpus generalizing l with
  | nil => exact absurd h (Nat.not_lt_of_le hfull)
  | cons cpu cpus ih =>
      rw [List.length_cons] at hfull
      rw [insertCpus, List.foldlM_cons]
      obtain ⟨rest, hrest⟩ := Nat.exists_eq_add_of_lt h
      have hsub : length - l.length = rest + 1 := by omega
      rw [hsub, List.take_succ_cons]
      cases rest with
      | zero =>
          rw [Prog.bind_of_ret (insertCpu_full (by omega)), List.take_zero]
      | succ rest =>
          rw [Prog.bind_of_done (insertCpu_done (by omega)),
            List.append_cons l cpu (cpus.take (rest + 1))]
          have hlen : (l ++ [cpu]).length = l.length + 1 := by
            rw [List.length_append, List.length_singleton]
          have hnext : length - (l ++ [cpu]).length = rest + 1 := by omega
          have hrun := ih (l := l ++ [cpu]) (by omega) (by omega)
          rwa [hnext] at hrun

end Insert

/-! ## What an expression names -/

/-- An entry of the list of a domain -/
def AffinityDomain.HasCell (domain : AffinityDomain) (cpu : CpuCell) : Prop :=
  ∃ p < domain.numberOfProcessors, domain.processorList p = cpu

section Expression

variable {aff : List AffinityDomain} {domain : AffinityDomain} {bdomain : List Char}
  {chunk stride count : Int} {length offset : ℕ} {l : List CpuCell}

theorem hasCell_of_mem_chunk {cpu : CpuCell} (h : cpu ∈ chunkCells domain chunk offset) :
    domain.HasCell cpu := by
  obtain ⟨j, hj, rfl⟩ := List.mem_map.mp h
  have hlt := List.mem_range.mp hj
  exact ⟨offset + j, by omega, rfl⟩

/-- A round with entries to insert goes on in the domain, with more CPUs, or ends the parser
with a full list. -/
theorem expressionRound_cases (stride : Int)
    (hoffset : offset < domain.numberOfProcessors) (hchunk : 0 < chunk)
    (hl : l.length < length) (hcells : ∀ cpu ∈ l, domain.HasCell cpu) :
    (∃ l', expressionRound domain length length chunk stride offset l = .ret () l' ∧
        l'.length = length ∧ ∀ cpu ∈ l', domain.HasCell cpu) ∨
      ∃ next l', expressionRound domain length length chunk stride offset l = .done next l' ∧
        next < domain.numberOfProcessors ∧ l.length < l'.length ∧ l'.length < length ∧
        ∀ cpu ∈ l', domain.HasCell cpu := by
  have hlen : (chunkCells domain chunk offset).length =
      min chunk.toNat (domain.numberOfProcessors - offset) := by
    rw [chunkCells, List.length_map, List.length_range]
  rcases Nat.lt_or_ge (l.length + (chunkCells domain chunk offset).length) length with hlt | hge
  · right
    have hcells' : ∀ cpu ∈ l ++ chunkCells domain chunk offset, domain.HasCell cpu := by
      intro cpu hcpu
      rcases List.mem_append.mp hcpu with hmem | hmem
      · exact hcells cpu hmem
      · exact hasCell_of_mem_chunk hmem
    have hlen' : (l ++ chunkCells domain chunk offset).length =
        l.length + (chunkCells domain chunk offset).length := List.length_append
    refine ⟨nextOffset domain stride offset, l ++ chunkCells domain chunk offset, ?_, ?_,
      by omega, by omega, hcells'⟩
    · rw [expressionRound, Prog.bind_of_done (insertCpus_done (Or.inr hlt)),
        Prog.bind_of_done (Prog.get_apply _)]
      show (Prog.when ((length : Int) ≤ ((l ++ chunkCells domain chunk offset).length : ℕ)) _ >>=
        _) _ = _
      rw [Prog.when_of_neg (by omega)]
      rfl
    · rw [nextOffset]
      split
      · omega
      · omega
  · left
    refine ⟨l ++ (chunkCells domain chunk offset).take (length - l.length), ?_, ?_, ?_⟩
    · rw [expressionRound]
      exact Prog.bind_of_ret (insertCpus_full hl hge)
    · rw [List.length_append, List.length_take]
      omega
    · intro cpu hcpu
      rcases List.mem_append.mp hcpu with hmem | hmem
      · exact hcells cpu hmem
      · exact hasCell_of_mem_chunk (List.mem_of_mem_take hmem)

theorem expressionRounds_full {α : Type} (stride : Int) (rounds : List α)
    (hoffset : offset < domain.numberOfProcessors) (hchunk : 0 < chunk) (hl : l.length < length)
    (hrounds : length ≤ l.length + rounds.length) (hcells : ∀ cpu ∈ l, domain.HasCell cpu) :
    ∃ l', rounds.foldlM (fun offset _ => expressionRound domain length length chunk stride offset)
        offset l = .ret () l' ∧ l'.length = length ∧ ∀ cpu ∈ l', domain.HasCell cpu := by
  induction rounds generalizing offset l with
  | nil => exact absurd hl (Nat.not_lt_of_le hrounds)
  | cons r rounds ih =>
      rw [List.length_cons] at hrounds
      rw [List.foldlM_cons]
      rcases expressionRound_cases stride hoffset hchunk hl hcells with
        ⟨l', hrun, hfull⟩ | ⟨next, l', hrun, hnext, hmore, hlt, hcells'⟩
      · exact ⟨l', Prog.bind_of_ret hrun, hfull⟩
      · rw [Prog.bind_of_done hrun]
        exact ih hnext hlt (by omega) hcells'

theorem expressionCpus_full (stride : Int)
    (hfind : aff.find? (·.tag = bdomain) = some domain)
    (hprocessors : 0 < domain.numberOfProcessors) (hchunk : 0 < chunk) (hlength : 0 < length) :
    ∃ l, expressionCpus aff bdomain length chunk stride length = .ok l ∧ l.length = length ∧
      ∀ cpu ∈ l, domain.HasCell cpu := by
  obtain ⟨l, hrun, hfull⟩ := expressionRounds_full (l := []) stride
    (List.range length) hprocessors hchunk hlength (by
      rw [List.length_range]
      exact Nat.le_add_left ..)
    (fun cpu hcpu => nomatch hcpu)
  refine ⟨l, ?_, hfull⟩
  simp only [expressionCpus, hfind, Prog.forRange, Int.toNat_natCast, hrun]

/-- Without a count, a chunk or a CPU, nothing is named. -/
theorem expressionCpus_empty (h : ∀ domain, aff.find? (·.tag = bdomain) = some domain →
      ¬(0 < domain.numberOfProcessors ∧ 0 < count ∧ 0 < chunk)) :
    expressionCpus aff bdomain count chunk stride length = .ok [] := by
  rw [expressionCpus]
  split
  · rfl
  · next domain hfind =>
      have hempty := h domain hfind
      rcases Int.lt_or_le 0 count with hcount | hcount
      · have hcells : ∀ offset, chunkCells domain chunk offset = [] := by
          intro offset
          have hzero : min chunk.toNat (domain.numberOfProcessors - offset) = 0 := by omega
          rw [chunkCells, hzero]
          rfl
        have hround : ∀ offset, expressionRound domain length count chunk stride offset [] =
            .done (nextOffset domain stride offset) [] := by
          intro offset
          rw [expressionRound, hcells]
          show (Prog.when (count ≤ (0 : ℕ)) _ >>= _) _ = _
          rw [Prog.when_of_neg (by omega)]
          rfl
        have hrounds : ∀ (rounds : List ℕ) (offset : ℕ), ∃ next,
            rounds.foldlM (fun offset _ => expressionRound domain length count chunk stride offset)
              offset [] = .done next [] := by
          intro rounds
          induction rounds with
          | nil => exact fun offset => ⟨offset, rfl⟩
          | cons r rounds ih =>
              intro offset
              rw [List.foldlM_cons, Prog.bind_of_done (hround offset)]
              exact ih _
        obtain ⟨next, hrun⟩ := hrounds (List.range count.toNat) 0
        rw [Prog.forRange, hrun]
      · rw [Int.toNat_of_nonpos hcount]
        rfl

end Expression

/-! ## The domains of a machine -/

/-- The table of the domains, as `affinity_init` names them; their lists are written. -/
structure CpuDomains where
  domains : List AffinityDomain
  tag : ∀ d ∈ domains, d.tag = ['N'] ∨
    ∃ t ∈ ['S', 'C', 'M'], ∃ i : ℕ, d.tag = t :: Text.decimal i
  written : ∀ d ∈ domains, ∀ cpu, d.HasCell cpu → cpu ≠ none

/-- A CPU of a domain with this tag -/
def InDomain (aff : List AffinityDomain) (tag : List Char) (cpu : CpuCell) : Prop :=
  ∃ d ∈ aff, d.tag = tag ∧ d.HasCell cpu

theorem CpuDomains.not_mem_tag (aff : CpuDomains) {d : AffinityDomain} (hd : d ∈ aff.domains) :
    'E' ∉ d.tag := by
  rcases aff.tag d hd with htag | ⟨t, ht, i, htag⟩
  · rw [htag]
    decide
  · rw [htag]
    intro hmem
    rcases List.mem_cons.mp hmem with rfl | hdigit
    · exact absurd ht (by decide)
    · exact absurd (Text.isDigit_of_mem_decimal hdigit) (by decide)

theorem cpustrToCpulistScatter_error (topo : CpuTopology) (aff : CpuDomains) {part : List Char}
    (hhead : part.head? = some 'E') (hfields : ':' ∈ part) (length : ℕ) :
    cpustrToCpulistScatter topo aff.domains part length = .error .undefined := by
  have hnone : (aff.domains.filter fun d => part.head?.any (· ∈ d.tag)) = [] := by
    refine List.filter_eq_nil_iff.mpr fun d hd => ?_
    rw [hhead]
    simpa using aff.not_mem_tag hd
  rw [cpustrToCpulistScatter, if_pos hfields, hnone]

/-! ## Strings of one part -/

section Part

variable {topo : CpuTopology} {aff : List AffinityDomain} {str : List Char} {length : ℕ}

theorem cpulistConcat_nil {l : List CpuCell} (h : l.length ≤ length) :
    cpulistConcat length [] l = .ok l := by
  rw [cpulistConcat, if_pos (by rwa [List.length_nil, Nat.zero_add]), List.nil_append]

theorem cpustrToCpulist_single {part : List Char} (h : str.splitOn '@' = [part]) :
    cpustrToCpulist topo aff str length =
      (cpustrToCpulistPart topo aff str length).bind (cpulistConcat length []) := by
  have hpart : part = str := by
    have hjoin := @List.intercalate_splitOn _ str _ _ '@'
    rwa [h, List.intercalate_singleton] at hjoin
  rw [cpustrToCpulist, h, List.foldlM_cons, hpart]
  show Except.bind (Except.bind (cpustrToCpulistPart topo aff str length) _) _ = _
  cases cpustrToCpulistPart topo aff str length with
  | error e => rfl
  | ok l =>
      show Except.bind (cpulistConcat length [] l) _ = cpulistConcat length [] l
      cases cpulistConcat length [] l with
      | error e => rfl
      | ok l' => rfl

end Part

end Likwid
