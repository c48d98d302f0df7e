import Likwid.AffinityDomains
import Likwid.CpuLists
import Likwid.CpuParts
import Likwid.Lib.Columns
import Likwid.Lib.Ranks

/-!
# Logical CPU lists

A logical list names entries of a domain by their index, where the first hardware threads of all
cores come first, then the second ones, and so on. `cpulist_sort` knows no cores: it reads the
list by columns, in full rows of `numThreadsPerCore` entries, and `cpustr_to_cpulist_logical`
looks up any index.
-/

namespace Likwid

/-! ## The order of the hardware threads -/

/-- The list of a domain: distinct processors, and no more than an `int` counts -/
structure AffinityDomain.Members (domain : AffinityDomain) (ids : List Int) : Prop where
  lists : domain.Lists ids
  nodup : ids.Nodup
  size : ids.length < 2 ^ 31

/-- The core of a processor: its socket and its number there -/
def CpuTopology.coreOf (topo : CpuTopology) (cpu : Int) : Option (BitVec 32 × BitVec 32) :=
  (topo.threadPool.find? (·.apicId.toInt = cpu)).map fun t => (t.packageId, t.coreId)

/-- How many hardware threads of the same core stand before a position -/
def threadRank (topo : CpuTopology) (ids : List Int) : ℕ → ℕ :=
  Ranks.ofKey fun p => (ids[p]?).bind topo.coreOf

/-- The processor with a logical index -/
def logicalCell (topo : CpuTopology) (ids : List Int) (j : ℕ) : CpuCell :=
  ((Ranks.order (threadRank topo ids) ids.length)[j]?).bind (ids[·]?)

/-- The entry of a list that `cpulist_sort` puts at an index: that of column `j / q` and row
`j % q`, for `q` full rows -/
def sortedPosition (topo : CpuTopology) (size j : ℕ) : ℕ :=
  j % (size / topo.numThreadsPerCore.toNat) * topo.numThreadsPerCore.toNat +
    j / (size / topo.numThreadsPerCore.toNat)

/-- The index is one of the full rows, and as many processors come before the entry that is put
there: earlier hardware threads of their cores, and equal ones that stand before it. -/
def InPlace (topo : CpuTopology) (ids : List Int) (j : ℕ) : Prop :=
  j < topo.numThreadsPerCore.toNat * (ids.length / topo.numThreadsPerCore.toNat) ∧
    Ranks.before (threadRank topo ids) ids.length (sortedPosition topo ids.length j) = j

instance (topo : CpuTopology) (ids : List Int) (j : ℕ) : Decidable (InPlace topo ids j) :=
  inferInstanceAs (Decidable (_ ∧ _))

section Sorting

variable {topo : CpuTopology} {n j size : ℕ} {domain : AffinityDomain} {ids : List Int}

/-- What `cpulist_sort` leaves at an index -/
def sortedCell (n : ℕ) (domain : AffinityDomain) (j : ℕ) : CpuCell :=
  (cpulistSort n domain.processorList domain.numberOfProcessors)[j]?.join

theorem cpulistSort_eq (n : ℕ) (incpus : ℕ → CpuCell) (length : ℕ) :
    cpulistSort n incpus length =
      Columns.grid n (length / n) fun off i => incpus (i * n + off) := rfl

theorem sortedCell_lt (hj : j < n * (domain.numberOfProcessors / n)) :
    sortedCell n domain j = domain.processorList
      (j % (domain.numberOfProcessors / n) * n + j / (domain.numberOfProcessors / n)) := by
  rw [sortedCell, cpulistSort_eq, Columns.getElem?_grid _ hj]
  rfl

theorem sortedCell_ge (hj : n * (domain.numberOfProcessors / n) ≤ j) :
    sortedCell n domain j = none := by
  rw [sortedCell, List.getElem?_eq_none (by rwa [length_cpulistSort])]
  rfl

theorem threadRank_le (topo : CpuTopology) (ids : List Int) (p : ℕ) : threadRank topo ids p ≤ p :=
  Ranks.ofKey_le _ p

theorem logicalCell_lt (topo : CpuTopology) (hj : j < ids.length) :
    ∃ p, ∃ hp : p < ids.length, (Ranks.order (threadRank topo ids) ids.length)[j]? = some p ∧
      logicalCell topo ids j = some ids[p] := by
  have hlen : j < (Ranks.order (threadRank topo ids) ids.length).length := by
    rwa [Ranks.length_order (threadRank_le topo ids)]
  have hget := List.getElem?_eq_getElem hlen
  have hp := (Ranks.mem_order (threadRank_le topo ids)).mp (List.getElem_mem hlen)
  refine ⟨_, hp, hget, ?_⟩
  rw [logicalCell, hget, Option.bind_some, List.getElem?_eq_getElem hp]

theorem sortedPosition_lt
    (hj : j < topo.numThreadsPerCore.toNat * (size / topo.numThreadsPerCore.toNat)) :
    sortedPosition topo size j < size := by
  unfold sortedPosition
  generalize topo.numThreadsPerCore.toNat = n at hj
  have hrows : n * (size / n) ≤ size := Nat.mul_div_le _ _
  have hq : 0 < size / n := Nat.pos_of_ne_zero fun hq => by simp [hq] at hj
  have hrow : j % (size / n) + 1 ≤ size / n := Nat.mod_lt j hq
  have hcolumn : j / (size / n) < n := Nat.div_lt_of_lt_mul (by rwa [Nat.mul_comm])
  have hmul := Nat.mul_le_mul_left n hrow
  rw [Nat.mul_succ, Nat.mul_comm n (j % _)] at hmul
  omega

theorem sortedCell_eq_iff (hd : domain.Members ids) (hj : j < ids.length) :
    sortedCell topo.numThreadsPerCore.toNat domain j = logicalCell topo ids j ↔
      InPlace topo ids j := by
  obtain ⟨p, hp, hget, hcell⟩ := logicalCell_lt topo hj
  have hsize := hd.lists.length
  rcases Nat.lt_or_ge j (topo.numThreadsPerCore.toNat *
    (ids.length / topo.numThreadsPerCore.toNat)) with hlt | hge
  · have hposition := sortedPosition_lt hlt
    have hentry : sortedCell topo.numThreadsPerCore.toNat domain j =
        ids[sortedPosition topo ids.length j]? := by
      rw [sortedCell_lt (hsize ▸ hlt), ← hsize]
      exact hd.lists.entry _ hposition
    rw [InPlace, and_iff_right hlt, ← Ranks.getElem?_order_iff (threadRank_le topo ids) hposition,
      hget, hentry, hcell, List.getElem?_eq_getElem hposition, Option.some_inj, Option.some_inj,
      hd.nodup.getElem_inj_iff]
    exact eq_comm
  · refine iff_of_false ?_ fun h => Nat.not_lt_of_le hge h.1
    rw [sortedCell_ge (hsize ▸ hge), hcell]
    exact nofun

/-- A list in full rows of `numThreadsPerCore` hardware threads of one core each is in place. -/
theorem inPlace_rows (hdvd : topo.numThreadsPerCore.toNat ∣ ids.length)
    (hrows : ∀ a < ids.length, ∀ b < ids.length,
      (ids[a]?).bind topo.coreOf = (ids[b]?).bind topo.coreOf ↔
        a / topo.numThreadsPerCore.toNat = b / topo.numThreadsPerCore.toNat)
    (hj : j < ids.length) : InPlace topo ids j := by
  have hposition : sortedPosition topo ids.length j < ids.length :=
    sortedPosition_lt (by rwa [Nat.mul_div_cancel' hdvd])
  unfold InPlace threadRank
  unfold sortedPosition at hposition ⊢
  generalize topo.numThreadsPerCore.toNat = n at hdvd hrows hposition
  obtain ⟨q, hq⟩ := hdvd
  rw [hq] at hrows hj hposition ⊢
  have hn : 0 < n := Nat.pos_of_ne_zero fun hn => by simp [hn] at hj
  have hq' : 0 < q := Nat.pos_of_ne_zero fun hq => by simp [hq] at hj
  rw [Nat.mul_div_cancel_left _ hn] at hposition ⊢
  refine ⟨hj, ?_⟩
  have hcolumn : j / q < n := Nat.div_lt_of_lt_mul (by rwa [Nat.mul_comm])
  rw [Ranks.before_rows hn hposition hrows, Nat.mul_comm (j % q), Nat.mul_add_mod,
    Nat.mul_add_div hn, Nat.mod_eq_of_lt hcolumn, Nat.div_eq_of_lt hcolumn, Nat.add_zero,
    Nat.mul_comm, Nat.div_add_mod]

end Sorting

/-! ## The strings -/

theorem CpuDomains.char_of_mem_tag (aff : CpuDomains) {d : AffinityDomain} (hd : d ∈ aff.domains)
    {c : Char} (hc : c ∈ d.tag) : c.isDigit = true ∨ c ∈ ['N', 'S', 'C', 'M'] := by
  rcases aff.tag d hd with htag | ⟨t, ht, i, htag⟩
  · rw [htag] at hc
    exact Or.inr (List.mem_cons.mpr (Or.inl (List.mem_singleton.mp hc)))
  · rw [htag] at hc
    rcases List.mem_cons.mp hc with rfl | hdigit
    · exact Or.inr (List.mem_cons_of_mem _ ht)
    · exact Or.inl (Text.isDigit_of_mem_decimal hdigit)

theorem CpuDomains.not_mem_tag_of (aff : CpuDomains) {d : AffinityDomain} (hd : d ∈ aff.domains)
    {c : Char} (hdigit : c.isDigit = false) (hc : c ∉ ['N', 'S', 'C', 'M']) : c ∉ d.tag := by
  intro hmem
  rcases aff.char_of_mem_tag hd hmem with htrue | htag
  · rw [hdigit] at htrue
    cases htrue
  · exact hc htag

theorem CpuDomains.head?_tag (aff : CpuDomains) {d : AffinityDomain} (hd : d ∈ aff.domains) :
    ∃ t ∈ ['N', 'S', 'C', 'M'], d.tag.head? = some t := by
  rcases aff.tag d hd with htag | ⟨t, ht, i, htag⟩
  · exact ⟨'N', List.mem_cons_self, by rw [htag, List.head?_cons]⟩
  · exact ⟨t, List.mem_cons_of_mem _ ht, by rw [htag, List.head?_cons]⟩

/-- A logical CPU list: with `L:`, with the tag of a domain only, or in a cpuset alone -/
inductive LogicalList (topo : CpuTopology) (es : List Ranges.Entry) :
    List Char → List Char → Prop
  | full {tag : List Char} :
      LogicalList topo es ('L' :: ':' :: (tag ++ ':' :: Ranges.text es)) tag
  | tagged {tag : List Char} : LogicalList topo es (tag ++ ':' :: Ranges.text es) tag
  | cpuset (h : topo.activeHWThreads.toNat < topo.numHWThreads.toNat) :
      LogicalList topo es (Ranges.text es) ['N']

section Logical

variable {topo : CpuTopology} {aff : CpuDomains} {domain : AffinityDomain} {str tag : List Char}
  {es : List Ranges.Entry} {length : ℕ} {ids : List Int}

theorem logical_eq (hfind : aff.domains.find? (·.tag = tag) = some domain) :
    cpustrToCpulistLogical topo aff.domains ('L' :: ':' :: (tag ++ ':' :: Ranges.text es)) length =
      inserted (forEntries (Ranges.text es)
        (insertLogical topo.numThreadsPerCore.toNat domain length)) := by
  have hcolon : ':' ∉ Ranges.text es :=
    Ranges.not_mem_text (by decide) (by decide) (by decide)
  have htag : ':' ∉ tag := by
    have hmem := List.mem_of_find?_eq_some hfind
    have heq : domain.tag = tag := by simpa using List.find?_some hfind
    rw [← heq]
    exact aff.not_mem_tag_of hmem (by decide) (by decide)
  have hsplit : ('L' :: ':' :: (tag ++ ':' :: Ranges.text es)).splitOn ':' =
      [['L'], tag, Ranges.text es] := by
    have hL := List.splitOn_append_cons_self_of_not_mem (show ':' ∉ ['L'] by decide)
      (tag ++ ':' :: Ranges.text es)
    rw [List.singleton_append] at hL
    rw [hL, List.splitOn_append_cons_self_of_not_mem htag, List.splitOn_eq_singleton hcolon]
  unfold cpustrToCpulistLogical
  rw [if_neg (by simp), hsplit]
  simp only [hfind]

/-- Each form comes to the same parser. -/
theorem part_logical (hstr : LogicalList topo es str tag) (hes : es ≠ [])
    (hfind : aff.domains.find? (·.tag = tag) = some domain) :
    cpustrToCpulistPart topo aff.domains str length = inserted (forEntries (Ranges.text es)
      (insertLogical topo.numThreadsPerCore.toNat domain length)) := by
  have hdomain := List.mem_of_find?_eq_some hfind
  have heq : domain.tag = tag := by simpa using List.find?_some hfind
  have hs : 's' ∉ tag := heq ▸ aff.not_mem_tag_of hdomain (by decide) (by decide)
  have hs' : 's' ∉ Ranges.text es := Ranges.not_mem_text (by decide) (by decide) (by decide)
  unfold cpustrToCpulistPart
  cases hstr with
  | full =>
      have hscatter : 's' ∉ 'L' :: ':' :: (tag ++ ':' :: Ranges.text es) := by
        simp [hs, hs']
      rw [if_neg (not_scatter_of_not_mem hscatter), if_neg (by simp), if_pos (by simp),
        logical_eq hfind]
  | tagged =>
      obtain ⟨t, ht, hhead⟩ := aff.head?_tag hdomain
      rw [heq] at hhead
      have hhead' : (tag ++ ':' :: Ranges.text es).head? = some t := by
        rw [List.head?_append, hhead, Option.some_or]
      have hscatter : 's' ∉ tag ++ ':' :: Ranges.text es := by
        simp [hs, hs']
      have hE : t ≠ 'E' := by rintro rfl; exact absurd ht (by decide)
      have hL : t ≠ 'L' := by rintro rfl; exact absurd ht (by decide)
      have htagged : IsTagged (tag ++ ':' :: Ranges.text es) := by
        refine ⟨?_, by simp⟩
        rw [hhead']
        simpa using ht
      rw [if_neg (not_scatter_of_not_mem hscatter), hhead',
        if_neg fun h => hE (Option.some.inj h), if_neg fun h => hL (Option.some.inj h),
        if_pos htagged, if_pos htagged, logical_eq hfind, ite_self]
  | cpuset hcpuset =>
      obtain ⟨c, hhead, hdigit⟩ := Ranges.head?_text hes
      have hE : c ≠ 'E' := by rintro rfl; exact absurd hdigit (by decide)
      have hL : c ≠ 'L' := by rintro rfl; exact absurd hdigit (by decide)
      have hcolon : ':' ∉ Ranges.text es :=
        Ranges.not_mem_text (by decide) (by decide) (by decide)
      rw [if_neg (not_scatter_of_not_mem hs'), hhead, if_neg fun h => hE (Option.some.inj h),
        if_neg fun h => hL (Option.some.inj h), if_pos hcpuset, if_neg fun h => hcolon h.2]
      exact logical_eq hfind

/-! ## What a list names -/

/-- What a logical list names: the processors with the indices, or nothing if an index is too
large. -/
structure NamesLogical (topo : CpuTopology) (length : ℕ) (ids : List Int) (indices : List ℕ)
    (result : Except Prog.Halt (List CpuCell)) : Prop where
  named : (∀ j ∈ indices, j < ids.length) →
    result = .ok ((indices.map (logicalCell topo ids)).take length)
  rejected : (∃ j ∈ indices, ids.length ≤ j) → result = .ok []

theorem insertLogical_eq (n : ℕ) (domain : AffinityDomain) (length : ℕ) (j : Int) :
    insertLogical n domain length j = insertCpus length [inlistCell n domain j] :=
  (Prog.bind_pure_right _).symm

theorem expand_sortedCell (n : ℕ) (domain : AffinityDomain) (es : List Ranges.Entry) :
    (Ranges.expand es).map (sortedCell n domain) =
      es.flatMap fun e => (ints e).flatMap fun j => [inlistCell n domain j] := by
  rw [Ranges.expand, List.map_flatMap]
  refine List.flatMap_congr fun e _ => ?_
  rw [ints, List.flatMap_map, List.map_eq_flatMap]
  exact List.flatMap_congr fun j _ => by simp [inlistCell, sortedCell]

/-- The parser returns what stands at the indices, in the sorted list or behind it, or works
through a range that ends at the last `int`. -/
theorem logical_run (hes : es ≠ []) (hints : ∀ e ∈ es, e.Below (2 ^ 31)) (hlength : 1 ≤ length)
    (n : ℕ) (domain : AffinityDomain) :
    inserted (forEntries (Ranges.text es) (insertLogical n domain length)) =
        .ok (((Ranges.expand es).map (sortedCell n domain)).take length) ∨
      inserted (forEntries (Ranges.text es) (insertLogical n domain length)) =
          .error .undefined ∧
        ∃ j ∈ Ranges.expand es, 2 ^ 31 - 1 ≤ j := by
  have hbody : ∀ e ∈ es, ∀ j ∈ ints e, insertLogical n domain length j =
      insertCpus length [inlistCell n domain j] := fun _ _ j _ => insertLogical_eq n domain length j
  rw [forEntries_text hes hints, expand_sortedCell, ← inserted_insertCpus hlength]
  rcases entries_run hbody (show ([] : List CpuCell).length < length from hlength) with
    ⟨-, hrun⟩ | ⟨hno, hrun⟩
  · left
    rw [inserted, hrun, inserted]
  · right
    refine ⟨by rw [inserted, hrun], ?_⟩
    by_contra hbelow
    refine hno fun before a b rest hes hab hb => absurd ?_ hbelow
    subst hes
    refine ⟨b, ?_, hb.ge⟩
    rw [Ranges.expand_append, Ranges.expand_cons, Ranges.Entry.expand_up hab]
    refine List.mem_append_right _ (List.mem_append_left _ (List.mem_range'_1.mpr ?_))
    omega

theorem logical_not_rejected (hes : es ≠ []) (hints : ∀ e ∈ es, e.Below (2 ^ 31))
    (hlength : 1 ≤ length) (n : ℕ) (domain : AffinityDomain) :
    inserted (forEntries (Ranges.text es) (insertLogical n domain length)) ≠ .ok [] := by
  rcases logical_run hes hints hlength n domain with hrun | ⟨hrun, -⟩
  · rw [hrun]
    intro hnil
    have hlen := congrArg List.length (Except.ok.inj hnil)
    have hpos : 0 < (Ranges.expand es).length :=
      List.length_pos_of_ne_nil (Ranges.expand_ne_nil hes)
    rw [List.length_take, List.length_map, List.length_nil] at hlen
    omega
  · rw [hrun]
    exact nofun

/-- Three cores with two hardware threads each, in a cpuset -/
def threeCores (cpuset : List ℕ) : CpuTopology :=
  { twoThreads with
    numHWThreads := 6
    activeHWThreads := BitVec.ofNat 32 cpuset.length
    numCoresPerSocket := 3
    numThreadsPerCore := 2
    threadPool := (List.range 6).map fun p =>
      { threadId := BitVec.ofNat 32 (p % 2)
        coreId := BitVec.ofNat 32 (p / 2)
        packageId := 0
        apicId := BitVec.ofNat 32 p
        inCpuSet := if p ∈ cpuset then 1 else 0 } }

/-- The domain of the machine with the processors of a cpuset -/
def cpusetDomain (cpuset : List ℕ) : AffinityDomain where
  tag := ['N']
  numberOfProcessors := cpuset.length
  numberOfCores := 3
  size := 6
  processorList := fun p => Option.map (fun (cpu : ℕ) => (cpu : Int)) cpuset[p]?

def machineDomain (cpuset : List ℕ) : CpuDomains where
  domains := [cpusetDomain cpuset]
  tag := by
    intro d hd
    rw [List.mem_singleton.mp hd]
    exact Or.inl rfl
  written := by
    intro d hd cpu hcell
    rw [List.mem_singleton.mp hd] at hcell
    obtain ⟨p, hp, rfl⟩ := hcell
    have hlt : p < cpuset.length := hp
    simp [cpusetDomain, hlt]

theorem cpusetDomain_members {cpuset : List ℕ} (hnodup : cpuset.Nodup)
    (hsize : cpuset.length < 2 ^ 31) :
    (cpusetDomain cpuset).Members (cpuset.map fun (cpu : ℕ) => (cpu : Int)) where
  lists :=
    { length := by simp [cpusetDomain]
      entry := fun _ _ => List.getElem?_map.symm }
  nodup := (List.nodup_map_iff fun a b hab => Int.ofNat.inj hab).mpr hnodup
  size := by simpa using hsize

end Logical

end Likwid
