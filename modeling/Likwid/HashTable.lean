import Likwid.Lib.Prog
import Likwid.AccessDaemon
import Likwid.PerfmonTypes
import Mathlib.Data.Finset.Card
import Mathlib.Data.Set.Function

/-!
# The regions of the marker API (`hashTable.c`)

Every CPU has a table of its regions: `hashTable_get` finds or makes the record of a
label, and `record_hashTableGet` and `record_update` say that this and writing to it
leave the other records alone. `hashTable_finalize` merges the tables: it
makes a row for every label it meets and a column for every table. The number of
rows is that of the largest table, so it merges them exactly if one of them has
the labels of all (`merged_iff`).
-/

namespace Likwid

/-! ## Data -/

/-- `NUM_PMC` -/
abbrev numPmc : ℕ := 205

abbrev PmcArray (α : Type) : Type := Fin numPmc → α

/-- What is measured of a region on a CPU. -/
structure LikwidThreadResults where
  label : String
  time : ℚ := 0
  startTime : TimerData
  groupID : Int
  cpuID : Int
  count : ℕ := 0
  startPMcounters : PmcArray ℚ := fun _ => 0
  startOverflows : PmcArray Int
  pmcounters : PmcArray ℚ := fun _ => 0

/-- A `GHashTable` with the labels as keys, in the order its iterator has. -/
structure RegionTable where
  entries : List LikwidThreadResults := []
  nodup : (entries.map LikwidThreadResults.label).Nodup := by simp

/-- `g_hash_table_new` -/
def RegionTable.empty : RegionTable := {}

@[simp] theorem RegionTable.entries_empty : RegionTable.empty.entries = [] := rfl

structure ThreadList where
  coreId : ℕ
  hashTable : RegionTable := .empty

/-- `threadList[MAX_NUM_THREADS]` -/
abbrev ThreadLists : Type := ℕ → Option ThreadList

/-- A row: one region, with a column for each thread. -/
structure LikwidResults where
  tag : Option String := none
  groupID : Option Int := none
  time : ℕ → ℚ := fun _ => 0
  count : ℕ → ℕ := fun _ => 0
  cpulist : ℕ → Int := fun _ => -1
  counters : ℕ → PmcArray ℚ := fun _ _ => 0

/-! ## `hashTable_get` -/

namespace RegionTable

/-- `g_hash_table_lookup` -/
def lookup (table : RegionTable) (label : String) : Option LikwidThreadResults :=
  table.entries.find? (·.label = label)

/-- `g_hash_table_insert`, for a label that is not there yet. -/
def insertNew (table : RegionTable) (r : LikwidThreadResults) : RegionTable :=
  if h : r.label ∈ table.entries.map LikwidThreadResults.label then table
  else
    { entries := table.entries ++ [r]
      nodup := by
        rw [List.map_append, List.nodup_append_comm]
        exact List.nodup_cons.mpr ⟨h, table.nodup⟩ }

/-- Write to the record of a label, but not the label. -/
def write (label : String) (f : LikwidThreadResults → LikwidThreadResults)
    (r : LikwidThreadResults) : LikwidThreadResults :=
  if r.label = label then { f r with label := label } else r

theorem label_write (label : String) (f : LikwidThreadResults → LikwidThreadResults)
    (r : LikwidThreadResults) : (write label f r).label = r.label := by
  unfold write
  split
  · next h => exact h.symm
  · rfl

def update (table : RegionTable) (label : String)
    (f : LikwidThreadResults → LikwidThreadResults) : RegionTable where
  entries := table.entries.map (write label f)
  nodup := by
    have hlabels : LikwidThreadResults.label ∘ write label f = LikwidThreadResults.label :=
      funext (label_write label f)
    rw [List.map_map, hlabels]
    exact table.nodup

variable {table : RegionTable} {label : String}

theorem label_of_lookup {r : LikwidThreadResults} (h : table.lookup label = some r) :
    r.label = label := of_decide_eq_true (List.find?_some h :)

theorem lookup_eq_none :
    table.lookup label = none ↔ label ∉ table.entries.map LikwidThreadResults.label := by
  simp [lookup]

theorem lookup_insertNew (r : LikwidThreadResults) (l : String) :
    (table.insertNew r).lookup l =
      if l = r.label then some ((table.lookup l).getD r) else table.lookup l := by
  unfold insertNew
  split
  · next hmem =>
      split
      · next heq =>
          cases hl : table.lookup l with
          | none => exact absurd (heq ▸ hmem) (lookup_eq_none.mp hl)
          | some r' => rfl
      · rfl
  · next hnew =>
      show List.find? _ (table.entries ++ [r]) = _
      rw [List.find?_append]
      change (table.lookup l).or _ = _
      split
      · next heq =>
          have hnone : table.lookup l = none := lookup_eq_none.mpr (heq ▸ hnew)
          rw [hnone, Option.none_or, List.find?_cons_of_pos (by simp [heq])]
          rfl
      · next hne =>
          have hnone : [r].find? (fun r => r.label = l) = none := by simp [Ne.symm hne]
          rw [hnone, Option.or_none]

theorem lookup_update (f : LikwidThreadResults → LikwidThreadResults) (l : String) :
    (table.update label f).lookup l = (table.lookup l).map (write label f) := by
  have hkey : (fun r => decide ((write label f r).label = l)) = fun r => decide (r.label = l) :=
    funext fun r => by rw [label_write]
  unfold lookup update
  rw [List.find?_map]
  exact congrArg (fun p => (table.entries.find? p).map (write label f)) hkey

end RegionTable

/-- The record of a label on a CPU. -/
def ThreadLists.record (threadList : ThreadLists) (cpu : ℕ) (label : String) :
    Option LikwidThreadResults :=
  (threadList cpu).bind (·.hashTable.lookup label)

/-- A record that `hashTable_get` makes of memory fresh from `malloc`. -/
def LikwidThreadResults.new (uninit : LikwidThreadResults) (label : String) :
    LikwidThreadResults :=
  { uninit with
    label := label
    time := 0
    count := 0
    pmcounters := fun _ => 0
    startPMcounters := fun _ => 0 }

/-- `hashTable_get` on core `coreID`; the record it finds or makes is that of the
label. -/
def hashTableGet (uninit : LikwidThreadResults) (coreID : ℕ) (label : String)
    (threadList : ThreadLists) : ThreadLists := fun core =>
  if core = coreID then
    let thread := (threadList coreID).getD { coreId := coreID }
    some { thread with hashTable := thread.hashTable.insertNew (uninit.new label) }
  else threadList core

/-- Write through the pointer to a record. -/
def ThreadLists.update (threadList : ThreadLists) (cpu : ℕ) (label : String)
    (f : LikwidThreadResults → LikwidThreadResults) : ThreadLists := fun core =>
  if core = cpu then
    (threadList core).map fun thread => { thread with hashTable := thread.hashTable.update label f }
  else threadList core

theorem record_hashTableGet (uninit : LikwidThreadResults) (coreID : ℕ) (label : String)
    (threadList : ThreadLists) (cpu : ℕ) (l : String) :
    (hashTableGet uninit coreID label threadList).record cpu l =
      if cpu = coreID ∧ l = label then
        some ((threadList.record cpu l).getD (uninit.new label))
      else threadList.record cpu l := by
  unfold ThreadLists.record hashTableGet
  by_cases hcpu : cpu = coreID
  · subst hcpu
    rw [if_pos rfl, Option.bind_some, RegionTable.lookup_insertNew]
    by_cases hl : l = label
    · cases threadList cpu with
      | none => simp [hl, LikwidThreadResults.new, RegionTable.lookup]
      | some thread => simp [hl, LikwidThreadResults.new]
    · cases threadList cpu with
      | none => simp [hl, LikwidThreadResults.new, RegionTable.lookup]
      | some thread => simp [hl, LikwidThreadResults.new]
  · simp [hcpu]

theorem record_update (threadList : ThreadLists) (cpu : ℕ) (label : String)
    (f : LikwidThreadResults → LikwidThreadResults) (c : ℕ) (l : String) :
    (threadList.update cpu label f).record c l =
      if c = cpu then (threadList.record c l).map (RegionTable.write label f)
      else threadList.record c l := by
  unfold ThreadLists.record ThreadLists.update
  split
  · next hcpu =>
      cases threadList c with
      | none => rfl
      | some thread => exact RegionTable.lookup_update f l
  · rfl

/-! ## `hashTable_finalize` -/

/-- The variables of the merge. `regionLookup` is the table from labels to rows;
`results[..]` has `numberOfThreads` columns. -/
structure Finalize where
  numberOfThreads : ℕ
  results : List LikwidResults
  regionLookup : String → Option ℕ := fun _ => none
  currentRegion : ℕ := 0
  threadId : ℕ := 0

/-- The body of the loop that counts the active threads and finds the largest number
of regions of one. -/
def countThread (n : ℕ × ℕ) : Option ThreadList → ℕ × ℕ
  | none => n
  | some thread =>
      (n.1 + 1, if n.2 < thread.hashTable.entries.length then thread.hashTable.entries.length
        else n.2)

def countThreads (threadList : ThreadLists) : ℕ × ℕ :=
  (List.range maxNumThreads).foldl (fun n i => countThread n (threadList i)) (0, 0)

/-- A row for a label met for the first time. -/
def Finalize.register (f : Finalize) (r : LikwidThreadResults) : Finalize :=
  { f with
    results := f.results.modify f.currentRegion fun row =>
      { row with tag := some r.label, groupID := some r.groupID }
    regionLookup := fun l => if l = r.label then some f.currentRegion else f.regionLookup l
    currentRegion := f.currentRegion + 1 }

/-- Write a record to column `t` of a row. -/
def LikwidResults.store (row : LikwidResults) (t : ℕ) (r : LikwidThreadResults) : LikwidResults :=
  { row with
    count := fun i => if i = t then r.count else row.count i
    time := fun i => if i = t then r.time else row.time i
    cpulist := fun i => if i = t then r.cpuID else row.cpulist i
    counters := fun i => if i = t then r.pmcounters else row.counters i }

/-- The body of the loop over the regions of a thread. -/
def copyRecord (r : LikwidThreadResults) : Prog Unit Finalize Unit := do
  let f ← Prog.get
  Prog.when (f.regionLookup r.label = none) (do
    Prog.when (f.results.length ≤ f.currentRegion) (Prog.halt .outOfBounds)
    Prog.modify fun f => f.register r)
  let f ← Prog.get
  let regionId ← Prog.orUndefined (f.regionLookup r.label)
  Prog.when (f.results.length ≤ regionId ∨ f.numberOfThreads ≤ f.threadId)
    (Prog.halt .outOfBounds)
  Prog.modify fun f =>
    { f with results := f.results.modify regionId fun row => row.store f.threadId r }

/-- The body of the loop over the cores. -/
def copyThread (threadList : ThreadLists) (core : ℕ) : Prog Unit Finalize Unit :=
  match threadList core with
  | none => pure ()
  | some thread => do
      thread.hashTable.entries.foldlM (fun _ r => copyRecord r) ()
      Prog.modify fun f => { f with threadId := f.threadId + 1 }

/-- `hashTable_finalize`: the rows, and how many threads and regions there are. -/
def hashTableFinalize (threadList : ThreadLists) :
    Prog.Outcome Unit Finalize (ℕ × ℕ) :=
  let (numberOfThreads, numberOfRegions) := countThreads threadList
  let copy : Prog Unit Finalize (ℕ × ℕ) := do
    (List.range maxNumThreads).foldlM (fun _ core => copyThread threadList core) ()
    return (numberOfThreads, numberOfRegions)
  copy
    { numberOfThreads := numberOfThreads
      results := List.replicate numberOfRegions {} }

/-! ## The merged table -/

/-- What a row says of one thread. -/
structure Cell where
  count : ℕ
  time : ℚ
  cpuID : Int
  pmcounters : PmcArray ℚ

/-- The thread has not met the region. -/
def Cell.blank : Cell := ⟨0, 0, -1, fun _ => 0⟩

def LikwidThreadResults.cell (r : LikwidThreadResults) : Cell :=
  ⟨r.count, r.time, r.cpuID, r.pmcounters⟩

def LikwidResults.cell (row : LikwidResults) (t : ℕ) : Cell :=
  ⟨row.count t, row.time t, row.cpulist t, row.counters t⟩

/-- The active threads in the order of their cores; their positions are the columns. -/
def ThreadLists.active (threadList : ThreadLists) : List ThreadList :=
  (List.range maxNumThreads).filterMap threadList

def ThreadList.labels (thread : ThreadList) : Finset String :=
  (thread.hashTable.entries.map LikwidThreadResults.label).toFinset

/-- The distinct labels over all threads. -/
def ThreadLists.labels (threadList : ThreadLists) : Finset String :=
  (threadList.active.flatMap fun thread =>
    thread.hashTable.entries.map LikwidThreadResults.label).toFinset

/-- **The merge**: there are as many rows as distinct labels, and the row of a label has the group
of a record with the label, and the record of each thread in the thread's column. -/
def Merged (threadList : ThreadLists) : Prop :=
  ∃ f, hashTableFinalize threadList =
      .done (threadList.active.length, threadList.labels.card) f ∧
    ∃ rowOf : String → ℕ, Set.InjOn rowOf threadList.labels ∧
      ∀ l ∈ threadList.labels, rowOf l < threadList.labels.card ∧
        ∃ row, f.results[rowOf l]? = some row ∧ row.tag = some l ∧
          (∃ thread ∈ threadList.active, ∃ r ∈ thread.hashTable.entries,
            r.label = l ∧ row.groupID = some r.groupID) ∧
          ∀ t thread, threadList.active[t]? = some thread →
            (∀ r ∈ thread.hashTable.entries, r.label = l → row.cell t = r.cell) ∧
              (l ∉ thread.labels → row.cell t = .blank)

/-- The records copied so far, with their columns. -/
abbrev Copies : Type := List (ℕ × LikwidThreadResults)

/-- What the row of a label says of a thread after these copies. -/
def Copies.cell (seen : Copies) (t : ℕ) (l : String) : Cell :=
  ((seen.find? fun p => p.1 = t ∧ p.2.label = l).map (·.2.cell)).getD .blank

/-- The rows are those of `tags`, in this order, and hold the records copied. -/
structure Rows (labels : Finset String) (tags : List String) (seen : Copies) (f : Finalize) :
    Prop where
  nodup : tags.Nodup
  subset : ∀ l ∈ tags, l ∈ labels
  copied : ∀ p ∈ seen, p.2.label ∈ tags
  current : f.currentRegion = tags.length
  lookup : ∀ (l : String) (i : ℕ), f.regionLookup l = some i ↔ tags[i]? = some l
  length : f.results.length = labels.card
  rows : ∀ (i : ℕ) (l : String), tags[i]? = some l → ∃ row : LikwidResults,
    f.results[i]? = some row ∧ row.tag = some l ∧ ∀ t, row.cell t = Copies.cell seen t l
  rest : ∀ i, tags.length ≤ i → i < labels.card → ∃ row : LikwidResults,
    f.results[i]? = some row ∧ ∀ t, row.cell t = .blank

section Copy

variable {labels : Finset String} {tags : List String} {seen : Copies} {f : Finalize}
  {r : LikwidThreadResults} {t : ℕ} {l : String}

theorem cell_of_not_seen (h : ∀ p ∈ seen, p.1 = t → p.2.label ≠ l) : seen.cell t l = .blank := by
  have hnone : seen.find? (fun p => p.1 = t ∧ p.2.label = l) = none := by
    rw [List.find?_eq_none]
    intro p hp hkey
    obtain ⟨ht, hl⟩ := of_decide_eq_true hkey
    exact h p hp ht hl
  rw [Copies.cell, hnone]
  rfl

/-- A copy with a new key changes its own cell only. -/
theorem cell_snoc (hnew : ∀ p ∈ seen, p.1 = t → p.2.label ≠ r.label) (t' : ℕ) (l' : String) :
    Copies.cell (seen ++ [(t, r)]) t' l' =
      if t' = t ∧ l' = r.label then r.cell else seen.cell t' l' := by
  unfold Copies.cell
  rw [List.find?_append]
  split
  · next hkey =>
      obtain ⟨rfl, rfl⟩ := hkey
      have hnone : seen.find? (fun p => p.1 = t' ∧ p.2.label = r.label) = none := by
        rw [List.find?_eq_none]
        intro p hp hkey
        obtain ⟨ht, hl⟩ := of_decide_eq_true hkey
        exact hnew p hp ht hl
      rw [hnone, Option.none_or, List.find?_cons_of_pos (by simp)]
      rfl
  · next hkey =>
      have hnone : [(t, r)].find? (fun p => p.1 = t' ∧ p.2.label = l') = none := by
        rw [List.find?_eq_none]
        intro p hp hkey'
        obtain rfl := List.mem_singleton.mp hp
        obtain ⟨rfl, rfl⟩ := of_decide_eq_true hkey'
        exact hkey ⟨rfl, rfl⟩
      rw [hnone, Option.or_none]

theorem getElem?_snoc {α : Type} {tags : List α} {i : ℕ} {l l' : α} :
    (tags ++ [l])[i]? = some l' ↔ tags[i]? = some l' ∨ i = tags.length ∧ l' = l := by
  rcases lt_trichotomy i tags.length with hlt | rfl | hgt
  · rw [List.getElem?_append_left hlt]
    simp [hlt.ne]
  · simp [eq_comm]
  · rw [List.getElem?_append_right hgt.le, List.getElem?_eq_none hgt.le,
      List.getElem?_eq_none (by simp; omega)]
    simp [hgt.ne']

/-- A new label finds a row that is not in use. -/
theorem Rows.room (h : Rows labels tags seen f) (hl : l ∈ labels) (hnew : l ∉ tags) :
    tags.length < labels.card := by
  have hsub : (l :: tags).toFinset ⊆ labels := by
    intro l' hl'
    rcases List.mem_cons.mp (List.mem_toFinset.mp hl') with rfl | hmem
    · exact hl
    · exact h.subset l' hmem
  have hcard := Finset.card_le_card hsub
  rw [List.toFinset_card_of_nodup (List.nodup_cons.mpr ⟨hnew, h.nodup⟩)] at hcard
  exact hcard

theorem Rows.lookup_eq_none (h : Rows labels tags seen f) : f.regionLookup l = none ↔ l ∉ tags := by
  constructor
  · intro hnone hmem
    obtain ⟨i, hi⟩ := List.getElem?_of_mem hmem
    have hsome := (h.lookup l i).mpr hi
    rw [hnone] at hsome
    cases hsome
  · intro hmem
    cases hlook : f.regionLookup l with
    | none => rfl
    | some i => exact absurd (List.mem_of_getElem? ((h.lookup l i).mp hlook)) hmem

/-- A label met for the first time gets the next row. -/
theorem Rows.register (h : Rows labels tags seen f) (hl : r.label ∈ labels)
    (hnew : r.label ∉ tags) : Rows labels (tags ++ [r.label]) seen (f.register r) where
  nodup := by
    rw [List.nodup_append_comm]
    exact List.nodup_cons.mpr ⟨hnew, h.nodup⟩
  subset l hmem := by
    rcases List.mem_append.mp hmem with hmem | hmem
    · exact h.subset l hmem
    · obtain rfl := List.mem_singleton.mp hmem
      exact hl
  copied p hp := List.mem_append_left _ (h.copied p hp)
  current := by simp [Finalize.register, h.current]
  lookup l i := by
    rw [getElem?_snoc]
    show (if l = r.label then some f.currentRegion else f.regionLookup l) = some i ↔ _
    by_cases hlabel : l = r.label
    · subst hlabel
      have hnone : tags[i]? ≠ some r.label := fun hi => hnew (List.mem_of_getElem? hi)
      rw [if_pos rfl, h.current, Option.some_inj]
      simp [hnone, eq_comm]
    · rw [if_neg hlabel, h.lookup]
      simp [hlabel]
  length := by simp [Finalize.register, h.length]
  rows i l hi := by
    rcases getElem?_snoc.mp hi with hi | ⟨rfl, rfl⟩
    · obtain ⟨row, hrow, htag, hcell⟩ := h.rows i l hi
      have hne : tags.length ≠ i := fun heq => by simp [← heq] at hi
      exact ⟨row, by simp [Finalize.register, h.current, hne, hrow], htag,
        hcell⟩
    · -- nobody has met this label yet
      obtain ⟨row, hrow, hblank⟩ := h.rest tags.length le_rfl (h.room hl hnew)
      refine ⟨{ row with tag := some r.label, groupID := some r.groupID }, ?_, rfl, fun t => ?_⟩
      · simp [Finalize.register, h.current, hrow]
      · have hunseen : seen.cell t r.label = .blank :=
          cell_of_not_seen fun p hp _ heq => hnew (heq ▸ h.copied p hp)
        rw [hunseen]
        exact hblank t
  rest i hi hcard := by
    rw [List.length_append] at hi
    have hlt : tags.length < i := hi
    obtain ⟨row, hrow, hblank⟩ := h.rest i hlt.le hcard
    refine ⟨row, ?_, hblank⟩
    simp [Finalize.register, h.current, hlt.ne, hrow]

theorem LikwidResults.cell_store (row : LikwidResults) (t' : ℕ) :
    (row.store t r).cell t' = if t' = t then r.cell else row.cell t' := by
  unfold LikwidResults.cell LikwidResults.store LikwidThreadResults.cell
  split
  · next heq => simp [heq]
  · next hne => simp [hne]

/-- A record is written to the row of its label and the column of its thread. -/
theorem Rows.store {i : ℕ} (h : Rows labels tags seen f) (hi : tags[i]? = some r.label)
    (hnew : ∀ p ∈ seen, p.1 = t → p.2.label ≠ r.label) :
    Rows labels tags (seen ++ [(t, r)])
      { f with results := f.results.modify i fun row => row.store t r } where
  nodup := h.nodup
  subset := h.subset
  copied p hp := by
    rcases List.mem_append.mp hp with hp | hp
    · exact h.copied p hp
    · obtain rfl := List.mem_singleton.mp hp
      exact List.mem_of_getElem? hi
  current := h.current
  lookup := h.lookup
  length := by simp [h.length]
  rows j l hj := by
    obtain ⟨row, hrow, htag, hcell⟩ := h.rows j l hj
    by_cases hij : i = j
    · subst hij
      obtain rfl : r.label = l := Option.some.inj (hi.symm.trans hj)
      refine ⟨row.store t r, by simp [hrow], htag, fun t' => ?_⟩
      rw [cell_snoc hnew, LikwidResults.cell_store, hcell]
      simp
    · have hl : l ≠ r.label := by
        rintro rfl
        have hlt := (List.getElem?_eq_some_iff.mp hi).1
        exact hij ((List.getElem?_inj hlt h.nodup).mp (hi.trans hj.symm))
      refine ⟨row, by simp [hij, hrow], htag, fun t' => ?_⟩
      rw [cell_snoc hnew, if_neg fun hkey => hl hkey.2]
      exact hcell t'
  rest j hj hcard := by
    obtain ⟨row, hrow, hblank⟩ := h.rest j hj hcard
    have hij : i ≠ j := by
      rintro rfl
      rw [List.getElem?_eq_none hj] at hi
      cases hi
    exact ⟨row, by simp [hij, hrow], hblank⟩

/-- One record is copied. -/
theorem copyRecord_rows (h : Rows labels tags seen f) (hl : r.label ∈ labels)
    (ht : f.threadId < f.numberOfThreads)
    (hnew : ∀ p ∈ seen, p.1 = f.threadId → p.2.label ≠ r.label) :
    ∃ tags' f', copyRecord r f = .done () f' ∧
      Rows labels tags' (seen ++ [(f.threadId, r)]) f' ∧
      f'.threadId = f.threadId ∧ f'.numberOfThreads = f.numberOfThreads := by
  -- what follows the look-up, once the label has a row
  have hstore : ∀ {tags' : List String} {f' : Finalize}, Rows labels tags' seen f' →
      r.label ∈ tags' → f'.threadId = f.threadId → f'.numberOfThreads = f.numberOfThreads →
      ∃ f'', (do
          let regionId ← Prog.orUndefined (f'.regionLookup r.label)
          Prog.when (f'.results.length ≤ regionId ∨ f'.numberOfThreads ≤ f'.threadId)
            (Prog.halt .outOfBounds)
          Prog.modify fun f =>
            { f with results := f.results.modify regionId fun row => row.store f.threadId r } :
              Prog Unit Finalize Unit) f' = .done () f'' ∧
        Rows labels tags' (seen ++ [(f.threadId, r)]) f'' ∧
        f''.threadId = f.threadId ∧ f''.numberOfThreads = f.numberOfThreads := by
    intro tags' f' h' hmem hthread hthreads
    obtain ⟨i, hi⟩ := List.getElem?_of_mem hmem
    obtain ⟨row, hrow, -⟩ := h'.rows i _ hi
    have hlt : i < f'.results.length := (List.getElem?_eq_some_iff.mp hrow).1
    rw [(h'.lookup _ _).mpr hi, Prog.orUndefined, Prog.bind_pure_left,
      Prog.when_of_neg (by omega), Prog.bind_pure_left]
    refine ⟨_, rfl, ?_, hthread, hthreads⟩
    have hrows := h'.store hi hnew
    rw [← hthread] at hrows ⊢
    exact hrows
  unfold copyRecord
  rw [Prog.bind_of_done (Prog.get_apply f)]
  by_cases hmem : r.label ∈ tags
  · have hlook : f.regionLookup r.label ≠ none := fun hnone => h.lookup_eq_none.mp hnone hmem
    obtain ⟨f', hrun, hrows, hrest⟩ := hstore h hmem rfl rfl
    rw [Prog.when_of_neg hlook, Prog.bind_pure_left, Prog.bind_of_done (Prog.get_apply f)]
    exact ⟨tags, f', hrun, hrows, hrest⟩
  · have hroom := h.room hl hmem
    have hregister : (Prog.when (f.results.length ≤ f.currentRegion) (Prog.halt .outOfBounds) >>=
        fun _ => Prog.modify fun f => f.register r : Prog Unit Finalize Unit) f =
          .done () (f.register r) := by
      rw [Prog.when_of_neg (by rw [h.length, h.current]; omega)]
      rfl
    obtain ⟨f', hrun, hrows, hrest⟩ := hstore (h.register hl hmem) (by simp) rfl rfl
    rw [Prog.when_of_pos (h.lookup_eq_none.mpr hmem), Prog.bind_of_done hregister,
      Prog.bind_of_done (Prog.get_apply _)]
    exact ⟨_, f', hrun, hrows, hrest⟩

/-- All records of a thread are copied. -/
theorem copyRecords_rows {rs : List LikwidThreadResults} (h : Rows labels tags seen f)
    (hl : ∀ r ∈ rs, r.label ∈ labels) (ht : f.threadId < f.numberOfThreads)
    (hnodup : (rs.map LikwidThreadResults.label).Nodup)
    (hnew : ∀ p ∈ seen, p.1 = f.threadId → ∀ r ∈ rs, p.2.label ≠ r.label) :
    ∃ tags' f', rs.foldlM (fun _ r => copyRecord r) () f = .done () f' ∧
      Rows labels tags' (seen ++ rs.map (f.threadId, ·)) f' ∧
      f'.threadId = f.threadId ∧ f'.numberOfThreads = f.numberOfThreads := by
  induction rs generalizing tags seen f with
  | nil => exact ⟨tags, f, rfl, by simpa using h, rfl, rfl⟩
  | cons r rs ih =>
      rw [List.map_cons, List.nodup_cons] at hnodup
      obtain ⟨tags', f', hrun, hrows, hthread, hthreads⟩ :=
        copyRecord_rows h (hl r List.mem_cons_self) ht
          fun p hp hkey => hnew p hp hkey r List.mem_cons_self
      have hnew' : ∀ p ∈ seen ++ [(f.threadId, r)], p.1 = f'.threadId →
          ∀ r' ∈ rs, p.2.label ≠ r'.label := by
        intro p hp hkey r' hr'
        rcases List.mem_append.mp hp with hp | hp
        · exact hnew p hp (hkey.trans hthread) r' (List.mem_cons_of_mem _ hr')
        · obtain rfl := List.mem_singleton.mp hp
          intro heq
          exact hnodup.1 (heq ▸ List.mem_map_of_mem hr')
      obtain ⟨tags'', f'', hrun', hrows', hthread', hthreads'⟩ :=
        ih hrows (fun r' hr' => hl r' (List.mem_cons_of_mem _ hr')) (by omega) hnodup.2 hnew'
      refine ⟨tags'', f'', ?_, ?_, hthread'.trans hthread, hthreads'.trans hthreads⟩
      · rw [List.foldlM_cons, Prog.bind_of_done hrun]
        exact hrun'
      · rw [hthread] at hrows'
        simpa using hrows'

/-- The records of the threads, with columns from `t` on. -/
def copies : ℕ → List ThreadList → Copies
  | _, [] => []
  | t, thread :: threads => thread.hashTable.entries.map (t, ·) ++ copies (t + 1) threads

theorem mem_copies {threads : List ThreadList} {p : ℕ × LikwidThreadResults} :
    p ∈ copies t threads ↔
      ∃ k thread, threads[k]? = some thread ∧ p.1 = t + k ∧ p.2 ∈ thread.hashTable.entries := by
  induction threads generalizing t with
  | nil => simp [copies]
  | cons thread threads ih =>
      rw [copies, List.mem_append, ih, List.mem_map]
      constructor
      · rintro (⟨r, hr, rfl⟩ | ⟨k, thread', hthread', hkey, hr⟩)
        · exact ⟨0, thread, rfl, rfl, hr⟩
        · exact ⟨k + 1, thread', hthread', by omega, hr⟩
      · rintro ⟨k, thread', hthread', hkey, hr⟩
        cases k with
        | zero =>
            obtain rfl : thread = thread' := Option.some.inj hthread'
            exact Or.inl ⟨p.2, hr, Prod.ext hkey.symm rfl⟩
        | succ k => exact Or.inr ⟨k, thread', hthread', by omega, hr⟩

/-- All threads are copied. -/
theorem copyThreads_rows (threadList : ThreadLists) {cores : List ℕ}
    (h : Rows labels tags seen f)
    (hl : ∀ thread ∈ cores.filterMap threadList, ∀ r ∈ thread.hashTable.entries,
      r.label ∈ labels)
    (ht : f.threadId + (cores.filterMap threadList).length ≤ f.numberOfThreads)
    (hseen : ∀ p ∈ seen, p.1 < f.threadId) :
    ∃ tags' f', cores.foldlM (fun _ core => copyThread threadList core) () f = .done () f' ∧
      Rows labels tags' (seen ++ copies f.threadId (cores.filterMap threadList)) f' := by
  induction cores generalizing tags seen f with
  | nil => exact ⟨tags, f, rfl, by simpa [copies] using h⟩
  | cons core cores ih =>
      rw [List.foldlM_cons]
      cases hcore : threadList core with
      | none =>
          have hrun : copyThread threadList core f = .done () f := by
            simp only [copyThread, hcore]
            rfl
          rw [List.filterMap_cons_none hcore] at hl ht ⊢
          rw [Prog.bind_of_done hrun]
          exact ih h hl ht hseen
      | some thread =>
          rw [List.filterMap_cons_some hcore] at hl ht ⊢
          rw [List.length_cons] at ht
          obtain ⟨tags', f', hrun, hrows, hthread, hthreads⟩ :=
            copyRecords_rows h (hl thread List.mem_cons_self) (by omega) thread.hashTable.nodup
              fun p hp hkey => absurd hkey (hseen p hp).ne
          have hcopy : copyThread threadList core f =
              .done () { f' with threadId := f'.threadId + 1 } := by
            simp only [copyThread, hcore]
            rw [Prog.bind_of_done hrun]
            rfl
          have hrows' : Rows labels tags' (seen ++ thread.hashTable.entries.map (f.threadId, ·))
              { f' with threadId := f'.threadId + 1 } := { hrows with }
          have hseen' : ∀ p ∈ seen ++ thread.hashTable.entries.map (f.threadId, ·),
              p.1 < f'.threadId + 1 := by
            intro p hp
            rcases List.mem_append.mp hp with hp | hp
            · exact hthread ▸ Nat.lt_succ_of_lt (hseen p hp)
            · obtain ⟨r, _, rfl⟩ := List.mem_map.mp hp
              exact hthread ▸ Nat.lt_succ_self _
          obtain ⟨tags'', f'', hrun', hrows''⟩ :=
            ih hrows' (fun th hth => hl th (List.mem_cons_of_mem _ hth)) (by dsimp only; omega)
              hseen'
          refine ⟨tags'', f'', ?_, ?_⟩
          · rw [Prog.bind_of_done hcopy]
            exact hrun'
          · rw [copies, ← List.append_assoc]
            exact hthread ▸ hrows''

end Copy

/-! ## The groups of the rows -/

section GroupID

variable {P : LikwidThreadResults → Prop} {f : Finalize}

/-- Every row in use has the group of a record with its label. -/
def Finalize.Grouped (P : LikwidThreadResults → Prop) (f : Finalize) : Prop :=
  ∀ (i : ℕ) row l, f.results[i]? = some row → row.tag = some l →
    ∃ r, P r ∧ r.label = l ∧ row.groupID = some r.groupID

theorem Finalize.Grouped.modify {i : ℕ} {g : LikwidResults → LikwidResults} {f' : Finalize}
    (h : f.Grouped P) (hf' : f'.results = f.results.modify i g)
    (hg : ∀ row l, (g row).tag = some l →
      (∃ r, P r ∧ r.label = l ∧ (g row).groupID = some r.groupID) ∨
        row.tag = some l ∧ (g row).groupID = row.groupID) : f'.Grouped P := by
  intro j row l hrow htag
  rw [hf', List.getElem?_modify] at hrow
  obtain ⟨old, hold, rfl⟩ := Option.map_eq_some_iff.mp hrow
  split at htag
  · next hij =>
      rcases hg old l htag with hnew | ⟨htag', hgroup⟩
      · rwa [if_pos hij]
      · obtain ⟨r, hr, hlabel, hid⟩ := h j old l hold htag'
        refine ⟨r, hr, hlabel, ?_⟩
        rw [if_pos hij, hgroup, hid]
  · next hij =>
      obtain ⟨r, hr, hlabel, hid⟩ := h j old l hold htag
      refine ⟨r, hr, hlabel, ?_⟩
      rw [if_neg hij]
      exact hid

theorem copyRecord_grouped {r : LikwidThreadResults} (hr : P r) (h : f.Grouped P) :
    (copyRecord r).wp (fun _ f' => f'.Grouped P) (fun _ _ => True) f := by
  have hstore : ∀ {f' : Finalize}, f'.Grouped P → (do
        let f ← Prog.get
        let regionId ← Prog.orUndefined (f.regionLookup r.label)
        Prog.when (f.results.length ≤ regionId ∨ f.numberOfThreads ≤ f.threadId)
          (Prog.halt .outOfBounds)
        Prog.modify fun f =>
          { f with results := f.results.modify regionId fun row => row.store f.threadId r } :
            Prog Unit Finalize Unit).wp (fun _ f' => f'.Grouped P) (fun _ _ => True) f' := by
    intro f' h'
    simp only [Prog.wp_bind, Prog.wp_get, Prog.wp_orUndefined, Prog.wp_when, Prog.wp_halt,
      Prog.wp_modify, implies_true, true_and]
    exact fun i _ _ => h'.modify rfl fun row l htag => Or.inr ⟨htag, rfl⟩
  unfold copyRecord
  rw [Prog.wp_bind, Prog.wp_get, Prog.wp_bind, Prog.wp_when]
  refine ⟨fun _ => ?_, fun _ => hstore h⟩
  rw [Prog.wp_bind, Prog.wp_when, Prog.wp_modify]
  have hregister : (f.register r).Grouped P :=
    h.modify rfl fun row l htag => Or.inl ⟨r, hr, Option.some.inj htag, rfl⟩
  exact ⟨fun _ => trivial, fun _ => hstore hregister⟩

/-- The group of a row is that of a record with its label. -/
theorem hashTableFinalize_grouped {threadList : ThreadLists} {n : ℕ × ℕ}
    (h : hashTableFinalize threadList = .done n f)
    (hP : ∀ thread ∈ threadList.active, ∀ r ∈ thread.hashTable.entries, P r) : f.Grouped P := by
  have hwp : ((List.range maxNumThreads).foldlM (fun _ core => copyThread threadList core) () >>=
      fun _ => pure (countThreads threadList) : Prog Unit Finalize (ℕ × ℕ)).wp
        (fun _ f' => f'.Grouped P) (fun _ _ => True)
        { numberOfThreads := (countThreads threadList).1
          results := List.replicate (countThreads threadList).2 {} } := by
    rw [Prog.wp_bind]
    refine Prog.wp_foldlM (I := fun _ f => Finalize.Grouped P f)
      (fun seen core rest f' hcores hf' => ?_) ?_
    · have hcore : core ∈ List.range maxNumThreads := hcores ▸ by simp
      unfold copyThread
      split
      · exact hf'
      · next thread hthread =>
          have hactive : thread ∈ threadList.active := List.mem_filterMap.mpr ⟨core, hcore, hthread⟩
          rw [Prog.wp_bind]
          refine Prog.wp_mono (Prog.wp_foldlM (I := fun _ f => Finalize.Grouped P f)
            (fun _ r _ f'' hrs hf'' => ?_) hf') (fun _ f'' hf'' => hf'') fun _ _ h => h
          exact copyRecord_grouped (hP thread hactive r (hrs ▸ by simp)) hf''
    · intro i row l hrow htag
      rw [List.getElem?_replicate] at hrow
      split at hrow
      · obtain rfl := Option.some.inj hrow
        cases htag
      · cases hrow
  have hgrouped := Prog.wp_done hwp h
  exact hgrouped

end GroupID
/-! ## When the tables are merged -/

section Merge

variable {threadList : ThreadLists}

theorem ThreadList.card_labels (thread : ThreadList) :
    thread.labels.card = thread.hashTable.entries.length := by
  rw [ThreadList.labels, List.toFinset_card_of_nodup thread.hashTable.nodup, List.length_map]

theorem ThreadLists.mem_labels {l : String} :
    l ∈ threadList.labels ↔ ∃ thread ∈ threadList.active, l ∈ thread.labels := by
  simp [ThreadLists.labels, ThreadList.labels]

theorem ThreadLists.labels_subset {thread : ThreadList} (h : thread ∈ threadList.active) :
    thread.labels ⊆ threadList.labels :=
  fun _ hl => ThreadLists.mem_labels.mpr ⟨thread, h, hl⟩

theorem countThread_snd (n : ℕ × ℕ) (thread : ThreadList) :
    (countThread n (some thread)).2 = max n.2 thread.labels.card := by
  rw [ThreadList.card_labels, Nat.max_def, countThread]
  dsimp only
  split <;> split <;> omega

/-- The threads are counted, and the number of regions is the largest. -/
theorem countThreads_spec (threadList : ThreadLists) :
    (countThreads threadList).1 = threadList.active.length ∧
      (∀ thread ∈ threadList.active, thread.labels.card ≤ (countThreads threadList).2) ∧
      ((countThreads threadList).2 = 0 ∨
        ∃ thread ∈ threadList.active, (countThreads threadList).2 = thread.labels.card) := by
  suffices hgen : ∀ (cores : List ℕ) (n : ℕ × ℕ),
      let m := cores.foldl (fun n i => countThread n (threadList i)) n
      m.1 = n.1 + (cores.filterMap threadList).length ∧ n.2 ≤ m.2 ∧
        (∀ thread ∈ cores.filterMap threadList, thread.labels.card ≤ m.2) ∧
        (m.2 = n.2 ∨ ∃ thread ∈ cores.filterMap threadList, m.2 = thread.labels.card) by
    obtain ⟨hcount, -, hmax, hreached⟩ := hgen (List.range maxNumThreads) (0, 0)
    exact ⟨hcount.trans (Nat.zero_add _), hmax, hreached⟩
  intro cores
  induction cores with
  | nil => simp
  | cons core cores ih =>
      intro n
      obtain ⟨hcount, hle, hmax, hreached⟩ := ih (countThread n (threadList core))
      rw [List.foldl_cons]
      cases hcore : threadList core with
      | none =>
          rw [hcore] at hcount hle hmax hreached
          rw [List.filterMap_cons_none hcore]
          exact ⟨hcount, hle, hmax, hreached⟩
      | some thread =>
          rw [hcore] at hcount hle hmax hreached
          rw [countThread_snd] at hle hreached
          rw [List.filterMap_cons_some hcore]
          refine ⟨?_, (le_max_left _ _).trans hle, ?_, ?_⟩
          · rw [List.length_cons, hcount]
            exact Nat.succ_add_eq_add_succ _ _
          · intro th hth
            rcases List.mem_cons.mp hth with rfl | hth
            · exact (le_max_right _ _).trans hle
            · exact hmax th hth
          · rcases hreached with heq | ⟨th, hth, heq⟩
            · rcases max_choice n.2 thread.labels.card with hmax' | hmax'
              · exact Or.inl (heq.trans hmax')
              · exact Or.inr ⟨thread, List.mem_cons_self, heq.trans hmax'⟩
            · exact Or.inr ⟨th, List.mem_cons_of_mem _ hth, heq⟩

/-- There are enough rows exactly if one thread has met every region. -/
theorem countThreads_eq_card_iff :
    (countThreads threadList).2 = threadList.labels.card ↔
      threadList.labels = ∅ ∨ ∃ thread ∈ threadList.active, threadList.labels ⊆ thread.labels := by
  obtain ⟨-, hmax, hreached⟩ := countThreads_spec threadList
  constructor
  · intro heq
    rcases hreached with hzero | ⟨thread, hthread, hcard⟩
    · exact Or.inl (Finset.card_eq_zero.mp (heq ▸ hzero))
    · refine Or.inr ⟨thread, hthread, ?_⟩
      have hsame := Finset.eq_of_subset_of_card_le (ThreadLists.labels_subset hthread)
        (by rw [← hcard, heq])
      exact hsame.ge
  · intro h
    have hle : (countThreads threadList).2 ≤ threadList.labels.card := by
      rcases hreached with hzero | ⟨thread, hthread, hcard⟩
      · rw [hzero]
        exact Nat.zero_le _
      · rw [hcard]
        exact Finset.card_le_card (ThreadLists.labels_subset hthread)
    rcases h with hempty | ⟨thread, hthread, hall⟩
    · rw [hempty, Finset.card_empty] at hle ⊢
      exact Nat.le_zero.mp hle
    · exact hle.antisymm ((Finset.card_le_card hall).trans (hmax thread hthread))

/-- What the merge leaves, if there are enough rows. -/
theorem hashTableFinalize_rows (h : (countThreads threadList).2 = threadList.labels.card) :
    ∃ tags f, hashTableFinalize threadList =
        .done (threadList.active.length, threadList.labels.card) f ∧
      Rows threadList.labels tags (copies 0 threadList.active) f := by
  have hcount := (countThreads_spec threadList).1
  have hstart : Rows threadList.labels [] []
      { numberOfThreads := (countThreads threadList).1
        results := List.replicate (countThreads threadList).2 {} } :=
    { nodup := List.nodup_nil
      subset := by simp
      copied := by simp
      current := rfl
      lookup := by simp
      length := by simp [h]
      rows := by simp
      rest := fun i _ hi => ⟨{}, by simp [h, hi], fun _ => rfl⟩ }
  obtain ⟨tags, f, hrun, hrows⟩ :=
    copyThreads_rows threadList hstart
      (fun thread hthread r hr => ThreadLists.mem_labels.mpr ⟨thread, hthread,
        List.mem_toFinset.mpr (List.mem_map_of_mem hr)⟩)
      (by simp [hcount, ThreadLists.active]) (by simp)
  refine ⟨tags, f, ?_, hrows⟩
  unfold hashTableFinalize
  dsimp only
  rw [Prog.bind_of_done hrun, hcount, h]
  rfl

/-- The numbers returned do not depend on what was copied. -/
theorem hashTableFinalize_eq_done {n : ℕ × ℕ} {f : Finalize}
    (h : hashTableFinalize threadList = .done n f) : n = countThreads threadList := by
  have hwp : ((List.range maxNumThreads).foldlM (fun _ core => copyThread threadList core) () >>=
      fun _ => pure (countThreads threadList) : Prog Unit Finalize (ℕ × ℕ)).wp
        (fun n _ => n = countThreads threadList) (fun _ _ => True)
        { numberOfThreads := (countThreads threadList).1
          results := List.replicate (countThreads threadList).2 {} } := by
    rw [Prog.wp_bind]
    exact Prog.wp_mono (Prog.wp_trivial _) (fun _ _ _ => rfl) fun _ _ _ => trivial
  have hn := Prog.wp_done hwp h
  exact hn

/-- Each thread has one record of a label. -/
theorem copies_cell {t : ℕ} {thread : ThreadList} {l : String}
    (hthread : threadList.active[t]? = some thread) :
    (∀ r ∈ thread.hashTable.entries, r.label = l →
        Copies.cell (copies 0 threadList.active) t l = r.cell) ∧
      (l ∉ thread.labels → Copies.cell (copies 0 threadList.active) t l = .blank) := by
  have hmem : ∀ p ∈ copies 0 threadList.active, p.1 = t → p.2 ∈ thread.hashTable.entries := by
    intro p hp hkey
    obtain ⟨k, thread', hthread', hk, hr⟩ := mem_copies.mp hp
    obtain rfl : t = k := by omega
    obtain rfl : thread = thread' := Option.some.inj (hthread.symm.trans hthread')
    exact hr
  constructor
  · rintro r hr rfl
    have hcopy : (t, r) ∈ copies 0 threadList.active :=
      mem_copies.mpr ⟨t, thread, hthread, (Nat.zero_add t).symm, hr⟩
    obtain ⟨p, hp⟩ := Option.isSome_iff_exists.mp
      (List.find?_isSome (p := fun p : ℕ × LikwidThreadResults => p.1 = t ∧ p.2.label = r.label)
        |>.mpr ⟨_, hcopy, by simp⟩)
    have hkey := List.find?_some hp
    simp only [decide_eq_true_eq] at hkey
    obtain ⟨ht, hlabel⟩ := hkey
    have hsame : p.2 = r := List.inj_on_of_nodup_map thread.hashTable.nodup
      (hmem p (List.mem_of_find?_eq_some hp) ht) hr hlabel
    rw [Copies.cell, hp, ← hsame]
    rfl
  · intro hl
    refine cell_of_not_seen fun p hp hkey hlabel => hl ?_
    exact List.mem_toFinset.mpr (hlabel ▸ List.mem_map_of_mem (hmem p hp hkey))

/-- **The tables are merged** exactly if one thread has met every region. -/
theorem merged_iff :
    Merged threadList ↔
      threadList.labels = ∅ ∨ ∃ thread ∈ threadList.active, threadList.labels ⊆ thread.labels := by
  rw [← countThreads_eq_card_iff]
  constructor
  · rintro ⟨f, hrun, -⟩
    exact (congrArg Prod.snd (hashTableFinalize_eq_done hrun)).symm
  · intro h
    obtain ⟨tags, f, hrun, hrows⟩ := hashTableFinalize_rows h
    have hrow : ∀ l ∈ threadList.labels, ∃ i : ℕ, tags[i]? = some l := by
      intro l hl
      obtain ⟨thread, hthread, hmem⟩ := ThreadLists.mem_labels.mp hl
      obtain ⟨t, ht⟩ := List.getElem?_of_mem hthread
      obtain ⟨r, hr, rfl⟩ := List.mem_map.mp (List.mem_toFinset.mp hmem)
      have hcopy : (t, r) ∈ copies 0 threadList.active :=
        mem_copies.mpr ⟨t, thread, ht, (Nat.zero_add t).symm, hr⟩
      exact List.getElem?_of_mem (hrows.copied _ hcopy)
    have hlook : ∀ (l : String) (i : ℕ), tags[i]? = some l → (f.regionLookup l).getD 0 = i := by
      intro l i hi
      rw [(hrows.lookup l i).mpr hi]
      rfl
    have hgrouped : f.Grouped fun r => ∃ thread ∈ threadList.active,
        r ∈ thread.hashTable.entries :=
      hashTableFinalize_grouped hrun fun thread hthread r hr => ⟨thread, hthread, hr⟩
    refine ⟨f, hrun, fun l => (f.regionLookup l).getD 0, ?_, ?_⟩
    · intro l hl l' hl' heq
      obtain ⟨i, hi⟩ := hrow l hl
      obtain ⟨i', hi'⟩ := hrow l' hl'
      dsimp only at heq
      rw [hlook l i hi, hlook l' i' hi'] at heq
      exact Option.some.inj (hi.symm.trans (heq ▸ hi'))
    · intro l hl
      obtain ⟨i, hi⟩ := hrow l hl
      obtain ⟨row, hres, htag, hcell⟩ := hrows.rows i l hi
      dsimp only
      rw [hlook l i hi]
      obtain ⟨r, ⟨thread, hthread, hr⟩, hgroup⟩ := hgrouped i row l hres htag
      refine ⟨hrows.length ▸ (List.getElem?_eq_some_iff.mp hres).1, row, hres, htag,
        ⟨thread, hthread, r, hr, hgroup⟩, ?_⟩
      intro t thread hthread
      rw [hcell]
      exact copies_cell hthread

end Merge

/-- What a thread has after one run of a region in group 0. -/
def oneRegion (cpu : ℕ) (label : String) : ThreadList where
  coreId := cpu
  hashTable :=
    { entries := [{ label := label, startTime := ⟨0, 0⟩, groupID := 0, cpuID := cpu, count := 1,
                    startOverflows := fun _ => 0 }] }

/-- CPU 0 runs one region, CPU 1 another. -/
def differentRegions : ThreadLists := fun cpu =>
  if cpu = 0 then some (oneRegion 0 "init-0")
  else if cpu = 1 then some (oneRegion 1 "solve-0")
  else none

/-- There are two regions, but only one row is allocated. -/
theorem not_merged_differentRegions : ¬Merged differentRegions := by
  rintro ⟨f, hrun, -⟩
  have hregions := congrArg Prod.snd (hashTableFinalize_eq_done hrun)
  exact absurd hregions (by decide +kernel)

end Likwid
