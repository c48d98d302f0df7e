import Likwid.Lib.Numeral
import Likwid.Lib.Pattern
import Likwid.MarkerGroups

/-!
# The file of the marker API (`libperfctr.c`, `likwid.lua`)

`likwid_markerClose` writes the merged regions to a text file and `getMarkerResults`
of `likwid-perfctr` reads it. The reader's pattern for the name of a region has
printable characters without the blank: if all names are of these, everything is read
back, and only then (`recovers_iff`).
-/

namespace Likwid

open Text Pattern

/-! ## The writer -/

/-- `"%d:%s\n"` with the tag of a region -/
def regionLine (i : ℕ) (row : LikwidResults) : Option (List Char) :=
  row.tag.map fun tag => decimal i ++ ':' :: tag.toList

/-- `results[i].counters[j][k]` -/
def LikwidResults.counter (row : LikwidResults) (j k : ℕ) : ℚ :=
  if h : k < numPmc then row.counters j ⟨k, h⟩ else 0

/-- The line of a region and a thread, where all it is made of exists. It is also put
together in `char line[1024]`, and a longer one overruns that. -/
def resultLine (p : Perfmon) (i j : ℕ) (row : LikwidResults) : Option (List Char) := do
  let group ← row.groupID
  let es ← if 0 ≤ group then p.group? group.toNat else none
  let line := decimal i ++ ' ' :: (integer group ++ ' ' :: (integer (row.cpulist j) ++ ' ' ::
    (decimal (row.count j) ++ ' ' :: (printE (row.time j) ++ ' ' ::
      (decimal es.numberOfEvents ++ ' ' ::
        (List.range es.numberOfEvents).flatMap fun k => printE (row.counter j k) ++ [' '])))))
  if es.numberOfEvents ≤ numPmc ∧ line.length < 1024 then some line else none

/-- The lines of the file, each with its end. -/
def unlines (lines : List (List Char)) : List Char := lines.flatMap (· ++ ['\n'])

def markerFile (s : MarkerApi) (numberOfThreads numberOfRegions : ℕ)
    (results : List LikwidResults) : Option (List Char) := do
  let header := decimal numberOfThreads ++ ' ' :: (decimal numberOfRegions ++ ' ' ::
    decimal s.numberOfGroups)
  let regions ← results.zipIdx.mapM fun row => regionLine row.2 row.1
  let lines ← (results.zipIdx.flatMap fun row => (List.range numberOfThreads).map (row, ·)).mapM
    fun cell => resultLine s.perfmon cell.1.2 cell.2 cell.1.1
  some (unlines (header :: (regions ++ lines)))

/-- `likwid_markerClose`, with `LIKWID_FILEPATH` set to a file that can be opened; returns
what it writes to the file. -/
def likwidMarkerClose : MarkerApiProg (List Char) := do
  let s ← Prog.get
  Prog.when (s.likwidInit = false) (Prog.ret ())
  match hashTableFinalize s.threadList with
  | .done (numberOfThreads, numberOfRegions) f => do
      Prog.when (numberOfThreads = 0) (Prog.ret ())
      let file ← Prog.orUndefined (markerFile s numberOfThreads numberOfRegions f.results)
      Prog.modify fun s => { s with likwidInit := false }
      pure file
  | .ret _ _ => Prog.ret ()
  | .halt k => Prog.halt k

/-! ## The reader -/

/-- `stringsplit` -/
def stringsplit (astr : List Char) (sSeparator : Char) : List (List Char) :=
  if astr = [] then [] else astr.splitOn sSeparator

/-- `%g` in the C locale; `%a` adds nothing to it. -/
def isGraph (c : Char) : Bool := 33 ≤ c.toNat && c.toNat ≤ 126

/-- `%a` -/
def isAlpha (c : Char) : Bool := c.isAlpha

/-- `"(%d+):([%a%g]*)-(%d+)"` -/
def regionPattern : List Item :=
  [⟨Char.isDigit, .plus⟩, ⟨(· == ':'), .one⟩, ⟨isGraph, .star⟩, ⟨(· == '-'), .one⟩,
    ⟨Char.isDigit, .plus⟩]

/-- `"(%d+) (%d+) (%d+) (%d+) %a*"` -/
def resultPattern : List Item :=
  [⟨Char.isDigit, .plus⟩, ⟨(· == ' '), .one⟩, ⟨Char.isDigit, .plus⟩, ⟨(· == ' '), .one⟩,
    ⟨Char.isDigit, .plus⟩, ⟨(· == ' '), .one⟩, ⟨Char.isDigit, .plus⟩, ⟨(· == ' '), .one⟩,
    ⟨isAlpha, .star⟩]

/-- The key of a thread: its index, or the text of its CPU if that is not in the list. -/
inductive ThreadKey where
  | index (i : ℕ)
  | text (t : List Char)
deriving DecidableEq, Repr

/-- `group_data[g][r]` -/
structure RegionData where
  id : ℕ
  name : List Char
  time : ThreadKey → Option ℚ := fun _ => none
  count : ThreadKey → Option (List Char) := fun _ => none

/-- `results[g][r][c][t]` -/
structure EventResult where
  value : ℚ
  counter : String

/-- The two tables that `getMarkerResults` returns. -/
structure MarkerData where
  groupData : ℕ → ℕ → Option RegionData := fun _ _ => none
  results : ℕ → ℕ → Option (ℕ → ThreadKey → Option EventResult) := fun _ _ => none

def MarkerData.setRegion (d : MarkerData) (g r : ℕ) (region : RegionData) : MarkerData :=
  { d with
    groupData := Function.update d.groupData g
      (Function.update (d.groupData g) r (some region)) }

def MarkerData.setResults (d : MarkerData) (g r : ℕ)
    (table : ℕ → ThreadKey → Option EventResult) : MarkerData :=
  { d with
    results := Function.update d.results g (Function.update (d.results g) r (some table)) }

/-- A line with the name of a region. -/
def MarkerData.addRegion (d : MarkerData) (g r : ℕ) (gname : List Char) : MarkerData :=
  (d.setRegion g r { id := g, name := gname }).setResults g r
    ((d.results g r).getD fun _ _ => none)

/-- The lines up to the first one that names no region. -/
def readRegions : List (List Char) → MarkerData → List (List Char) × MarkerData
  | [], d => ([], d)
  | line :: lines, d =>
      match find regionPattern line with
      | some [r, _, gname, _, g] =>
          readRegions lines (d.addRegion (readNat g + 1) (readNat r + 1) gname)
      | _ => (line :: lines, d)

variable (M : Machine) (groupList : List (List String)) (cpulist : List ℕ)

/-- `results[g][r][c][t]["Value"]` and `["Counter"]`; a missing table is an error. -/
def readEvent (g r : ℕ) (t : ThreadKey) (tmpList : List (List Char)) (d : MarkerData) (c : ℕ) :
    Option MarkerData := do
  let table ← d.results g r
  let value := ((tmpList[c - 1]?.bind number).map M.fl).getD 0
  let events ← groupList[g - 1]?
  let counter ← events[c - 1]?
  some (d.setResults g r
    (Function.update table c (Function.update (table c) t (some ⟨value, counter⟩))))

/-- A line with the results of a region and a thread, and any other line. -/
def readLine (d : MarkerData) (line : List Char) : Option MarkerData :=
  match find resultPattern line with
  | some [r, _, g, _, t, _, count, _, _] => do
      let r := readNat r + 1
      let g := readNat g + 1
      let key := match cpulist.findIdx? (· = readNat t) with
        | some i => .index (i + 1)
        | none => .text t
      let tmpList := (stringsplit line ' ').drop 4
      let time := (tmpList[0]?.bind number).map M.fl
      let events := tmpList[1]?.bind number
      let region ← d.groupData g r
      let d := d.setRegion g r
        { region with
          time := Function.update region.time key time
          count := Function.update region.count key (some count) }
      let events ← events
      (List.range ⌊events⌋.toNat).foldlM (fun d k =>
        readEvent M groupList g r key (tmpList.drop 2) d (k + 1)) d
  | _ => some d

/-- `getMarkerResults` of the text of a file; an error of Lua is `none`. -/
def getMarkerResults (finput : List Char) : Option MarkerData :=
  match stringsplit finput '\n' with
  | [] => some {}
  | first :: lines =>
      match stringsplit first ' ' with
      | [nrThreads, nrRegions, nrGroups] => do
          let n ← number nrThreads
          if n ≠ cpulist.length then some {}
          else if number nrRegions = some 0 ∧ 0 < n then some {}
          else if number nrGroups = some 0 then some {}
          else
            let (lines, d) := readRegions lines {}
            lines.foldlM (readLine M groupList cpulist) d
      | _ => some {}

/-! ## Lines and their fields -/

section Lines

variable {line : List Char} {lines : List (List Char)}

theorem stringsplit_cons {astr : List Char} {w : List Char} {c : Char} (hw : c ∉ w) :
    stringsplit (w ++ c :: astr) c = w :: astr.splitOn c := by
  rw [stringsplit, if_neg (by simp), List.splitOn_append_cons_self_of_not_mem hw]

theorem splitOn_unlines (h : ∀ line ∈ lines, '\n' ∉ line) :
    (unlines lines).splitOn '\n' = lines ++ [[]] := by
  induction lines with
  | nil => rfl
  | cons line lines ih =>
      obtain ⟨hline, h⟩ := List.forall_mem_cons.mp h
      have hcons : unlines (line :: lines) = line ++ '\n' :: unlines lines := by simp [unlines]
      rw [hcons, List.splitOn_append_cons_self_of_not_mem hline, ih h, List.cons_append]

theorem not_mem_printE {c : Char} (hc : c.isDigit = false) (hne : c ∉ ['-', '+', '.', 'e'])
    (x : ℚ) : c ∉ printE x := by
  intro hmem
  rcases mem_printE.2 c hmem with h | h
  · exact absurd h (by simp [hc])
  · exact hne h

theorem toList_groupTag (name : String) (g : ℕ) :
    (groupTag name g).toList = name.toList ++ '-' :: decimal g := by
  have hg : (toString (g : Int)).toList = decimal g := by
    show (toString g).toList = _
    rw [Nat.toString_eq_ofList_toDigits, String.toList_ofList]
    rfl
  rw [groupTag, String.toList_append, String.toList_append, hg]
  simp

/-- The line of a region is split at the last dash. -/
theorem find_regionLine {name : List Char} (hname : ∀ c ∈ name, isGraph c = true) (i g : ℕ) :
    find regionPattern (decimal i ++ ':' :: (name ++ '-' :: decimal g)) =
      some [decimal i, [':'], name, ['-'], decimal g] := by
  let dash : List Item := [⟨(· == '-'), .one⟩, ⟨Char.isDigit, .plus⟩]
  have hdigits : ∀ c ∈ decimal g, c.isDigit = true := fun c => isDigit_of_mem_decimal
  have hend : matchHere dash ('-' :: decimal g) = some [['-'], decimal g] := by
    refine matchHere_one (by decide) ?_
    have h := matchHere_plus (p := []) (s := []) hdigits (decimal_ne_nil g) rfl rfl
    rwa [List.append_nil] at h
  have hback : ∀ t, t <:+ decimal g → matchHere dash t = none := by
    intro t ht
    cases t with
    | nil => rfl
    | cons c t =>
        have hc : (c == '-') = false := by
          have hdigit := hdigits c (ht.subset List.mem_cons_self)
          refine beq_false_of_ne ?_
          rintro rfl
          exact absurd hdigit (by decide)
        rw [matchHere, if_neg (by simp [hc])]
  refine find_of_matchHere (matchHere_plus (fun c => isDigit_of_mem_decimal) (decimal_ne_nil i)
    (by simp) (matchHere_one (by decide) (matchHere_star ?_)))
  have hrun : maxExpand isGraph (matchHere dash) (name ++ '-' :: decimal g) =
      some (name ++ [], [['-'], decimal g]) :=
    maxExpand_append hname (maxExpand_back hback hend)
  rwa [List.append_nil] at hrun

/-- The line of a thread. -/
def cellLine (i g : ℕ) (cpu : Int) (count : ℕ) (time : ℚ) (values : List ℚ) : List Char :=
  decimal i ++ ' ' :: (decimal g ++ ' ' :: (integer cpu ++ ' ' :: (decimal count ++ ' ' ::
    (printE time ++ ' ' :: (decimal values.length ++ ' ' ::
      values.flatMap fun x => printE x ++ [' '])))))

variable {i g count : ℕ} {cpu : Int} {time : ℚ} {values : List ℚ}

theorem mem_cellLine {c : Char} (h : c ∈ cellLine i g cpu count time values) :
    c.isDigit = true ∨ c ∈ [' ', '-', '+', '.', 'e'] := by
  have hdecimal : ∀ n, c ∈ decimal n → c.isDigit = true ∨ c ∈ [' ', '-', '+', '.', 'e'] :=
    fun n hc => Or.inl (isDigit_of_mem_decimal hc)
  have hprint : ∀ x, c ∈ printE x → c.isDigit = true ∨ c ∈ [' ', '-', '+', '.', 'e'] :=
    fun x hc => (mem_printE.2 c hc).imp_right (List.mem_cons_of_mem _)
  have hinteger : c ∈ integer cpu → c.isDigit = true ∨ c ∈ [' ', '-', '+', '.', 'e'] := by
    unfold integer
    split
    · intro hc
      rcases List.mem_cons.mp hc with rfl | hc
      · exact Or.inr (by simp)
      · exact hdecimal _ hc
    · exact hdecimal _
  simp only [cellLine, List.mem_append, List.mem_cons, List.mem_flatMap] at h
  rcases h with h | rfl | h | rfl | h | rfl | h | rfl | h | rfl | h | rfl | ⟨x, -, h | h⟩
  · exact hdecimal _ h
  · exact Or.inr (by simp)
  · exact hdecimal _ h
  · exact Or.inr (by simp)
  · exact hinteger h
  · exact Or.inr (by simp)
  · exact hdecimal _ h
  · exact Or.inr (by simp)
  · exact hprint _ h
  · exact Or.inr (by simp)
  · exact hdecimal _ h
  · exact Or.inr (by simp)
  · exact hprint _ h
  · rcases h with rfl | h
    · exact Or.inr (by simp)
    · cases h

theorem splitOn_cellLine :
    (cellLine i g cpu count time values).splitOn ' ' =
      [decimal i, decimal g, integer cpu, decimal count, printE time, decimal values.length] ++
        (values.map printE ++ [[]]) := by
  have hvalues : (values.flatMap fun x => printE x ++ [' ']).splitOn ' ' =
      values.map printE ++ [[]] := by
    induction values with
    | nil => rfl
    | cons x values ih =>
        have hcons : ((x :: values).flatMap fun x => printE x ++ [' ']) =
            printE x ++ ' ' :: values.flatMap fun x => printE x ++ [' '] := by simp
        rw [hcons, List.splitOn_append_cons_self_of_not_mem (not_mem_printE (by decide)
          (by decide) x), ih, List.map_cons, List.cons_append]
  have hdecimal : ∀ n, ' ' ∉ decimal n := not_mem_decimal (by decide)
  unfold cellLine
  rw [List.splitOn_append_cons_self_of_not_mem (hdecimal i),
    List.splitOn_append_cons_self_of_not_mem (hdecimal g),
    List.splitOn_append_cons_self_of_not_mem (not_mem_integer (by decide) (by decide) cpu),
    List.splitOn_append_cons_self_of_not_mem (hdecimal count),
    List.splitOn_append_cons_self_of_not_mem (not_mem_printE (by decide) (by decide) time),
    List.splitOn_append_cons_self_of_not_mem (hdecimal values.length), hvalues]
  rfl

/-- No line of a thread is taken for that of a region. -/
theorem find_regionPattern_none (h : ':' ∉ line) : find regionPattern line = none := by
  by_contra hne
  obtain ⟨ws, hws⟩ := Option.ne_none_iff_exists'.mp hne
  obtain ⟨pre, t, rfl, hfits⟩ := find_sound hws
  obtain ⟨w, ws', -, hfits', rfl⟩ := List.forall₂_cons_left_iff.mp hfits
  obtain ⟨colon, ws'', hcolon, -, rfl⟩ := List.forall₂_cons_left_iff.mp hfits'
  obtain ⟨hclass, hlen⟩ := hcolon
  obtain ⟨c, rfl⟩ := List.length_eq_one_iff.mp hlen
  obtain rfl : c = ':' := by simpa using hclass
  exact h (by simp)

/-- A line of a thread that has met the region. -/
theorem find_cellLine (i g cpu count : ℕ) (time : ℚ) (values : List ℚ) :
    ∃ w, find resultPattern (cellLine i g cpu count time values) =
      some [decimal i, [' '], decimal g, [' '], decimal cpu, [' '], decimal count, [' '], w] := by
  have hcpu : integer (cpu : Int) = decimal cpu := by simp [integer]
  have hdigits : ∀ n, ∀ c ∈ decimal n, c.isDigit = true := fun n c => isDigit_of_mem_decimal
  have hnumber : ∀ {n : ℕ} {p : List Item} {s : List Char} {ws : List (List Char)},
      matchHere p s = some ws →
      matchHere (⟨Char.isDigit, .plus⟩ :: ⟨(· == ' '), .one⟩ :: p) (decimal n ++ ' ' :: s) =
        some (decimal n :: [' '] :: ws) := fun h =>
    matchHere_plus (hdigits _) (decimal_ne_nil _) (by simp) (matchHere_one (by decide) h)
  have hletters : ∀ s, ∃ w, matchHere [⟨isAlpha, .star⟩] s = some [w] := by
    intro s
    have hmax : ∃ r, maxExpand isAlpha (matchHere []) s = some r := by
      induction s with
      | nil => exact ⟨_, rfl⟩
      | cons c s ih =>
          obtain ⟨r, hr⟩ := ih
          rw [maxExpand]
          split
          · exact ⟨_, rfl⟩
          · exact ⟨_, rfl⟩
    obtain ⟨⟨w, ws⟩, hr⟩ := hmax
    obtain ⟨_, _, _, hws⟩ := maxExpand_sound hr
    obtain rfl := Option.some.inj hws
    exact ⟨w, matchHere_star hr⟩
  unfold cellLine
  obtain ⟨w, hw⟩ := hletters (printE time ++ ' ' :: (decimal values.length ++ ' ' ::
    values.flatMap fun x => printE x ++ [' ']))
  refine ⟨w, find_of_matchHere ?_⟩
  rw [hcpu]
  exact hnumber (hnumber (hnumber (hnumber hw)))

theorem digits_field {k : ℕ} {w : List Char}
    (hk : ((cellLine i g (-1) count time values).splitOn ' ')[k]? = some w) (hne : w ≠ [])
    (hw : ∀ c ∈ w, c.isDigit = true) : k < 6 ∧ k ≠ 2 ∧ k ≠ 4 := by
  have hprint : ∀ x, w ≠ printE x := by
    rintro x rfl
    exact absurd (hw _ (mem_printE (x := x)).1) (by decide)
  rw [splitOn_cellLine] at hk
  have hlt : k < 6 := by
    by_contra hge
    rw [List.getElem?_append_right (by simpa using hge)] at hk
    rcases List.mem_append.mp (List.mem_of_getElem? hk) with hmem | hmem
    · obtain ⟨x, -, rfl⟩ := List.mem_map.mp hmem
      exact hprint x rfl
    · exact hne (List.mem_singleton.mp hmem)
  refine ⟨hlt, ?_, ?_⟩
  · rintro rfl
    obtain rfl : integer (-1) = w := Option.some.inj hk
    exact absurd (hw '-' (by decide)) (by decide)
  · rintro rfl
    exact hprint time (Option.some.inj hk).symm

/-- The line of a thread without results is skipped: of any three fields behind the
first, one does not consist of digits. -/
theorem find_blankLine : find resultPattern (cellLine i g (-1) count time values) = none := by
  by_contra hne
  obtain ⟨ws, hws⟩ := Option.ne_none_iff_exists'.mp hne
  obtain ⟨pre, t, hline, hfits⟩ := find_sound hws
  obtain ⟨d₁, ws₁, -, h₁, rfl⟩ := List.forall₂_cons_left_iff.mp hfits
  obtain ⟨b₁, ws₂, hb₁, h₂, rfl⟩ := List.forall₂_cons_left_iff.mp h₁
  obtain ⟨d₂, ws₃, hd₂, h₃, rfl⟩ := List.forall₂_cons_left_iff.mp h₂
  obtain ⟨b₂, ws₄, hb₂, h₄, rfl⟩ := List.forall₂_cons_left_iff.mp h₃
  obtain ⟨d₃, ws₅, hd₃, h₅, rfl⟩ := List.forall₂_cons_left_iff.mp h₄
  obtain ⟨b₃, ws₆, hb₃, h₆, rfl⟩ := List.forall₂_cons_left_iff.mp h₅
  obtain ⟨d₄, ws₇, hd₄, h₇, rfl⟩ := List.forall₂_cons_left_iff.mp h₆
  obtain ⟨b₄, ws, hb₄, -, rfl⟩ := List.forall₂_cons_left_iff.mp h₇
  have hblank : ∀ {b : List Char}, Item.Fits ⟨(· == ' '), .one⟩ b → b = [' '] := by
    rintro b ⟨hclass, hlen⟩
    obtain ⟨c, rfl⟩ := List.length_eq_one_iff.mp hlen
    obtain rfl : c = ' ' := by simpa using hclass
    rfl
  obtain rfl := hblank hb₁
  obtain rfl := hblank hb₂
  obtain rfl := hblank hb₃
  obtain rfl := hblank hb₄
  have hsolid : ∀ {d : List Char}, Item.Fits ⟨Char.isDigit, .plus⟩ d → ' ' ∉ d :=
    fun hd hmem => absurd (hd.1 _ hmem) (by decide)
  obtain ⟨pre', hpre'⟩ : ∃ pre', (pre ++ d₁).splitOn ' ' = pre' := ⟨_, rfl⟩
  have hfields : (cellLine i g (-1) count time values).splitOn ' ' =
      pre' ++ d₂ :: d₃ :: d₄ :: (ws.flatten ++ t).splitOn ' ' := by
    have hsplit : pre ++
        (d₁ :: [' '] :: d₂ :: [' '] :: d₃ :: [' '] :: d₄ :: [' '] :: ws).flatten ++ t =
        (pre ++ d₁) ++ ' ' :: (d₂ ++ ' ' :: (d₃ ++ ' ' :: (d₄ ++ ' ' :: (ws.flatten ++ t)))) := by
      simp
    rw [hline, hsplit, List.splitOn_append_cons_self,
      List.splitOn_append_cons_self_of_not_mem (hsolid hd₂),
      List.splitOn_append_cons_self_of_not_mem (hsolid hd₃),
      List.splitOn_append_cons_self_of_not_mem (hsolid hd₄), hpre']
  have hpos : 0 < pre'.length := List.length_pos_iff.mpr (hpre' ▸ List.splitOn_ne_nil _ _)
  have hfield : ∀ (k : ℕ) (w : List Char),
      (pre' ++ d₂ :: d₃ :: d₄ :: (ws.flatten ++ t).splitOn ' ')[k]? = some w →
      Item.Fits ⟨Char.isDigit, .plus⟩ w → k < 6 ∧ k ≠ 2 ∧ k ≠ 4 :=
    fun k w hk hw => digits_field (hfields ▸ hk) hw.2 hw.1
  have hfirst := hfield pre'.length d₂ (by simp) hd₂
  have hsecond := hfield (pre'.length + 1) d₃ (by simp) hd₃
  have hthird := hfield (pre'.length + 2) d₄ (by simp) hd₄
  omega

end Lines

/-! ## What the reader stores -/

theorem update_update_apply {α : Type} (f : ℕ → ℕ → α) (g r : ℕ) (v : α) (g' r' : ℕ) :
    Function.update f g (Function.update (f g) r v) g' r' =
      if g' = g ∧ r' = r then v else f g' r' := by
  rw [Function.update_apply]
  split
  · next hg =>
      subst hg
      rw [Function.update_apply]
      split
      · next hr => rw [if_pos ⟨rfl, hr⟩]
      · next hr => rw [if_neg fun h => hr h.2]
  · next hg => rw [if_neg fun h => hg h.1]

namespace MarkerData

variable {d : MarkerData} {g r : ℕ}

theorem groupData_setRegion (region : RegionData) (g' r' : ℕ) :
    (d.setRegion g r region).groupData g' r' =
      if g' = g ∧ r' = r then some region else d.groupData g' r' :=
  update_update_apply d.groupData g r (some region) g' r'

theorem results_setResults (table : ℕ → ThreadKey → Option EventResult) (g' r' : ℕ) :
    (d.setResults g r table).results g' r' =
      if g' = g ∧ r' = r then some table else d.results g' r' :=
  update_update_apply d.results g r (some table) g' r'

@[simp] theorem groupData_setResults (table : ℕ → ThreadKey → Option EventResult) :
    (d.setResults g r table).groupData = d.groupData := rfl

theorem setResults_self {table : ℕ → ThreadKey → Option EventResult}
    (h : d.results g r = some table) : d.setResults g r table = d := by
  unfold setResults
  rw [← h, Function.update_eq_self, Function.update_eq_self]

theorem setResults_setResults (table table' : ℕ → ThreadKey → Option EventResult) :
    (d.setResults g r table).setResults g r table' = d.setResults g r table' := by
  unfold setResults
  dsimp only
  rw [Function.update_self, Function.update_idem, Function.update_idem]

end MarkerData

/-- A region in the file: its name and group, and a cell for each column. -/
structure FileRow where
  name : String
  group : ℕ
  numberOfEvents : ℕ
  cells : List Cell

/-- `counters[j][k]` -/
def Cell.counter (c : Cell) (k : ℕ) : ℚ := if h : k < numPmc then c.pmcounters ⟨k, h⟩ else 0

/-- The line of a cell in row `i` of a region in group `g` with `n` events. -/
def Cell.line (c : Cell) (i g n : ℕ) : List Char :=
  cellLine i g c.cpuID c.count c.time ((List.range n).map c.counter)

namespace FileRow

def nameLine (row : FileRow) (i : ℕ) : List Char :=
  decimal i ++ ':' :: (row.name.toList ++ '-' :: decimal row.group)

def line (row : FileRow) (i : ℕ) (c : Cell) : List Char :=
  c.line i row.group row.numberOfEvents

end FileRow

section Reader

variable {rows : List FileRow} {row : FileRow} {d : MarkerData} {i : ℕ} {c : Cell}

/-- The entries for the names of regions -/
def addRegions (k : ℕ) (rows : List FileRow) (d : MarkerData) : MarkerData :=
  (rows.zipIdx k).foldl
    (fun d row => d.addRegion (row.1.group + 1) (row.2 + 1) row.1.name.toList) d

theorem readRegions_append (hname : ∀ row ∈ rows, ∀ c ∈ row.name.toList, isGraph c = true)
    (k : ℕ) (rest : List (List Char)) (d : MarkerData) :
    readRegions ((rows.zipIdx k).map (fun row => row.1.nameLine row.2) ++ rest) d =
      readRegions rest (addRegions k rows d) := by
  induction rows generalizing k d with
  | nil => rfl
  | cons row rows ih =>
      obtain ⟨hrow, hname⟩ := List.forall_mem_cons.mp hname
      rw [List.zipIdx_cons, List.map_cons, List.cons_append, readRegions]
      dsimp only
      rw [FileRow.nameLine, find_regionLine hrow]
      dsimp only
      rw [readNat_decimal, readNat_decimal, ih hname]
      rfl

theorem readRegions_stop {lines : List (List Char)} (h : ∀ line ∈ lines, ':' ∉ line) :
    readRegions lines d = (lines, d) := by
  cases lines with
  | nil => rfl
  | cons line lines => rw [readRegions, find_regionPattern_none (h line List.mem_cons_self)]

/-- The entries of the regions, without results. -/
theorem addRegions_spec (rows : List FileRow) :
    (∀ i row, rows[i]? = some row →
        (addRegions 0 rows {}).groupData (row.group + 1) (i + 1) =
          some { id := row.group + 1, name := row.name.toList } ∧
        (addRegions 0 rows {}).results (row.group + 1) (i + 1) = some fun _ _ => none) ∧
      ∀ g r, rows.length < r → (addRegions 0 rows {}).results g r = none := by
  induction rows using List.reverseRecOn with
  | nil => simp [addRegions]
  | append_singleton rows last ih =>
      obtain ⟨hrows, hrest⟩ := ih
      have hlast : addRegions 0 (rows ++ [last]) {} =
          (addRegions 0 rows {}).addRegion (last.group + 1) (rows.length + 1)
            last.name.toList := by
        simp [addRegions, List.zipIdx_append]
      have hnew : (addRegions 0 rows {}).results (last.group + 1) (rows.length + 1) = none :=
        hrest _ _ (Nat.lt_succ_self _)
      rw [hlast, MarkerData.addRegion, hnew]
      refine ⟨fun i row hi => ?_, fun g r hr => ?_⟩
      · rw [MarkerData.groupData_setResults, MarkerData.groupData_setRegion,
          MarkerData.results_setResults]
        rcases lt_trichotomy i rows.length with hlt | rfl | hgt
        · rw [List.getElem?_append_left hlt] at hi
          rw [if_neg (by omega), if_neg (by omega)]
          exact hrows i row hi
        · rw [List.getElem?_concat_length] at hi
          obtain rfl := Option.some.inj hi
          simp
        · rw [List.getElem?_eq_none (by simp; omega)] at hi
          cases hi
      · rw [List.length_append] at hr
        have hlt : rows.length + 1 < r := hr
        rw [MarkerData.results_setResults, if_neg (by omega)]
        exact hrest g r (by omega)

/-! ## Reading the results -/

variable {M : Machine} {groupList : List (List String)} {cpulist : List ℕ} {g r t : ℕ}
  {key : ThreadKey} {values : List ℚ} {events : List String}
  {table : ℕ → ThreadKey → Option EventResult} {region : RegionData}

/-- What is stored of the value of an event. -/
def storedValue (M : Machine) (values : List ℚ) (events : List String) (k : ℕ) :
    Option EventResult :=
  match values[k]?, events[k]? with
  | some x, some counter => some ⟨M.fl (printed x), counter⟩
  | _, _ => none

theorem readEvent_spec (key : ThreadKey) {tmpList : List (List Char)} {c : ℕ} {x : ℚ}
    {counter : String}
    (htable : d.results (g + 1) r = some table) (hevents : groupList[g]? = some events)
    (hx : tmpList[c]? = some (printE x)) (hcounter : events[c]? = some counter) :
    readEvent M groupList (g + 1) r key tmpList d (c + 1) =
      some (d.setResults (g + 1) r (Function.update table (c + 1)
        (Function.update (table (c + 1)) key (some ⟨M.fl (printed x), counter⟩)))) := by
  unfold readEvent
  simp only [htable, hevents, hx, hcounter, Nat.add_sub_cancel, Option.bind_eq_bind,
    Option.bind_some, number_printE, Option.map_some, Option.getD_some]

/-- The values of a line are stored one by one. -/
theorem readEvents_spec (key : ThreadKey) (htable : d.results (g + 1) r = some table)
    (hevents : groupList[g]? = some events) (hlen : values.length ≤ events.length) :
    ∃ table', (List.range values.length).foldlM (fun d k =>
        readEvent M groupList (g + 1) r key (values.map printE ++ [[]]) d (k + 1)) d =
          some (d.setResults (g + 1) r table') ∧
      (∀ k < values.length, table' (k + 1) key = storedValue M values events k) ∧
      ∀ k key', key' ≠ key → table' k key' = table k key' := by
  suffices hgen : ∀ n ≤ values.length, ∃ table', (List.range n).foldlM (fun d k =>
        readEvent M groupList (g + 1) r key (values.map printE ++ [[]]) d (k + 1)) d =
          some (d.setResults (g + 1) r table') ∧
      (∀ k < n, table' (k + 1) key = storedValue M values events k) ∧
      ∀ k key', key' ≠ key → table' k key' = table k key' from hgen _ le_rfl
  intro n
  induction n with
  | zero =>
      intro _
      refine ⟨table, ?_, by simp, fun _ _ _ => rfl⟩
      rw [MarkerData.setResults_self htable]
      rfl
  | succ n ih =>
      intro hn
      obtain ⟨table', hrun, hstored, hother⟩ := ih (Nat.le_of_succ_le hn)
      have hx : values[n]? = some values[n] := List.getElem?_eq_getElem hn
      have hcounter : events[n]? = some events[n] := List.getElem?_eq_getElem (by omega)
      have hfield : (values.map printE ++ [[]])[n]? = some (printE values[n]) := by
        rw [List.getElem?_append_left (by rwa [List.length_map]), List.getElem?_map, hx,
          Option.map_some]
      have hnew : (d.setResults (g + 1) r table').results (g + 1) r = some table' := by
        rw [MarkerData.results_setResults, if_pos ⟨rfl, rfl⟩]
      have hstep := readEvent_spec (M := M) key hnew hevents hfield hcounter
      rw [MarkerData.setResults_setResults] at hstep
      refine ⟨Function.update table' (n + 1) (Function.update (table' (n + 1)) key
        (some ⟨M.fl (printed values[n]), events[n]⟩)), ?_, fun k hk => ?_, fun k key' hne => ?_⟩
      · rw [List.range_succ, List.foldlM_append, hrun]
        exact (bind_pure _).trans hstep
      · rcases Nat.lt_succ_iff_lt_or_eq.mp hk with hlt | rfl
        · rw [Function.update_of_ne (by omega)]
          exact hstored k hlt
        · rw [Function.update_self, Function.update_self, storedValue, hx, hcounter]
      · by_cases hk : k = n + 1
        · subst hk
          rw [Function.update_self, Function.update_of_ne hne]
          exact hother _ _ hne
        · rw [Function.update_of_ne hk]
          exact hother k key' hne

/-- The index of the thread a column belongs to; none if it has no results. -/
def Cell.thread (cpulist : List ℕ) (c : Cell) : Option ℕ :=
  cpulist.findIdx? fun cpu : ℕ => (cpu : Int) = c.cpuID

/-- The two tables have the results of thread `t`. -/
structure Stored (M : Machine) (events : List String) (row : FileRow) (c : Cell)
    (region : RegionData) (table : ℕ → ThreadKey → Option EventResult) (t : ℕ) : Prop where
  time : region.time (.index (t + 1)) = some (M.fl (printed c.time))
  count : region.count (.index (t + 1)) = some (decimal c.count)
  values : ∀ k < row.numberOfEvents, table (k + 1) (.index (t + 1)) =
    storedValue M ((List.range row.numberOfEvents).map c.counter) events k

/-- The two tables have nothing of thread `t`. -/
structure Unset (region : RegionData) (table : ℕ → ThreadKey → Option EventResult) (t : ℕ) :
    Prop where
  time : region.time (.index (t + 1)) = none
  count : region.count (.index (t + 1)) = none
  values : ∀ k, table k (.index (t + 1)) = none

/-- The line of a thread without results changes nothing. -/
theorem readLine_blank (hc : c.cpuID = -1) :
    readLine M groupList cpulist d (row.line i c) = some d := by
  rw [readLine, FileRow.line, Cell.line, hc, find_blankLine]

theorem readLine_measured (ht : c.thread cpulist = some t)
    (hregion : d.groupData (row.group + 1) (i + 1) = some region)
    (htable : d.results (row.group + 1) (i + 1) = some table)
    (hevents : groupList[row.group]? = some events)
    (hlen : row.numberOfEvents ≤ events.length) :
    ∃ region' table', readLine M groupList cpulist d (row.line i c) =
        some ((d.setRegion (row.group + 1) (i + 1) region').setResults (row.group + 1) (i + 1)
          table') ∧
      region'.id = region.id ∧ region'.name = region.name ∧
      Stored M events row c region' table' t ∧
      ∀ t' ≠ t, region'.time (.index (t' + 1)) = region.time (.index (t' + 1)) ∧
        region'.count (.index (t' + 1)) = region.count (.index (t' + 1)) ∧
        ∀ k, table' k (.index (t' + 1)) = table k (.index (t' + 1)) := by
  obtain ⟨cpu, hcpu⟩ : ∃ cpu : ℕ, c.cpuID = cpu := by
    obtain ⟨hlt, hfound, -⟩ := List.findIdx?_eq_some_iff_getElem.mp ht
    exact ⟨cpulist[t], (of_decide_eq_true hfound).symm⟩
  have hfind : cpulist.findIdx? (· = cpu) = some t := by
    rw [Cell.thread, hcpu] at ht
    simpa only [Nat.cast_inj] using ht
  obtain ⟨values, hvalues⟩ : ∃ values, (List.range row.numberOfEvents).map c.counter = values :=
    ⟨_, rfl⟩
  have hcount : values.length = row.numberOfEvents := by simp [← hvalues]
  let region' : RegionData :=
    { region with
      time := Function.update region.time (.index (t + 1)) (some (M.fl (printed c.time)))
      count := Function.update region.count (.index (t + 1)) (some (decimal c.count)) }
  obtain ⟨table', hrun, hstored, hother⟩ := readEvents_spec (M := M) (.index (t + 1))
    (d := d.setRegion (row.group + 1) (i + 1) region') (r := i + 1) htable hevents
    (hcount ▸ hlen)
  have hkey : ∀ t' ≠ t, ThreadKey.index (t' + 1) ≠ ThreadKey.index (t + 1) :=
    fun t' hne heq => hne (Nat.succ.inj (ThreadKey.index.inj heq))
  refine ⟨region', table', ?_, rfl, rfl,
    ⟨Function.update_self _ _ _, Function.update_self _ _ _, fun k hk => ?_⟩, fun t' hne =>
    ⟨Function.update_of_ne (hkey t' hne) _ _, Function.update_of_ne (hkey t' hne) _ _,
      fun k => hother k _ (hkey t' hne)⟩⟩
  · obtain ⟨w, hw⟩ := find_cellLine i row.group cpu c.count c.time values
    have hfields : (stringsplit (row.line i c) ' ').drop 4 =
        printE c.time :: decimal values.length :: (values.map printE ++ [[]]) := by
      have hne : row.line i c ≠ [] := by simp [FileRow.line, Cell.line, cellLine]
      rw [stringsplit, if_neg hne, FileRow.line, Cell.line, splitOn_cellLine, hvalues]
      rfl
    have hnumber : number (decimal values.length) = some (values.length : ℚ) :=
      number_decimal _
    have hline : row.line i c = cellLine i row.group cpu c.count c.time values := by
      rw [FileRow.line, Cell.line, hvalues, hcpu]
    unfold readLine
    rw [hfields, hline, hw]
    simp only [readNat_decimal, hfind, hregion, List.getElem?_cons_zero, List.getElem?_cons_succ,
      Option.bind_eq_bind, Option.bind_some, number_printE, hnumber, Option.map_some,
      List.drop_succ_cons, List.drop_zero, Int.floor_natCast, Int.toNat_natCast]
    exact hrun
  · rw [hvalues]
    exact hstored k (hcount ▸ hk)

/-- A row that the reader can make sense of, with one column for each thread. -/
structure FileRow.Sound (groupList : List (List String)) (cpulist : List ℕ) (row : FileRow) :
    Prop where
  events : ∃ events, groupList[row.group]? = some events ∧ row.numberOfEvents ≤ events.length
  cells : ∀ c ∈ row.cells, c.cpuID = -1 ∨ ∃ t, c.thread cpulist = some t
  unique : ∀ c ∈ row.cells, ∀ c' ∈ row.cells, ∀ t, c.thread cpulist = some t →
    c'.thread cpulist = some t → c = c'

/-- The line of a thread: its row, the number of that, and its cell. -/
abbrev FileCell : Type := (FileRow × ℕ) × Cell

/-- The region of a row is there, with the results of the lines seen. -/
def FileRow.ReadFrom (M : Machine) (groupList : List (List String)) (cpulist : List ℕ)
    (row : FileRow) (i : ℕ) (seen : List FileCell) (d : MarkerData) : Prop :=
  ∃ region table, d.groupData (row.group + 1) (i + 1) = some region ∧
    d.results (row.group + 1) (i + 1) = some table ∧
    region.id = row.group + 1 ∧ region.name = row.name.toList ∧
    ∀ t, (∀ c, ((row, i), c) ∈ seen → c.thread cpulist = some t →
        Stored M (groupList[row.group]?.getD []) row c region table t) ∧
      ((∀ c, ((row, i), c) ∈ seen → c.thread cpulist ≠ some t) → Unset region table t)

theorem thread_blank (hc : c.cpuID = -1) : c.thread cpulist = none := by
  rw [Cell.thread, List.findIdx?_eq_none_iff, hc]
  intro cpu _
  exact decide_eq_false (by omega)

variable {seen : List FileCell}

/-- Lines of other rows and of threads without results do not count. -/
theorem FileRow.ReadFrom.snoc {e : FileCell} (h : row.ReadFrom M groupList cpulist i seen d)
    (he : e.1 = (row, i) → e.2.thread cpulist = none) :
    row.ReadFrom M groupList cpulist i (seen ++ [e]) d := by
  obtain ⟨region, table, hregion, htable, hid, hname, hread⟩ := h
  refine ⟨region, table, hregion, htable, hid, hname, fun t => ⟨fun c hc ht => ?_, fun hnone => ?_⟩⟩
  · rcases List.mem_append.mp hc with hc | hc
    · exact (hread t).1 c hc ht
    · obtain rfl := List.mem_singleton.mp hc
      rw [he rfl] at ht
      cases ht
  · exact (hread t).2 fun c hc => hnone c (List.mem_append_left _ hc)

/-- One line is read. -/
theorem readLine_readFrom (hread : ∀ (i : ℕ) row, rows[i]? = some row →
      row.ReadFrom M groupList cpulist i seen d)
    (hsound : ∀ row ∈ rows, row.Sound groupList cpulist)
    (hseen : ∀ e ∈ seen, e.2 ∈ e.1.1.cells) (hi : rows[i]? = some row) (hc : c ∈ row.cells) :
    ∃ d', readLine M groupList cpulist d (row.line i c) = some d' ∧
      ∀ (j : ℕ) row', rows[j]? = some row' →
        row'.ReadFrom M groupList cpulist j (seen ++ [((row, i), c)]) d' := by
  have hrow := hsound row (List.mem_of_getElem? hi)
  rcases hrow.cells c hc with hblank | ⟨t, ht⟩
  · exact ⟨d, readLine_blank hblank, fun j row' hj =>
      (hread j row' hj).snoc fun _ => thread_blank hblank⟩
  · obtain ⟨region, table, hregion, htable, hid, hname, hcells⟩ := hread i row hi
    obtain ⟨events, hevents, hlen⟩ := hrow.events
    obtain ⟨region', table', hrun, hid', hname', hstored, hother⟩ :=
      readLine_measured (M := M) ht hregion htable hevents hlen
    refine ⟨_, hrun, fun j row' hj => ?_⟩
    by_cases hij : i = j
    · subst hij
      obtain rfl : row = row' := Option.some.inj (hi.symm.trans hj)
      refine ⟨region', table', ?_, ?_, hid'.trans hid, hname'.trans hname, fun t' => ?_⟩
      · rw [MarkerData.groupData_setResults, MarkerData.groupData_setRegion, if_pos ⟨rfl, rfl⟩]
      · rw [MarkerData.results_setResults, if_pos ⟨rfl, rfl⟩]
      · by_cases htt : t' = t
        · subst htt
          refine ⟨fun c' hc' ht' => ?_, fun hnone => ?_⟩
          · have hmem : c' ∈ row.cells := by
              rcases List.mem_append.mp hc' with hc' | hc'
              · exact hseen _ hc'
              · rw [(Prod.mk.inj (List.mem_singleton.mp hc')).2]
                exact hc
            obtain rfl := hrow.unique c hc c' hmem t' ht ht'
            rw [hevents]
            exact hstored
          · exact absurd ht (hnone c (List.mem_append_right _ (List.mem_singleton_self _)))
        · obtain ⟨htime, hcount, hvalues⟩ := hother t' htt
          refine ⟨fun c' hc' ht' => ?_, fun hnone => ?_⟩
          · rcases List.mem_append.mp hc' with hc' | hc'
            · have hold := (hcells t').1 c' hc' ht'
              exact ⟨htime.trans hold.time, hcount.trans hold.count,
                fun k hk => (hvalues _).trans (hold.values k hk)⟩
            · obtain rfl := (Prod.mk.inj (List.mem_singleton.mp hc')).2
              exact absurd (Option.some.inj (ht'.symm.trans ht)) htt
          · have hold := (hcells t').2 fun c' hc' => hnone c' (List.mem_append_left _ hc')
            exact ⟨htime.trans hold.time, hcount.trans hold.count,
              fun k => (hvalues k).trans (hold.values k)⟩
    · -- the line of another row
      have hold := (hread j row' hj).snoc (e := ((row, i), c))
        fun heq => absurd (Prod.mk.inj heq).2 hij
      have hne : ¬(row'.group + 1 = row.group + 1 ∧ j + 1 = i + 1) := by omega
      obtain ⟨region₀, table₀, hregion₀, htable₀, hrest⟩ := hold
      refine ⟨region₀, table₀, ?_, ?_, hrest⟩
      · rw [MarkerData.groupData_setResults, MarkerData.groupData_setRegion, if_neg hne]
        exact hregion₀
      · rw [MarkerData.results_setResults, if_neg hne]
        exact htable₀

/-- All lines are read. -/
theorem readLines_readFrom {todo : List FileCell} (hread : ∀ (i : ℕ) row, rows[i]? = some row →
      row.ReadFrom M groupList cpulist i seen d)
    (hsound : ∀ row ∈ rows, row.Sound groupList cpulist)
    (hseen : ∀ e ∈ seen, e.2 ∈ e.1.1.cells)
    (htodo : ∀ e ∈ todo, rows[e.1.2]? = some e.1.1 ∧ e.2 ∈ e.1.1.cells) :
    ∃ d', (todo.map fun e => e.1.1.line e.1.2 e.2).foldlM (readLine M groupList cpulist) d =
        some d' ∧
      ∀ (i : ℕ) row, rows[i]? = some row →
        row.ReadFrom M groupList cpulist i (seen ++ todo) d' := by
  induction todo generalizing seen d with
  | nil => exact ⟨d, rfl, by simpa using hread⟩
  | cons e todo ih =>
      obtain ⟨⟨hi, hc⟩, htodo⟩ := List.forall_mem_cons.mp htodo
      obtain ⟨d', hrun, hread'⟩ := readLine_readFrom hread hsound hseen hi hc
      have hseen' : ∀ e' ∈ seen ++ [e], e'.2 ∈ e'.1.1.cells := by
        intro e' he'
        rcases List.mem_append.mp he' with he' | he'
        · exact hseen e' he'
        · obtain rfl := List.mem_singleton.mp he'
          exact hc
      obtain ⟨d'', hrun', hread''⟩ := ih hread' hseen' htodo
      refine ⟨d'', ?_, by simpa using hread''⟩
      rw [List.map_cons, List.foldlM_cons, hrun]
      exact hrun'

/-! ## The file as a whole -/

/-- The lines of the threads, row by row. -/
def fileCells (rows : List FileRow) : List FileCell :=
  rows.zipIdx.flatMap fun row => row.1.cells.map (row, ·)

/-- The text of the rows, behind the line with the counts. -/
def fileText (numberOfThreads numberOfGroups : ℕ) (rows : List FileRow) : List Char :=
  unlines ((decimal numberOfThreads ++ ' ' :: (decimal rows.length ++ ' ' ::
      decimal numberOfGroups)) ::
    (rows.zipIdx.map (fun row => row.1.nameLine row.2) ++
      (fileCells rows).map fun e => e.1.1.line e.1.2 e.2))

theorem mem_fileCells {e : FileCell} :
    e ∈ fileCells rows ↔ rows[e.1.2]? = some e.1.1 ∧ e.2 ∈ e.1.1.cells := by
  rw [fileCells, List.mem_flatMap]
  constructor
  · rintro ⟨row, hrow, he⟩
    obtain ⟨c, hc, rfl⟩ := List.mem_map.mp he
    exact ⟨List.mem_zipIdx_iff_getElem?.mp hrow, hc⟩
  · rintro ⟨hrow, hc⟩
    exact ⟨e.1, List.mem_zipIdx_iff_getElem?.mpr hrow, List.mem_map.mpr ⟨e.2, hc, rfl⟩⟩

theorem not_mem_cellLine {ch : Char} (hdigit : ch.isDigit = false)
    (hne : ch ∉ [' ', '-', '+', '.', 'e']) : ch ∉ row.line i c := by
  intro hmem
  rcases mem_cellLine hmem with h | h
  · exact absurd h (by simp [hdigit])
  · exact hne h

/-- What the reader makes of the whole text. -/
theorem getMarkerResults_fileText {numberOfThreads numberOfGroups : ℕ}
    (hthreads : cpulist.length = numberOfThreads) (hgroups : 0 < numberOfGroups)
    (hname : ∀ row ∈ rows, ∀ c ∈ row.name.toList, isGraph c = true)
    (hsound : ∀ row ∈ rows, row.Sound groupList cpulist) :
    ∃ d, getMarkerResults M groupList cpulist (fileText numberOfThreads numberOfGroups rows) =
        some d ∧
      ∀ (i : ℕ) row, rows[i]? = some row →
        row.ReadFrom M groupList cpulist i (fileCells rows) d := by
  obtain ⟨hadded, -⟩ := addRegions_spec rows
  have hstart : ∀ (i : ℕ) row, rows[i]? = some row →
      row.ReadFrom M groupList cpulist i [] (addRegions 0 rows {}) := fun i row hi =>
    ⟨_, _, (hadded i row hi).1, (hadded i row hi).2, rfl, rfl, fun t =>
      ⟨fun c hc => absurd hc List.not_mem_nil, fun _ => ⟨rfl, rfl, fun _ => rfl⟩⟩⟩
  obtain ⟨d, hrun, hread⟩ := readLines_readFrom (M := M) hstart hsound (by simp)
    fun e he => mem_fileCells.mp he
  -- the text is split into the lines it was made of
  obtain ⟨lines, hlines⟩ : ∃ lines, (fileCells rows).map (fun e => e.1.1.line e.1.2 e.2) = lines :=
    ⟨_, rfl⟩
  obtain ⟨names, hnames⟩ : ∃ names, rows.zipIdx.map (fun row => row.1.nameLine row.2) = names :=
    ⟨_, rfl⟩
  obtain ⟨header, hheader⟩ : ∃ header, decimal numberOfThreads ++ ' ' ::
      (decimal rows.length ++ ' ' :: decimal numberOfGroups) = header := ⟨_, rfl⟩
  have hnotLine : ∀ {ch : Char}, ch.isDigit = false → ch ∉ [' ', '-', '+', '.', 'e'] →
      ∀ line ∈ lines, ch ∉ line := by
    intro ch hdigit hne line hline
    obtain ⟨e, -, rfl⟩ := List.mem_map.mp (hlines ▸ hline)
    exact not_mem_cellLine hdigit hne
  have hsplit : stringsplit (fileText numberOfThreads numberOfGroups rows) '\n' =
      header :: (names ++ (lines ++ [[]])) := by
    have hend : ∀ line ∈ header :: (names ++ lines), '\n' ∉ line := by
      intro line hline
      rcases List.mem_cons.mp hline with rfl | hline
      · have hdecimal : ∀ n, '\n' ∉ decimal n := not_mem_decimal (by decide)
        simp [← hheader, hdecimal]
      · rcases List.mem_append.mp hline with hline | hline
        · obtain ⟨⟨row, i⟩, hrow, rfl⟩ := List.mem_map.mp (hnames ▸ hline)
          have hdecimal : ∀ n, '\n' ∉ decimal n := not_mem_decimal (by decide)
          have hnot : '\n' ∉ row.name.toList := fun hmem =>
            absurd (hname row (List.mem_of_getElem? (List.mem_zipIdx_iff_getElem?.mp hrow)) _ hmem)
              (by decide)
          simp [FileRow.nameLine, hdecimal, hnot]
        · exact hnotLine (by decide) (by decide) line hline
    have htext : fileText numberOfThreads numberOfGroups rows =
        unlines (header :: (names ++ lines)) := by
      rw [fileText, hheader, hnames, hlines]
    rw [stringsplit, htext, if_neg (by simp [unlines]), splitOn_unlines hend]
    simp
  have hcounts : stringsplit header ' ' =
      [decimal numberOfThreads, decimal rows.length, decimal numberOfGroups] := by
    have hdecimal : ∀ n, ' ' ∉ decimal n := not_mem_decimal (by decide)
    rw [← hheader, stringsplit_cons (hdecimal _),
      List.splitOn_append_cons_self_of_not_mem (hdecimal _),
      List.splitOn_eq_singleton (hdecimal _)]
  have hregions : readRegions (names ++ (lines ++ [[]])) {} =
      (lines ++ [[]], addRegions 0 rows {}) := by
    rw [← hnames, readRegions_append hname 0]
    refine readRegions_stop fun line hline => ?_
    rcases List.mem_append.mp hline with hline | hline
    · exact hnotLine (by decide) (by decide) line hline
    · obtain rfl := List.mem_singleton.mp hline
      exact List.not_mem_nil
  have hfold : (lines ++ [[]]).foldlM (readLine M groupList cpulist) (addRegions 0 rows {}) =
      some d := by
    rw [← hlines, List.foldlM_append, hrun]
    rfl
  rw [getMarkerResults, hsplit]
  simp only [hcounts, number_decimal, Option.bind_eq_bind, Option.bind_some]
  rw [if_neg (by simp [hthreads])]
  split
  · next hnone =>
      -- no region at all
      have hempty : rows = [] := by simpa using hnone.1
      exact ⟨_, rfl, by simp [hempty]⟩
  · rw [if_neg (by simpa using hgroups.ne'), hregions]
    exact ⟨d, hfold, by simpa using hread⟩

end Reader

/-! ## What is written -/

theorem mapM_eq_some {α β : Type} {f : α → Option β} {l : List α} {l' : List β}
    (h : List.Forall₂ (fun a b => f a = some b) l l') : l.mapM f = some l' := by
  induction h with
  | nil => rfl
  | cons hab _ ih => simp [List.mapM_cons, hab, ih]

/-- A row of the merged table and what is written of it. -/
structure Writes (p : Perfmon) (numberOfThreads i : ℕ) (res : LikwidResults) (row : FileRow) :
    Prop where
  name : regionLine i res = some (row.nameLine i)
  cells : row.cells = (List.range numberOfThreads).map res.cell
  line : ∀ j < numberOfThreads, resultLine p i j res = some (row.line i (res.cell j))

theorem resultLine_eq {p : Perfmon} {i j g : ℕ} {res : LikwidResults} {es : PerfmonEventSet}
    (hgroup : res.groupID = some (g : Int)) (hes : p.group? g = some es)
    (hle : es.numberOfEvents ≤ numPmc)
    (hfits : ((res.cell j).line i g es.numberOfEvents).length < 1024) :
    resultLine p i j res = some ((res.cell j).line i g es.numberOfEvents) := by
  have hint : integer (g : Int) = decimal g := by simp [integer]
  have hline : (res.cell j).line i g es.numberOfEvents =
      decimal i ++ ' ' :: (integer g ++ ' ' :: (integer (res.cpulist j) ++ ' ' ::
        (decimal (res.count j) ++ ' ' :: (printE (res.time j) ++ ' ' ::
          (decimal es.numberOfEvents ++ ' ' ::
            (List.range es.numberOfEvents).flatMap fun k =>
              printE (res.counter j k) ++ [' ']))))) := by
    rw [Cell.line, cellLine, List.length_map, List.length_range, List.flatMap_map, hint]
    rfl
  rw [resultLine, hgroup]
  simp only [Option.bind_eq_bind, Option.bind_some, Int.natCast_nonneg, if_true,
    Int.toNat_natCast, hes]
  rw [← hline, if_pos ⟨hle, hfits⟩]

theorem markerFile_eq {s : MarkerApi} {numberOfThreads : ℕ} {results : List LikwidResults}
    {rows : List FileRow} (hlen : results.length = rows.length)
    (h : ∀ (i : ℕ) res row, results[i]? = some res → rows[i]? = some row →
      Writes s.perfmon numberOfThreads i res row) :
    markerFile s numberOfThreads results.length results =
      some (fileText numberOfThreads s.numberOfGroups rows) := by
  have hrows : List.Forall₂ (fun res row : _ × ℕ => res.2 = row.2 ∧
      Writes s.perfmon numberOfThreads row.2 res.1 row.1) results.zipIdx rows.zipIdx := by
    refine List.forall₂_of_length_eq_of_get (by simpa using hlen) fun i h₁ h₂ => ?_
    rw [List.length_zipIdx] at h₁ h₂
    simp only [List.get_eq_getElem, List.getElem_zipIdx, Nat.zero_add, true_and]
    exact h i _ _ (List.getElem?_eq_getElem h₁) (List.getElem?_eq_getElem h₂)
  have hnames : results.zipIdx.mapM (fun row => regionLine row.2 row.1) =
      some (rows.zipIdx.map fun row => row.1.nameLine row.2) := by
    refine mapM_eq_some (List.forall₂_map_right_iff.mpr (hrows.imp fun res row hw => ?_))
    rw [hw.1]
    exact hw.2.name
  have hlines : (results.zipIdx.flatMap fun row =>
      (List.range numberOfThreads).map (row, ·)).mapM
        (fun cell => resultLine s.perfmon cell.1.2 cell.2 cell.1.1) =
      some ((fileCells rows).map fun e => e.1.1.line e.1.2 e.2) := by
    refine mapM_eq_some (List.forall₂_map_right_iff.mpr
      (List.rel_flatMap hrows fun res row hw => ?_))
    rw [hw.2.cells, List.map_map, List.forall₂_map_left_iff, List.forall₂_map_right_iff,
      List.forall₂_same]
    intro j hj
    show resultLine s.perfmon res.2 j res.1 = _
    rw [hw.1]
    exact hw.2.line j (List.mem_range.mp hj)
  simp only [markerFile, hnames, hlines, Option.bind_eq_bind, Option.bind_some, hlen, fileText]

/-! ## The marker API and its reader -/

/-- The record of a region that a thread on `cpu` has started and stopped; writer and
reader know its group. -/
structure MeasuredOn (p : Perfmon) (groupList : List (List String)) (cpu : ℕ)
    (r : LikwidThreadResults) : Prop where
  cpuID : r.cpuID = cpu
  group : ∃ (name : String) (g : ℕ) (es : PerfmonEventSet) (events : List String),
    r.label = groupTag name g ∧ r.groupID = g ∧ p.group? g = some es ∧
      es.numberOfEvents ≤ numPmc ∧ groupList[g]? = some events ∧
      es.numberOfEvents ≤ events.length

/-- The state before `likwid_markerClose`: the CPUs of `likwid-perfctr` have a table,
one of them has met every region, all regions were measured, and the lines fit. -/
structure MarkedRun (s : MarkerApi) (groupList : List (List String)) (cpulist : List ℕ) :
    Prop where
  init : s.likwidInit = true
  groups : 0 < s.numberOfGroups
  nodup : cpulist.Nodup
  nonempty : cpulist ≠ []
  bound : ∀ cpu ∈ cpulist, cpu < maxNumThreads
  threads : ∀ cpu, (s.threadList cpu).isSome ↔ cpu ∈ cpulist
  merged : s.threadList.labels = ∅ ∨
    ∃ thread ∈ s.threadList.active, s.threadList.labels ⊆ thread.labels
  measured : ∀ cpu thread, s.threadList cpu = some thread → ∀ r ∈ thread.hashTable.entries,
    MeasuredOn s.perfmon groupList cpu r
  fits : ∀ i < s.threadList.labels.card, ∀ cpu thread, s.threadList cpu = some thread →
    ∀ r ∈ thread.hashTable.entries, ∀ es, s.perfmon.group? r.groupID.toNat = some es →
      (r.cell.line i r.groupID.toNat es.numberOfEvents).length < 1024 ∧
        (Cell.blank.line i r.groupID.toNat es.numberOfEvents).length < 1024

/-- Read back up to the seven digits that are printed. -/
def ReadBack (M : Machine) (read : Option ℚ) (x : ℚ) : Prop :=
  ∃ q, read = some (M.fl q) ∧ |q - x| ≤ |x| / (2 * 10 ^ 6)

/-- Thread `t` has exactly what a record says. -/
structure RecoversThread (M : Machine) (s : MarkerApi) (events : List String) (g : ℕ)
    (region : RegionData) (table : ℕ → ThreadKey → Option EventResult) (t : ℕ)
    (r : LikwidThreadResults) : Prop where
  time : ReadBack M (region.time (.index (t + 1))) r.time
  count : region.count (.index (t + 1)) = some (decimal r.count)
  values : ∀ es, s.perfmon.group? g = some es → ∀ k < es.numberOfEvents,
    ∃ result, table (k + 1) (.index (t + 1)) = some result ∧
      ReadBack M (some result.value) (r.cell.counter k) ∧ events[k]? = some result.counter

/-- **The file**: it is written, and what is read from it has every
region with its name and group, and for every thread what was measured. -/
def RecoversRegions (M : Machine) (groupList : List (List String)) (cpulist : List ℕ)
    (s : MarkerApi) : Prop :=
  ∃ file s' d, likwidMarkerClose s = .done file s' ∧
    getMarkerResults M groupList cpulist file = some d ∧
    ∀ (name : String) (g : ℕ), groupTag name g ∈ s.threadList.labels →
      ∃ r region table events, d.groupData (g + 1) r = some region ∧
        d.results (g + 1) r = some table ∧ groupList[g]? = some events ∧
        region.id = g + 1 ∧ region.name = name.toList ∧
        ∀ t cpu, cpulist[t]? = some cpu →
          match s.threadList.record cpu (groupTag name g) with
          | some record => RecoversThread M s events g region table t record
          | none => Unset region table t

section Recover

variable {M : Machine} {groupList : List (List String)} {cpulist : List ℕ} {s : MarkerApi}

theorem groupTag_inj₂ {name name' : String} {g g' : ℕ} :
    groupTag name g = groupTag name' g' ↔ name = name' ∧ g = g' := by
  constructor
  · intro h
    have hlist := congrArg String.toList h
    rw [toList_groupTag, toList_groupTag] at hlist
    have hdash : ∀ n, '-' ∉ decimal n := not_mem_decimal (by decide)
    have hfields := congrArg (List.splitOn '-') hlist
    rw [List.splitOn_append_cons_self, List.splitOn_append_cons_self,
      List.splitOn_eq_singleton (hdash g), List.splitOn_eq_singleton (hdash g')] at hfields
    have hdigits : decimal g = decimal g' :=
      List.singleton_inj.mp (List.append_inj_right' hfields rfl)
    have hg : g = g' := by
      have hread := congrArg readNat hdigits
      rwa [readNat_decimal, readNat_decimal] at hread
    rw [hdigits, List.append_left_inj] at hlist
    exact ⟨String.toList_inj.mp hlist, hg⟩
  · rintro ⟨rfl, rfl⟩
    rfl

theorem exists_list {α : Type} {P : ℕ → α → Prop} {n : ℕ} (h : ∀ i < n, ∃ a, P i a) :
    ∃ l : List α, l.length = n ∧ ∀ (i : ℕ) a, l[i]? = some a → P i a := by
  induction n with
  | zero => exact ⟨[], rfl, by simp⟩
  | succ n ih =>
      obtain ⟨l, rfl, hl⟩ := ih fun i hi => h i (Nat.lt_succ_of_lt hi)
      obtain ⟨a, ha⟩ := h l.length (Nat.lt_succ_self _)
      refine ⟨l ++ [a], by simp, fun i b hi => ?_⟩
      rcases getElem?_snoc.mp hi with hi | ⟨rfl, rfl⟩
      · exact hl i b hi
      · exact ha

theorem thread_eq_some (hnodup : cpulist.Nodup) {c : Cell} {t : ℕ} :
    c.thread cpulist = some t ↔ ∃ cpu : ℕ, cpulist[t]? = some cpu ∧ c.cpuID = cpu := by
  rw [Cell.thread, List.findIdx?_eq_some_iff_getElem]
  constructor
  · rintro ⟨hlt, hfound, -⟩
    exact ⟨cpulist[t], List.getElem?_eq_getElem hlt, (of_decide_eq_true hfound).symm⟩
  · rintro ⟨cpu, ht, hcpu⟩
    obtain ⟨hlt, rfl⟩ := List.getElem?_eq_some_iff.mp ht
    refine ⟨hlt, by simp [hcpu], fun j hj hsame => ?_⟩
    rw [hcpu, decide_eq_true_eq, Nat.cast_inj] at hsame
    exact hj.ne ((hnodup.getElem_inj_iff).mp hsame)

theorem record_eq_some {threadList : ThreadLists} {cpu : ℕ} {l : String}
    {r : LikwidThreadResults} :
    threadList.record cpu l = some r ↔
      ∃ thread, threadList cpu = some thread ∧ r ∈ thread.hashTable.entries ∧ r.label = l := by
  rw [ThreadLists.record, Option.bind_eq_some_iff]
  refine exists_congr fun thread => and_congr_right fun _ => ?_
  constructor
  · intro hlookup
    exact ⟨List.mem_of_find?_eq_some hlookup, RegionTable.label_of_lookup hlookup⟩
  · rintro ⟨hr, rfl⟩
    obtain ⟨r', hr'⟩ := Option.isSome_iff_exists.mp
      (List.find?_isSome (p := fun r' : LikwidThreadResults => r'.label = r.label)
        |>.mpr ⟨r, hr, by simp⟩)
    have hsame : r' = r := List.inj_on_of_nodup_map thread.hashTable.nodup
      (List.mem_of_find?_eq_some hr') hr (RegionTable.label_of_lookup hr')
    exact hsame ▸ hr'

/-- What a column says of a label: the record of a thread, or nothing. -/
theorem column_cases (threadList : ThreadLists) (l : String) (j : ℕ) :
    (∃ cpu r, threadList.record cpu l = some r ∧
        Copies.cell (copies 0 threadList.active) j l = r.cell) ∨
      Copies.cell (copies 0 threadList.active) j l = .blank := by
  by_cases hsome : ∃ thread, threadList.active[j]? = some thread ∧ l ∈ thread.labels
  · obtain ⟨thread, hthread, hl⟩ := hsome
    obtain ⟨r, hr, rfl⟩ := List.mem_map.mp (List.mem_toFinset.mp hl)
    obtain ⟨cpu, -, hcpu⟩ := List.mem_filterMap.mp (List.mem_of_getElem? hthread)
    exact Or.inl ⟨cpu, r, record_eq_some.mpr ⟨thread, hcpu, hr, rfl⟩,
      (copies_cell hthread).1 r hr rfl⟩
  · refine Or.inr (cell_of_not_seen fun p hp hj hlabel => hsome ?_)
    obtain ⟨k, thread, hthread, hk, hr⟩ := mem_copies.mp hp
    obtain rfl : k = j := by omega
    exact ⟨thread, hthread, List.mem_toFinset.mpr (hlabel ▸ List.mem_map_of_mem hr)⟩

namespace MarkedRun

variable (h : MarkedRun s groupList cpulist)

include h

theorem length_active : s.threadList.active.length = cpulist.length := by
  have hperm : (List.range maxNumThreads).filter (fun cpu => (s.threadList cpu).isSome) |>.Perm
      cpulist := by
    refine (List.perm_ext_iff_of_nodup (List.nodup_range.filter _) h.nodup).mpr fun cpu => ?_
    rw [List.mem_filter, List.mem_range, h.threads]
    exact ⟨fun hcpu => hcpu.2, fun hcpu => ⟨h.bound cpu hcpu, hcpu⟩⟩
  rw [ThreadLists.active, List.length_filterMap_eq_countP, List.countP_eq_length_filter]
  exact hperm.length_eq

theorem mem_cpulist {cpu : ℕ} {l : String} {r : LikwidThreadResults}
    (hr : s.threadList.record cpu l = some r) : cpu ∈ cpulist := by
  obtain ⟨thread, hthread, -⟩ := record_eq_some.mp hr
  exact (h.threads cpu).mp (by simp [hthread])

theorem measuredOn {cpu : ℕ} {l : String} {r : LikwidThreadResults}
    (hr : s.threadList.record cpu l = some r) : MeasuredOn s.perfmon groupList cpu r := by
  obtain ⟨thread, hthread, hmem, -⟩ := record_eq_some.mp hr
  exact h.measured cpu thread hthread r hmem

/-- The record of a thread is in its column. -/
theorem exists_column {cpu : ℕ} {l : String} {r : LikwidThreadResults}
    (hr : s.threadList.record cpu l = some r) :
    ∃ j < s.threadList.active.length,
      Copies.cell (copies 0 s.threadList.active) j l = r.cell := by
  have hcpu := h.bound cpu (h.mem_cpulist hr)
  obtain ⟨thread, hthread, hmem, hl⟩ := record_eq_some.mp hr
  have hactive : thread ∈ s.threadList.active :=
    List.mem_filterMap.mpr ⟨cpu, List.mem_range.mpr hcpu, hthread⟩
  obtain ⟨j, hj⟩ := List.getElem?_of_mem hactive
  exact ⟨j, (List.getElem?_eq_some_iff.mp hj).1, (copies_cell hj).1 r hmem hl⟩

theorem group_of_label {cpu : ℕ} {name : String} {g : ℕ} {r : LikwidThreadResults}
    (hr : s.threadList.record cpu (groupTag name g) = some r) :
    r.groupID = g ∧ ∃ es events, s.perfmon.group? g = some es ∧ es.numberOfEvents ≤ numPmc ∧
      groupList[g]? = some events ∧ es.numberOfEvents ≤ events.length := by
  obtain ⟨-, -, -, hl⟩ := record_eq_some.mp hr
  obtain ⟨name', g', es, events, hlabel, hgroup, hrest⟩ := (h.measuredOn hr).group
  obtain ⟨rfl, rfl⟩ := groupTag_inj₂.mp (hlabel.symm.trans hl)
  exact ⟨hgroup, es, events, hrest⟩

/-- The lines of a row fit into the buffer. -/
theorem fits_column {i cpu : ℕ} {name : String} {g : ℕ} {r : LikwidThreadResults}
    {es : PerfmonEventSet} (hi : i < s.threadList.labels.card)
    (hr : s.threadList.record cpu (groupTag name g) = some r)
    (hes : s.perfmon.group? g = some es) (j : ℕ) :
    ((Copies.cell (copies 0 s.threadList.active) j (groupTag name g)).line i g
      es.numberOfEvents).length < 1024 := by
  have hfits : ∀ {cpu r}, s.threadList.record cpu (groupTag name g) = some r →
      (r.cell.line i g es.numberOfEvents).length < 1024 ∧
        (Cell.blank.line i g es.numberOfEvents).length < 1024 := by
    intro cpu r hr
    obtain ⟨thread, hthread, hmem, -⟩ := record_eq_some.mp hr
    have hg : r.groupID.toNat = g := by rw [(h.group_of_label hr).1, Int.toNat_natCast]
    have hline := h.fits i hi cpu thread hthread r hmem es (hg ▸ hes)
    rwa [hg] at hline
  rcases column_cases s.threadList (groupTag name g) j with
    ⟨cpu', r', hr', hcell⟩ | hcell
  · rw [hcell]
    exact (hfits hr').1
  · rw [hcell]
    exact (hfits hr).2

end MarkedRun

/-- A row of the file, as it comes from the merged table. -/
structure RowOf (s : MarkerApi) (groupList : List (List String)) (f : Finalize) (tag : String)
    (i : ℕ) (row : FileRow) : Prop where
  label : tag = groupTag row.name row.group
  event : ∃ es events, s.perfmon.group? row.group = some es ∧
    row.numberOfEvents = es.numberOfEvents ∧ groupList[row.group]? = some events ∧
    es.numberOfEvents ≤ events.length
  cells : row.cells = (List.range s.threadList.active.length).map fun j =>
    Copies.cell (copies 0 s.threadList.active) j tag
  writes : ∀ res, f.results[i]? = some res →
    Writes s.perfmon s.threadList.active.length i res row

theorem MarkedRun.exists_row (h : MarkedRun s groupList cpulist) {tags : List String}
    {f : Finalize} {n : ℕ × ℕ} (hrun : hashTableFinalize s.threadList = .done n f)
    (hrows : Rows s.threadList.labels tags (copies 0 s.threadList.active) f) {i : ℕ}
    {tag : String} (hi : tags[i]? = some tag) : ∃ row, RowOf s groupList f tag i row := by
  obtain ⟨res, hres, htag, hcell⟩ := hrows.rows i tag hi
  have hlt : i < s.threadList.labels.card :=
    hrows.length ▸ (List.getElem?_eq_some_iff.mp hres).1
  have hgrouped : f.Grouped fun r => ∃ cpu, s.threadList.record cpu r.label = some r :=
    hashTableFinalize_grouped hrun fun thread hthread r hr => by
      obtain ⟨cpu, -, hcpu⟩ := List.mem_filterMap.mp hthread
      exact ⟨cpu, record_eq_some.mpr ⟨thread, hcpu, hr, rfl⟩⟩
  obtain ⟨r, ⟨cpu, hr⟩, hlabel, hgroup⟩ := hgrouped i res tag hres htag
  obtain ⟨name, g, es, events, hname, hid, hes, hle, hevents, hlen⟩ := (h.measuredOn hr).group
  have hgroupTag : tag = groupTag name g := hlabel.symm.trans hname
  rw [hname] at hr
  refine ⟨⟨name, g, es.numberOfEvents, (List.range s.threadList.active.length).map fun j =>
    Copies.cell (copies 0 s.threadList.active) j tag⟩, hgroupTag,
    ⟨es, events, hes, rfl, hevents, hlen⟩, rfl, fun res' hres' => ?_⟩
  obtain rfl : res = res' := Option.some.inj (hres.symm.trans hres')
  refine ⟨?_, ?_, fun j hj => ?_⟩
  · rw [regionLine, htag, Option.map_some, hgroupTag, toList_groupTag]
    rfl
  · exact List.map_congr_left fun j _ => (hcell j).symm
  · have hfits := h.fits_column hlt hr hes j
    rw [← hgroupTag, ← hcell] at hfits
    exact resultLine_eq (by rw [hgroup, hid]) hes hle hfits

/-- What is written: a row for every label. -/
theorem MarkedRun.close (h : MarkedRun s groupList cpulist) :
    ∃ (tags : List String) (rows : List FileRow) (f : Finalize), rows.length = tags.length ∧
      (∀ (i : ℕ) tag row, tags[i]? = some tag → rows[i]? = some row →
        RowOf s groupList f tag i row) ∧
      (∀ l, l ∈ tags ↔ l ∈ s.threadList.labels) ∧
      likwidMarkerClose s =
        .done (fileText cpulist.length s.numberOfGroups rows) { s with likwidInit := false } := by
  obtain ⟨tags, f, hrun, hrows⟩ := hashTableFinalize_rows (countThreads_eq_card_iff.mpr h.merged)
  have hall : ∀ l ∈ s.threadList.labels, l ∈ tags := by
    intro l hl
    obtain ⟨thread, hthread, hmem⟩ := ThreadLists.mem_labels.mp hl
    obtain ⟨t, ht⟩ := List.getElem?_of_mem hthread
    obtain ⟨r, hr, rfl⟩ := List.mem_map.mp (List.mem_toFinset.mp hmem)
    have hcopy : (t, r) ∈ copies 0 s.threadList.active :=
      mem_copies.mpr ⟨t, thread, ht, (Nat.zero_add t).symm, hr⟩
    exact hrows.copied _ hcopy
  have hcard : s.threadList.labels.card = tags.length := by
    have hset : tags.toFinset = s.threadList.labels := by
      ext l
      rw [List.mem_toFinset]
      exact ⟨hrows.subset l, hall l⟩
    rw [← hset, List.toFinset_card_of_nodup hrows.nodup]
  obtain ⟨rows, hlen, hrow⟩ := exists_list (n := tags.length)
    (P := fun i row => ∀ tag, tags[i]? = some tag → RowOf s groupList f tag i row) fun i hi => by
      have htag : tags[i]? = some tags[i] := List.getElem?_eq_getElem hi
      obtain ⟨row, hrow⟩ := h.exists_row hrun hrows htag
      refine ⟨row, fun tag hi' => ?_⟩
      obtain rfl := Option.some.inj (htag.symm.trans hi')
      exact hrow
  have hreslen : f.results.length = rows.length := by rw [hrows.length, hcard, hlen]
  have hfile : markerFile s s.threadList.active.length s.threadList.labels.card f.results =
      some (fileText s.threadList.active.length s.numberOfGroups rows) := by
    rw [← hrows.length]
    refine markerFile_eq hreslen fun i res row hres hi => ?_
    have hlt : i < tags.length := hlen ▸ (List.getElem?_eq_some_iff.mp hi).1
    exact (hrow i row hi _ (List.getElem?_eq_getElem hlt)).writes res hres
  refine ⟨tags, rows, f, hlen, fun i tag row hi hi' => hrow i row hi' tag hi,
    fun l => ⟨hrows.subset l, hall l⟩, ?_⟩
  have hthreads : s.threadList.active.length ≠ 0 := by
    rw [h.length_active]
    exact fun hzero => h.nonempty (List.length_eq_zero_iff.mp hzero)
  rw [likwidMarkerClose, Prog.bind_of_done (Prog.get_apply s), Prog.when_of_neg (by simp [h.init]),
    Prog.bind_pure_left, hrun]
  dsimp only
  rw [Prog.when_of_neg hthreads, Prog.bind_pure_left, hfile, h.length_active]
  rfl

variable {f : Finalize} {tag : String} {i : ℕ} {row : FileRow}

theorem RowOf.cell_cases (hrow : RowOf s groupList f tag i row) {c : Cell} (hc : c ∈ row.cells) :
    (∃ cpu r, s.threadList.record cpu tag = some r ∧ c = r.cell) ∨ c = .blank := by
  rw [hrow.cells] at hc
  obtain ⟨j, -, rfl⟩ := List.mem_map.mp hc
  exact column_cases s.threadList tag j

/-- A thread without a record of the label has a cell of nobody. -/
theorem RowOf.thread_cell (hrow : RowOf s groupList f tag i row)
    (h : MarkedRun s groupList cpulist) {c : Cell} (hc : c ∈ row.cells) {t cpu : ℕ}
    (ht : c.thread cpulist = some t) (hcpu : cpulist[t]? = some cpu) :
    ∃ r, s.threadList.record cpu tag = some r ∧ c = r.cell := by
  obtain ⟨cpu', hcpu', hid⟩ := (thread_eq_some h.nodup).mp ht
  obtain rfl : cpu = cpu' := Option.some.inj (hcpu.symm.trans hcpu')
  rcases hrow.cell_cases hc with ⟨cpu', r, hr, rfl⟩ | rfl
  · have hsame : (cpu' : Int) = cpu := (h.measuredOn hr).cpuID.symm.trans hid
    rw [Nat.cast_inj] at hsame
    exact ⟨r, hsame ▸ hr, rfl⟩
  · rw [thread_blank rfl] at ht
    cases ht

theorem RowOf.sound (hrow : RowOf s groupList f tag i row) (h : MarkedRun s groupList cpulist) :
    row.Sound groupList cpulist := by
  obtain ⟨es, events, -, hn, hevents, hlen⟩ := hrow.event
  refine ⟨⟨events, hevents, hn ▸ hlen⟩, fun c hc => ?_, fun c hc c' hc' t ht ht' => ?_⟩
  · rcases hrow.cell_cases hc with ⟨cpu, r, hr, rfl⟩ | rfl
    · obtain ⟨t, ht⟩ := List.getElem?_of_mem (h.mem_cpulist hr)
      exact Or.inr ⟨t, (thread_eq_some h.nodup).mpr ⟨cpu, ht, (h.measuredOn hr).cpuID⟩⟩
    · exact Or.inl rfl
  · obtain ⟨cpu, hcpu, -⟩ := (thread_eq_some h.nodup).mp ht
    obtain ⟨r, hr, rfl⟩ := hrow.thread_cell h hc ht hcpu
    obtain ⟨r', hr', rfl⟩ := hrow.thread_cell h hc' ht' hcpu
    rw [Option.some.inj (hr.symm.trans hr')]

theorem readBack_printed (M : Machine) (x : ℚ) : ReadBack M (some (M.fl (printed x))) x :=
  ⟨printed x, rfl, abs_printed_sub_le x⟩

/-- What the reader has stored of a row is what the threads have measured. -/
theorem RowOf.recovers (hrow : RowOf s groupList f tag i row) (h : MarkedRun s groupList cpulist)
    {d : MarkerData} {rows : List FileRow} (hi : rows[i]? = some row)
    (hread : row.ReadFrom M groupList cpulist i (fileCells rows) d) :
    ∃ region table events, d.groupData (row.group + 1) (i + 1) = some region ∧
      d.results (row.group + 1) (i + 1) = some table ∧ groupList[row.group]? = some events ∧
      region.id = row.group + 1 ∧ region.name = row.name.toList ∧
      ∀ t cpu, cpulist[t]? = some cpu →
        match s.threadList.record cpu tag with
        | some record => RecoversThread M s events row.group region table t record
        | none => Unset region table t := by
  obtain ⟨region, table, hregion, htable, hid, hname, hcells⟩ := hread
  obtain ⟨es, events, hes, hn, hevents, hlen⟩ := hrow.event
  refine ⟨region, table, events, hregion, htable, hevents, hid, hname, fun t cpu hcpu => ?_⟩
  split
  · next r hr =>
      have hmem : r.cell ∈ row.cells := by
        obtain ⟨j, hj, hcell⟩ := h.exists_column hr
        rw [hrow.cells]
        exact List.mem_map.mpr ⟨j, List.mem_range.mpr hj, hcell⟩
      have ht : r.cell.thread cpulist = some t :=
        (thread_eq_some h.nodup).mpr ⟨cpu, hcpu, (h.measuredOn hr).cpuID⟩
      have hstored := (hcells t).1 r.cell (mem_fileCells.mpr ⟨hi, hmem⟩) ht
      rw [hevents, Option.getD_some] at hstored
      refine ⟨hstored.time ▸ readBack_printed M r.time, hstored.count, fun es' hes' k hk => ?_⟩
      obtain rfl : es = es' := Option.some.inj (hes.symm.trans hes')
      have hvalue := hstored.values k (hn ▸ hk)
      have hx : ((List.range row.numberOfEvents).map r.cell.counter)[k]? =
          some (r.cell.counter k) := by
        rw [List.getElem?_map, List.getElem?_range (hn ▸ hk), Option.map_some]
      have hcounter : events[k]? = some events[k] := List.getElem?_eq_getElem (by omega)
      rw [storedValue, hx, hcounter] at hvalue
      exact ⟨_, hvalue, readBack_printed M _, hcounter⟩
  · next hnone =>
      refine (hcells t).2 fun c hc ht => ?_
      obtain ⟨r, hr, -⟩ := hrow.thread_cell h (mem_fileCells.mp hc).2 ht hcpu
      rw [hnone] at hr
      cases hr

/-! ## Names that are not read -/

/-- Every region has a name the pattern takes. -/
def MarkerData.Named (d : MarkerData) : Prop :=
  ∀ g r region, d.groupData g r = some region → ∀ c ∈ region.name, isGraph c = true

theorem MarkerData.Named.setRegion {d : MarkerData} (h : d.Named) {g r : ℕ} {region : RegionData}
    (hname : ∀ c ∈ region.name, isGraph c = true) : (d.setRegion g r region).Named := by
  intro g' r' region' hregion
  rw [MarkerData.groupData_setRegion] at hregion
  split at hregion
  · obtain rfl := Option.some.inj hregion
    exact hname
  · exact h g' r' region' hregion

theorem readRegions_named (lines : List (List Char)) {d : MarkerData} (h : d.Named) :
    (readRegions lines d).2.Named := by
  induction lines generalizing d with
  | nil => exact h
  | cons line lines ih =>
      rw [readRegions]
      split
      · next r colon gname dash g hfind =>
          obtain ⟨pre, t, -, hfits⟩ := find_sound hfind
          obtain ⟨-, hfits⟩ := List.forall₂_cons.mp hfits
          obtain ⟨-, hfits⟩ := List.forall₂_cons.mp hfits
          obtain ⟨hgname, -⟩ := List.forall₂_cons.mp hfits
          exact ih (h.setRegion hgname.1)
      · exact h

theorem readEvent_groupData {g r c : ℕ} {key : ThreadKey} {tmpList : List (List Char)}
    {d d' : MarkerData} (h : readEvent M groupList g r key tmpList d c = some d') :
    d'.groupData = d.groupData := by
  obtain ⟨table, -, h⟩ := Option.bind_eq_some_iff.mp h
  obtain ⟨events, -, h⟩ := Option.bind_eq_some_iff.mp h
  obtain ⟨counter, -, h⟩ := Option.bind_eq_some_iff.mp h
  obtain rfl := Option.some.inj h
  rfl

theorem foldlM_invariant {α β : Type} {I : β → Prop} {f : β → α → Option β} {l : List α}
    (hstep : ∀ b a b', f b a = some b' → I b → I b') {b b' : β} (hb : I b)
    (h : l.foldlM f b = some b') : I b' := by
  induction l generalizing b with
  | nil =>
      obtain rfl := Option.some.inj h
      exact hb
  | cons a l ih =>
      obtain ⟨b₁, hb₁, h⟩ := Option.bind_eq_some_iff.mp h
      exact ih (hstep b a b₁ hb₁ hb) h

theorem readLine_named {line : List Char} {d d' : MarkerData} (hd : d.Named)
    (h : readLine M groupList cpulist d line = some d') : d'.Named := by
  unfold readLine at h
  split at h
  · obtain ⟨region, hregion, h⟩ := Option.bind_eq_some_iff.mp h
    obtain ⟨events, -, h⟩ := Option.bind_eq_some_iff.mp h
    refine foldlM_invariant (I := MarkerData.Named) (fun d k d' hrun hd => ?_) ?_ h
    · intro g r region hregion
      rw [readEvent_groupData hrun] at hregion
      exact hd g r region hregion
    · exact hd.setRegion (hd _ _ region hregion)
  · obtain rfl := Option.some.inj h
    exact hd

theorem getMarkerResults_named {finput : List Char} {d : MarkerData}
    (h : getMarkerResults M groupList cpulist finput = some d) : d.Named := by
  have hempty : (({} : MarkerData)).Named := fun g r region hregion => by cases hregion
  have hnone : ∀ {d : MarkerData}, some {} = some d → d.Named := fun hd =>
    Option.some.inj hd ▸ hempty
  unfold getMarkerResults at h
  split at h
  · exact hnone h
  · next first lines hlines =>
      split at h
      · obtain ⟨n, -, h⟩ := Option.bind_eq_some_iff.mp h
        split at h
        · exact hnone h
        · split at h
          · exact hnone h
          · split at h
            · exact hnone h
            · exact foldlM_invariant (I := MarkerData.Named)
                (fun d line d' hrun hd => readLine_named hd hrun)
                (readRegions_named lines hempty) h
      · exact hnone h

/-- **The file is read back** exactly if the names of all regions are made of what
`[%a%g]` stands for: printable characters of ASCII without the blank. -/
theorem recovers_iff (h : MarkedRun s groupList cpulist) :
    RecoversRegions M groupList cpulist s ↔
      ∀ (name : String) (g : ℕ), groupTag name g ∈ s.threadList.labels →
        ∀ c ∈ name.toList, isGraph c = true := by
  constructor
  · rintro ⟨file, s', d, -, hread, hregions⟩ name g hl
    obtain ⟨r, region, table, events, hregion, -, -, -, hname, -⟩ := hregions name g hl
    exact hname ▸ getMarkerResults_named hread _ _ region hregion
  · intro hgraph
    obtain ⟨tags, rows, f, hlen, hrow, hall, hclose⟩ := h.close
    have htag : ∀ {i : ℕ} {row : FileRow}, rows[i]? = some row → ∃ tag, tags[i]? = some tag ∧
        RowOf s groupList f tag i row := by
      intro i row hi
      have hlt : i < tags.length := hlen ▸ (List.getElem?_eq_some_iff.mp hi).1
      have hi' : tags[i]? = some tags[i] := List.getElem?_eq_getElem hlt
      exact ⟨tags[i], hi', hrow i _ row hi' hi⟩
    have hname : ∀ row ∈ rows, ∀ c ∈ row.name.toList, isGraph c = true := by
      intro row hmem
      obtain ⟨i, hi⟩ := List.getElem?_of_mem hmem
      obtain ⟨tag, htag, hrow⟩ := htag hi
      exact hgraph row.name row.group
        (hrow.label ▸ (hall tag).mp (List.mem_of_getElem? htag))
    have hsound : ∀ row ∈ rows, row.Sound groupList cpulist := by
      intro row hmem
      obtain ⟨i, hi⟩ := List.getElem?_of_mem hmem
      obtain ⟨tag, -, hrow⟩ := htag hi
      exact hrow.sound h
    obtain ⟨d, hd, hread⟩ := getMarkerResults_fileText (M := M) rfl h.groups hname hsound
    refine ⟨_, _, d, hclose, hd, fun name g hl => ?_⟩
    obtain ⟨i, hi⟩ := List.getElem?_of_mem ((hall _).mpr hl)
    have hlt : i < rows.length := hlen ▸ (List.getElem?_eq_some_iff.mp hi).1
    have hi' : rows[i]? = some rows[i] := List.getElem?_eq_getElem hlt
    have hrowOf := hrow i _ _ hi hi'
    obtain ⟨hsame, hgroup⟩ := groupTag_inj₂.mp hrowOf.label
    have hrecovers := hrowOf.recovers h hi' (hread i _ hi')
    rw [← hsame, ← hgroup] at hrecovers
    obtain ⟨region, table, events, hrest⟩ := hrecovers
    exact ⟨i + 1, region, table, events, hrest⟩

end Recover

/-! ## Names with and without a blank -/

/-- The state after one run of a region in a group of one event, on CPU 0. -/
def afterRegion (name : String) : MarkerApi where
  likwidInit := true
  perfmon :=
    { Perfmon.boot with
      groupSet := some
        { numberOfGroups := 1
          numberOfActiveGroups := 1
          activeGroup := 0
          groups := [{ numberOfEvents := 1, events := [none], timer := ⟨0, 0⟩, rdtscTime := 0,
                       runTime := 0, regTypeMask := 0, state := .start }]
          threads := [⟨0, 0⟩] } }
  threadList := fun cpu => if cpu = 0 then some (oneRegion 0 (groupTag name 0)) else none
  numberOfGroups := 1
  groups := [0]

theorem mem_labels_afterRegion {name l : String} :
    l ∈ (afterRegion name).threadList.labels ↔ l = groupTag name 0 := by
  rw [ThreadLists.mem_labels]
  constructor
  · rintro ⟨thread, hthread, hl⟩
    obtain ⟨cpu, -, hcpu⟩ := List.mem_filterMap.mp hthread
    obtain ⟨rfl, hcpu⟩ := Option.ite_none_right_eq_some.mp hcpu
    obtain rfl := Option.some.inj hcpu
    simpa [ThreadList.labels, oneRegion] using hl
  · rintro rfl
    refine ⟨oneRegion 0 (groupTag name 0), List.mem_filterMap.mpr ⟨0, by decide, rfl⟩, ?_⟩
    simp [ThreadList.labels, oneRegion]

theorem markedRun_afterRegion (name : String) :
    MarkedRun (afterRegion name) [["FIXC0"]] [0] := by
  have hcpu : ∀ {cpu thread}, (afterRegion name).threadList cpu = some thread →
      cpu = 0 ∧ thread = oneRegion 0 (groupTag name 0) := by
    intro cpu thread hthread
    obtain ⟨rfl, hthread⟩ := Option.ite_none_right_eq_some.mp hthread
    exact ⟨rfl, (Option.some.inj hthread).symm⟩
  have hlabels : (afterRegion name).threadList.labels = {groupTag name 0} := by
    ext l
    rw [mem_labels_afterRegion, Finset.mem_singleton]
  exact
    { init := rfl
      groups := Nat.one_pos
      nodup := List.nodup_singleton 0
      nonempty := List.cons_ne_nil _ _
      bound := by decide
      threads := by
        intro cpu
        by_cases h : cpu = 0 <;> simp [afterRegion, h]
      merged := by
        refine Or.inr ⟨oneRegion 0 (groupTag name 0),
          List.mem_filterMap.mpr ⟨0, by decide, rfl⟩, fun l hl => ?_⟩
        rw [mem_labels_afterRegion.mp hl]
        simp [ThreadList.labels, oneRegion]
      measured := by
        intro cpu thread hthread r hr
        obtain ⟨rfl, rfl⟩ := hcpu hthread
        obtain rfl := List.mem_singleton.mp hr
        exact ⟨rfl, name, 0, _, _, rfl, rfl, rfl, by decide, rfl, le_rfl⟩
      fits := by
        intro i hi cpu thread hthread r hr es hes
        obtain ⟨rfl, rfl⟩ := hcpu hthread
        obtain rfl := List.mem_singleton.mp hr
        obtain rfl := Option.some.inj hes
        rw [hlabels, Finset.card_singleton, Nat.lt_one_iff] at hi
        subst hi
        constructor
        · show (Cell.line ⟨1, 0, 0, fun _ => 0⟩ 0 0 1).length < 1024
          decide +kernel
        · show (Cell.blank.line 0 0 1).length < 1024
          decide +kernel }

/-- A region `a b` is accepted, and what is read of it is not its name. -/
theorem not_recovered_blank : MarkedRun (afterRegion "a b") [["FIXC0"]] [0] ∧
    ¬RecoversRegions haswellMachine [["FIXC0"]] [0] (afterRegion "a b") := by
  refine ⟨markedRun_afterRegion "a b", ?_⟩
  rintro ⟨file, s', d, -, hread, hregions⟩
  obtain ⟨r, region, table, events, hregion, -, -, -, hname, -⟩ :=
    hregions "a b" 0 (mem_labels_afterRegion.mpr rfl)
  have hblank : ' ' ∈ region.name := by
    rw [hname]
    decide
  exact absurd (getMarkerResults_named hread _ _ region hregion ' ' hblank) (by decide)

theorem recovered_solve :
    RecoversRegions haswellMachine [["FIXC0"]] [0] (afterRegion "solve") := by
  refine (recovers_iff (markedRun_afterRegion "solve")).mpr fun name g hl => ?_
  obtain ⟨rfl, rfl⟩ := groupTag_inj₂.mp (mem_labels_afterRegion.mp hl)
  simp [isGraph]

end Likwid
