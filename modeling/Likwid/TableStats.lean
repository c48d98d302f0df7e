import Mathlib.Algebra.BigOperators.Group.List.Basic
import Mathlib.Algebra.Order.Field.Rat
import Mathlib.Data.List.Perm.Basic
import Mathlib.Data.List.ReduceOption
import Mathlib.Algebra.BigOperators.Ring.Finset
import Mathlib.Data.Set.List
import Mathlib.Order.Bounds.Basic
import Mathlib.Order.WithBot
import Likwid.Lib.Rounding

/-!
# The statistics of a table (`likwid.lua`)

`tableMinMaxAvgSum` goes through the data columns one after the other and keeps a minimum, a
maximum and a sum for each line. A cell that is no number sets them to 0, whatever was there, and
the maximum starts from 0. Numbers are doubles: `fl` rounds the result of an operation, so that a
sum may depend on the order of the columns. `tonumber` is any reading of the cells as doubles.
-/

namespace Likwid

/-- A cell of the result: a text of the table, or a number; `math.huge` is `⊤`. -/
inductive StatCell where
  | text (s : List Char)
  | number (q : WithTop ℚ)
deriving DecidableEq

/-- The entries of `minOfLine`, `maxOfLine`, `sumOfLine` and `avgOfLine` for one line -/
structure LineStat where
  min : WithTop ℚ
  max : ℚ
  sum : ℚ
  avg : ℚ
deriving DecidableEq

def LineStat.start : LineStat := ⟨⊤, 0, 0, 0⟩

/-- The body of the loop over the lines, for `count` data columns and what `tonumber` made of the
cell -/
def LineStat.add (fl : ℚ → ℚ) (count : ℕ) (s : LineStat) (res : Option ℚ) : LineStat :=
  match res with
  | some res =>
    { min := Min.min (res : WithTop ℚ) s.min
      max := Max.max res s.max
      sum := fl (s.sum + res)
      avg := fl (fl (s.sum + res) / count) }
  | none => { min := 0, max := 0, sum := 0, avg := fl (0 / count) }

/-- The tables are lists of columns. -/
abbrev Table := List (List (List Char))

section Model

variable (fl : ℚ → ℚ) (tonumber : List Char → Option ℚ)

/-- One round of the loop over the columns -/
def columnStep (count skipLines : ℕ) (stats : List LineStat) (column : List (List Char)) :
    List LineStat :=
  List.zipWith (LineStat.add fl count) stats ((column.drop skipLines).map tonumber)

/-- The two loops -/
def lineStats (inputtable : Table) (skipCols skipLines : ℕ) : List LineStat :=
  let nrLines := (inputtable.headD []).length
  (inputtable.drop skipCols).foldl
    (columnStep fl tonumber (inputtable.length - skipCols) skipLines)
    (List.replicate (nrLines - skipLines) LineStat.start)

def statColumn (name : String) (f : LineStat → WithTop ℚ) (stats : List LineStat) :
    List StatCell :=
  .text name.toList :: stats.map fun s => .number (f s)

def tableMinMaxAvgSum (inputtable : Table) (skipCols skipLines : ℕ) : List (List StatCell) :=
  match inputtable with
  | [] => []
  | [] :: _ => []
  | (head :: lines) :: columns =>
    let stats := lineStats fl tonumber inputtable skipCols skipLines
    (.text head :: lines.map fun line => .text (line ++ " STAT".toList)) ::
      ((columns.take (skipCols - 1)).map fun column => column.map .text) ++
      [statColumn "Sum" (fun s => s.sum) stats, statColumn "Min" (fun s => s.min) stats,
        statColumn "Max" (fun s => s.max) stats, statColumn "Avg" (fun s => s.avg) stats]

end Model

/-! ## The columns -/

/-- A table of `lines` lines, with a data column -/
structure DataTable (inputtable : Table) (lines skipCols skipLines : ℕ) : Prop where
  rectangular : ∀ column ∈ inputtable, column.length = lines
  data : skipCols < inputtable.length
  cols : 1 ≤ skipCols
  lines : 1 ≤ skipLines

section Columns

variable (fl : ℚ → ℚ) (tonumber : List Char → Option ℚ) (inputtable : Table)
  (skipCols skipLines : ℕ)

/-- The columns that the routine adds -/
def statColumns : List (List StatCell) :=
  (tableMinMaxAvgSum fl tonumber inputtable skipCols skipLines).drop skipCols

/-- What `tonumber` makes of the data cells of line `i` -/
def dataCells (i : ℕ) : List (Option ℚ) :=
  (inputtable.drop skipCols).map fun column => column[i]?.bind tonumber

/-- The entry for line `i` in column `k` of those added -/
def statEntry (k i : ℕ) : Option StatCell :=
  (statColumns fl tonumber inputtable skipCols skipLines)[k]?.bind (·[i - skipLines + 1]?)

/-- The line has the statistics of its numbers, the mean rounded to a double. -/
structure LineRight (i : ℕ) (values : List ℚ) : Prop where
  sum : statEntry fl tonumber inputtable skipCols skipLines 0 i = some (.number values.sum)
  min : ∃ m : ℚ, IsLeast {v | v ∈ values} m ∧
    statEntry fl tonumber inputtable skipCols skipLines 1 i = some (.number m)
  max : ∃ m : ℚ, IsGreatest {v | v ∈ values} m ∧
    statEntry fl tonumber inputtable skipCols skipLines 2 i = some (.number m)
  avg : statEntry fl tonumber inputtable skipCols skipLines 3 i =
    some (.number (fl (values.sum / values.length) : ℚ))

/-- The added columns do not depend on the order of the data columns and are right for the lines
of numbers. -/
structure StatsRight (lines : ℕ) : Prop where
  order : ∀ data, data.Perm (inputtable.drop skipCols) →
    statColumns fl tonumber (inputtable.take skipCols ++ data) skipCols skipLines =
      statColumns fl tonumber inputtable skipCols skipLines
  numeric : ∀ i, skipLines ≤ i → i < lines → ∀ values : List ℚ,
    dataCells tonumber inputtable skipCols i = values.map some →
      LineRight fl tonumber inputtable skipCols skipLines i values

end Columns

/-- The numbers add up without an error, in whatever order. -/
def AddsExactly (fl : ℚ → ℚ) (values : List ℚ) : Prop :=
  ∀ order : List ℚ, order.Perm values → order.foldl (fun sum v => fl (sum + v)) 0 = values.sum

/-- The cells are numbers that add up without an error, not all of them negative; or some are none,
and all numbers are 0. -/
def LineFits (fl : ℚ → ℚ) (cells : List (Option ℚ)) : Prop :=
  (none ∉ cells ∧ (∃ v : ℚ, some v ∈ cells ∧ 0 ≤ v) ∧ AddsExactly fl cells.reduceOption) ∨
    (none ∈ cells ∧ ∀ v : ℚ, some v ∈ cells → v = 0)

/-- 0 is a double, and so is what `tonumber` reads. -/
structure ReadsDoubles (fl : ℚ → ℚ) (tonumber : List Char → Option ℚ) : Prop where
  zero : fl 0 = 0
  read : ∀ cell v, tonumber cell = some v → fl v = v

/-! ## One line -/

section Line

variable {fl : ℚ → ℚ} {count : ℕ} {s : LineStat} {cells cells' : List (Option ℚ)}
  {values values' : List ℚ} {v : ℚ}

/-- Natural numbers add up without an error as long as a double holds their sum. -/
theorem addsExactly_naturals {bound : ℕ} (hfl : ∀ n : ℕ, n ≤ bound → fl n = n) {ns : List ℕ}
    (h : ns.sum ≤ bound) : AddsExactly fl (ns.map Nat.cast) := by
  have hfold : ∀ (ms : List ℕ) (s : ℕ), s + ms.sum ≤ bound →
      (ms.map Nat.cast).foldl (fun sum v => fl (sum + v)) (s : ℚ) = ((s + ms.sum : ℕ) : ℚ) := by
    intro ms
    induction ms with
    | nil => exact fun s _ => by simp
    | cons m ms ih =>
      intro s hs
      rw [List.sum_cons, ← Nat.add_assoc] at hs
      have hstep : fl ((s : ℚ) + m) = ((s + m : ℕ) : ℚ) := by
        rw [← Nat.cast_add]
        exact hfl _ (by omega)
      rw [List.map_cons, List.foldl_cons, hstep, ih _ hs, List.sum_cons, Nat.add_assoc]
  intro order hperm
  obtain ⟨ms, rfl⟩ : ∃ ms : List ℕ, ms.map (Nat.cast : ℕ → ℚ) = order := by
    have hcast : ∀ v ∈ order, v ∈ Set.range (Nat.cast : ℕ → ℚ) := by
      intro v hv
      obtain ⟨n, -, rfl⟩ := List.mem_map.mp (hperm.mem_iff.mp hv)
      exact ⟨n, rfl⟩
    exact (Set.range_list_map (Nat.cast : ℕ → ℚ)).ge hcast
  have hms : ms.Perm ns := (List.map_perm_map_iff Nat.cast_injective).mp hperm
  have hsum := hfold ms 0 (by rw [Nat.zero_add, hms.sum_eq]; exact h)
  rw [Nat.zero_add, hms.sum_eq, Nat.cast_zero] at hsum
  rw [hsum, Nat.cast_list_sum]

theorem add_comm_zero (hzero : fl 0 = 0) (s : LineStat) :
    (s.add fl count none).add fl count (some 0) = (s.add fl count (some 0)).add fl count none := by
  simp only [LineStat.add, LineStat.mk.injEq, add_zero, hzero]
  exact ⟨min_self _, max_self _, trivial, trivial⟩

/-- In a line of zeros and cells that are no number, no two cells depend on their order. -/
theorem add_comm_zeros (hzero : fl 0 = 0) (h : ∀ v : ℚ, some v ∈ cells → v = 0) {a b : Option ℚ}
    (ha : a ∈ cells) (hb : b ∈ cells) (s : LineStat) :
    (s.add fl count a).add fl count b = (s.add fl count b).add fl count a := by
  cases a with
  | none =>
    cases b with
    | none => rfl
    | some b =>
      rw [h b hb]
      exact add_comm_zero hzero s
  | some a =>
    cases b with
    | none =>
      rw [h a ha]
      exact (add_comm_zero hzero s).symm
    | some b => rw [h a ha, h b hb]

/-- The numbers of a line, added to `s` -/
def addNumbers (fl : ℚ → ℚ) (count : ℕ) (s : LineStat) (values : List ℚ) : LineStat :=
  values.foldl (fun s v => s.add fl count (some v)) s

theorem foldl_map_some :
    (values.map some).foldl (LineStat.add fl count) s = addNumbers fl count s values :=
  List.foldl_map

theorem addNumbers_cons : addNumbers fl count s (v :: values) =
    addNumbers fl count (s.add fl count (some v)) values := rfl

theorem addNumbers_sum : (addNumbers fl count s values).sum =
    values.foldl (fun sum v => fl (sum + v)) s.sum := by
  induction values generalizing s with
  | nil => rfl
  | cons v values ih => exact ih

theorem addNumbers_foldl_min : (addNumbers fl count s values).min =
    values.foldl (fun (m : WithTop ℚ) (v : ℚ) => Min.min (v : WithTop ℚ) m) s.min := by
  induction values generalizing s with
  | nil => rfl
  | cons v values ih => exact ih

theorem addNumbers_foldl_max : (addNumbers fl count s values).max =
    values.foldl (fun m v => Max.max v m) s.max := by
  induction values generalizing s with
  | nil => rfl
  | cons v values ih => exact ih

theorem addNumbers_avg (hne : values ≠ []) :
    (addNumbers fl count s values).avg = fl ((addNumbers fl count s values).sum / count) := by
  induction values generalizing s with
  | nil => exact absurd rfl hne
  | cons v values ih =>
    rw [addNumbers_cons]
    cases values with
    | nil => rfl
    | cons w values => exact ih (List.cons_ne_nil w values)

/-- Numbers that add up without an error have the same statistics in every order. -/
theorem addNumbers_perm (hexact : AddsExactly fl values) (hperm : values'.Perm values) :
    addNumbers fl count LineStat.start values' = addNumbers fl count LineStat.start values := by
  have hsum : (addNumbers fl count LineStat.start values').sum =
      (addNumbers fl count LineStat.start values).sum := by
    rw [addNumbers_sum, addNumbers_sum]
    exact (hexact values' hperm).trans (hexact values (List.Perm.refl _)).symm
  have hmin : (addNumbers fl count LineStat.start values').min =
      (addNumbers fl count LineStat.start values).min := by
    let meet (m : WithTop ℚ) (v : ℚ) : WithTop ℚ := Min.min (v : WithTop ℚ) m
    have hcomm : ∀ m a b, meet (meet m a) b = meet (meet m b) a := fun m a b =>
      min_left_comm _ _ _
    rw [addNumbers_foldl_min, addNumbers_foldl_min]
    exact hperm.foldl_eq' (f := meet) (fun a _ b _ m => hcomm m a b) _
  have hmax : (addNumbers fl count LineStat.start values').max =
      (addNumbers fl count LineStat.start values).max := by
    rw [addNumbers_foldl_max, addNumbers_foldl_max]
    exact hperm.foldl_eq' (fun a _ b _ m => max_left_comm b a m) _
  have havg : (addNumbers fl count LineStat.start values').avg =
      (addNumbers fl count LineStat.start values).avg := by
    by_cases hne : values = []
    · subst hne
      rw [hperm.eq_nil]
    · have hne' : values' ≠ [] := by
        rintro rfl
        exact hne hperm.symm.eq_nil
      rw [addNumbers_avg hne, addNumbers_avg hne', hsum]
  have hext : ∀ s t : LineStat, s.min = t.min → s.max = t.max → s.sum = t.sum → s.avg = t.avg →
      s = t := by
    rintro ⟨⟩ ⟨⟩ rfl rfl rfl rfl
    rfl
  exact hext _ _ hmin hmax hsum havg

theorem reduceOption_map_some (values : List ℚ) : (values.map some).reduceOption = values := by
  induction values with
  | nil => rfl
  | cons v values ih => rw [List.map_cons, List.reduceOption_cons_of_some, ih]

theorem exists_numbers (hnone : none ∉ cells) : ∃ values : List ℚ, cells = values.map some := by
  induction cells with
  | nil => exact ⟨[], rfl⟩
  | cons cell cells ih =>
    obtain ⟨values, hvalues⟩ := ih fun hmem => hnone (List.mem_cons_of_mem _ hmem)
    cases cell with
    | none => exact absurd List.mem_cons_self hnone
    | some v => exact ⟨v :: values, by rw [hvalues, List.map_cons]⟩

theorem LineFits.foldl_eq (hzero : fl 0 = 0) (h : LineFits fl cells) (hperm : cells'.Perm cells) :
    cells'.foldl (LineStat.add fl count) LineStat.start =
      cells.foldl (LineStat.add fl count) LineStat.start := by
  rcases h with ⟨hnone, -, hexact⟩ | ⟨-, hzeros⟩
  · obtain ⟨values, rfl⟩ := exists_numbers hnone
    obtain ⟨values', rfl⟩ := exists_numbers fun hmem : none ∈ cells' =>
      hnone (hperm.mem_iff.mp hmem)
    rw [reduceOption_map_some] at hexact
    rw [foldl_map_some, foldl_map_some]
    exact addNumbers_perm hexact ((List.map_perm_map_iff (Option.some_injective ℚ)).mp hperm)
  · exact hperm.foldl_eq' (fun _ ha _ hb z =>
      add_comm_zeros hzero hzeros (hperm.mem_iff.mp ha) (hperm.mem_iff.mp hb) z) _

theorem addNumbers_max : s.max ≤ (addNumbers fl count s values).max ∧
    (∀ v ∈ values, v ≤ (addNumbers fl count s values).max) ∧
    ((addNumbers fl count s values).max = s.max ∨ (addNumbers fl count s values).max ∈ values) := by
  induction values generalizing s with
  | nil => exact ⟨le_refl _, fun _ h => absurd h List.not_mem_nil, .inl rfl⟩
  | cons v values ih =>
    rw [addNumbers_cons]
    obtain ⟨hstart, hall, hfrom⟩ := ih (s := s.add fl count (some v))
    have hmax : (s.add fl count (some v)).max = Max.max v s.max := rfl
    rw [hmax] at hstart hfrom
    refine ⟨le_trans (le_max_right v s.max) hstart, ?_, ?_⟩
    · intro w hw
      rcases List.mem_cons.mp hw with rfl | hw
      · exact le_trans (le_max_left w s.max) hstart
      · exact hall w hw
    · rcases hfrom with heq | hmem
      · rcases max_choice v s.max with h | h
        · exact .inr (List.mem_cons.mpr (.inl (heq.trans h)))
        · exact .inl (heq.trans h)
      · exact .inr (List.mem_cons_of_mem _ hmem)

theorem addNumbers_min : (addNumbers fl count s values).min ≤ s.min ∧
    (∀ v ∈ values, (addNumbers fl count s values).min ≤ (v : WithTop ℚ)) ∧
    ((addNumbers fl count s values).min = s.min ∨
      ∃ v ∈ values, (addNumbers fl count s values).min = (v : WithTop ℚ)) := by
  induction values generalizing s with
  | nil => exact ⟨le_refl _, fun _ h => absurd h List.not_mem_nil, .inl rfl⟩
  | cons v values ih =>
    rw [addNumbers_cons]
    obtain ⟨hstart, hall, hfrom⟩ := ih (s := s.add fl count (some v))
    have hmin : (s.add fl count (some v)).min = Min.min (v : WithTop ℚ) s.min := rfl
    rw [hmin] at hstart hfrom
    refine ⟨le_trans hstart (min_le_right _ _), ?_, ?_⟩
    · intro w hw
      rcases List.mem_cons.mp hw with rfl | hw
      · exact le_trans hstart (min_le_left _ _)
      · exact hall w hw
    · rcases hfrom with heq | ⟨w, hw, heq⟩
      · rcases min_choice (v : WithTop ℚ) s.min with h | h
        · exact .inr ⟨v, List.mem_cons_self, heq.trans h⟩
        · exact .inl (heq.trans h)
      · exact .inr ⟨w, List.mem_cons_of_mem _ hw, heq⟩

end Line

/-! ## The loops -/

section Loops

variable {fl : ℚ → ℚ} {tonumber : List Char → Option ℚ} {inputtable data : Table}
  {stats : List LineStat} {count lines skipCols skipLines k i : ℕ} {cells : List (Option ℚ)}
  {s : LineStat}

theorem length_columnStep {column : List (List Char)}
    (hlen : column.length - skipLines = stats.length) :
    (columnStep fl tonumber count skipLines stats column).length = stats.length := by
  rw [columnStep, List.length_zipWith, List.length_map, List.length_drop, hlen, Nat.min_self]

theorem getElem?_columnStep {column : List (List Char)} (hk : k + skipLines < column.length)
    (hs : stats[k]? = some s) :
    (columnStep fl tonumber count skipLines stats column)[k]? =
      some (s.add fl count (column[k + skipLines]?.bind tonumber)) := by
  rw [columnStep, List.getElem?_zipWith, hs, List.getElem?_map, List.getElem?_drop,
    Nat.add_comm skipLines k, List.getElem?_eq_getElem hk]
  rfl

theorem getElem?_columns (columns : Table) (hk : k + skipLines < lines)
    (hrect : ∀ column ∈ columns, column.length = lines)
    (hlen : stats.length = lines - skipLines) (hs : stats[k]? = some s) :
    (columns.foldl (columnStep fl tonumber count skipLines) stats)[k]? =
      some ((columns.map fun column => column[k + skipLines]?.bind tonumber).foldl
        (LineStat.add fl count) s) := by
  induction columns generalizing stats s with
  | nil => exact hs
  | cons column columns ih =>
    have hcolumn := hrect column List.mem_cons_self
    have hlen' : (columnStep fl tonumber count skipLines stats column).length = stats.length :=
      length_columnStep (by rw [hcolumn, hlen])
    exact ih (fun c hc => hrect c (List.mem_cons_of_mem _ hc)) (hlen'.trans hlen)
      (getElem?_columnStep (by rw [hcolumn]; exact hk) hs)

theorem length_columns (columns : Table) (hrect : ∀ column ∈ columns, column.length = lines)
    (hlen : stats.length = lines - skipLines) :
    (columns.foldl (columnStep fl tonumber count skipLines) stats).length = lines - skipLines := by
  induction columns generalizing stats with
  | nil => exact hlen
  | cons column columns ih =>
    have hcolumn := hrect column List.mem_cons_self
    exact ih (fun c hc => hrect c (List.mem_cons_of_mem _ hc))
      ((length_columnStep (by rw [hcolumn, hlen])).trans hlen)

/-- The statistics of line `i` -/
def lineStat (fl : ℚ → ℚ) (tonumber : List Char → Option ℚ) (inputtable : Table)
    (skipCols i : ℕ) : LineStat :=
  (dataCells tonumber inputtable skipCols i).foldl
    (LineStat.add fl (inputtable.length - skipCols)) LineStat.start

theorem headD_length (h : DataTable inputtable lines skipCols skipLines) :
    (inputtable.headD []).length = lines := by
  cases inputtable with
  | nil => exact absurd h.data (Nat.not_lt_zero _)
  | cons column columns => exact h.rectangular column List.mem_cons_self

theorem getElem?_lineStats (h : DataTable inputtable lines skipCols skipLines)
    (hge : skipLines ≤ i) (hi : i < lines) :
    (lineStats fl tonumber inputtable skipCols skipLines)[i - skipLines]? =
      some (lineStat fl tonumber inputtable skipCols i) := by
  have hrect : ∀ column ∈ inputtable.drop skipCols, column.length = lines := fun column hc =>
    h.rectangular column (List.mem_of_mem_drop hc)
  have hback : i - skipLines + skipLines = i := Nat.sub_add_cancel hge
  unfold lineStats
  rw [headD_length h, getElem?_columns _ (by omega) hrect (List.length_replicate)
    (List.getElem?_replicate_of_lt (by omega)), hback]
  rfl

theorem length_lineStats (h : DataTable inputtable lines skipCols skipLines) :
    (lineStats fl tonumber inputtable skipCols skipLines).length = lines - skipLines := by
  unfold lineStats
  rw [headD_length h]
  exact length_columns _ (fun column hc => h.rectangular column (List.mem_of_mem_drop hc))
    List.length_replicate

theorem statColumns_eq (h : DataTable inputtable lines skipCols skipLines) (hlines : 0 < lines) :
    statColumns fl tonumber inputtable skipCols skipLines =
      let stats := lineStats fl tonumber inputtable skipCols skipLines
      [statColumn "Sum" (fun s => s.sum) stats, statColumn "Min" (fun s => s.min) stats,
        statColumn "Max" (fun s => s.max) stats, statColumn "Avg" (fun s => s.avg) stats] := by
  unfold statColumns tableMinMaxAvgSum
  cases inputtable with
  | nil => exact absurd h.data (Nat.not_lt_zero _)
  | cons column columns =>
    cases column with
    | nil =>
      have hnil := h.rectangular [] List.mem_cons_self
      exact absurd hlines (by rw [← hnil]; exact Nat.lt_irrefl 0)
    | cons head rest =>
      have hdata := h.data
      have hcols := h.cols
      rw [List.length_cons] at hdata
      apply List.drop_left'
      rw [List.length_cons, List.length_map, List.length_take]
      omega

theorem statColumns_none (h : DataTable inputtable 0 skipCols skipLines) :
    statColumns fl tonumber inputtable skipCols skipLines = [] := by
  unfold statColumns tableMinMaxAvgSum
  cases inputtable with
  | nil => exact List.drop_nil
  | cons column columns =>
    have hnil := List.eq_nil_of_length_eq_zero (h.rectangular column List.mem_cons_self)
    rw [hnil]
    exact List.drop_nil

theorem getElem?_statColumn (h : DataTable inputtable lines skipCols skipLines)
    (hge : skipLines ≤ i) (hi : i < lines) (name : String) (f : LineStat → WithTop ℚ) :
    (statColumn name f (lineStats fl tonumber inputtable skipCols skipLines))[i - skipLines + 1]? =
      some (.number (f (lineStat fl tonumber inputtable skipCols i))) := by
  rw [statColumn, List.getElem?_cons_succ, List.getElem?_map, getElem?_lineStats h hge hi]
  rfl

end Loops

/-! ## When the columns are right -/

section Right

variable {fl : ℚ → ℚ} {tonumber : List Char → Option ℚ} {inputtable data : Table}
  {lines skipCols skipLines k i : ℕ} {cells : List (Option ℚ)} {values : List ℚ} {v : ℚ}

theorem statEntry_sum (h : DataTable inputtable lines skipCols skipLines) (hge : skipLines ≤ i)
    (hi : i < lines) : statEntry fl tonumber inputtable skipCols skipLines 0 i =
      some (.number ((lineStat fl tonumber inputtable skipCols i).sum : ℚ)) := by
  rw [statEntry, statColumns_eq h (by omega)]
  exact getElem?_statColumn h hge hi "Sum" fun s => s.sum

theorem statEntry_min (h : DataTable inputtable lines skipCols skipLines) (hge : skipLines ≤ i)
    (hi : i < lines) : statEntry fl tonumber inputtable skipCols skipLines 1 i =
      some (.number (lineStat fl tonumber inputtable skipCols i).min) := by
  rw [statEntry, statColumns_eq h (by omega)]
  exact getElem?_statColumn h hge hi "Min" fun s => s.min

theorem statEntry_max (h : DataTable inputtable lines skipCols skipLines) (hge : skipLines ≤ i)
    (hi : i < lines) : statEntry fl tonumber inputtable skipCols skipLines 2 i =
      some (.number ((lineStat fl tonumber inputtable skipCols i).max : ℚ)) := by
  rw [statEntry, statColumns_eq h (by omega)]
  exact getElem?_statColumn h hge hi "Max" fun s => s.max

theorem statEntry_avg (h : DataTable inputtable lines skipCols skipLines) (hge : skipLines ≤ i)
    (hi : i < lines) : statEntry fl tonumber inputtable skipCols skipLines 3 i =
      some (.number ((lineStat fl tonumber inputtable skipCols i).avg : ℚ)) := by
  rw [statEntry, statColumns_eq h (by omega)]
  exact getElem?_statColumn h hge hi "Avg" fun s => s.avg

theorem drop_reordered (h : DataTable inputtable lines skipCols skipLines) (data : Table) :
    (inputtable.take skipCols ++ data).drop skipCols = data := by
  apply List.drop_left'
  rw [List.length_take]
  exact Nat.min_eq_left (Nat.le_of_lt h.data)

theorem DataTable.reordered (h : DataTable inputtable lines skipCols skipLines)
    (hperm : data.Perm (inputtable.drop skipCols)) :
    DataTable (inputtable.take skipCols ++ data) lines skipCols skipLines where
  rectangular column hc := by
    rcases List.mem_append.mp hc with hc | hc
    · exact h.rectangular column (List.mem_of_mem_take hc)
    · exact h.rectangular column (List.mem_of_mem_drop (hperm.mem_iff.mp hc))
  data := by
    have hlen := hperm.length_eq
    have hdata := h.data
    rw [List.length_drop] at hlen
    rw [List.length_append, List.length_take]
    omega
  cols := h.cols
  lines := h.lines

theorem lineStat_reordered (h : DataTable inputtable lines skipCols skipLines)
    (hperm : data.Perm (inputtable.drop skipCols)) (i : ℕ) :
    lineStat fl tonumber (inputtable.take skipCols ++ data) skipCols i =
      (data.map fun column => column[i]?.bind tonumber).foldl
        (LineStat.add fl (inputtable.length - skipCols)) LineStat.start := by
  have hlen : (inputtable.take skipCols ++ data).length = inputtable.length := by
    have hlen := hperm.length_eq
    have hdata := h.data
    rw [List.length_drop] at hlen
    rw [List.length_append, List.length_take]
    omega
  rw [lineStat, dataCells, drop_reordered h, hlen]

/-- If every line fits, the order of the columns does not matter. -/
theorem statColumns_order (hzero : fl 0 = 0) (h : DataTable inputtable lines skipCols skipLines)
    (hfits : ∀ i, skipLines ≤ i → i < lines →
      LineFits fl (dataCells tonumber inputtable skipCols i))
    (hperm : data.Perm (inputtable.drop skipCols)) :
    statColumns fl tonumber (inputtable.take skipCols ++ data) skipCols skipLines =
      statColumns fl tonumber inputtable skipCols skipLines := by
  have h' := h.reordered hperm
  rcases Nat.eq_zero_or_pos lines with rfl | hlines
  · rw [statColumns_none h, statColumns_none h']
  · have hstats : lineStats fl tonumber (inputtable.take skipCols ++ data) skipCols skipLines =
        lineStats fl tonumber inputtable skipCols skipLines := by
      apply List.ext_getElem?
      intro k
      rcases Nat.lt_or_ge k (lines - skipLines) with hk | hk
      · have hi : k + skipLines < lines := by omega
        have hback : k + skipLines - skipLines = k := Nat.add_sub_cancel k skipLines
        have hget := @getElem?_lineStats fl tonumber _ _ _ _ _ h (Nat.le_add_left _ k) hi
        have hget' := @getElem?_lineStats fl tonumber _ _ _ _ _ h' (Nat.le_add_left _ k) hi
        rw [hback] at hget hget'
        rw [hget, hget', lineStat_reordered h hperm]
        exact congrArg some ((hfits _ (Nat.le_add_left _ k) hi).foldl_eq hzero (hperm.map _))
      · rw [List.getElem?_eq_none (by rw [length_lineStats h']; exact hk),
          List.getElem?_eq_none (by rw [length_lineStats h]; exact hk)]
    rw [statColumns_eq h hlines, statColumns_eq h' hlines, hstats]

theorem length_dataCells
    (hcells : dataCells tonumber inputtable skipCols i = values.map some) :
    values.length = inputtable.length - skipCols := by
  have hlen := congrArg List.length hcells
  rw [dataCells, List.length_map, List.length_drop, List.length_map] at hlen
  exact hlen.symm

/-- A line of numbers that add up without an error, not all of them negative, has their
statistics. -/
theorem lineRight_of_nonneg (h : DataTable inputtable lines skipCols skipLines)
    (hge : skipLines ≤ i) (hi : i < lines)
    (hcells : dataCells tonumber inputtable skipCols i = values.map some)
    (hnonneg : ∃ v ∈ values, 0 ≤ v) (hexact : AddsExactly fl values) :
    LineRight fl tonumber inputtable skipCols skipLines i values := by
  obtain ⟨w, hw, hw0⟩ := hnonneg
  have hstat : lineStat fl tonumber inputtable skipCols i =
      addNumbers fl (inputtable.length - skipCols) LineStat.start values := by
    rw [lineStat, hcells, foldl_map_some]
  obtain ⟨_, hminall, hminfrom⟩ :=
    @addNumbers_min fl (inputtable.length - skipCols) LineStat.start values
  obtain ⟨_, hmaxall, hmaxfrom⟩ :=
    @addNumbers_max fl (inputtable.length - skipCols) LineStat.start values
  have hsum : (addNumbers fl (inputtable.length - skipCols) LineStat.start values).sum =
      values.sum := addNumbers_sum.trans (hexact values (List.Perm.refl _))
  constructor
  · rw [statEntry_sum h hge hi, hstat, hsum]
  · rcases hminfrom with htop | ⟨m, hm, heq⟩
    · have hle := hminall w hw
      rw [htop] at hle
      exact absurd (top_le_iff.mp hle) WithTop.coe_ne_top
    · refine ⟨m, ⟨hm, fun v hv => ?_⟩, ?_⟩
      · have hle := hminall v hv
        rw [heq] at hle
        exact WithTop.coe_le_coe.mp hle
      · rw [statEntry_min h hge hi, hstat, heq]
  · refine ⟨_, ⟨?_, fun v hv => hmaxall v hv⟩, by rw [statEntry_max h hge hi, hstat]⟩
    rcases hmaxfrom with hzero | hmem
    · -- the maximum is that of the start: a number is not below it
      have hle := hmaxall w hw
      rw [hzero] at hle
      have hw' : w = 0 := le_antisymm hle hw0
      rw [hzero]
      show (0 : ℚ) ∈ values
      rw [← hw']
      exact hw
    · exact hmem
  · rw [statEntry_avg h hge hi, hstat, addNumbers_avg (List.ne_nil_of_mem hw), hsum,
      length_dataCells hcells]

/-- A rearrangement of the images is one of a rearrangement. -/
theorem exists_perm_map {α β : Type} {f : α → β} {order : List β} {l : List α}
    (h : order.Perm (l.map f)) : ∃ l' : List α, l'.Perm l ∧ l'.map f = order := by
  induction order generalizing l with
  | nil =>
    obtain rfl := List.map_eq_nil_iff.mp h.symm.eq_nil
    exact ⟨[], List.Perm.refl _, rfl⟩
  | cons b order ih =>
    obtain ⟨a, ha, rfl⟩ := List.mem_map.mp (h.mem_iff.mp List.mem_cons_self)
    obtain ⟨before, after, rfl⟩ := List.append_of_mem ha
    rw [List.map_append, List.map_cons] at h
    have hrest := (h.trans List.perm_middle).cons_inv
    rw [← List.map_append] at hrest
    obtain ⟨l', hl', hmap⟩ := ih hrest
    exact ⟨a :: l', (hl'.cons a).trans List.perm_middle.symm, by rw [List.map_cons, hmap]⟩

/-- A line with a number other than 0 and a cell that is no number depends on which comes last. -/
theorem StatsRight.zero (hfl : ReadsDoubles fl tonumber)
    (h : DataTable inputtable lines skipCols skipLines)
    (hright : StatsRight fl tonumber inputtable skipCols skipLines lines) (hge : skipLines ≤ i)
    (hi : i < lines) (hnone : none ∈ dataCells tonumber inputtable skipCols i)
    (hv : some v ∈ dataCells tonumber inputtable skipCols i) : v = 0 := by
  obtain ⟨a, ha, hacell⟩ := List.mem_map.mp hnone
  obtain ⟨b, hb, hbcell⟩ := List.mem_map.mp hv
  have hne : b ≠ a := by
    rintro rfl
    rw [hacell] at hbcell
    cases hbcell
  have hb' : b ∈ (inputtable.drop skipCols).erase a := (List.mem_erase_of_ne hne).mpr hb
  obtain ⟨rest, hrest⟩ : ∃ rest, (inputtable.drop skipCols).Perm (a :: b :: rest) :=
    ⟨_, (List.perm_cons_erase ha).trans ((List.perm_cons_erase hb').cons a)⟩
  have hlast : (rest ++ [a, b]).Perm (inputtable.drop skipCols) :=
    List.perm_append_comm.trans hrest.symm
  have hlast' : (rest ++ [b, a]).Perm (inputtable.drop skipCols) :=
    (List.Perm.append_left rest (List.Perm.swap a b [])).trans hlast
  have hsame := (hright.order _ hlast).trans (hright.order _ hlast').symm
  have hentry : statEntry fl tonumber (inputtable.take skipCols ++ (rest ++ [a, b])) skipCols
      skipLines 0 i = statEntry fl tonumber (inputtable.take skipCols ++ (rest ++ [b, a])) skipCols
      skipLines 0 i := by
    rw [statEntry, hsame]
    rfl
  rw [statEntry_sum (h.reordered hlast) hge hi, statEntry_sum (h.reordered hlast') hge hi,
    lineStat_reordered h hlast, lineStat_reordered h hlast', List.map_append, List.map_append,
    List.foldl_append, List.foldl_append] at hentry
  have hread : fl v = v := by
    obtain ⟨cell, -, hcell⟩ := Option.bind_eq_some_iff.mp hbcell
    exact hfl.read cell v hcell
  simp only [List.map_cons, List.map_nil, hacell, hbcell, List.foldl_cons, List.foldl_nil,
    LineStat.add, Option.some_inj, StatCell.number.injEq, WithTop.coe_inj, zero_add,
    hread] at hentry
  exact hentry

/-- A line of numbers whose sum is right in every order adds up without an error. -/
theorem StatsRight.addsExactly (h : DataTable inputtable lines skipCols skipLines)
    (hright : StatsRight fl tonumber inputtable skipCols skipLines lines) (hge : skipLines ≤ i)
    (hi : i < lines) (hcells : dataCells tonumber inputtable skipCols i = values.map some) :
    AddsExactly fl values := by
  intro order hperm
  obtain ⟨data, hdata, hmap⟩ : ∃ data : Table, data.Perm (inputtable.drop skipCols) ∧
      (data.map fun column => column[i]?.bind tonumber) = order.map some :=
    exists_perm_map ((hperm.map some).trans (.of_eq hcells.symm))
  have hsum : statEntry fl tonumber (inputtable.take skipCols ++ data) skipCols skipLines 0 i =
      statEntry fl tonumber inputtable skipCols skipLines 0 i := by
    rw [statEntry, hright.order _ hdata]
    rfl
  rw [(hright.numeric i hge hi values hcells).sum, statEntry_sum (h.reordered hdata) hge hi,
    lineStat_reordered h hdata, hmap, foldl_map_some, addNumbers_sum, Option.some_inj,
    StatCell.number.injEq, WithTop.coe_inj] at hsum
  exact hsum

/-- The statistics of a table are right if and only if every line fits. -/
theorem statsRight_iff (hfl : ReadsDoubles fl tonumber)
    (h : DataTable inputtable lines skipCols skipLines) :
    StatsRight fl tonumber inputtable skipCols skipLines lines ↔
      ∀ i, skipLines ≤ i → i < lines → LineFits fl (dataCells tonumber inputtable skipCols i) := by
  constructor
  · intro hright i hge hi
    by_cases hnone : none ∈ dataCells tonumber inputtable skipCols i
    · exact .inr ⟨hnone, fun v hv => hright.zero hfl h hge hi hnone hv⟩
    · obtain ⟨values, hcells⟩ := exists_numbers hnone
      obtain ⟨m, hgreatest, hentry⟩ := (hright.numeric i hge hi values hcells).max
      rw [statEntry_max h hge hi, Option.some_inj, StatCell.number.injEq,
        WithTop.coe_inj, lineStat, hcells, foldl_map_some] at hentry
      refine .inl ⟨hnone, ⟨m, ?_, ?_⟩, ?_⟩
      · rw [hcells]
        exact List.mem_map_of_mem hgreatest.1
      · rw [← hentry]
        exact addNumbers_max.1
      · rw [hcells, reduceOption_map_some]
        exact hright.addsExactly h hge hi hcells
  · intro hfits
    refine ⟨fun data hperm => statColumns_order hfl.zero h hfits hperm, ?_⟩
    intro i hge hi values hcells
    have hnumbers : none ∉ dataCells tonumber inputtable skipCols i := by
      rw [hcells, List.mem_map]
      rintro ⟨_, _, hsome⟩
      cases hsome
    rcases hfits i hge hi with ⟨_, ⟨v, hv, hv0⟩, hexact⟩ | ⟨hnone, _⟩
    · rw [hcells] at hv hexact
      obtain ⟨w, hw, hwv⟩ := List.mem_map.mp hv
      cases hwv
      rw [reduceOption_map_some] at hexact
      exact lineRight_of_nonneg h hge hi hcells ⟨v, hw, hv0⟩ hexact
    · exact absurd hnone hnumbers

end Right

/-- One line of results of two cores -/
def twoCoreTable (first second : List Char) : Table :=
  [[['E'], ['x']], [['0'], first], [['1'], second]]

theorem twoCoreTable_data (first second : List Char) :
    DataTable (twoCoreTable first second) 2 1 1 where
  rectangular column hc := by
    simp only [twoCoreTable, List.mem_cons, List.not_mem_nil, or_false] at hc
    rcases hc with rfl | rfl | rfl <;> rfl
  data := by
    show 1 < 3
    decide
  cols := Nat.le_refl 1
  lines := Nat.le_refl 1

/-- Numbers of one digit -/
def digitNumber : List Char → Option ℚ
  | [c] => if c.isDigit then some ((c.toNat - '0'.toNat : ℕ) : ℚ) else none
  | _ => none

theorem readsDoubles_digitNumber : ReadsDoubles Rounding.roundInteger digitNumber where
  zero := Rounding.roundInteger_of_le (Nat.zero_le _)
  read cell v h := by
    unfold digitNumber at h
    split at h
    · next c =>
      split at h
      · next hdigit =>
        obtain rfl := Option.some.inj h
        have hc : c.toNat - '0'.toNat ≤ 2 ^ 53 := by
          have hle : c.toNat ≤ 57 := (Char.isDigit_iff_toNat.mp hdigit).2
          omega
        exact Rounding.roundInteger_of_le hc
      · cases h
    · cases h

theorem statsRight_twoCoreTable :
    StatsRight Rounding.roundInteger digitNumber (twoCoreTable ['3'] ['4']) 1 1 2 := by
  refine (statsRight_iff readsDoubles_digitNumber (twoCoreTable_data ['3'] ['4'])).mpr
    fun i hge hi => ?_
  obtain rfl : i = 1 := by omega
  have hcells : dataCells digitNumber (twoCoreTable ['3'] ['4']) 1 1 = [some 3, some 4] := by
    decide +kernel
  rw [hcells]
  have hexact : AddsExactly Rounding.roundInteger ([3, 4].map Nat.cast) :=
    addsExactly_naturals (fun n hn => Rounding.roundInteger_of_le hn) (by decide)
  exact .inl ⟨by simp, ⟨3, List.mem_cons_self, by decide⟩, hexact⟩

/-- With "3" and "-" the sum is 0 or 3. -/
theorem not_statsRight_mixed : ¬∀ (tonumber : List Char → Option ℚ) (inputtable : Table)
    (lines skipCols skipLines : ℕ), ReadsDoubles Rounding.roundInteger tonumber →
      DataTable inputtable lines skipCols skipLines →
      StatsRight Rounding.roundInteger tonumber inputtable skipCols skipLines lines := by
  intro h
  have htable := twoCoreTable_data ['3'] ['-']
  have hright := h digitNumber (twoCoreTable ['3'] ['-']) 2 1 1 readsDoubles_digitNumber htable
  have hzero : (3 : ℚ) = 0 := hright.zero readsDoubles_digitNumber htable (Nat.le_refl 1)
    (by decide) (List.mem_cons_of_mem _ List.mem_cons_self) List.mem_cons_self
  exact absurd hzero (by decide)

end Likwid
