import Likwid.Lib.Loop
import Likwid.Lib.Ranges
import Likwid.TopologyTypes
import Mathlib.Data.List.DropRight
import Mathlib.Data.List.Nodup
import Mathlib.Data.List.Pairwise
import Mathlib.Logic.Function.Basic

/-!
# CPU lists of the kernel (`topology_proc.c`)

The kernel lists CPUs by their numbers and by ascending ranges, such as `0,4-7`. `fillList` expands
such a list to an array, or only counts its entries, and `get_listPosition` looks up a CPU in it.
`fillList` is right for every list but the empty one (`fillsExpansion_iff`); `get_listPosition`
compares the CPU with whole fields, and so does not find the CPUs of a range
(`listPositions_iff`).
-/

namespace Likwid

/-! ## The two readers -/

def btrimws (s : List Char) : List Char :=
  (s.rdropWhile Scan.isSpace).dropWhile Scan.isSpace

/-- The fields of a list, each trimmed -/
def listTokens (list : List Char) : List (List Char) := (list.splitOn ',').map btrimws

def getListPosition (ownid : Int) (list : List Char) : Int :=
  match (listTokens list).idxOf? (Text.integer ownid) with
  | some i => i
  | none => -1

/-- The local state of `fillList`; without an array it counts only. -/
structure FillState where
  current : ℕ
  outList : Option (ℕ → Option Int)

/-- `outList[outOffset+current] = value` and `current++` -/
def fillEntry (outOffset : ℕ) (value : Int) : Prog Unit FillState Unit :=
  Prog.modify fun s =>
    { current := s.current + 1
      outList := s.outList.map fun out => Function.update out (outOffset + s.current) (some value) }

/-- `for (j = first; j <= last; j++)`; behind the last `int` it has no meaning. -/
def fillRange (outOffset : ℕ) (first last : Int) : Prog Unit FillState Unit := do
  Prog.forRange (last + 1 - first).toNat (fun _ k => fillEntry outOffset (first + k)) ()
  Prog.when (first ≤ last ∧ last = 2 ^ 31 - 1) (Prog.halt .undefined)

def fillToken (outOffset : ℕ) (token : List Char) : Prog Unit FillState Unit :=
  if '-' ∉ token then fillEntry outOffset (Scan.atoi token)
  else
    match token.splitOn '-' with
    | [first, last] => fillRange outOffset (Scan.atoi first) (Scan.atoi last)
    | _ => pure ()

/-- The number that is returned, and the array -/
def fillList (outList : Option (ℕ → Option Int)) (outOffset : ℕ) (list : List Char) :
    Except Prog.Halt FillState :=
  match (listTokens list).foldlM (fun _ token => fillToken outOffset token) () ⟨0, outList⟩ with
  | .done _ s => .ok s
  | .ret _ s => .ok s
  | .halt h => .error h

/-! ## The hardware threads -/

/-- The files in the `topology` directory of a CPU, as far as they can be opened -/
structure TopologyDir where
  coreId : Option (List Char)
  physicalPackageId : Option (List Char)
  threadSiblingsList : Option (List Char)

/-- A number that is read from a file, and -1 without it -/
def fileValue (read : List Char → Int) (file : Option (List Char)) : BitVec 32 :=
  match file with
  | some src => BitVec.ofInt 32 (read src)
  | none => -1

def procHWThread (cpuSet : ℕ → Bool) (cpudir : ℕ → TopologyDir) (i : ℕ) : HWThread where
  threadId := fileValue (getListPosition i) (cpudir i).threadSiblingsList
  coreId := fileValue Scan.atoi (cpudir i).coreId
  packageId := fileValue Scan.atoi (cpudir i).physicalPackageId
  apicId := BitVec.ofNat 32 i
  inCpuSet := if cpuSet i then 1 else 0

/-- The thread pool -/
def procInitNodeTopology (numHWThreads : ℕ) (cpuSet : ℕ → Bool) (cpudir : ℕ → TopologyDir) :
    List HWThread :=
  (List.range numHWThreads).map (procHWThread cpuSet cpudir)

/-! ## Lists of the kernel -/

/-- Numbers and ascending ranges. The kernel numbers its CPUs by `int`s, and its number of CPUs
is one, too. -/
structure KernelList (es : List Ranges.Entry) : Prop where
  ascending : ∀ a b, .range a b ∈ es → a ≤ b
  below : ∀ e ∈ es, e.Below (2 ^ 31 - 1)

theorem KernelList.of_cons {e : Ranges.Entry} {es : List Ranges.Entry} (h : KernelList (e :: es)) :
    KernelList es where
  ascending := fun a b hab => h.ascending a b (List.mem_cons_of_mem _ hab)
  below := fun e' he => h.below e' (List.mem_cons_of_mem _ he)

section Tokens

variable {w trail : List Char} {es : List Ranges.Entry} {e : Ranges.Entry}

theorem btrimws_append (hw : ∀ c ∈ w, Scan.isSpace c = false)
    (htrail : ∀ c ∈ trail, Scan.isSpace c = true) : btrimws (w ++ trail) = w := by
  have hright : (w ++ trail).rdropWhile Scan.isSpace = w := by
    rw [List.rdropWhile, List.reverse_append, List.dropWhile_append_of_pos
      fun c hc => htrail c (List.mem_reverse.mp hc)]
    have hrev : w.reverse.dropWhile Scan.isSpace = w.reverse := by
      refine List.dropWhile_eq_self_iff.mpr fun hl => ?_
      rw [hw _ (List.mem_reverse.mp (List.getElem_mem hl))]
      exact Bool.false_ne_true
    rw [hrev, List.reverse_reverse]
  rw [btrimws, hright]
  refine List.dropWhile_eq_self_iff.mpr fun hl => ?_
  rw [hw _ (List.getElem_mem hl)]
  exact Bool.false_ne_true

theorem not_isSpace_text (e : Ranges.Entry) : ∀ c ∈ e.text, Scan.isSpace c = false := by
  intro c hc
  rcases Ranges.Entry.char_of_mem_text hc with hdigit | rfl
  · exact Scan.isSpace_of_isDigit hdigit
  · decide

theorem not_mem_comma (htrail : ∀ c ∈ trail, Scan.isSpace c = true) : ',' ∉ trail := fun hmem =>
  absurd (htrail _ hmem) (by decide)

theorem isSpace_newline : ∀ c ∈ ['\n'], Scan.isSpace c = true :=
  List.forall_mem_singleton.mpr rfl

/-- The fields of a list are its entries, with blanks behind the last one. -/
theorem listTokens_text (hes : es ≠ []) (htrail : ∀ c ∈ trail, Scan.isSpace c = true) :
    listTokens (Ranges.text es ++ trail) = es.map Ranges.Entry.text := by
  unfold listTokens
  induction es with
  | nil => exact absurd rfl hes
  | cons e es ih =>
      have hcomma : ',' ∉ e.text := Ranges.Entry.not_mem_text (by decide) (by decide)
      cases es with
      | nil =>
          have hfield : ',' ∉ e.text ++ trail := by
            rw [List.mem_append, not_or]
            exact ⟨hcomma, not_mem_comma htrail⟩
          rw [Ranges.text_singleton, List.splitOn_eq_singleton hfield, List.map_singleton,
            List.map_singleton, btrimws_append (not_isSpace_text e) htrail]
      | cons e' es =>
          have hnone : ∀ c ∈ ([] : List Char), Scan.isSpace c = true := fun c hc =>
            absurd hc List.not_mem_nil
          have hfirst := btrimws_append (not_isSpace_text e) hnone
          rw [List.append_nil] at hfirst
          rw [Ranges.text_cons_cons, List.append_assoc, List.cons_append,
            List.splitOn_append_cons_self_of_not_mem hcomma, List.map_cons, List.map_cons, hfirst,
            ih (List.cons_ne_nil _ _)]

/-- An empty list has one field. -/
theorem listTokens_blank (htrail : ∀ c ∈ trail, Scan.isSpace c = true) :
    listTokens trail = [[]] := by
  have htrim := btrimws_append (fun c hc => absurd hc List.not_mem_nil) htrail
  rw [List.nil_append] at htrim
  rw [listTokens, List.splitOn_eq_singleton (not_mem_comma htrail), List.map_singleton, htrim]

end Tokens

/-! ## What `fillList` writes -/

/-- The numbers of a list, as `int`s -/
def intValues (values : List ℕ) : List Int := values.map fun (k : ℕ) => (k : Int)

/-- An array with these values from `start` on -/
def placed (out : ℕ → Option Int) (start : ℕ) (values : List Int) (p : ℕ) : Option Int :=
  if start ≤ p then values[p - start]?.or (out p) else out p

/-- The state behind these values -/
def FillState.filled (s : FillState) (outOffset : ℕ) (values : List Int) : FillState where
  current := s.current + values.length
  outList := s.outList.map fun out => placed out (outOffset + s.current) values

section Filled

variable {out : ℕ → Option Int} {start outOffset : ℕ} {values more : List Int} {s : FillState}

theorem placed_nil : placed out start [] = out := by
  funext p
  simp [placed]

theorem placed_singleton (value : Int) :
    placed out start [value] = Function.update out start (some value) := by
  funext p
  rcases Nat.lt_trichotomy p start with hlt | rfl | hgt
  · rw [placed, if_neg (Nat.not_le_of_lt hlt), Function.update_of_ne (Nat.ne_of_lt hlt)]
  · rw [placed, if_pos (Nat.le_refl p), Nat.sub_self, Function.update_self]
    rfl
  · have hnone : [value][p - start]? = none := List.getElem?_eq_none (by simp; omega)
    rw [placed, if_pos hgt.le, hnone, Function.update_of_ne (Nat.ne_of_gt hgt)]
    rfl

theorem placed_append : placed (placed out start values) (start + values.length) more =
    placed out start (values ++ more) := by
  funext p
  unfold placed
  rcases Nat.lt_or_ge p start with hlt | hge
  · rw [if_neg (by omega), if_neg (by omega), if_neg (by omega)]
  · rcases Nat.lt_or_ge p (start + values.length) with hlt | hge'
    · have hfirst := List.getElem?_eq_getElem (show p - start < values.length by omega)
      rw [if_neg (by omega), if_pos hge, if_pos hge, List.getElem?_append_left (by omega), hfirst]
    · have hnone : values[p - start]? = none := List.getElem?_eq_none (by omega)
      rw [if_pos hge', if_pos hge, if_pos hge, List.getElem?_append_right (by omega), hnone,
        Option.none_or, Nat.sub_sub]

theorem filled_nil : s.filled outOffset [] = s := by
  cases s with
  | mk current outList => cases outList <;> simp [FillState.filled, placed_nil]

theorem filled_append : (s.filled outOffset values).filled outOffset more =
    s.filled outOffset (values ++ more) := by
  cases s with
  | mk current outList =>
      cases outList <;>
        simp [FillState.filled, ← placed_append, Nat.add_assoc]

theorem fillEntry_run (value : Int) :
    fillEntry outOffset value s = .done () (s.filled outOffset [value]) := by
  show Prog.Outcome.done () _ = _
  unfold FillState.filled
  refine congrArg (Prog.Outcome.done () ·) (congrArg (FillState.mk _) ?_)
  exact congrArg (s.outList.map ·) (funext fun out => (placed_singleton value).symm)

theorem fillEntries_run {ε : Type} (xs : List ε) (f : ε → Int) :
    xs.foldlM (fun _ x => fillEntry outOffset (f x)) () s =
      .done () (s.filled outOffset (xs.map f)) := by
  induction xs generalizing s with
  | nil =>
      rw [List.map_nil, filled_nil]
      rfl
  | cons x xs ih =>
      rw [List.foldlM_cons, Prog.bind_of_done (fillEntry_run (f x)), ih, filled_append]
      rfl

theorem fillRange_run {a b : ℕ} (hab : a ≤ b) (hb : b < 2 ^ 31 - 1) :
    fillRange outOffset a b s =
      .done () (s.filled outOffset (intValues (Ranges.Entry.range a b).expand)) := by
  have hlen : ((b : Int) + 1 - a).toNat = b - a + 1 := by omega
  have hvalues : intValues (Ranges.Entry.range a b).expand =
      (List.range (b - a + 1)).map fun (k : ℕ) => (a : Int) + k := by
    rw [intValues, Ranges.Entry.expand_up hab, List.range'_eq_map_range, List.map_map]
    rfl
  rw [fillRange, Prog.forRange, hlen, hvalues, Prog.bind_of_done (fillEntries_run _ _),
    Prog.when_of_neg (by omega)]
  rfl

end Filled

/-! ## Lists of the kernel, expanded -/

section FillList

variable {es : List Ranges.Entry} {e : Ranges.Entry} {trail list : List Char} {outOffset : ℕ}
  {outList : Option (ℕ → Option Int)} {s : FillState}

theorem fillToken_run (hascending : ∀ a b, e = .range a b → a ≤ b) (he : e.Below (2 ^ 31 - 1)) :
    fillToken outOffset e.text s = .done () (s.filled outOffset (intValues e.expand)) := by
  unfold fillToken
  cases e with
  | single k =>
      have hatoi : Scan.atoi (Ranges.Entry.single k).text = k :=
        Scan.atoi_decimal (Nat.lt_of_lt_of_le he (by decide))
      rw [if_pos (Ranges.dash_not_mem_single k), hatoi, fillEntry_run]
      rfl
  | range a b =>
      have ha : Scan.atoi (Text.decimal a) = a :=
        Scan.atoi_decimal (Nat.lt_of_lt_of_le he.1 (by decide))
      have hb : Scan.atoi (Text.decimal b) = b :=
        Scan.atoi_decimal (Nat.lt_of_lt_of_le he.2 (by decide))
      rw [if_neg (not_not_intro (Ranges.dash_mem_range a b)), Ranges.splitOn_range]
      dsimp only
      rw [ha, hb]
      exact fillRange_run (hascending a b rfl) he.2

theorem fillTokens_run (hk : KernelList es) :
    (es.map Ranges.Entry.text).foldlM (fun _ token => fillToken outOffset token) () s =
      .done () (s.filled outOffset (intValues (Ranges.expand es))) := by
  induction es generalizing s with
  | nil =>
      have hnil : intValues (Ranges.expand []) = [] := rfl
      rw [hnil, filled_nil]
      rfl
  | cons e es ih =>
      have htoken : fillToken outOffset e.text s = _ := fillToken_run
        (fun a b he => hk.ascending a b (he ▸ List.mem_cons_self)) (hk.below e List.mem_cons_self)
      rw [List.map_cons, List.foldlM_cons, Prog.bind_of_done htoken, ih hk.of_cons, filled_append,
        Ranges.expand_cons, intValues, intValues, intValues, List.map_append]

theorem fillList_text (hk : KernelList es) (hes : es ≠ [])
    (htrail : ∀ c ∈ trail, Scan.isSpace c = true) :
    fillList outList outOffset (Ranges.text es ++ trail) =
      .ok (FillState.filled ⟨0, outList⟩ outOffset (intValues (Ranges.expand es))) := by
  rw [fillList, listTokens_text hes htrail, fillTokens_run hk]

/-- An empty list is expanded to the number that `atoi` reads from an empty field. -/
theorem fillList_blank (htrail : ∀ c ∈ trail, Scan.isSpace c = true) :
    fillList outList outOffset trail = .ok (FillState.filled ⟨0, outList⟩ outOffset [0]) := by
  have htoken : fillToken outOffset [] ⟨0, outList⟩ =
      .done () (FillState.filled ⟨0, outList⟩ outOffset [0]) := fillEntry_run 0
  rw [fillList, listTokens_blank htrail, List.foldlM_cons, Prog.bind_of_done htoken]
  rfl

/-- `fillList` writes these values and returns their number. -/
def Fills (list : List Char) (values : List ℕ) : Prop :=
  ∀ out outOffset, fillList (some out) outOffset list =
    .ok ⟨values.length, some (placed out outOffset (intValues values))⟩

/-- Without an array, `fillList` returns this number. -/
def Counts (list : List Char) (n : ℕ) : Prop :=
  ∀ outOffset, fillList none outOffset list = .ok ⟨n, none⟩

theorem Fills.unique {values values' : List ℕ} (h : Fills list values) (h' : Fills list values') :
    values = values' := by
  have heq := (h (fun _ => none) 0).symm.trans (h' (fun _ => none) 0)
  have harray := (FillState.mk.inj (Except.ok.inj heq)).2
  have hvalues : intValues values = intValues values' := by
    refine List.ext_getElem? fun p => ?_
    have hp := congrFun (Option.some.inj harray) p
    simpa [placed] using hp
  exact List.map_injective_iff.mpr (fun a b hab => Int.ofNat.inj hab) hvalues

theorem fills_text (hk : KernelList es) (hes : es ≠ [])
    (htrail : ∀ c ∈ trail, Scan.isSpace c = true) :
    Fills (Ranges.text es ++ trail) (Ranges.expand es) := by
  intro out outOffset
  rw [fillList_text hk hes htrail]
  simp [FillState.filled, intValues]

theorem fills_blank (htrail : ∀ c ∈ trail, Scan.isSpace c = true) : Fills trail [0] := by
  intro out outOffset
  rw [fillList_blank htrail]
  rfl

/-- **The expansion**: the array gets the numbers of the list in order, and counting agrees, unless
the list is empty. -/
theorem fillsExpansion_iff (hk : KernelList es) (htrail : ∀ c ∈ trail, Scan.isSpace c = true) :
    Fills (Ranges.text es ++ trail) (Ranges.expand es) ∧
        Counts (Ranges.text es ++ trail) (Ranges.expand es).length ↔
      es ≠ [] := by
  constructor
  · rintro ⟨hfills, -⟩ rfl
    have hzero := hfills.unique (fills_blank htrail)
    cases hzero
  · intro hes
    refine ⟨fills_text hk hes htrail, fun outOffset => ?_⟩
    rw [fillList_text hk hes htrail]
    simp [FillState.filled, intValues]

theorem fillsExpansion_threeCpus :
    Fills "0,4-5\n".toList [0, 4, 5] ∧ Counts "0,4-5\n".toList 3 := by
  have hk : KernelList [.single 0, .range 4 5] :=
    { ascending := by simp
      below := by simp [Ranges.Entry.Below] }
  have htext : Ranges.text [.single 0, .range 4 5] ++ ['\n'] = "0,4-5\n".toList := by
    decide +kernel
  have hiff := fillsExpansion_iff hk isSpace_newline
  rw [htext] at hiff
  exact hiff.mpr (List.cons_ne_nil _ _)

/-- An empty list is counted as one CPU. -/
theorem not_fillsExpansion_empty : ¬Counts "\n".toList (Ranges.expand []).length := by
  intro h
  have hone : fillList none 0 "\n".toList = .ok ⟨1, none⟩ := rfl
  have hzero := (FillState.mk.inj (Except.ok.inj (hone.symm.trans (h 0)))).1
  exact absurd hzero (by decide)

end FillList

/-! ## Positions -/

/-- `list` is expanded to `values`, and every CPU has its position in them: the hardware threads
that share the list as their siblings get the thread ids 0, 1, 2, ... -/
structure ListPositions (list : List Char) (values : List ℕ) : Prop where
  fills : Fills list values
  position : ∀ (i cpu : ℕ), values[i]? = some cpu → getListPosition cpu list = i
  absent : ∀ cpu : ℕ, getListPosition cpu list < 0 ↔ cpu ∉ values
  threadIds : ∀ numHWThreads cpuSet cpudir,
    (∀ cpu ∈ values, cpu < numHWThreads ∧ (cpudir cpu).threadSiblingsList = some list) →
    (values.map fun cpu =>
        (procInitNodeTopology numHWThreads cpuSet cpudir)[cpu]?.map HWThread.threadId) =
      (List.range values.length).map fun i => some (BitVec.ofNat 32 i)

section Positions

variable {es : List Ranges.Entry} {e : Ranges.Entry} {ks : List ℕ} {trail list : List Char}
  {cpu i : ℕ}

theorem getListPosition_nonneg (ownid : Int) :
    0 ≤ getListPosition ownid list ↔ Text.integer ownid ∈ listTokens list := by
  unfold getListPosition
  split
  · next i hi =>
      refine iff_of_true (Int.natCast_nonneg i) ?_
      exact List.isSome_idxOf?.mp (by rw [hi]; rfl)
  · next hnone => exact iff_of_false (by decide) (List.idxOf?_eq_none_iff.mp hnone)

theorem integer_natCast (k : ℕ) : Text.integer k = Text.decimal k := by
  rw [Text.integer, if_neg (Int.not_lt.mpr (Int.natCast_nonneg k)), Int.natAbs_natCast]

theorem getListPosition_text (hes : es ≠ []) (htrail : ∀ c ∈ trail, Scan.isSpace c = true) :
    0 ≤ getListPosition cpu (Ranges.text es ++ trail) ↔ .single cpu ∈ es := by
  rw [getListPosition_nonneg, listTokens_text hes htrail, integer_natCast]
  constructor
  · intro h
    obtain ⟨e, he, htext⟩ := List.mem_map.mp h
    exact Ranges.Entry.text_eq_decimal.mp htext ▸ he
  · exact fun h => List.mem_map.mpr ⟨_, h, rfl⟩

theorem getListPosition_numbers (hks : ks ≠ []) (hnodup : ks.Nodup)
    (htrail : ∀ c ∈ trail, Scan.isSpace c = true) (hi : ks[i]? = some cpu) :
    getListPosition cpu (Ranges.text (ks.map .single) ++ trail) = i := by
  have hne : ks.map Ranges.Entry.single ≠ [] := fun h => hks (List.map_eq_nil_iff.mp h)
  have htokens : listTokens (Ranges.text (ks.map .single) ++ trail) = ks.map Text.decimal := by
    rw [listTokens_text hne htrail, List.map_map]
    rfl
  obtain ⟨hlt, hget⟩ := List.getElem?_eq_some_iff.mp hi
  have hindex : (ks.map Text.decimal).idxOf? (Text.decimal cpu) = some i := by
    refine List.idxOf?_eq_some_iff.mpr ⟨by simpa using hlt, by rw [List.getElem_map, hget], ?_⟩
    intro j hj heq
    rw [List.getElem_map] at heq
    have hsame := (Text.decimal_inj heq).trans hget.symm
    exact Nat.ne_of_lt hj ((hnodup.getElem_inj_iff).mp hsame)
  rw [getListPosition, htokens, integer_natCast, hindex]

/-- The siblings of a list of numbers have its positions as their thread ids. -/
theorem threadIds_numbers {values : List ℕ}
    (hposition : ∀ (i cpu : ℕ), values[i]? = some cpu → getListPosition cpu list = i)
    (numHWThreads : ℕ) (cpuSet : ℕ → Bool) (cpudir : ℕ → TopologyDir)
    (h : ∀ cpu ∈ values, cpu < numHWThreads ∧ (cpudir cpu).threadSiblingsList = some list) :
    (values.map fun cpu =>
        (procInitNodeTopology numHWThreads cpuSet cpudir)[cpu]?.map HWThread.threadId) =
      (List.range values.length).map fun i => some (BitVec.ofNat 32 i) := by
  refine List.ext_getElem (by simp) fun i hi hi' => ?_
  have hlt : i < values.length := by simpa using hi
  obtain ⟨hcpu, hfile⟩ := h values[i] (List.getElem_mem hlt)
  have hthread : (procInitNodeTopology numHWThreads cpuSet cpudir)[values[i]]? =
      some (procHWThread cpuSet cpudir values[i]) := by
    rw [procInitNodeTopology, List.getElem?_map, List.getElem?_range hcpu]
    rfl
  have hid : (procHWThread cpuSet cpudir values[i]).threadId =
      BitVec.ofInt 32 (getListPosition values[i] list) := by
    show fileValue _ _ = _
    rw [hfile]
    rfl
  rw [List.getElem_map, List.getElem_map, List.getElem_range, hthread, Option.map_some, hid,
    hposition i _ (List.getElem?_eq_getElem hlt), BitVec.ofInt_natCast]

/-- A range and one of its CPUs are not both in a list that names each CPU once. -/
theorem single_not_mem {a b : ℕ} (hnodup : (Ranges.expand es).Nodup) (hab : a ≤ b)
    (hrange : .range a b ∈ es) : .single a ∉ es := by
  intro hsingle
  have hsymm : Std.Symm (Function.onFun List.Disjoint Ranges.Entry.expand) :=
    ⟨fun _ _ h => List.disjoint_symm h⟩
  have hdisjoint : List.Disjoint (Ranges.Entry.single a).expand (Ranges.Entry.range a b).expand :=
    (List.nodup_flatMap.mp hnodup).2.forall hsingle hrange nofun
  refine hdisjoint (List.mem_singleton_self a) ?_
  rw [Ranges.Entry.expand_up hab]
  exact List.mem_range'_1.mpr ⟨Nat.le_refl a, by omega⟩

/-- **Positions and expansion agree** exactly if the list has numbers only. -/
theorem listPositions_iff (hk : KernelList es) (hnodup : (Ranges.expand es).Nodup)
    (htrail : ∀ c ∈ trail, Scan.isSpace c = true) :
    (∃ values, ListPositions (Ranges.text es ++ trail) values) ↔
      es ≠ [] ∧ ∀ e ∈ es, ∃ k, e = .single k := by
  constructor
  · rintro ⟨values, h⟩
    have hne : es ≠ [] := by
      rintro rfl
      obtain rfl : values = [0] := h.fills.unique (fills_blank htrail)
      have hposition := h.position 0 0 rfl
      have hfound := (getListPosition_nonneg ((0 : ℕ) : Int)).mp (Int.le_of_eq hposition.symm)
      have htokens : listTokens (Ranges.text [] ++ trail) = [[]] := listTokens_blank htrail
      rw [htokens, integer_natCast] at hfound
      exact Text.decimal_ne_nil 0 (List.mem_singleton.mp hfound)
    obtain rfl : values = Ranges.expand es := h.fills.unique (fills_text hk hne htrail)
    refine ⟨hne, fun e he => ?_⟩
    cases e with
    | single k => exact ⟨k, rfl⟩
    | range a b =>
        have hab := hk.ascending a b he
        have hmem : a ∈ Ranges.expand es := by
          refine List.mem_flatMap.mpr ⟨_, he, ?_⟩
          rw [Ranges.Entry.expand_up hab]
          exact List.mem_range'_1.mpr ⟨Nat.le_refl a, by omega⟩
        have hnonneg : 0 ≤ getListPosition a (Ranges.text es ++ trail) :=
          Int.not_lt.mp fun hneg => (h.absent a).mp hneg hmem
        exact absurd ((getListPosition_text hne htrail).mp hnonneg)
          (single_not_mem hnodup hab he)
  · rintro ⟨hne, hsingle⟩
    obtain ⟨ks, rfl⟩ : ∃ ks : List ℕ, es = ks.map .single := Ranges.exists_numbers hsingle
    have hexpand : Ranges.expand (ks.map .single) = ks := Ranges.expand_single ks
    have hks : ks ≠ [] := fun h => hne (List.map_eq_nil_iff.mpr h)
    rw [hexpand] at hnodup
    have hposition : ∀ (i cpu : ℕ), ks[i]? = some cpu →
        getListPosition cpu (Ranges.text (ks.map .single) ++ trail) = i := fun i cpu hi =>
      getListPosition_numbers hks hnodup htrail hi
    refine ⟨ks, ?_, hposition, fun cpu => ?_, threadIds_numbers hposition⟩
    · have hfills := fills_text hk hne htrail
      rwa [hexpand] at hfills
    · rw [← Int.not_le, getListPosition_text hne htrail]
      simp

/-- `0,4` in a file: the two siblings have the thread ids 0 and 1. -/
theorem listPositions_twoSiblings : ∃ values, ListPositions "0,4\n".toList values := by
  have hk : KernelList [.single 0, .single 4] :=
    { ascending := by simp
      below := by simp [Ranges.Entry.Below] }
  have htext : Ranges.text [.single 0, .single 4] ++ ['\n'] = "0,4\n".toList := by
    decide +kernel
  have hiff := listPositions_iff hk (by decide) isSpace_newline
  rw [htext] at hiff
  exact hiff.mpr ⟨List.cons_ne_nil _ _, by simp⟩

/-- The siblings of `0-1` are not found in their list. -/
theorem not_listPositions_range : ¬∃ values, ListPositions "0-1\n".toList values := by
  rintro ⟨values, h⟩
  have hk : KernelList [.range 0 1] :=
    { ascending := by simp
      below := by simp [Ranges.Entry.Below] }
  have hfill : Fills "0-1\n".toList [0, 1] :=
    fills_text hk (List.cons_ne_nil _ _) isSpace_newline
  obtain rfl := h.fills.unique hfill
  have hposition := h.position 0 0 rfl
  have hnot : getListPosition (0 : ℕ) "0-1\n".toList = -1 := by decide +kernel
  rw [hnot] at hposition
  exact absurd hposition (by decide)

end Positions

end Likwid
