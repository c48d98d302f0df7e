import Likwid.Access
import Likwid.AccessDaemon
import Likwid.Lib.Hex
import Mathlib.Data.List.Induction
import Mathlib.Data.List.Range
import Mathlib.Data.Nat.Bitwise

/-!
# The processors of a NUMA node (`numa_proc.c`)

The kernel describes the processors of a node by a `cpumap`: words of 32 bits in hexadecimal, the
most significant first, with a comma between them. `nodeProcessorList` reads the words from the
last to the first. It takes a zero for a failed conversion whenever `errno` is set, and nothing
clears `errno` before (`listsProcessors_iff`).
-/

namespace Likwid

/-! ## `nodeProcessorList` -/

abbrev longMax : Word := BitVec.ofNat 64 (2 ^ 63 - 1)

/-- The locals of the loop over the words. `errno` is the one of the process. -/
structure NodeList where
  errno : ℕ
  list : List (BitVec 32)
  cursor : ℕ

/-- One turn of the loop over the bits of a word -/
def cpumapBit (val : Word) (cursor : ℕ) (list : List (BitVec 32)) (j : ℕ) :
    Except Int (List (BitVec 32)) :=
  if val &&& bit j ≠ 0 then
    if list.length < maxNumThreads then .ok (list ++ [BitVec.ofNat 32 (j + cursor)])
    else .error (-efault)
  else .ok list

/-- The bits of a word; a zero has none. -/
def cpumapBits (val : Word) (cursor : ℕ) (list : List (BitVec 32)) :
    Except Int (List (BitVec 32)) :=
  if val ≠ 0 then (List.range 32).foldlM (cpumapBit val cursor) list else .ok list

/-- One turn of the loop over the words -/
def cpumapWord (s : NodeList) (token : List Char) : Except Int NodeList :=
  let r := Hex.strtoul erange.toNat s.errno token
  if (r.errno ≠ 0 ∧ r.val = longMax) ∨ (r.errno ≠ 0 ∧ r.val = 0) then .error (-efault)
  else if r.converted = false then .error (-efault)
  else do
    let list ← cpumapBits r.val s.cursor s.list
    .ok ⟨r.errno, list, s.cursor + 32⟩

/-- The list, or the error code. `cpumap` is the file, if it can be opened, and `errno` what the
calls before have left. -/
def nodeProcessorList (cpumap : Option (List Char)) (errno : ℕ) : Except Int (List (BitVec 32)) :=
  match cpumap with
  | none => .error (-1)
  | some src =>
      match (src.splitOn ',').reverse.foldlM cpumapWord ⟨errno, [], 0⟩ with
      | .ok s => .ok s.list
      | .error e => .error e

/-! ## What a `cpumap` says -/

/-- The words of a `cpumap`, most significant first -/
structure CpuMap (ws : List (List Char)) : Prop where
  nonempty : ws ≠ []
  word : ∀ w ∈ ws, Hex.Word w
  below : ∀ w ∈ ws, Hex.number 0 w < 2 ^ 32

/-- The words as one number -/
def mapNumber (ws : List (List Char)) : ℕ := ws.foldl (fun n w => n * 2 ^ 32 + Hex.number 0 w) 0

/-- The processors of the node in ascending order -/
def setBits (ws : List (List Char)) : List ℕ :=
  (List.range (32 * ws.length)).filter (mapNumber ws).testBit

/-- The file with the words `ws`; the kernel ends it with a line break. -/
def cpumapText (ws : List (List Char)) (trail : List Char) : List Char :=
  [','].intercalate ws ++ trail

/-- The returned number and the list are those of the set bits. -/
def ListsProcessors (ws : List (List Char)) (r : Except Int (List (BitVec 32))) : Prop :=
  ∃ list, r = .ok list ∧ list.map BitVec.toNat = setBits ws

/-! ## The bits of a word -/

section Bits

variable {v cursor : ℕ} {list : List (BitVec 32)}

theorem ofNat_and_bit_ne_zero {v j : ℕ} (hj : j < 32) :
    BitVec.ofNat 64 v &&& bit j ≠ 0 ↔ v.testBit j = true := by
  have hlt : j < 64 := by omega
  rw [and_bit_ne_zero hlt, BitVec.getLsbD_ofNat]
  simp [hlt]

/-- The entries a word adds to the list -/
def wordEntries (v cursor : ℕ) (js : List ℕ) : List (BitVec 32) :=
  (js.filter v.testBit).map fun j => BitVec.ofNat 32 (j + cursor)

theorem wordEntries_cons {j : ℕ} {js : List ℕ} :
    wordEntries v cursor (j :: js) =
      if v.testBit j = true then BitVec.ofNat 32 (j + cursor) :: wordEntries v cursor js
      else wordEntries v cursor js := by
  unfold wordEntries
  by_cases hv : v.testBit j = true
  · rw [List.filter_cons_of_pos hv, if_pos hv, List.map_cons]
  · rw [List.filter_cons_of_neg hv, if_neg hv]

/-- The set bits are listed as long as there is room for all of them. -/
theorem foldlM_cpumapBit {js : List ℕ} (hjs : ∀ j ∈ js, j < 32)
    (hlist : list.length ≤ maxNumThreads) :
    js.foldlM (cpumapBit (BitVec.ofNat 64 v) cursor) list =
      if list.length + (wordEntries v cursor js).length ≤ maxNumThreads then
        .ok (list ++ wordEntries v cursor js)
      else .error (-efault) := by
  induction js generalizing list with
  | nil =>
    have hnil : wordEntries v cursor [] = [] := rfl
    rw [hnil, List.length_nil, Nat.add_zero, if_pos hlist, List.append_nil]
    rfl
  | cons j js ih =>
    have hj : BitVec.ofNat 64 v &&& bit j ≠ 0 ↔ v.testBit j = true :=
      ofNat_and_bit_ne_zero (hjs j List.mem_cons_self)
    have hjs' : ∀ j ∈ js, j < 32 := fun j hj => hjs j (List.mem_cons_of_mem _ hj)
    rw [List.foldlM_cons, cpumapBit, wordEntries_cons]
    simp only [hj]
    by_cases hv : v.testBit j = true
    · simp only [if_pos hv]
      by_cases hroom : list.length < maxNumThreads
      · rw [if_pos hroom]
        have hlist' : (list ++ [BitVec.ofNat 32 (j + cursor)]).length ≤ maxNumThreads := by
          rw [List.length_append, List.length_singleton]
          omega
        show js.foldlM _ (list ++ [BitVec.ofNat 32 (j + cursor)]) = _
        rw [ih hjs' hlist', List.length_append, List.length_singleton, List.length_cons,
          List.append_assoc, List.singleton_append, Nat.add_assoc, Nat.add_comm 1]
      · rw [if_neg hroom, List.length_cons, if_neg (by omega)]
        rfl
    · simp only [if_neg hv]
      exact ih hjs' hlist

end Bits

/-! ## The words of a file -/

/-- A token is a word of the map, with blanks behind it. -/
def Spells (token w : List Char) : Prop :=
  ∃ rest, (∀ c ∈ rest, Scan.isSpace c = true) ∧ token = w ++ rest

section Words

variable {s : NodeList} {w token trail : List Char} {ws rs tokens : List (List Char)}

theorem not_mem_comma_of_word (hw : Hex.Word w) : ',' ∉ w := fun hmem =>
  absurd (hw.2 _ hmem) (by decide)

theorem splitOn_cpumapText (hws : ws ≠ []) (hword : ∀ w ∈ ws, Hex.Word w)
    (htrail : ∀ c ∈ trail, Scan.isSpace c = true) :
    List.Forall₂ Spells ((cpumapText ws trail).splitOn ',') ws := by
  unfold cpumapText
  induction ws with
  | nil => exact absurd rfl hws
  | cons w ws ih =>
    have hcomma : ',' ∉ w := not_mem_comma_of_word (hword w List.mem_cons_self)
    cases ws with
    | nil =>
      have htoken : ',' ∉ w ++ trail := by
        rw [List.mem_append, not_or]
        exact ⟨hcomma, fun hmem => absurd (htrail _ hmem) (by decide)⟩
      rw [List.intercalate_singleton, List.splitOn_eq_singleton htoken]
      exact .cons ⟨trail, htrail, rfl⟩ .nil
    | cons w' ws =>
      rw [List.intercalate_cons_cons, List.append_assoc, List.append_assoc, List.singleton_append,
        List.splitOn_append_cons_self_of_not_mem hcomma]
      have hnone : ∀ c ∈ ([] : List Char), Scan.isSpace c = true := fun c hc =>
        absurd hc List.not_mem_nil
      exact .cons ⟨[], hnone, (List.append_nil w).symm⟩
        (ih (List.cons_ne_nil _ _) fun w hw => hword w (List.mem_cons_of_mem _ hw))

/-- The entries of a word of the map -/
abbrev entriesOf (w : List Char) (cursor : ℕ) : List (BitVec 32) :=
  wordEntries (Hex.number 0 w) cursor (List.range 32)

theorem wordEntries_zero (cursor : ℕ) (js : List ℕ) : wordEntries 0 cursor js = [] := by
  rw [wordEntries, List.filter_eq_nil_iff.mpr, List.map_nil]
  intro j _
  rw [Nat.zero_testBit]
  exact Bool.false_ne_true

/-- A well-formed word fails for a zero with `errno` set, and for a list that is full. -/
theorem cpumapWord_spells (hword : Hex.Word w) (hlt : Hex.number 0 w < 2 ^ 32)
    (htoken : Spells token w) (hlist : s.list.length ≤ maxNumThreads) :
    cpumapWord s token =
      if (s.errno ≠ 0 ∧ Hex.number 0 w = 0) ∨
        maxNumThreads < s.list.length + (entriesOf w s.cursor).length then .error (-efault)
      else .ok ⟨s.errno, s.list ++ entriesOf w s.cursor, s.cursor + 32⟩ := by
  obtain ⟨rest, hrest, rfl⟩ := htoken
  have hlt64 : Hex.number 0 w < 2 ^ 64 := Nat.lt_trans hlt (by decide)
  have hval : (BitVec.ofNat 64 (Hex.number 0 w)).toNat = Hex.number 0 w := by
    rw [BitVec.toNat_ofNat, Nat.mod_eq_of_lt hlt64]
  have hzero : BitVec.ofNat 64 (Hex.number 0 w) = 0 ↔ Hex.number 0 w = 0 := by
    rw [← BitVec.toNat_inj, hval]
    rfl
  have hmax : BitVec.ofNat 64 (Hex.number 0 w) ≠ longMax := by
    intro h
    have hnat := congrArg BitVec.toNat h
    rw [hval, BitVec.toNat_ofNat] at hnat
    omega
  have hbits : cpumapBits (BitVec.ofNat 64 (Hex.number 0 w)) s.cursor s.list =
      if s.list.length + (entriesOf w s.cursor).length ≤ maxNumThreads then
        .ok (s.list ++ entriesOf w s.cursor)
      else .error (-efault) := by
    unfold cpumapBits
    by_cases hv : Hex.number 0 w = 0
    · rw [if_neg (not_not.mpr (hzero.mpr hv)), entriesOf, hv, wordEntries_zero, List.length_nil,
        Nat.add_zero, if_pos hlist, List.append_nil]
    · rw [if_pos (fun h => hv (hzero.mp h)),
        foldlM_cpumapBit (fun j hj => List.mem_range.mp hj) hlist]
  unfold cpumapWord
  rw [Hex.strtoul_word hword hrest hlt64]
  simp only [hmax, hzero, and_false, false_or]
  by_cases herr : s.errno ≠ 0 ∧ Hex.number 0 w = 0
  · rw [if_pos herr, if_pos (Or.inl herr)]
  · rw [if_neg herr, if_neg (by decide), hbits]
    by_cases hroom : s.list.length + (entriesOf w s.cursor).length ≤ maxNumThreads
    · have hgood : ¬((s.errno ≠ 0 ∧ Hex.number 0 w = 0) ∨
          maxNumThreads < s.list.length + (entriesOf w s.cursor).length) := by
        rintro (h | h)
        · exact herr h
        · exact absurd hroom (Nat.not_le.mpr h)
      rw [if_pos hroom, if_neg hgood]
      rfl
    · rw [if_neg hroom, if_pos (Or.inr (Nat.lt_of_not_le hroom))]
      rfl

/-- The entries of the words from the last one on -/
def entriesFrom : ℕ → List (List Char) → List (BitVec 32)
  | _, [] => []
  | cursor, w :: rs => entriesOf w cursor ++ entriesFrom (cursor + 32) rs

/-- All words: one zero is enough to fail if `errno` is set. -/
theorem foldlM_cpumapWord (hspells : List.Forall₂ Spells tokens rs)
    (hword : ∀ w ∈ rs, Hex.Word w) (hlt : ∀ w ∈ rs, Hex.number 0 w < 2 ^ 32)
    (hlist : s.list.length ≤ maxNumThreads) :
    tokens.foldlM cpumapWord s =
      if (s.errno ≠ 0 ∧ ∃ w ∈ rs, Hex.number 0 w = 0) ∨
        maxNumThreads < s.list.length + (entriesFrom s.cursor rs).length then .error (-efault)
      else .ok ⟨s.errno, s.list ++ entriesFrom s.cursor rs, s.cursor + 32 * rs.length⟩ := by
  induction hspells generalizing s with
  | nil =>
    rw [if_neg]
    · simp only [entriesFrom, List.append_nil, List.length_nil, Nat.mul_zero, Nat.add_zero]
      rfl
    · rintro (⟨-, w, hw, -⟩ | hfull)
      · exact absurd hw List.not_mem_nil
      · simp only [entriesFrom, List.length_nil, Nat.add_zero] at hfull
        omega
  | @cons token w tokens rs htoken _ ih =>
    have hfirst := cpumapWord_spells (hword w List.mem_cons_self) (hlt w List.mem_cons_self)
      htoken hlist
    rw [List.foldlM_cons, hfirst, entriesFrom, List.length_append, List.length_cons]
    by_cases hbad : (s.errno ≠ 0 ∧ Hex.number 0 w = 0) ∨
        maxNumThreads < s.list.length + (entriesOf w s.cursor).length
    · rw [if_pos hbad, if_pos]
      · rfl
      · rcases hbad with ⟨herrno, hzero⟩ | hfull
        · exact Or.inl ⟨herrno, w, List.mem_cons_self, hzero⟩
        · exact Or.inr (by omega)
    · rw [if_neg hbad]
      show tokens.foldlM cpumapWord _ = _
      rw [not_or] at hbad
      rw [ih (fun w hw => hword w (List.mem_cons_of_mem _ hw))
        (fun w hw => hlt w (List.mem_cons_of_mem _ hw))
        (by rw [List.length_append]; exact Nat.le_of_not_lt hbad.2)]
      have hexists : (s.errno ≠ 0 ∧ ∃ w' ∈ w :: rs, Hex.number 0 w' = 0) ↔
          s.errno ≠ 0 ∧ ∃ w' ∈ rs, Hex.number 0 w' = 0 := by
        constructor
        · rintro ⟨herrno, w', hw', hzero⟩
          rcases List.mem_cons.mp hw' with rfl | hw'
          · exact absurd ⟨herrno, hzero⟩ hbad.1
          · exact ⟨herrno, w', hw', hzero⟩
        · rintro ⟨herrno, w', hw', hzero⟩
          exact ⟨herrno, w', List.mem_cons_of_mem _ hw', hzero⟩
      simp only [hexists, List.length_append, List.append_assoc, Nat.add_assoc, Nat.mul_add]
      simp only [Nat.add_comm, Nat.mul_one]

end Words

/-! ## The set bits of the map -/

section SetBits

variable {ws rs : List (List Char)} {trail : List Char}

/-- The number that words spell, least significant first -/
def reversedNumber (rs : List (List Char)) : ℕ :=
  rs.foldr (fun w n => n * 2 ^ 32 + Hex.number 0 w) 0

theorem mapNumber_eq (ws : List (List Char)) : mapNumber ws = reversedNumber ws.reverse := by
  rw [reversedNumber, List.foldr_reverse, mapNumber]

/-- The word below, then the rest 32 bits higher. -/
theorem testBit_reversedNumber {w : List Char} (hlt : Hex.number 0 w < 2 ^ 32) (p : ℕ) :
    (reversedNumber (w :: rs)).testBit p =
      if p < 32 then (Hex.number 0 w).testBit p else (reversedNumber rs).testBit (p - 32) := by
  have hcons : reversedNumber (w :: rs) = 2 ^ 32 * reversedNumber rs + Hex.number 0 w := by
    rw [Nat.mul_comm]
    rfl
  rw [hcons, Nat.testBit_two_pow_mul_add _ hlt]

theorem entriesFrom_eq (hlt : ∀ w ∈ rs, Hex.number 0 w < 2 ^ 32) (cursor : ℕ) :
    entriesFrom cursor rs =
      ((List.range (32 * rs.length)).filter (reversedNumber rs).testBit).map
        fun p => BitVec.ofNat 32 (p + cursor) := by
  induction rs generalizing cursor with
  | nil => rfl
  | cons w rs ih =>
    have hw := hlt w List.mem_cons_self
    have hlow : (List.range 32).filter (reversedNumber (w :: rs)).testBit =
        (List.range 32).filter (Hex.number 0 w).testBit := by
      refine List.filter_congr fun p hp => ?_
      rw [testBit_reversedNumber hw, if_pos (List.mem_range.mp hp)]
    have hhigh : (reversedNumber (w :: rs)).testBit ∘ (32 + ·) = (reversedNumber rs).testBit := by
      funext p
      rw [Function.comp_apply, testBit_reversedNumber hw, if_neg (by omega),
        Nat.add_sub_cancel_left]
    have hlength : 32 * (w :: rs).length = 32 + 32 * rs.length := by
      rw [List.length_cons]
      omega
    rw [entriesFrom, ih (fun w hw => hlt w (List.mem_cons_of_mem _ hw)), hlength, List.range_add,
      List.filter_append, List.map_append, hlow, List.filter_map, hhigh, List.map_map]
    have hentry : ((fun p => BitVec.ofNat 32 (p + cursor)) ∘ (32 + ·)) =
        fun p => BitVec.ofNat 32 (p + (cursor + 32)) := by
      funext p
      rw [Function.comp_apply, Nat.add_comm 32 p, Nat.add_assoc, Nat.add_comm 32 cursor]
    rw [hentry]
    rfl

theorem map_toNat_ofNat_iff (ps : List ℕ) :
    (ps.map fun p => BitVec.ofNat 32 (p + 0)).map BitVec.toNat = ps ↔ ∀ p ∈ ps, p < 2 ^ 32 := by
  rw [List.map_map]
  constructor
  · intro h p hp
    rw [← h] at hp
    obtain ⟨q, -, rfl⟩ := List.mem_map.mp hp
    exact (BitVec.ofNat 32 (q + 0)).isLt
  · intro h
    refine (List.map_congr_left fun p hp => ?_).trans (List.map_id ps)
    show (BitVec.ofNat 32 (p + 0)).toNat = p
    rw [BitVec.toNat_ofNat, Nat.add_zero, Nat.mod_eq_of_lt (h p hp)]

theorem nodeProcessorList_eq (hmap : CpuMap ws) (htrail : ∀ c ∈ trail, Scan.isSpace c = true)
    (errno : ℕ) :
    nodeProcessorList (some (cpumapText ws trail)) errno =
      if (errno ≠ 0 ∧ ∃ w ∈ ws, Hex.number 0 w = 0) ∨ maxNumThreads < (setBits ws).length then
        .error (-efault)
      else .ok ((setBits ws).map fun p => BitVec.ofNat 32 (p + 0)) := by
  have hspells := List.rel_reverse (splitOn_cpumapText hmap.nonempty hmap.word htrail)
  have hentries : entriesFrom 0 ws.reverse =
      (setBits ws).map fun p => BitVec.ofNat 32 (p + 0) := by
    rw [entriesFrom_eq (fun w hw => hmap.below w (List.mem_reverse.mp hw)), List.length_reverse,
      ← mapNumber_eq, setBits]
  have hrun := foldlM_cpumapWord (s := ⟨errno, [], 0⟩) hspells
    (fun w hw => hmap.word w (List.mem_reverse.mp hw))
    (fun w hw => hmap.below w (List.mem_reverse.mp hw)) (Nat.zero_le _)
  rw [hentries, List.length_map, List.length_nil, Nat.zero_add] at hrun
  simp only [List.mem_reverse, List.nil_append] at hrun
  rw [nodeProcessorList]
  simp only [hrun]
  by_cases hbad : (errno ≠ 0 ∧ ∃ w ∈ ws, Hex.number 0 w = 0) ∨
      maxNumThreads < (setBits ws).length
  · rw [if_pos hbad, if_pos hbad]
  · rw [if_neg hbad, if_neg hbad]

/-- The processors of a node are listed if and only if no zero meets a set `errno` and they fit the
list and its entries. -/
theorem listsProcessors_iff (hmap : CpuMap ws) (htrail : ∀ c ∈ trail, Scan.isSpace c = true)
    (errno : ℕ) :
    ListsProcessors ws (nodeProcessorList (some (cpumapText ws trail)) errno) ↔
      (errno = 0 ∨ ∀ w ∈ ws, Hex.number 0 w ≠ 0) ∧
        (setBits ws).length ≤ maxNumThreads ∧ ∀ p ∈ setBits ws, p < 2 ^ 32 := by
  rw [nodeProcessorList_eq hmap htrail, ListsProcessors]
  by_cases hbad : (errno ≠ 0 ∧ ∃ w ∈ ws, Hex.number 0 w = 0) ∨
      maxNumThreads < (setBits ws).length
  · rw [if_pos hbad]
    constructor
    · rintro ⟨list, hlist, -⟩
      cases hlist
    · rintro ⟨hzero, hroom, -⟩
      rcases hbad with ⟨herrno, w, hw, hval⟩ | hfull
      · rcases hzero with h0 | hne
        · exact absurd h0 herrno
        · exact absurd hval (hne w hw)
      · exact absurd hroom (Nat.not_le.mpr hfull)
  · rw [if_neg hbad]
    rw [not_or] at hbad
    constructor
    · rintro ⟨list, hlist, hbits⟩
      obtain rfl := Except.ok.inj hlist
      refine ⟨?_, Nat.le_of_not_lt hbad.2, (map_toNat_ofNat_iff _).mp hbits⟩
      by_cases herrno : errno = 0
      · exact Or.inl herrno
      · exact Or.inr fun w hw hval => hbad.1 ⟨herrno, w, hw, hval⟩
    · rintro ⟨-, -, hbelow⟩
      exact ⟨_, rfl, (map_toNat_ofNat_iff _).mpr hbelow⟩

end SetBits

/-- A node with the processors 0 to 3 on a machine with more than 32 processors -/
def lowWords : List (List Char) := ["00000000".toList, "0000000f".toList]

theorem cpuMap_lowWords : CpuMap lowWords where
  nonempty := by decide
  word := by
    have hdigits : ∀ w ∈ lowWords, w ≠ [] ∧ w.all Hex.isDigit = true := by decide +kernel
    intro w hw
    exact ⟨(hdigits w hw).1, List.all_eq_true.mp (hdigits w hw).2⟩
  below := by decide +kernel

theorem listsProcessors_lowWords :
    ListsProcessors lowWords (nodeProcessorList (some (cpumapText lowWords ['\n'])) 0) := by
  have htrail : ∀ c ∈ ['\n'], Scan.isSpace c = true := by
    intro c hc
    rw [List.mem_singleton.mp hc]
    rfl
  exact (listsProcessors_iff cpuMap_lowWords htrail 0).mpr
    ⟨Or.inl rfl, by decide +kernel, by decide +kernel⟩

/-- After a call that set `errno` the zero above the four processors is an error. -/
theorem not_listsProcessors_errno :
    ∃ (ws : List (List Char)) (errno : ℕ), CpuMap ws ∧
      nodeProcessorList (some (cpumapText ws ['\n'])) errno = .error (-efault) ∧
      ¬ListsProcessors ws (nodeProcessorList (some (cpumapText ws ['\n'])) errno) := by
  have hrun : nodeProcessorList (some (cpumapText lowWords ['\n'])) enoent.toNat =
      .error (-efault) := by decide +kernel
  refine ⟨lowWords, enoent.toNat, cpuMap_lowWords, hrun, ?_⟩
  rw [hrun]
  rintro ⟨list, hlist, -⟩
  cases hlist

end Likwid
