import Mathlib.Data.List.Perm.Subperm
import Mathlib.Logic.Function.Basic
import Likwid.Lib.Keyed
import Likwid.EventString
import Likwid.Haswell.Boxes

/-!
# The options of an event

`parseOptions` of `perfmon.c` on the array `options[NUM_EVENT_OPTIONS]` of an event, with every
access to the array. The first `numberOfOptions` entries are in use.

Three stages change the array: the tokens of the option list are assigned, each under its type;
what neither the counter nor the event allows is removed; and an option that needs a threshold
gets the default one. The removal clears an entry where it stands and lowers the count, and the
default threshold looks for another one only in the option it is added for.
-/

namespace Likwid

/-- `options` and `numberOfOptions` of a `PerfmonEvent` -/
structure OptionArray where
  options : ℕ → PerfmonEventOption
  numberOfOptions : ℕ

namespace OptionArray

/-- The entries in use -/
def listed (a : OptionArray) : List PerfmonEventOption :=
  (List.range a.numberOfOptions).map a.options

def setOption (a : OptionArray) (k : ℕ) (option : PerfmonEventOption) : OptionArray :=
  { a with options := Function.update a.options k option }

def setCount (a : OptionArray) (n : ℕ) : OptionArray := { a with numberOfOptions := n }

variable {ρ : Type}

/-! ## Accesses -/

def readType (k : ℕ) : Prog ρ OptionArray EventOptionType := do
  Prog.when (numEventOptions ≤ k) (Prog.halt .outOfBounds)
  let a ← Prog.get
  pure (a.options k).type

def writeType (k : ℕ) (type : EventOptionType) : Prog ρ OptionArray Unit := do
  Prog.when (numEventOptions ≤ k) (Prog.halt .outOfBounds)
  Prog.modify fun a => a.setOption k { a.options k with type := type }

def writeValue (k : ℕ) (value : Word) : Prog ρ OptionArray Unit := do
  Prog.when (numEventOptions ≤ k) (Prog.halt .outOfBounds)
  Prog.modify fun a => a.setOption k { a.options k with value := value }

def setNumberOfOptions (n : ℕ) : Prog ρ OptionArray Unit := Prog.modify fun a => a.setCount n

/-! ## `assignOption` -/

/-- The loop that looks for an option of the type, from entry `k` on -/
def findDouble (type : EventOptionType) : ℕ → ℕ → Prog ρ OptionArray (Option ℕ)
  | 0, _ => pure none
  | rounds + 1, k => do
      let t ← readType k
      if t = type then pure (some k) else findDouble type rounds (k + 1)

/-- `assignOption`: the number of options afterwards -/
def assignOption (index : ℕ) (type : EventOptionType) (value : Word) : Prog ρ OptionArray ℕ := do
  let foundDouble ← findDouble type index 0
  writeType (foundDouble.getD index) type
  writeValue (foundDouble.getD index) value
  pure (if foundDouble.isSome then index else index + 1)

/-! ## `parseOptions` -/

/-- `for (i = event->numberOfOptions; i < MAX_EVENT_OPTIONS; i++)`, from entry `k` on -/
def clearOptions : ℕ → ℕ → Prog ρ OptionArray Unit
  | 0, _ => pure ()
  | rounds + 1, k => do
      writeType k .none
      clearOptions rounds (k + 1)

/-- One token of the option list. The value of a flag is also cleared behind the last option. -/
def parseOption (token : List Char) : Prog ρ OptionArray Unit :=
  match token.splitOn '=' with
  | [name] =>
      match flagOption (name.map Char.toLower) with
      | some type => do
          let a ← Prog.get
          let n ← assignOption a.numberOfOptions type 0
          setNumberOfOptions n
          writeValue n 0
      | none => pure ()
  | [name, value] =>
      match valueOption (name.map Char.toLower) with
      | some type => do
          let a ← Prog.get
          let n ← assignOption a.numberOfOptions type (scanHex value)
          setNumberOfOptions n
      | none => pure ()
  | _ => pure ()

/-- `parseOptions` up to the end of the loop over the tokens -/
def assignOptions (tokens : List (List Char)) : Prog Int OptionArray Unit := do
  let a ← Prog.get
  clearOptions (numEventOptions - a.numberOfOptions) a.numberOfOptions
  Prog.when (numEventOptions < (tokens.drop 2).length) (Prog.ret (-erange))
  (tokens.drop 2).foldlM (fun _ token => parseOption token) ()

/-- The validity filter, from the last option to the first -/
def removeInvalid (allowed : Word) : ℕ → Prog ρ OptionArray Unit
  | 0 => pure ()
  | i + 1 => do
      let type ← readType i
      Prog.when (optionsTypeMask type &&& allowed = 0) do
        writeType i .none
        Prog.modify fun a => a.setCount (a.numberOfOptions - 1)
      removeInvalid allowed i

/-- `parseOptions` up to the end of the validity filter -/
def validOptions (tokens : List (List Char)) (allowed : Word) : Prog Int OptionArray Unit := do
  assignOptions tokens
  let a ← Prog.get
  removeInvalid allowed a.numberOfOptions

/-- Append a threshold of 1 while there is room. -/
def addThreshold : Prog ρ OptionArray Unit := do
  let a ← Prog.get
  Prog.when (a.numberOfOptions < numEventOptions) do
    writeType a.numberOfOptions .threshold
    writeValue a.numberOfOptions 1
    setNumberOfOptions (a.numberOfOptions + 1)

/-- The inner loop for `EVENT_OPTION_EDGE` at `i`: it runs over `j` and reads the entry `i`. -/
def edgeThreshold (i : ℕ) : ℕ → Prog ρ OptionArray Bool
  | 0 => pure false
  | rounds + 1 => do
      let type ← readType i
      if type = .threshold then pure true else edgeThreshold i rounds

/-- `threshold_set`, `edge_set` and `invert_set` of the inner loop for
`EVENT_OPTION_OCCUPANCY` at `i` -/
def occupancyThreshold (i : ℕ) : ℕ → Prog ρ OptionArray (Bool × Bool × Bool)
  | 0 => pure (false, false, false)
  | rounds + 1 => do
      let type ← readType i
      if type = .threshold then pure (true, false, false)
      else if type = .edge then pure (false, true, false)
      else if type = .invert then pure (false, false, true)
      else occupancyThreshold i rounds

/-- One round of the loop that adds the default threshold -/
def defaultThreshold (i : ℕ) : Prog ρ OptionArray Unit := do
  let type ← readType i
  let a ← Prog.get
  if type = .edge then do
    let thresholdSet ← edgeThreshold i a.numberOfOptions
    Prog.when (thresholdSet = false) addThreshold
  else Prog.when (type = .occupancy) do
    let (thresholdSet, edgeSet, invertSet) ← occupancyThreshold i a.numberOfOptions
    Prog.when (thresholdSet = false ∧ (edgeSet = true ∨ invertSet = true)) addThreshold

/-- `for (i = 0; i < event->numberOfOptions; i++)`, from `i` on, where `room` entries of the array
remain: beyond them the loop would read past its end. -/
def defaultThresholds : ℕ → ℕ → Prog ρ OptionArray Unit
  | 0, i => do
      let a ← Prog.get
      Prog.when (i < a.numberOfOptions) (defaultThreshold i)
  | room + 1, i => do
      let a ← Prog.get
      Prog.when (i < a.numberOfOptions) do
        defaultThreshold i
        defaultThresholds room (i + 1)

/-- `parseOptions`, with `counter_map[index].optionMask|event->optionMask` -/
def parseOptions (tokens : List (List Char)) (allowed : Word) : Prog Int OptionArray ℕ := do
  validOptions tokens allowed
  defaultThresholds numEventOptions 0
  let a ← Prog.get
  pure a.numberOfOptions

/-! ## Runs of the accesses -/

section Runs

variable {a : OptionArray} {type : EventOptionType} {value : Word} {k n : ℕ}

theorem readType_run (h : k < numEventOptions) :
    (readType k : Prog ρ OptionArray _) a = .done (a.options k).type a := by
  unfold readType
  rw [Prog.when_of_neg (Nat.not_le_of_lt h)]
  rfl

theorem writeType_run (h : k < numEventOptions) :
    (writeType k type : Prog ρ OptionArray _) a =
      .done () (a.setOption k ⟨type, (a.options k).value⟩) := by
  unfold writeType
  rw [Prog.when_of_neg (Nat.not_le_of_lt h)]
  rfl

theorem writeValue_run (h : k < numEventOptions) :
    (writeValue k value : Prog ρ OptionArray _) a =
      .done () (a.setOption k ⟨(a.options k).type, value⟩) := by
  unfold writeValue
  rw [Prog.when_of_neg (Nat.not_le_of_lt h)]
  rfl

@[simp] theorem setOption_numberOfOptions (o : PerfmonEventOption) :
    (a.setOption k o).numberOfOptions = a.numberOfOptions := rfl

@[simp] theorem setCount_numberOfOptions : (a.setCount n).numberOfOptions = n := rfl

@[simp] theorem setOption_self (o : PerfmonEventOption) : (a.setOption k o).options k = o :=
  Function.update_self ..

@[simp] theorem setOption_setOption (o o' : PerfmonEventOption) :
    (a.setOption k o).setOption k o' = a.setOption k o' := by
  simp [setOption]

theorem writeBoth_run {α : Type} (h : k < numEventOptions) (f : Prog ρ OptionArray α) :
    (do writeType k type; writeValue k value; f : Prog ρ OptionArray α) a =
      f (a.setOption k ⟨type, value⟩) := by
  rw [Prog.bind_of_done (writeType_run h), Prog.bind_of_done (writeValue_run h)]
  simp

theorem findDouble_run (h : k + n ≤ numEventOptions) :
    (findDouble type n k : Prog ρ OptionArray _) a =
      .done ((List.range' k n).find? fun j => (a.options j).type = type) a := by
  induction n generalizing k with
  | zero => rfl
  | succ n ih =>
      unfold findDouble
      rw [Prog.bind_of_done (readType_run (by omega)), List.range'_succ, List.find?_cons]
      by_cases ht : (a.options k).type = type
      · simp [ht, Prog.pure_apply]
      · simp [ht, ih (show k + 1 + n ≤ numEventOptions by omega)]

theorem clearOptions_run (h : k + n ≤ numEventOptions) :
    ∃ a', (clearOptions n k : Prog ρ OptionArray _) a = .done () a' ∧
      a'.numberOfOptions = a.numberOfOptions ∧ ∀ j < k, a'.options j = a.options j := by
  induction n generalizing k a with
  | zero => exact ⟨a, rfl, rfl, fun _ _ => rfl⟩
  | succ n ih =>
      obtain ⟨a', hrun, hcount, hsame⟩ :=
        ih (a := a.setOption k ⟨.none, (a.options k).value⟩) (show k + 1 + n ≤ _ by omega)
      refine ⟨a', ?_, hcount, fun j hj => ?_⟩
      · unfold clearOptions
        rw [Prog.bind_of_done (writeType_run (by omega)), hrun]
      · rw [hsame j (by omega)]
        exact Function.update_of_ne (by omega) ..

end Runs

/-! ## The entries in use -/

section Listed

variable {a a' : OptionArray} {o : PerfmonEventOption} {k n : ℕ}

@[simp] theorem listed_length : a.listed.length = a.numberOfOptions := by simp [listed]

theorem getElem?_listed (h : k < a.numberOfOptions) : a.listed[k]? = some (a.options k) := by
  rw [listed, List.getElem?_map, List.getElem?_range h]
  rfl

theorem mem_listed : o ∈ a.listed ↔ ∃ k < a.numberOfOptions, a.options k = o := by
  simp [listed]

theorem listed_congr (hn : a'.numberOfOptions = a.numberOfOptions)
    (h : ∀ k < a.numberOfOptions, a'.options k = a.options k) : a'.listed = a.listed := by
  unfold listed
  rw [hn]
  exact List.map_congr_left fun k hk => h k (List.mem_range.mp hk)

/-- What stands behind the entries in use does not matter. -/
theorem listed_setOption_beyond (h : a.numberOfOptions ≤ k) :
    (a.setOption k o).listed = a.listed :=
  listed_congr rfl fun j hj => Function.update_of_ne (by omega) ..

theorem listed_setOption (h : k < a.numberOfOptions) :
    (a.setOption k o).listed = a.listed.set k o := by
  refine List.ext_getElem (by simp) fun j hj hj' => ?_
  have hlt : j < a.numberOfOptions := by simpa using hj
  rw [List.getElem_set]
  by_cases hjk : j = k
  · subst hjk
    simp [listed]
  · rw [if_neg (Ne.symm hjk)]
    simp [listed, setOption, hjk]

theorem listed_append :
    ((a.setOption a.numberOfOptions o).setCount (a.numberOfOptions + 1)).listed =
      a.listed ++ [o] := by
  unfold listed
  rw [setCount_numberOfOptions, List.range_succ, List.map_append, List.map_singleton]
  refine congrArg₂ _ (List.map_congr_left fun j hj => ?_) ?_
  · exact Function.update_of_ne (Nat.ne_of_lt (List.mem_range.mp hj)) ..
  · exact congrArg (fun o => [o]) (Function.update_self ..)

end Listed

/-! ## Options of distinct types -/

/-- The options in use have pairwise distinct types, and `EVENT_OPTION_NONE` is none of them. -/
structure Valid (a : OptionArray) : Prop where
  distinct : Keyed.Distinct PerfmonEventOption.type a.listed
  isOption : ∀ o ∈ a.listed, o.type ≠ .none

/-- The types an option can have -/
def optionTypes : List EventOptionType :=
  [.opcode, .match0, .match1, .match2, .match3, .mask0, .mask1, .mask2, .mask3, .nid, .tid, .state,
    .edge, .threshold, .invert, .countKernel, .anythread, .occupancy, .occupancyFilter,
    .occupancyEdge, .occupancyInvert, .inTrans, .inTransAbort]

theorem mem_optionTypes {type : EventOptionType} (h : type ≠ .none) : type ∈ optionTypes := by
  cases type <;> first | exact absurd rfl h | simp [optionTypes]

/-- There are fewer types than entries, so one entry is always free. -/
theorem Valid.lt {a : OptionArray} (h : a.Valid) : a.numberOfOptions < numEventOptions := by
  have hsub : a.listed.map PerfmonEventOption.type ⊆ optionTypes := by
    intro type ht
    obtain ⟨o, ho, rfl⟩ := List.mem_map.mp ht
    exact mem_optionTypes (h.isOption o ho)
  have hlen := (List.Nodup.subperm h.distinct hsub).length_le
  rw [List.length_map, listed_length] at hlen
  exact Nat.lt_of_le_of_lt hlen (Nat.lt_succ_self 23)

section Assign

variable {a a' : OptionArray} {type : EventOptionType} {value : Word}

/-- The search finds the option of the type, if there is one. -/
theorem find?_type (a : OptionArray) (type : EventOptionType) :
    (∃ k, (List.range' 0 a.numberOfOptions).find? (fun j => (a.options j).type = type) = some k ∧
      k < a.numberOfOptions ∧ (a.options k).type = type) ∨
    ((List.range' 0 a.numberOfOptions).find? (fun j => (a.options j).type = type) = none ∧
      type ∉ a.listed.map PerfmonEventOption.type) := by
  cases hfind : (List.range' 0 a.numberOfOptions).find? (fun j => (a.options j).type = type) with
  | some k =>
      have hk : k < a.numberOfOptions := by simpa using List.mem_of_find?_eq_some hfind
      exact Or.inl ⟨k, rfl, hk, by simpa using List.find?_some hfind⟩
  | none =>
      refine Or.inr ⟨rfl, fun hmem => ?_⟩
      obtain ⟨o, ho, rfl⟩ := List.mem_map.mp hmem
      obtain ⟨j, hj, rfl⟩ := mem_listed.mp ho
      have hne := List.find?_eq_none.mp hfind j (by simpa using hj)
      simp at hne

theorem assignOption_run (h : a.Valid) (type : EventOptionType) (value : Word) :
    ∃ n a', (assignOption a.numberOfOptions type value : Prog ρ OptionArray _) a = .done n a' ∧
      (a'.setCount n).listed = Keyed.put PerfmonEventOption.type a.listed ⟨type, value⟩ := by
  have hlt := h.lt
  unfold assignOption
  rw [Prog.bind_of_done (findDouble_run (by omega))]
  rcases find?_type a type with ⟨k, hfind, hk, ht⟩ | ⟨hfind, hnot⟩
  · rw [hfind, Option.getD_some, writeBoth_run (by omega)]
    refine ⟨a.numberOfOptions, _, rfl, ?_⟩
    rw [h.distinct.put_eq_set (getElem?_listed hk) ht]
    exact listed_setOption hk
  · rw [hfind, Option.getD_none, writeBoth_run hlt]
    refine ⟨a.numberOfOptions + 1, _, rfl, ?_⟩
    rw [Keyed.put_of_not_mem hnot]
    exact listed_append

theorem Valid.of_put (h : a.Valid) {o : PerfmonEventOption} (ho : o.type ≠ .none)
    (hput : a'.listed = Keyed.put PerfmonEventOption.type a.listed o) : a'.Valid where
  distinct := by
    rw [hput]
    exact h.distinct.put o
  isOption := by
    intro o' ho'
    rw [hput] at ho'
    rcases Keyed.mem_put ho' with hmem | rfl
    · exact h.isOption o' hmem
    · exact ho

/-- The option a token stands for; a name that is not known stands for none. -/
def recognised (token : List Char) : Option PerfmonEventOption :=
  match token.splitOn '=' with
  | [name] => (flagOption (name.map Char.toLower)).map fun type => ⟨type, 0⟩
  | [name, value] => (valueOption (name.map Char.toLower)).map fun type => ⟨type, scanHex value⟩
  | _ => none

theorem ite_ne {α : Type} {c : Prop} [Decidable c] {x y z : α} (hx : x ≠ z) (hy : y ≠ z) :
    (if c then x else y) ≠ z := by
  split
  · exact hx
  · exact hy

theorem flagOption_ne_none {name : List Char} (h : flagOption name = some type) :
    type ≠ .none := by
  rintro rfl
  revert h
  unfold flagOption
  repeat refine ite_ne nofun ?_
  exact nofun

theorem valueOption_ne_none {name : List Char} (h : valueOption name = some type) :
    type ≠ .none := by
  rintro rfl
  revert h
  unfold valueOption
  repeat refine ite_ne nofun ?_
  exact nofun

theorem recognised_ne_none {token : List Char} {o : PerfmonEventOption}
    (h : recognised token = some o) : o.type ≠ .none := by
  unfold recognised at h
  split at h
  · obtain ⟨type, ht, rfl⟩ := Option.map_eq_some_iff.mp h
    exact flagOption_ne_none ht
  · obtain ⟨type, ht, rfl⟩ := Option.map_eq_some_iff.mp h
    exact valueOption_ne_none ht
  · cases h

/-- What one token leaves -/
def assigned (options : List PerfmonEventOption) (token : List Char) : List PerfmonEventOption :=
  ((recognised token).map (Keyed.put PerfmonEventOption.type options)).getD options

theorem parseOption_run (h : a.Valid) (token : List Char) :
    ∃ a', (parseOption token : Prog ρ OptionArray _) a = .done () a' ∧ a'.Valid ∧
      a'.listed = assigned a.listed token := by
  unfold parseOption assigned recognised
  rcases token.splitOn '=' with _ | ⟨name, _ | ⟨text, _ | ⟨more, rest⟩⟩⟩
  · exact ⟨a, rfl, h, rfl⟩
  · dsimp only
    cases hname : flagOption (name.map Char.toLower) with
    | none => exact ⟨a, rfl, h, rfl⟩
    | some type =>
        obtain ⟨n, a', hrun, hput⟩ := assignOption_run (ρ := ρ) h type 0
        have hvalid : (a'.setCount n).Valid := h.of_put (flagOption_ne_none hname) hput
        have hlisted := (listed_setOption_beyond
          (o := ⟨((a'.setCount n).options n).type, 0⟩) (Nat.le_refl n)).trans hput
        refine ⟨_, ?_, h.of_put (flagOption_ne_none hname) hlisted, hlisted⟩
        dsimp only
        rw [Prog.bind_of_done (Prog.get_apply a), Prog.bind_of_done hrun, setNumberOfOptions,
          Prog.bind_of_done (Prog.modify_apply _ a')]
        exact writeValue_run hvalid.lt
  · dsimp only
    cases hname : valueOption (name.map Char.toLower) with
    | none => exact ⟨a, rfl, h, rfl⟩
    | some type =>
        obtain ⟨n, a', hrun, hput⟩ := assignOption_run (ρ := ρ) h type (scanHex text)
        refine ⟨a'.setCount n, ?_, h.of_put (valueOption_ne_none hname) hput, hput⟩
        dsimp only
        rw [Prog.bind_of_done (Prog.get_apply a), Prog.bind_of_done hrun]
        rfl
  · exact ⟨a, rfl, h, rfl⟩

theorem parseOption_foldlM_run (h : a.Valid) (tokens : List (List Char)) :
    ∃ a', tokens.foldlM (fun _ token => (parseOption token : Prog ρ OptionArray _)) () a =
        .done () a' ∧ a'.Valid ∧ a'.listed = tokens.foldl assigned a.listed := by
  induction tokens generalizing a with
  | nil => exact ⟨a, rfl, h, rfl⟩
  | cons token tokens ih =>
      obtain ⟨a₁, hrun₁, hvalid₁, hlisted₁⟩ := parseOption_run (ρ := ρ) h token
      obtain ⟨a₂, hrun₂, hvalid₂, hlisted₂⟩ := ih hvalid₁
      refine ⟨a₂, ?_, hvalid₂, ?_⟩
      · rw [List.foldlM_cons, Prog.bind_of_done hrun₁, hrun₂]
      · rw [hlisted₂, hlisted₁, List.foldl_cons]

theorem foldl_assigned (tokens : List (List Char)) (options : List PerfmonEventOption) :
    tokens.foldl assigned options =
      (tokens.filterMap recognised).foldl (Keyed.put PerfmonEventOption.type) options := by
  induction tokens generalizing options with
  | nil => rfl
  | cons token tokens ih =>
      rw [List.foldl_cons, ih]
      cases hr : recognised token with
      | none => rw [List.filterMap_cons_none hr, assigned, hr]; rfl
      | some o => rw [List.filterMap_cons_some hr, List.foldl_cons, assigned, hr]; rfl

end Assign

/-! ## The stages -/

/-- The type bit of an option is in the mask of the counter or of the event. -/
def Allowed (allowed : Word) (o : PerfmonEventOption) : Prop :=
  optionsTypeMask o.type &&& allowed ≠ 0

instance (allowed : Word) : DecidablePred (Allowed allowed) := fun _ =>
  inferInstanceAs (Decidable (¬_ = _))

/-- What the filter leaves of an entry -/
def filtered (allowed : Word) (o : PerfmonEventOption) : PerfmonEventOption :=
  if Allowed allowed o then o else ⟨.none, o.value⟩

/-- The options an event has and those of its option list, each type with its last value -/
def mergedOptions (a : OptionArray) (tokens : List (List Char)) : List PerfmonEventOption :=
  Keyed.merged PerfmonEventOption.type (a.listed ++ (tokens.drop 2).filterMap recognised)

section Stages

variable {a : OptionArray} {allowed : Word} {tokens : List (List Char)} {n i : ℕ}

theorem Allowed.ne_none {o : PerfmonEventOption} (h : Allowed allowed o) : o.type ≠ .none := by
  intro ht
  unfold Allowed at h
  rw [ht] at h
  exact h (BitVec.zero_and ..)

theorem assignOptions_run (h : a.Valid) (tokens : List (List Char)) :
    ∃ a', a'.Valid ∧
      if numEventOptions < (tokens.drop 2).length then
        assignOptions tokens a = .ret (-erange) a'
      else assignOptions tokens a = .done () a' ∧ a'.listed = mergedOptions a tokens := by
  have hlt := h.lt
  obtain ⟨a₁, hclear, hcount, hsame⟩ := clearOptions_run (ρ := Int) (a := a)
    (k := a.numberOfOptions) (n := numEventOptions - a.numberOfOptions) (by omega)
  have hlisted : a₁.listed = a.listed := listed_congr hcount hsame
  have hvalid : a₁.Valid := ⟨hlisted ▸ h.distinct, hlisted ▸ h.isOption⟩
  obtain ⟨a₂, htokens, hvalid₂, hlisted₂⟩ :=
    parseOption_foldlM_run (ρ := Int) hvalid (tokens.drop 2)
  unfold assignOptions
  rw [Prog.bind_of_done (Prog.get_apply a), Prog.bind_of_done hclear]
  by_cases hmany : numEventOptions < (tokens.drop 2).length
  · refine ⟨a₁, hvalid, ?_⟩
    rw [if_pos hmany, Prog.when_of_pos hmany]
    rfl
  · refine ⟨a₂, hvalid₂, ?_⟩
    rw [if_neg hmany, Prog.when_of_neg hmany]
    refine ⟨htokens, ?_⟩
    rw [hlisted₂, foldl_assigned, hlisted, h.distinct.foldl_put_eq]
    rfl

theorem removeInvalid_run (h : n ≤ numEventOptions) :
    (removeInvalid allowed n : Prog ρ OptionArray _) a = .done ()
      ⟨fun k => if k < n then filtered allowed (a.options k) else a.options k,
        a.numberOfOptions - ((List.range n).map a.options).countP (¬Allowed allowed ·)⟩ := by
  induction n generalizing a with
  | zero => rfl
  | succ n ih =>
      unfold removeInvalid
      rw [Prog.bind_of_done (readType_run (by omega)), List.range_succ, List.map_append,
        List.countP_append, List.map_singleton]
      by_cases hok : Allowed allowed (a.options n)
      · rw [Prog.when_of_neg hok, Prog.bind_pure_left, ih (by omega)]
        refine congrArg _ (congrArg₂ _ (funext fun k => ?_) ?_)
        · rcases Nat.lt_trichotomy k n with hk | rfl | hk
          · rw [if_pos hk, if_pos (by omega)]
          · rw [if_neg (Nat.lt_irrefl _), if_pos (Nat.lt_succ_self _), filtered, if_pos hok]
          · rw [if_neg (by omega), if_neg (by omega)]
        · simp [hok]
      · have hzero : optionsTypeMask (a.options n).type &&& allowed = 0 := not_not.mp hok
        have hclear : (do writeType n .none
                          Prog.modify fun a => a.setCount (a.numberOfOptions - 1) :
            Prog ρ OptionArray Unit) a =
              .done () ((a.setOption n ⟨.none, (a.options n).value⟩).setCount
                (a.numberOfOptions - 1)) := by
          rw [Prog.bind_of_done (writeType_run (by omega))]
          rfl
        rw [Prog.when_of_pos hzero, Prog.bind_of_done hclear, ih (by omega)]
        have hsame : ∀ k, k ≠ n → ((a.setOption n ⟨.none, (a.options n).value⟩).setCount
            (a.numberOfOptions - 1)).options k = a.options k :=
          fun k hk => Function.update_of_ne hk ..
        refine congrArg _ (congrArg₂ _ (funext fun k => ?_) ?_)
        · rcases Nat.lt_trichotomy k n with hk | rfl | hk
          · rw [if_pos hk, if_pos (by omega), hsame k (by omega)]
          · rw [if_neg (Nat.lt_irrefl _), if_pos (Nat.lt_succ_self _), filtered, if_neg hok]
            exact setOption_self _
          · rw [if_neg (by omega), if_neg (by omega), hsame k (by omega)]
        · rw [List.map_congr_left fun k hk => hsame k (Nat.ne_of_lt (List.mem_range.mp hk))]
          simp [hok]
          omega

/-- The filter keeps as many entries as are allowed, and they are the first ones. -/
theorem removeInvalid_listed (h : a.numberOfOptions ≤ numEventOptions) (allowed : Word) :
    ∃ a', (removeInvalid allowed a.numberOfOptions : Prog ρ OptionArray _) a = .done () a' ∧
      a'.listed = (a.listed.map (filtered allowed)).take (a.listed.countP (Allowed allowed ·)) := by
  refine ⟨_, removeInvalid_run h, ?_⟩
  have hcount := List.length_eq_countP_add_countP (fun o => decide (Allowed allowed o))
    (l := a.listed)
  have hneg : a.listed.countP (fun o => decide ¬decide (Allowed allowed o) = true) =
      ((List.range a.numberOfOptions).map a.options).countP (¬Allowed allowed ·) := by
    simp [listed]
  rw [hneg, listed_length] at hcount
  have hm : a.numberOfOptions -
      ((List.range a.numberOfOptions).map a.options).countP (¬Allowed allowed ·) =
        a.listed.countP (Allowed allowed ·) := by omega
  unfold listed at hm ⊢
  dsimp only
  rw [hm, ← List.map_take, ← List.map_take, List.take_range, List.map_map,
    Nat.min_eq_left (by unfold listed at hcount; omega)]
  refine List.map_congr_left fun k hk => ?_
  have hk' := List.mem_range.mp hk
  rw [if_pos (by unfold listed at hcount; omega)]
  rfl

theorem Valid.merged (h : a.Valid) (tokens : List (List Char)) :
    Keyed.Distinct PerfmonEventOption.type (mergedOptions a tokens) ∧
      ∀ o ∈ mergedOptions a tokens, o.type ≠ .none := by
  unfold mergedOptions
  rw [← h.distinct.foldl_put_eq]
  refine ⟨h.distinct.foldl_put, Keyed.forall_foldl_put h.isOption fun o ho => ?_⟩
  obtain ⟨token, -, hr⟩ := List.mem_filterMap.mp ho
  exact recognised_ne_none hr

/-- The options after the filter: the merged ones with the entries that are not allowed cleared,
cut off after as many entries as are allowed. -/
def validList (allowed : Word) (l : List PerfmonEventOption) : List PerfmonEventOption :=
  (l.map (filtered allowed)).take (l.countP (Allowed allowed ·))

theorem validOptions_run (h : a.Valid) (tokens : List (List Char)) (allowed : Word) :
    ∃ a', a'.numberOfOptions < numEventOptions ∧
      if numEventOptions < (tokens.drop 2).length then
        validOptions tokens allowed a = .ret (-erange) a'
      else validOptions tokens allowed a = .done () a' ∧
        a'.listed = validList allowed (mergedOptions a tokens) := by
  obtain ⟨a₁, hvalid, hrun⟩ := assignOptions_run h tokens
  unfold validOptions
  by_cases hmany : numEventOptions < (tokens.drop 2).length
  · rw [if_pos hmany] at hrun
    refine ⟨a₁, hvalid.lt, ?_⟩
    rw [if_pos hmany, Prog.bind_of_ret hrun]
  · rw [if_neg hmany] at hrun
    obtain ⟨hrun, hlisted⟩ := hrun
    obtain ⟨a₂, hremove, hlisted₂⟩ := removeInvalid_listed (ρ := Int) hvalid.lt.le allowed
    have hlen : a₂.numberOfOptions ≤ a₁.numberOfOptions := by
      rw [← listed_length, hlisted₂, List.length_take, List.length_map, listed_length]
      exact Nat.min_le_right ..
    refine ⟨a₂, Nat.lt_of_le_of_lt hlen hvalid.lt, ?_⟩
    rw [if_neg hmany, Prog.bind_of_done hrun, Prog.bind_of_done (Prog.get_apply a₁), hremove,
      hlisted₂, hlisted]
    exact ⟨rfl, rfl⟩

end Stages

/-! ## The default threshold -/

section Threshold

variable {a : OptionArray} {n i room : ℕ}

theorem edgeThreshold_run (hi : i < numEventOptions) (ht : (a.options i).type ≠ .threshold) :
    (edgeThreshold i n : Prog ρ OptionArray _) a = .done false a := by
  induction n with
  | zero => rfl
  | succ n ih =>
      unfold edgeThreshold
      rw [Prog.bind_of_done (readType_run hi), if_neg ht, ih]

theorem occupancyThreshold_run (hi : i < numEventOptions)
    (ht : (a.options i).type = .occupancy) :
    (occupancyThreshold i n : Prog ρ OptionArray _) a = .done (false, false, false) a := by
  induction n with
  | zero => rfl
  | succ n ih =>
      unfold occupancyThreshold
      rw [Prog.bind_of_done (readType_run hi), ht, if_neg nofun, if_neg nofun, if_neg nofun, ih]

theorem addThreshold_run (h : a.numberOfOptions < numEventOptions) :
    (addThreshold : Prog ρ OptionArray _) a = .done ()
      ((a.setOption a.numberOfOptions ⟨.threshold, 1⟩).setCount (a.numberOfOptions + 1)) := by
  unfold addThreshold
  rw [Prog.bind_of_done (Prog.get_apply a), Prog.when_of_pos h, writeBoth_run h]
  rfl

/-- Only an `EDGE` option adds a threshold: the loops over `j` look at the entry `i`. -/
theorem defaultThreshold_run (hi : i < numEventOptions) :
    (defaultThreshold i : Prog ρ OptionArray _) a =
      if (a.options i).type = .edge then addThreshold a else .done () a := by
  unfold defaultThreshold
  rw [Prog.bind_of_done (readType_run hi), Prog.bind_of_done (Prog.get_apply a)]
  by_cases hedge : (a.options i).type = .edge
  · rw [if_pos hedge, if_pos hedge,
      Prog.bind_of_done (edgeThreshold_run hi (by rw [hedge]; exact nofun)), Prog.when_of_pos rfl]
  · rw [if_neg hedge, if_neg hedge]
    by_cases hocc : (a.options i).type = .occupancy
    · rw [Prog.when_of_pos hocc, Prog.bind_of_done (occupancyThreshold_run hi hocc)]
      rfl
    · rw [Prog.when_of_neg hocc]
      rfl

theorem defaultThresholds_of_no_edge (hroom : i + room = numEventOptions)
    (hn : a.numberOfOptions ≤ numEventOptions)
    (h : ∀ k, i ≤ k → k < a.numberOfOptions → (a.options k).type ≠ .edge) :
    (defaultThresholds room i : Prog ρ OptionArray _) a = .done () a := by
  induction room generalizing i with
  | zero =>
      unfold defaultThresholds
      rw [Prog.bind_of_done (Prog.get_apply a), Prog.when_of_neg (by omega)]
      rfl
  | succ room ih =>
      unfold defaultThresholds
      rw [Prog.bind_of_done (Prog.get_apply a)]
      by_cases hi : i < a.numberOfOptions
      · rw [Prog.when_of_pos hi, Prog.bind_of_done
            ((defaultThreshold_run (by omega)).trans (if_neg (h i le_rfl hi)))]
        exact ih (by omega) fun k hk hlt => h k (by omega) hlt
      · rw [Prog.when_of_neg hi]
        rfl

/-- The loop over the options appends the default threshold if there is an `EDGE`. -/
theorem defaultThresholds_run (hroom : i + room = numEventOptions)
    (hn : a.numberOfOptions < numEventOptions)
    (h : ∀ j k, i ≤ j → j < k → k < a.numberOfOptions →
      ¬((a.options j).type = .edge ∧ (a.options k).type = .edge)) :
    (defaultThresholds room i : Prog ρ OptionArray _) a = .done ()
      (if ∃ k, k < a.numberOfOptions ∧ i ≤ k ∧ (a.options k).type = .edge then
        (a.setOption a.numberOfOptions ⟨.threshold, 1⟩).setCount (a.numberOfOptions + 1)
      else a) := by
  induction room generalizing i with
  | zero =>
      rw [if_neg (by rintro ⟨k, hk, hik, -⟩; omega)]
      exact defaultThresholds_of_no_edge hroom hn.le fun k hk hlt => by omega
  | succ room ih =>
      by_cases hi : i < a.numberOfOptions
      · unfold defaultThresholds
        rw [Prog.bind_of_done (Prog.get_apply a), Prog.when_of_pos hi]
        by_cases hedge : (a.options i).type = .edge
        · -- the entries behind this one have no further `EDGE`
          rw [Prog.bind_of_done (((defaultThreshold_run (by omega)).trans (if_pos hedge)).trans
              (addThreshold_run hn)), if_pos ⟨i, hi, le_rfl, hedge⟩]
          refine defaultThresholds_of_no_edge (by omega) hn fun k hk hlt => ?_
          rcases Nat.lt_succ_iff_lt_or_eq.mp hlt with hlt | rfl
          · have hne : k ≠ a.numberOfOptions := Nat.ne_of_lt hlt
            show (Function.update a.options _ _ k).type ≠ .edge
            rw [Function.update_of_ne hne]
            exact fun hk' => h i k le_rfl (by omega) hlt ⟨hedge, hk'⟩
          · show (Function.update a.options _ _ _).type ≠ .edge
            rw [Function.update_self]
            exact nofun
        · rw [Prog.bind_of_done ((defaultThreshold_run (by omega)).trans (if_neg hedge)),
            ih (by omega) fun j k hj => h j k (by omega)]
          refine congrArg _ (if_congr ⟨?_, ?_⟩ rfl rfl)
          · rintro ⟨k, hk, hik, hkt⟩
            exact ⟨k, hk, by omega, hkt⟩
          · rintro ⟨k, hk, hik, hkt⟩
            refine ⟨k, hk, ?_, hkt⟩
            rcases Nat.lt_or_eq_of_le hik with hlt | rfl
            · exact hlt
            · exact absurd hkt hedge
      · rw [if_neg (by rintro ⟨k, hk, hik, -⟩; omega)]
        exact defaultThresholds_of_no_edge hroom hn.le fun k hk hlt => by omega

end Threshold

end OptionArray

end Likwid
