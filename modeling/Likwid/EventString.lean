import Mathlib.Data.List.Basic
import Likwid.CounterMap

/-!
# Event strings

How `perfmon_addEventSet` turns `EVENT:COUNTER:OPTION=VALUE,…` into entries of
an event set: `getIndexAndType`, `checkCounter`, `getEvent`, `assignOption` and
`parseOptions` of `perfmon.c`. Strings are character lists, as `bsplit` and
`biseqcstr` see them. Looking up a counter already touches its registers.
-/

namespace Likwid

variable (M : Machine)

/-! ## Counters -/

/-- The types whose control register is not looked at. -/
def isFreeRunning (type : RegisterType) : Prop :=
  type = .thermal ∨ type = .power ∨ type = .wbox0fix

instance (type : RegisterType) : Decidable (isFreeRunning type) :=
  inferInstanceAs (Decidable (_ ∨ _))

/-- The settings found in the register of a counter, when they are not the
ones of an unused counter: cleared by force, or the end of the process. -/
def overwriteSettings {ρ : Type} (testcpu : ℕ) (dev : PciDeviceIndex) (reg : ℕ)
    (type : RegisterType) (force : Int) : Prog ρ Core Unit :=
  if force = 1 then do
    let _ ← hpmWrite M testcpu dev reg 0
  else Prog.when (force = 0 ∧ type ≠ .fixed ∧ ¬isFreeRunning type) (Prog.halt .exited)

/-- The test of a counter with a control register: it must be readable, and
writeable when it reads 0. -/
def testCounter {ρ : Type} (testcpu : ℕ) (row : RegisterMap) (force : Int) :
    Prog ρ Core Bool := do
  let checkSettings : Bool := row.configRegister ≠ 0
  let reg := if row.configRegister = 0 then row.counterRegister else row.configRegister
  let (err, tmp) ← hpmRead M testcpu row.device reg
  if err ≠ 0 then do
    Prog.when (checkSettings = true ∧ tmp ≠ 0)
      (overwriteSettings M testcpu row.device reg .notype force)
    pure false
  else if tmp = 0 then do
    let err ← hpmWrite M testcpu row.device reg 0
    pure (decide (err = 0))
  else do
    Prog.when (checkSettings = true)
      (overwriteSettings M testcpu row.device reg row.type force)
    pure true

/-- `getIndexAndType`: whether the counter can be used, its index and its type.
For a name that is not in the table the index is what `malloc` left there. -/
def getIndexAndType {ρ : Type} (testcpu : ℕ) (reg : List Char) (uninit : RegisterIndex)
    (force : Int) : Prog ρ Core (Bool × RegisterIndex × RegisterType) := do
  let entry := M.counterMap.find? (fun row => row.key.toList = reg)
  let index := (entry.map RegisterMap.index).getD uninit
  let row ← counterMap M index
  let c ← Prog.get
  if hpmCheck M c row.device 0 = 0 then pure (false, index, .notype)
  else
    match entry with
    | none => pure (false, index, .notype)
    | some found =>
        if ¬isFreeRunning found.type then do
          let ok ← testCounter M testcpu { row with type := found.type } force
          pure (ok, index, if ok then found.type else .notype)
        else do
          let (err, _) ← hpmRead M testcpu msrDev row.counterRegister
          if err ≠ 0 then pure (false, index, .notype)
          else pure (true, index, found.type)

/-- `checkCounter`: one of the `|`-separated tokens of the limit begins the
counter's name. -/
def checkCounter (counterName limit : List Char) : Bool :=
  (limit.splitOn '|').any fun token => token.isPrefixOf counterName

/-! ## Events and options -/

/-- `getEvent` -/
def getEvent (event counter : List Char) : Option PerfmonEvent :=
  M.eventHash.find? fun e => e.name.toList = event ∧ checkCounter counter e.limit.toList = true

abbrev numEventOptions : ℕ := 24

def EventOptionType.toNat (t : EventOptionType) : ℕ := t.ctorIdx

/-- `OPTIONS_TYPE_MASK` -/
def optionsTypeMask (t : EventOptionType) : Word :=
  if t = .none then 0 else bit t.toNat

/-- Assign position `k` of the option array. -/
def PerfmonEvent.setOption (e : PerfmonEvent) (k : ℕ) (o : PerfmonEventOption) : PerfmonEvent :=
  { e with options := e.options.take k ++ o :: e.options.drop (k + 1) }

/-- `assignOption`: an option of the same type is overwritten, a new one goes to
the end. -/
def assignOption (e : PerfmonEvent) (type : EventOptionType) (value : Word) : PerfmonEvent :=
  match e.optionList.findIdx? (·.type = type) with
  | some k => e.setOption k ⟨type, value⟩
  | none => { e.setOption e.numberOfOptions ⟨type, value⟩ with
      numberOfOptions := e.numberOfOptions + 1 }

def hexDigit (c : Char) : Option ℕ :=
  if '0' ≤ c ∧ c ≤ '9' then some (c.toNat - '0'.toNat)
  else if 'a' ≤ c ∧ c ≤ 'f' then some (c.toNat - 'a'.toNat + 10)
  else if 'A' ≤ c ∧ c ≤ 'F' then some (c.toNat - 'A'.toNat + 10)
  else none

def hexDigits (acc : ℕ) : List Char → ℕ
  | [] => acc
  | c :: s =>
      match hexDigit c with
      | some d => hexDigits (16 * acc + d) s
      | none => acc

/-- `sscanf("%llx")`: 0 when nothing can be read, the largest value when the
number is too large. There is no minus sign in an event string. -/
def scanHex (s : List Char) : Word :=
  let s := s.dropWhile Char.isWhitespace
  let s := if s.head? = some '+' then s.tail else s
  let s := if s.take 2 = ['0', 'x'] ∨ s.take 2 = ['0', 'X'] then s.drop 2 else s
  BitVec.ofNat 64 (min (hexDigits 0 s) (2 ^ 64 - 1))

/-- The options without a value. -/
def flagOption (name : List Char) : Option EventOptionType :=
  if name = "edgedetect".toList then some .edge
  else if name = "invert".toList then some .invert
  else if name = "kernel".toList then some .countKernel
  else if name = "anythread".toList then some .anythread
  else if name = "occ_edgedetect".toList then some .occupancyEdge
  else if name = "occ_invert".toList then some .occupancyInvert
  else if name = "in_trans".toList then some .inTrans
  else if name = "in_trans_aborted".toList then some .inTransAbort
  else none

/-- The options with a value. -/
def valueOption (name : List Char) : Option EventOptionType :=
  if name = "opcode".toList then some .opcode
  else if name = "match0".toList then some .match0
  else if name = "match1".toList then some .match1
  else if name = "match2".toList then some .match2
  else if name = "match3".toList then some .match3
  else if name = "mask0".toList then some .mask0
  else if name = "mask1".toList then some .mask1
  else if name = "mask2".toList then some .mask2
  else if name = "mask3".toList then some .mask3
  else if name = "nid".toList then some .nid
  else if name = "tid".toList then some .tid
  else if name = "state".toList then some .state
  else if name = "threshold".toList then some .threshold
  else if name = "occupancy".toList then some .occupancy
  else if name = "occ_filter".toList then some .occupancyFilter
  else none

/-- One token of the option list; a name that is not known is skipped. -/
def parseOption (e : PerfmonEvent) (token : List Char) : PerfmonEvent :=
  match token.splitOn '=' with
  | [name] =>
      match flagOption (name.map Char.toLower) with
      | some type => assignOption e type 0
      | none => e
  | [name, value] =>
      match valueOption (name.map Char.toLower) with
      | some type => assignOption e type (scanHex value)
      | none => e
  | _ => e

/-- The loop that removes what neither the counter nor the event allows, from
the last option to the first. It shortens the list without closing the gap. -/
def removeInvalid (allowed : Word) : ℕ → PerfmonEvent → PerfmonEvent
  | 0, e => e
  | i + 1, e =>
      removeInvalid allowed i
        (match e.options[i]? with
        | some o =>
            if optionsTypeMask o.type &&& allowed = 0 then
              { e.setOption i { o with type := .none } with
                numberOfOptions := e.numberOfOptions - 1 }
            else e
        | none => e)

/-- An `EDGE` option brings a threshold of 1 with it while there is room. -/
def defaultThreshold (e : PerfmonEvent) (option : PerfmonEventOption) : PerfmonEvent :=
  if option.type = .edge ∧ e.numberOfOptions < numEventOptions then
    { e.setOption e.numberOfOptions ⟨.threshold, 1⟩ with
      numberOfOptions := e.numberOfOptions + 1 }
  else e

/-- `parseOptions`; `none` when there are more tokens than options. -/
def parseOptions (tokens : List (List Char)) (e : PerfmonEvent) (optionMask : Word) :
    Option PerfmonEvent :=
  if numEventOptions < (tokens.drop 2).length then none
  else
    let e := (tokens.drop 2).foldl parseOption e
    let e := removeInvalid (optionMask ||| e.optionMask) e.numberOfOptions e
    some (e.optionList.foldl defaultThreshold e)

/-! ## Descriptors -/

/-- One descriptor of an event string, when it names a counter. `uninit` is what `malloc` left in
the index and the event of the entry. When there are too many options `parseOptions` destroys the
tokens; those of the last descriptor are destroyed again behind the loop. -/
def addEvent {ρ : Type} (testcpu : ℕ) (force : Int) (uninit : RegisterIndex × PerfmonEvent)
    (event counter : List Char) (tokens : List (List Char)) (last : Bool) :
    Prog ρ Core PerfmonEventSetEntry := do
  let (found, index, type) ← getIndexAndType M testcpu counter uninit.1 force
  let unusable (e : PerfmonEvent) : PerfmonEventSetEntry :=
    ⟨e, index, .notype, fun _ => PerfmonCounter.fresh⟩
  if found = false then pure (unusable uninit.2)
  else do
    let row ← counterMap M index
    match getEvent M event counter with
    | none => pure (unusable uninit.2)
    | some e =>
        if checkCounter counter e.limit.toList = false then pure (unusable e)
        else
          match parseOptions tokens e row.optionMask with
          | none => if last = true then Prog.halt .undefined else pure (unusable e)
          | some e => pure ⟨e, index, type, fun _ => PerfmonCounter.fresh⟩

/-- What the descriptor loop builds: the slots, `numberOfEvents` and
`regTypeMask`. -/
structure ParsedEvents where
  slots : List Slot
  numberOfEvents : ℕ
  regTypeMask : BitVec 128

/-- What `malloc` leaves in the index and the event of the entries of a group -/
def mallocEntries (group i : ℕ) : RegisterIndex × PerfmonEvent :=
  (M.mallocIndex group i, M.mallocEvent group i)

/-- The loop over the descriptors. A descriptor without a counter leaves its
slot as it is and is not counted. -/
def addEvents {ρ : Type} (testcpu : ℕ) (force : Int) (group : ℕ) :
    List (List Char) → ℕ → ParsedEvents → Prog ρ Core ParsedEvents
  | [], _, acc => pure acc
  | descriptor :: rest, i, acc =>
      match descriptor.splitOn ':' with
      | event :: counter :: options => do
          let e ← addEvent M testcpu force (mallocEntries M group i) event counter
            (event :: counter :: options) rest.isEmpty
          addEvents testcpu force group rest (i + 1)
            ⟨acc.slots ++ [some e], acc.numberOfEvents + 1,
              acc.regTypeMask ||| regTypeMaskOf e.type⟩
      | _ => addEvents testcpu force group rest (i + 1)
          ⟨acc.slots ++ [none], acc.numberOfEvents, acc.regTypeMask⟩

/-! ## What adding events does -/

/-- The counter a descriptor names, if it names one. -/
def namedCounter (descriptor : List Char) : Option (List Char) :=
  match descriptor.splitOn ':' with
  | _ :: counter :: _ => some counter
  | _ => none

section Respects

variable {M} {ρ : Type} {F : Prog.Flow Core} {testcpu : ℕ} {force : Int}

theorem counterMap_of_find {name : List Char} {found : RegisterMap}
    (h : M.counterMap.find? (fun row => row.key.toList = name) = some found) :
    M.counterMap[found.index]? = some found ∧ found.key.toList = name := by
  have hname : found.key.toList = name := by simpa using List.find?_some h
  obtain ⟨i, hi⟩ := List.mem_iff_getElem?.mp (List.mem_of_find?_eq_some h)
  rw [M.index_eq i found hi]
  exact ⟨hi, hname⟩

/-- Looking up a counter reads registers and tests the counter it names. -/
theorem getIndexAndType_respects
    (hread : ∀ dev reg, Prog.Respects F (hpmRead M testcpu dev reg : Prog ρ Core _))
    {name : List Char} (htest : ∀ row ∈ M.counterMap, row.key.toList = name →
      Prog.Respects F (testCounter M testcpu row force : Prog ρ Core Bool))
    (uninit : RegisterIndex) :
    Prog.Respects F (getIndexAndType M testcpu name uninit force : Prog ρ Core _) := by
  unfold getIndexAndType
  cases hfind : M.counterMap.find? (fun row => row.key.toList = name) with
  | none =>
      refine Prog.Respects.bind (Prog.Respects.orUndefined _) fun row =>
        Prog.Respects.bind Prog.Respects.get fun c => ?_
      exact Prog.Respects.ite (fun _ => Prog.Respects.pure _) fun _ => Prog.Respects.pure _
  | some found =>
      obtain ⟨hrow, hname⟩ := counterMap_of_find hfind
      intro c
      simp only [Option.map_some, Option.getD_some, Prog.wp_bind, counterMap,
        Prog.wp_orUndefined, Prog.wp_get]
      intro row hrow'
      obtain rfl : found = row := Option.some.inj (hrow.symm.trans hrow')
      refine Prog.Respects.ite (fun _ => Prog.Respects.pure _) (fun _ => ?_) c
      refine Prog.Respects.ite (fun _ => ?_) fun _ => ?_
      · exact Prog.Respects.bind (htest found (List.mem_of_getElem? hrow) hname)
          fun _ => Prog.Respects.pure _
      · exact Prog.Respects.bind (hread _ _) fun _ =>
          Prog.Respects.ite (fun _ => Prog.Respects.pure _) fun _ => Prog.Respects.pure _

theorem addEvents_respects
    (hread : ∀ dev reg, Prog.Respects F (hpmRead M testcpu dev reg : Prog ρ Core _))
    {descriptors : List (List Char)}
    (htest : ∀ row ∈ M.counterMap, row.key.toList ∈ descriptors.filterMap namedCounter →
      Prog.Respects F (testCounter M testcpu row force : Prog ρ Core Bool)) (group : ℕ) :
    ∀ (i : ℕ) (acc : ParsedEvents),
      Prog.Respects F (addEvents M testcpu force group descriptors i acc : Prog ρ Core _) := by
  induction descriptors with
  | nil => exact fun _ acc => Prog.Respects.pure acc
  | cons descriptor rest ih =>
      intro i acc
      have hrest := ih fun row hrow hname => htest row hrow (by
        rw [List.filterMap_cons]
        split
        · exact hname
        · exact List.mem_cons_of_mem _ hname)
      unfold addEvents
      split
      · next event counter options hsplit =>
          have hnamed : namedCounter descriptor = some counter := by simp [namedCounter, hsplit]
          refine Prog.Respects.bind ?_ fun e => hrest _ _
          refine Prog.Respects.bind (getIndexAndType_respects hread
            (fun row hrow hname => htest row hrow ?_) _) fun t => ?_
          · rw [List.filterMap_cons, hnamed, hname]
            exact List.mem_cons_self ..
          obtain ⟨found, index, type⟩ := t
          refine Prog.Respects.ite (fun _ => Prog.Respects.pure _) fun _ => ?_
          refine Prog.Respects.bind (Prog.Respects.orUndefined _) fun row => ?_
          split
          · exact Prog.Respects.pure _
          · refine Prog.Respects.ite (fun _ => Prog.Respects.pure _) fun _ => ?_
            split
            · exact Prog.Respects.ite (fun _ => Prog.Respects.halt _) fun _ => Prog.Respects.pure _
            · exact Prog.Respects.pure _
      · exact hrest _ _

end Respects

/-- The flow of a routine that always comes to its end, or halts. -/
def noReturn {σ : Type} : Prog.Flow σ where
  done _ _ := True
  exit _ _ := False
  refl _ := trivial
  trans _ _ := trivial
  absorb _ h := h

theorem testCounter_noReturn {ρ : Type} (testcpu : ℕ) (row : RegisterMap) (force : Int) :
    Prog.Respects noReturn (testCounter M testcpu row force : Prog ρ Core Bool) := by
  have hwrite : ∀ dev reg data,
      Prog.Respects noReturn (hpmWrite M testcpu dev reg data : Prog ρ Core Int) :=
    fun _ _ _ _ => trivial
  have hover : ∀ reg type,
      Prog.Respects noReturn
        (overwriteSettings M testcpu row.device reg type force : Prog ρ Core Unit) :=
    fun reg type => Prog.Respects.ite
      (fun _ => Prog.Respects.bind (hwrite _ _ _) fun _ => Prog.Respects.pure _)
      fun _ => Prog.Respects.when fun _ => Prog.Respects.halt _
  have hread : Prog.Respects noReturn (hpmRead M testcpu row.device
      (if row.configRegister = 0 then row.counterRegister else row.configRegister) :
        Prog ρ Core (Int × Word)) := fun _ => trivial
  refine Prog.Respects.bind hread fun t => ?_
  refine Prog.Respects.ite (fun _ => ?_) fun _ => Prog.Respects.ite (fun _ => ?_) fun _ => ?_
  · exact Prog.Respects.bind (Prog.Respects.when fun _ => hover _ _) fun _ =>
      Prog.Respects.pure _
  · exact Prog.Respects.bind (hwrite _ _ _) fun _ => Prog.Respects.pure _
  · exact Prog.Respects.bind (Prog.Respects.when fun _ => hover _ _) fun _ =>
      Prog.Respects.pure _

theorem addEvents_noReturn {ρ : Type} (testcpu : ℕ) (force : Int) (group : ℕ)
    (descriptors : List (List Char)) (i : ℕ) (acc : ParsedEvents) :
    Prog.Respects noReturn
      (addEvents M testcpu force group descriptors i acc : Prog ρ Core ParsedEvents) := by
  have hread : ∀ dev reg,
      Prog.Respects noReturn (hpmRead M testcpu dev reg : Prog ρ Core (Int × Word)) :=
    fun _ _ _ => trivial
  exact addEvents_respects hread (fun row _ _ => testCounter_noReturn M testcpu row force)
    group i acc

/-! ## What the entries look like -/

/-- The entries of a set as they are added: typed by the table, with fresh
records, and their types in the mask. -/
structure Fresh (slots : List Slot) (mask : BitVec 128) : Prop where
  typed : ∀ e, some e ∈ slots → e.Typed M
  records : ∀ e, some e ∈ slots → e.threadCounter = fun _ => PerfmonCounter.fresh
  masked : ∀ e, some e ∈ slots → e.type ≠ .notype → hasType mask e.type

theorem getIndexAndType_typed {ρ : Type} {testcpu : ℕ} {name : List Char}
    {uninit : RegisterIndex} {force : Int} (c : Core) :
    (getIndexAndType M testcpu name uninit force : Prog ρ Core _).wp
      (fun t _ => t.2.2 ≠ .notype →
        ∃ row, M.counterMap[t.2.1]? = some row ∧ row.type = t.2.2)
      (fun _ _ => True) c := by
  unfold getIndexAndType
  simp only [Prog.wp_bind, counterMap, Prog.wp_orUndefined, Prog.wp_get]
  intro row hrow
  split
  · exact fun h => absurd rfl h
  cases hfind : M.counterMap.find? (fun row => row.key.toList = name) with
  | none => exact fun h => absurd rfl h
  | some found =>
      obtain ⟨hfound, -⟩ := counterMap_of_find hfind
      dsimp only
      split
      · rw [Prog.wp_bind]
        refine Prog.wp_mono (Prog.wp_trivial _) (fun ok _ _ => ?_) fun _ _ _ => trivial
        intro h
        cases ok with
        | false => exact absurd rfl h
        | true => exact ⟨found, hfound, rfl⟩
      · rw [Prog.wp_bind]
        refine Prog.wp_mono (Prog.wp_trivial _) (fun t _ _ => ?_) fun _ _ _ => trivial
        split
        · exact fun h => absurd rfl h
        · exact fun _ => ⟨found, hfound, rfl⟩

theorem addEvent_typed {ρ : Type} (testcpu : ℕ) (force : Int)
    (uninit : RegisterIndex × PerfmonEvent) (event counter : List Char)
    (tokens : List (List Char)) (last : Bool) (c : Core) :
    (addEvent M testcpu force uninit event counter tokens last : Prog ρ Core _).wp
      (fun e _ => e.Typed M ∧ e.threadCounter = fun _ => PerfmonCounter.fresh)
      (fun _ _ => True) c := by
  unfold addEvent
  rw [Prog.wp_bind]
  refine Prog.wp_mono (getIndexAndType_typed M c) (fun t c' ht => ?_) fun _ _ _ => trivial
  obtain ⟨found, index, type⟩ := t
  have hunusable : ∀ e : PerfmonEvent,
      (⟨e, index, .notype, fun _ => PerfmonCounter.fresh⟩ : PerfmonEventSetEntry).Typed M :=
    fun _ h => absurd rfl h
  dsimp only
  split
  · exact ⟨hunusable _, rfl⟩
  simp only [Prog.wp_bind, counterMap, Prog.wp_orUndefined]
  intro row _
  split
  · exact ⟨hunusable _, rfl⟩
  split
  · exact ⟨hunusable _, rfl⟩
  split
  · split
    · trivial
    · exact ⟨hunusable _, rfl⟩
  · exact ⟨ht, rfl⟩

theorem Fresh.append {slots : List Slot} {mask : BitVec 128} (h : Fresh M slots mask)
    {e : PerfmonEventSetEntry} (hty : e.Typed M)
    (hrec : e.threadCounter = fun _ => PerfmonCounter.fresh) :
    Fresh M (slots ++ [some e]) (mask ||| regTypeMaskOf e.type) := by
  have hcases : ∀ e', some e' ∈ slots ++ [some e] → some e' ∈ slots ∨ e' = e := by
    intro e' he'
    simpa using he'
  refine ⟨fun e' he' => ?_, fun e' he' => ?_, fun e' he' hne => ?_⟩
  · rcases hcases e' he' with h' | rfl
    · exact h.typed e' h'
    · exact hty
  · rcases hcases e' he' with h' | rfl
    · exact h.records e' h'
    · exact hrec
  · rcases hcases e' he' with h' | rfl
    · exact hasType_or_left (h.masked e' h' hne)
    · obtain ⟨row, hrow, htype⟩ := hty hne
      exact hasType_or_right (htype ▸ M.unit_row row (List.mem_of_getElem? hrow))

theorem addEvents_fresh {ρ : Type} (testcpu : ℕ) (force : Int) (group : ℕ) :
    ∀ (descriptors : List (List Char)) (i : ℕ) (acc : ParsedEvents) (c : Core),
      Fresh M acc.slots acc.regTypeMask →
      (addEvents M testcpu force group descriptors i acc : Prog ρ Core ParsedEvents).wp
        (fun parsed _ => Fresh M parsed.slots parsed.regTypeMask) (fun _ _ => True) c := by
  intro descriptors
  induction descriptors with
  | nil => exact fun _ _ _ h => h
  | cons descriptor rest ih =>
      intro i acc c h
      unfold addEvents
      split
      · rw [Prog.wp_bind]
        refine Prog.wp_mono (addEvent_typed M testcpu force _ _ _ _ _ c) (fun e c' he => ?_)
          fun _ _ _ => trivial
        exact ih _ _ c' (h.append M he.1 he.2)
      · refine ih _ _ c ⟨fun e he => ?_, fun e he => ?_, fun e he => ?_⟩
        · exact h.typed e (by simpa using he)
        · exact h.records e (by simpa using he)
        · exact h.masked e (by simpa using he)

end Likwid
