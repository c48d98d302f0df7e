import Likwid.Lib.Fields
import Likwid.Lib.Scan
import Likwid.MarkerFile

/-!
# Performance group files (`likwid.lua`)

`get_groupdata` reads the file of a performance group. The syntax of such a file is in
`doc/applications/likwid-perfctr.md`: behind `EVENTSET` each line up to an empty one is
`<counter>(:<options>) <event>`. For every file of this form the event string and the list of events
name the events, counters and options of the lines, in their order
(`getGroupdata_documented`). The reader also has a branch for lines with more than two columns, and
this branch always ends in an error (`eventLine_columns`).
-/

namespace Likwid

open Text

/-! ## Strings -/

/-- `stringsplit` with the pattern `"%s+"` -/
def stringsplitBlanks (astr : List Char) : List (List Char) :=
  if astr = [] then [] else Fields.split Scan.isSpace astr

/-- `gsub("^%s*(.-)%s*$", "%1")` -/
def trimmed (s : List Char) : List Char := Fields.trim Scan.isSpace s

/-! ## Groups -/

structure GroupEvent where
  event : Option (List Char)
  counter : Option (List Char)
  options : Option (List (List Char)) := none
deriving DecidableEq, Repr

structure GroupMetric where
  description : List Char
  formula : Option (List Char)
deriving DecidableEq, Repr

/-- `groupdata`; a field that has not been set is `nil`. -/
structure GroupData where
  groupString : Option (List Char) := none
  shortDescription : Option (List Char) := none
  eventString : Option (List Char) := none
  events : Option (List GroupEvent) := none
  metrics : Option (List GroupMetric) := none
  longDescription : Option (List Char) := none
deriving DecidableEq, Repr

/-- What `getCpuInfo` says that matters here -/
structure GroupCpuInfo where
  shortName : List Char
  perfNumFixedCtr : ℕ

/-- Where groups are looked for: `likwid.groupfolder`, the home directory, and what `ls` prints and
`io.open` reads -/
structure GroupFolders where
  cpuInfo : Option GroupCpuInfo
  groupfolder : List Char
  home : List Char
  ls : List Char → Option (List Char)
  file : List Char → Option (List Char)

/-- `a:sub((a:match'^.*()/')+1,a:len()-4)` -/
def groupName (a : List Char) : Option (List Char) :=
  if '/' ∈ a then
    let name := (a.reverse.takeWhile (· ≠ '/')).reverse
    some (name.take (name.length - 4))
  else none

def lsNames (listing : Option (List Char)) : Option (List (List Char)) :=
  match listing with
  | some t => ((stringsplit t '\n').filter (· ≠ [])).mapM groupName
  | none => some []

def GroupFolders.getGroups (W : GroupFolders) : Option (List (List Char)) :=
  match W.cpuInfo with
  | none => some []
  | some cpuinfo => do
      let installed ← lsNames (W.ls (W.groupfolder ++ '/' :: cpuinfo.shortName ++ "/*.txt".toList))
      let own ← lsNames
        (W.ls (W.home ++ "/.likwid/groups/".toList ++ cpuinfo.shortName ++ "/*.txt".toList))
      some (installed ++ own)

/-- A counter that is measured always -/
def addFixed (counter : String) (event : String) (needed : Bool) (eventString : List Char) :
    List Char :=
  if needed ∧ ¬counter.toList <:+: eventString then
    eventString ++ ',' :: (event.toList ++ ':' :: counter.toList)
  else eventString

def newEvent (e : List Char) : GroupEvent :=
  let eventlist := stringsplit e ':'
  { event := eventlist[0]?
    counter := eventlist[1]?
    options := if 2 < eventlist.length then some (eventlist.drop 2) else none }

/-- A group for what is no performance group -/
def newGroupdata (eventString : List Char) (fixCtrs : ℕ) : GroupData :=
  if ':' ∈ eventString then
    let eventString := addFixed "FIXC2" "CPU_CLK_UNHALTED_REF" (fixCtrs == 3)
      (addFixed "FIXC1" "CPU_CLK_UNHALTED_CORE" (2 ≤ fixCtrs)
        (addFixed "FIXC0" "INSTR_RETIRED_ANY" (1 ≤ fixCtrs) eventString))
    { groupString := some eventString
      eventString := some eventString
      events := some ((stringsplit eventString ',').map newEvent) }
  else { groupString := some [], eventString := some [], events := some [] }

/-! ## The reader -/

/-- The sections that have begun, and what has been read -/
structure GroupParser where
  parseEventset : Bool := false
  parseMetrics : Bool := false
  parseLong : Bool := false
  shortDescription : Option (List Char) := none
  eventString : List Char := []
  events : List GroupEvent := []
  metrics : List GroupMetric := []
  longDescription : List Char := []

/-- The sections after a line -/
def sections (line : List Char) (s : GroupParser) : GroupParser :=
  let s := if line = [] then
      { s with parseEventset := false, parseMetrics := false, parseLong := false }
    else s
  let s := if "SHORT".toList <+: line then
      { s with shortDescription := some (join ' ' ((stringsplitBlanks line).drop 1)) }
    else s
  { s with
    parseEventset := s.parseEventset || line = "EVENTSET".toList
    parseMetrics := s.parseMetrics || line = "METRICS".toList
    parseLong := s.parseLong || line = "LONG".toList }

/-- A line of the section `EVENTSET`. `table.concat(":", linelist)` gets its arguments in the wrong
order, which is an error. -/
def eventLine (line : List Char) (s : GroupParser) : Option GroupParser :=
  match stringsplitBlanks (trimmed line) with
  | counter :: event :: options =>
      if options = [] then
        some { s with
          eventString := s.eventString ++ ',' :: (event ++ ':' :: counter)
          events := s.events ++
            [{ event := some (trimmed event), counter := some (trimmed counter) }] }
      else none
  | _ => none

def metricLine (line : List Char) (s : GroupParser) : GroupParser :=
  let linelist := stringsplitBlanks (trimmed line)
  { s with
    metrics := s.metrics ++
      [{ description := join ' ' linelist.dropLast, formula := linelist.getLast? }] }

/-- The sections `METRICS` and `LONG` -/
def otherSections (line : List Char) (s : GroupParser) : GroupParser :=
  let s := if s.parseMetrics ∧ line ≠ "METRICS".toList then metricLine line s else s
  if s.parseLong ∧ line ≠ "LONG".toList then
    { s with longDescription := s.longDescription ++ '\n' :: line }
  else s

def eventSection (line : List Char) (s : GroupParser) : Option GroupParser :=
  if s.parseEventset ∧ line ≠ "EVENTSET".toList then eventLine line s else some s

def groupLine (s : GroupParser) (line : List Char) : Option GroupParser :=
  (eventSection line (sections line s)).map (otherSections line)

def readGroup (group t : List Char) : Option GroupData := do
  let s ← (stringsplit t '\n').foldlM groupLine {}
  some {
    groupString := some group
    shortDescription := s.shortDescription
    eventString := some (s.eventString.drop 1)
    events := some s.events
    metrics := some s.metrics
    longDescription := some (s.longDescription.drop 1) }

/-- The text of the file of a group -/
def GroupFolders.groupFile (W : GroupFolders) (cpuinfo : GroupCpuInfo) (group : List Char) :
    Option (List Char) :=
  W.file (W.groupfolder ++ '/' :: cpuinfo.shortName ++ '/' :: group ++ ".txt".toList) <|>
    W.file (W.home ++ "/.likwid/groups/".toList ++ cpuinfo.shortName ++ '/' :: group ++
      ".txt".toList)

/-- `get_groupdata`, or no value where the script ends in an error; `some none` is `nil`. -/
def GroupFolders.getGroupdata (W : GroupFolders) (group : List Char) :
    Option (Option GroupData) :=
  match W.cpuInfo with
  | none => some none
  | some cpuinfo => do
      let groups ← W.getGroups
      if groups.any (· = group) then
        match W.groupFile cpuinfo group with
        | none => some (some {})
        | some t => (readGroup group t).map some
      else some (some (newGroupdata group cpuinfo.perfNumFixedCtr))

/-! ## The syntax -/

/-- A name in a line of the section `EVENTSET` -/
structure IsField (w : List Char) : Prop where
  ne_nil : w ≠ []
  visible : ∀ c ∈ w, Scan.isSpace c = false
  plain : ',' ∉ w ∧ ':' ∉ w

instance (w : List Char) : Decidable (IsField w) :=
  decidable_of_iff (w ≠ [] ∧ (w.all (!Scan.isSpace ·)) = true ∧ ',' ∉ w ∧ ':' ∉ w)
    ⟨fun h => ⟨h.1, by simpa using h.2.1, h.2.2⟩, fun h => ⟨h.1, by simpa using h.2, h.3⟩⟩

/-- White space within a line -/
def IsGap (w : List Char) : Prop := ∀ c ∈ w, Scan.isSpace c = true ∧ c ≠ '\n'

theorem isGap_nil : IsGap [] := List.forall_mem_nil _

/-- `<counter>(:<options>) <event>` -/
structure EventLine where
  counter : List Char
  options : List (List Char)
  event : List Char
  indent : List Char := []
  gap : List Char := [' ']
  behind : List Char := []
  counter_field : IsField counter
  options_field : ∀ option ∈ options, IsField option
  event_field : IsField event
  indent_gap : IsGap indent
  gap_gap : IsGap gap ∧ gap ≠ []
  behind_gap : IsGap behind

/-- The counter with its options -/
def EventLine.column (l : EventLine) : List Char := join ':' (l.counter :: l.options)

def EventLine.text (l : EventLine) : List Char :=
  l.indent ++ (l.column ++ (l.gap ++ l.event) ++ l.behind)

/-- `EVENT:COUNTER` with the options behind it -/
def EventLine.token (l : EventLine) : List Char := join ':' (l.event :: l.counter :: l.options)

/-- A file in the documented form: what is before its section `EVENTSET`, the lines of this section,
and what comes behind it, from an empty line on -/
structure GroupFile where
  header : List (List Char)
  eventset : List EventLine
  rest : List (List Char)
  header_line : ∀ line ∈ header, '\n' ∉ line ∧ line ≠ "EVENTSET".toList
  rest_line : ∀ line ∈ rest, '\n' ∉ line ∧ line ≠ "EVENTSET".toList
  rest_head : rest.head?.all (· = [])

def GroupFile.lines (file : GroupFile) : List (List Char) :=
  file.header ++ "EVENTSET".toList :: file.eventset.map EventLine.text ++ file.rest

def GroupFile.text (file : GroupFile) : List Char := ['\n'].intercalate file.lines

/-! ## Lines of the section -/

section Line

variable {l : EventLine} {c : Char} {ws : List (List Char)} {w : List Char}

theorem mem_join {d : Char} (h : d ∈ join c ws) : d = c ∨ ∃ w ∈ ws, d ∈ w := by
  fun_induction join c ws with
  | case1 => cases h
  | case2 w => exact Or.inr ⟨w, by simp, h⟩
  | case3 w w' ws ih =>
      rcases List.mem_append.mp h with hw | hrest
      · exact Or.inr ⟨w, by simp, hw⟩
      rcases List.mem_cons.mp hrest with heq | hrest
      · exact Or.inl heq
      rcases ih hrest with heq | ⟨v, hv, hd⟩
      · exact Or.inl heq
      · exact Or.inr ⟨v, List.mem_cons_of_mem _ hv, hd⟩

theorem IsField.not_newline (h : IsField w) : '\n' ∉ w := fun hmem =>
  absurd (h.visible '\n' hmem) (by decide)

theorem EventLine.fields (l : EventLine) : ∀ w ∈ l.counter :: l.options, IsField w :=
  List.forall_mem_cons.mpr ⟨l.counter_field, l.options_field⟩

theorem EventLine.mem_column {d : Char} (h : d ∈ l.column) :
    Scan.isSpace d = false ∧ d ≠ ',' := by
  rcases mem_join h with rfl | ⟨w, hw, hd⟩
  · exact ⟨by decide, by decide⟩
  · have hfield := l.fields w hw
    refine ⟨hfield.visible d hd, ?_⟩
    rintro rfl
    exact hfield.plain.1 hd

theorem EventLine.column_ne_nil (l : EventLine) : l.column ≠ [] := by
  unfold EventLine.column
  cases l.options with
  | nil => exact l.counter_field.ne_nil
  | cons option options => simp [join]

theorem EventLine.token_eq (l : EventLine) : l.token = l.event ++ ':' :: l.column := rfl

theorem EventLine.not_comma (l : EventLine) : ',' ∉ l.token := by
  rw [l.token_eq]
  intro h
  rcases List.mem_append.mp h with hevent | h
  · exact l.event_field.plain.1 hevent
  rcases List.mem_cons.mp h with heq | hcolumn
  · exact absurd heq (by decide)
  · exact (EventLine.mem_column hcolumn).2 rfl

theorem EventLine.not_newline (l : EventLine) : '\n' ∉ l.text := by
  unfold EventLine.text
  simp only [List.mem_append, not_or]
  refine ⟨fun h => (l.indent_gap _ h).2 rfl, ⟨fun h => ?_, ?_, ?_⟩, ?_⟩
  · exact absurd (EventLine.mem_column h).1 (by decide)
  · exact fun h => (l.gap_gap.1 _ h).2 rfl
  · exact l.event_field.not_newline
  · exact fun h => (l.behind_gap _ h).2 rfl

theorem solid_head_of_ne_nil {rest : List Char} (hw : Solid Scan.isSpace w) (hne : w ≠ []) :
    (w ++ rest).head?.all (!Scan.isSpace ·) = true := by
  cases w with
  | nil => exact absurd rfl hne
  | cons c w => simp [hw.of_cons.1]

/-- **A line of the section has two columns.** -/
theorem EventLine.columns (l : EventLine) :
    stringsplitBlanks (trimmed l.text) = [l.column, l.event] := by
  have hcolumn : Solid Scan.isSpace l.column := fun d hd => (EventLine.mem_column hd).1
  have hevent : Solid Scan.isSpace l.event := l.event_field.visible
  have htrim : trimmed l.text = l.column ++ (l.gap ++ l.event) := by
    refine Fields.trim_append (fun d hd => (l.indent_gap d hd).1)
      (fun d hd => (l.behind_gap d hd).1) (solid_head_of_ne_nil hcolumn l.column_ne_nil) ?_
    obtain ⟨d, hd⟩ : ∃ d, l.event.getLast? = some d :=
      Option.ne_none_iff_exists'.mp fun h => l.event_field.ne_nil (List.getLast?_eq_none_iff.mp h)
    rw [List.getLast?_append, List.getLast?_append, hd]
    simp [hevent d (List.mem_of_getLast? hd)]
  have hne : l.column ++ (l.gap ++ l.event) ≠ [] := by simp [l.column_ne_nil]
  rw [htrim, stringsplitBlanks, if_neg hne, Fields.split_append hcolumn
    (fun d hd => (l.gap_gap.1 d hd).1) l.gap_gap.2 (Fields.solid_head hevent),
    Fields.split_word hevent]

theorem EventLine.ne_eventset (l : EventLine) : l.text ≠ [] ∧ l.text ≠ "EVENTSET".toList := by
  have hcols := l.columns
  constructor
  · intro h
    rw [h] at hcols
    exact absurd hcols (by simp [trimmed, stringsplitBlanks, Fields.trim])
  · intro h
    rw [h] at hcols
    have hone : (stringsplitBlanks (trimmed "EVENTSET".toList)).length = 1 := by decide +kernel
    rw [hcols] at hone
    cases hone

/-- What a line adds -/
def EventLine.entry (l : EventLine) : GroupEvent :=
  { event := some l.event, counter := some l.column }

theorem eventLine_text (l : EventLine) (s : GroupParser) :
    eventLine l.text s = some { s with
      eventString := s.eventString ++ ',' :: l.token
      events := s.events ++ [l.entry] } := by
  have hcolumn : trimmed l.column = l.column :=
    Fields.trim_word fun d hd => (EventLine.mem_column hd).1
  have hevent : trimmed l.event = l.event := Fields.trim_word l.event_field.visible
  unfold eventLine
  rw [l.columns]
  dsimp only
  rw [if_pos rfl, hcolumn, hevent]
  rfl

end Line

/-! ## Lines of the file -/

section Lines

variable {s s' : GroupParser} {line : List Char}

/-- The events are as before. -/
structure SameEvents (s s' : GroupParser) : Prop where
  eventString : s'.eventString = s.eventString
  events : s'.events = s.events

theorem sections_events (line : List Char) (s : GroupParser) :
    SameEvents s (sections line s) ∧
      (sections line s).parseEventset =
        ((s.parseEventset && line ≠ []) || line = "EVENTSET".toList) := by
  unfold sections
  constructor
  · by_cases hline : line = []
    · subst hline
      exact ⟨rfl, rfl⟩
    · rw [if_neg hline]
      constructor
      · dsimp only
        split <;> rfl
      · dsimp only
        split <;> rfl
  · by_cases hline : line = []
    · subst hline
      simp
    · rw [if_neg hline]
      dsimp only
      split
      · simp [hline]
      · simp [hline]

theorem otherSections_events (line : List Char) (s : GroupParser) :
    SameEvents s (otherSections line s) ∧
      (otherSections line s).parseEventset = s.parseEventset := by
  unfold otherSections metricLine
  dsimp only
  constructor
  · constructor
    · split <;> split <;> rfl
    · split <;> split <;> rfl
  · split <;> split <;> rfl

theorem groupLine_of_no_event {flag : Bool}
    (hsection : eventSection line (sections line s) = some (sections line s))
    (hflag : (sections line s).parseEventset = flag) :
    ∃ s', groupLine s line = some s' ∧ SameEvents s s' ∧ s'.parseEventset = flag := by
  obtain ⟨⟨hstring, hevents⟩, -⟩ := sections_events line s
  obtain ⟨⟨hstring', hevents'⟩, hflag'⟩ := otherSections_events line (sections line s)
  refine ⟨otherSections line (sections line s), ?_, ⟨?_, ?_⟩, ?_⟩
  · rw [groupLine, hsection, Option.map_some]
  · rw [hstring', hstring]
  · rw [hevents', hevents]
  · rw [hflag', hflag]

theorem groupLine_outside (hout : s.parseEventset = false) (hline : line ≠ "EVENTSET".toList) :
    ∃ s', groupLine s line = some s' ∧ SameEvents s s' ∧ s'.parseEventset = false := by
  have hflag : (sections line s).parseEventset = false := by
    rw [(sections_events line s).2, hout, decide_eq_false hline]
    rfl
  have hsection : eventSection line (sections line s) = some (sections line s) := by
    rw [eventSection, if_neg]
    rw [hflag]
    exact fun h => Bool.false_ne_true h.1
  exact groupLine_of_no_event hsection hflag

theorem groupLine_eventset (s : GroupParser) :
    ∃ s', groupLine s "EVENTSET".toList = some s' ∧ SameEvents s s' ∧ s'.parseEventset = true := by
  have hflag : (sections "EVENTSET".toList s).parseEventset = true := by
    rw [(sections_events _ s).2, decide_eq_true (p := "EVENTSET".toList = _) rfl, Bool.or_true]
  have hsection : eventSection "EVENTSET".toList (sections "EVENTSET".toList s) =
      some (sections "EVENTSET".toList s) := by
    rw [eventSection, if_neg]
    exact fun h => h.2 rfl
  exact groupLine_of_no_event hsection hflag

theorem groupLine_event (hin : s.parseEventset = true) (l : EventLine) :
    ∃ s', groupLine s l.text = some s' ∧ s'.eventString = s.eventString ++ ',' :: l.token ∧
      s'.events = s.events ++ [l.entry] ∧ s'.parseEventset = true := by
  obtain ⟨hne, hline⟩ := l.ne_eventset
  obtain ⟨⟨hstring, hevents⟩, hflag⟩ := sections_events l.text s
  have hyes : (sections l.text s).parseEventset = true := by
    rw [hflag, hin, decide_eq_true hne]
    rfl
  have hsection : eventSection l.text (sections l.text s) = _ :=
    (if_pos ⟨hyes, hline⟩).trans (eventLine_text l (sections l.text s))
  generalize ht : ({ sections l.text s with
    eventString := (sections l.text s).eventString ++ ',' :: l.token
    events := (sections l.text s).events ++ [l.entry] } : GroupParser) = t at hsection
  obtain ⟨⟨hstring', hevents'⟩, hflag'⟩ := otherSections_events l.text t
  refine ⟨otherSections l.text t, ?_, ?_, ?_, ?_⟩
  · rw [groupLine, hsection, Option.map_some]
  · rw [hstring', ← ht, ← hstring]
  · rw [hevents', ← ht, ← hevents]
  · rw [hflag', ← ht]
    exact hyes

theorem groupLine_empty (s : GroupParser) :
    ∃ s', groupLine s [] = some s' ∧ SameEvents s s' ∧ s'.parseEventset = false := by
  have hflag : (sections [] s).parseEventset = false := by
    rw [(sections_events [] s).2, decide_eq_false (p := [] ≠ []) (fun h => h rfl), Bool.and_false]
    rfl
  have hsection : eventSection [] (sections [] s) = some (sections [] s) := by
    rw [eventSection, if_neg]
    rw [hflag]
    exact fun h => Bool.false_ne_true h.1
  exact groupLine_of_no_event hsection hflag

/-! ## The file -/

theorem SameEvents.trans {s₁ s₂ s₃ : GroupParser} (h : SameEvents s₁ s₂) (h' : SameEvents s₂ s₃) :
    SameEvents s₁ s₃ :=
  ⟨h'.eventString.trans h.eventString, h'.events.trans h.events⟩

theorem foldlM_outside {lines : List (List Char)} (hout : s.parseEventset = false)
    (hlines : ∀ line ∈ lines, line ≠ "EVENTSET".toList) :
    ∃ s', lines.foldlM groupLine s = some s' ∧ SameEvents s s' ∧ s'.parseEventset = false := by
  induction lines generalizing s with
  | nil => exact ⟨s, rfl, ⟨rfl, rfl⟩, hout⟩
  | cons line lines ih =>
      obtain ⟨hline, hlines⟩ := List.forall_mem_cons.mp hlines
      obtain ⟨t, ht, hsame, hflag⟩ := groupLine_outside hout hline
      obtain ⟨s', hs', hsame', hflag'⟩ := ih hflag hlines
      refine ⟨s', ?_, hsame.trans hsame', hflag'⟩
      rw [List.foldlM_cons, ht]
      exact hs'

theorem foldlM_eventset (hin : s.parseEventset = true) (ls : List EventLine) :
    ∃ s', (ls.map EventLine.text).foldlM groupLine s = some s' ∧
      s'.eventString = s.eventString ++ ls.flatMap (fun l => ',' :: l.token) ∧
      s'.events = s.events ++ ls.map EventLine.entry ∧ s'.parseEventset = true := by
  induction ls generalizing s with
  | nil => exact ⟨s, rfl, by simp, by simp, hin⟩
  | cons l ls ih =>
      obtain ⟨t, ht, hstring, hevents, hflag⟩ := groupLine_event hin l
      obtain ⟨s', hs', hstring', hevents', hflag'⟩ := ih hflag
      refine ⟨s', ?_, ?_, ?_, hflag'⟩
      · rw [List.map_cons, List.foldlM_cons, ht]
        exact hs'
      · rw [hstring', hstring, List.flatMap_cons, List.append_assoc]
      · rw [hevents', hevents, List.map_cons, List.append_assoc]
        rfl

theorem foldlM_rest (file : GroupFile) (s : GroupParser) :
    ∃ s', file.rest.foldlM groupLine s = some s' ∧ SameEvents s s' := by
  cases hrest : file.rest with
  | nil => exact ⟨s, rfl, rfl, rfl⟩
  | cons line lines =>
      have hhead := file.rest_head
      rw [hrest] at hhead
      obtain rfl : line = [] := by simpa using hhead
      obtain ⟨t, ht, hsame, hflag⟩ := groupLine_empty s
      obtain ⟨s', hs', hsame', -⟩ := foldlM_outside hflag fun line hline =>
        (file.rest_line line (hrest ▸ List.mem_cons_of_mem _ hline)).2
      refine ⟨s', ?_, hsame.trans hsame'⟩
      rw [List.foldlM_cons, ht]
      exact hs'

theorem GroupFile.foldlM_lines (file : GroupFile) :
    ∃ s, file.lines.foldlM groupLine {} = some s ∧
      s.eventString = file.eventset.flatMap (fun l => ',' :: l.token) ∧
      s.events = file.eventset.map EventLine.entry := by
  obtain ⟨s₁, h₁, hsame₁, -⟩ := foldlM_outside (s := {}) rfl fun line hline =>
    (file.header_line line hline).2
  obtain ⟨s₂, h₂, hsame₂, hflag₂⟩ := groupLine_eventset s₁
  obtain ⟨s₃, h₃, hstring₃, hevents₃, -⟩ := foldlM_eventset hflag₂ file.eventset
  obtain ⟨s₄, h₄, hsame₄⟩ := foldlM_rest file s₃
  refine ⟨s₄, ?_, ?_, ?_⟩
  · unfold GroupFile.lines
    rw [List.foldlM_append, List.foldlM_append, h₁]
    show (do let t ← List.foldlM groupLine s₁ (_ :: _); _) = _
    rw [List.foldlM_cons, h₂]
    show (do let t ← List.foldlM groupLine s₂ _; _) = _
    rw [h₃]
    exact h₄
  · rw [hsame₄.eventString, hstring₃, hsame₂.eventString, hsame₁.eventString]
    rfl
  · rw [hsame₄.events, hevents₃, hsame₂.events, hsame₁.events]
    rfl

theorem GroupFile.stringsplit_text (file : GroupFile) :
    stringsplit file.text '\n' = file.lines := by
  have hne : file.lines ≠ [] := by simp [GroupFile.lines]
  have hlines : ∀ line ∈ file.lines, '\n' ∉ line := by
    intro line hline
    rcases List.mem_append.mp hline with hline | hline
    · rcases List.mem_append.mp hline with hline | hline
      · exact (file.header_line line hline).1
      rcases List.mem_cons.mp hline with rfl | hline
      · decide
      · obtain ⟨l, -, rfl⟩ := List.mem_map.mp hline
        exact l.not_newline
    · exact (file.rest_line line hline).1
  have hsplit : file.text.splitOn '\n' = file.lines := List.splitOn_intercalate _ hlines hne
  unfold stringsplit
  rw [hsplit, if_neg]
  intro hnil
  rw [hnil] at hsplit
  have hmem : "EVENTSET".toList ∈ file.lines := by simp [GroupFile.lines]
  rw [← hsplit] at hmem
  exact absurd hmem (by decide)

theorem splitOn_flatMap {w : List Char} {ws : List (List Char)} (hw : ',' ∉ w)
    (hws : ∀ v ∈ ws, ',' ∉ v) : (w ++ ws.flatMap (',' :: ·)).splitOn ',' = w :: ws := by
  induction ws generalizing w with
  | nil => rw [List.flatMap_nil, List.append_nil, List.splitOn_eq_singleton hw]
  | cons v ws ih =>
      obtain ⟨hv, hws⟩ := List.forall_mem_cons.mp hws
      rw [List.flatMap_cons, List.cons_append, List.splitOn_append_cons_self_of_not_mem hw,
        ih hv hws]

theorem stringsplit_words {ws : List (List Char)} (hws : ∀ v ∈ ws, ',' ∉ v)
    (hhead : ws.head? ≠ some []) :
    stringsplit ((ws.flatMap (',' :: ·)).drop 1) ',' = ws := by
  cases ws with
  | nil => rfl
  | cons w ws =>
      obtain ⟨hw, hws⟩ := List.forall_mem_cons.mp hws
      have hne : w ≠ [] := fun h => hhead (congrArg some h)
      rw [List.flatMap_cons, List.cons_append, List.drop_one, List.tail_cons, stringsplit,
        if_neg (by simp [hne]), splitOn_flatMap hw hws]

theorem stringsplit_tokens (ls : List EventLine) :
    stringsplit ((ls.flatMap fun l => ',' :: l.token).drop 1) ',' = ls.map EventLine.token := by
  have hwords : ∀ v ∈ ls.map EventLine.token, ',' ∉ v := by
    intro v hv
    obtain ⟨l, -, rfl⟩ := List.mem_map.mp hv
    exact l.not_comma
  have hhead : (ls.map EventLine.token).head? ≠ some [] := by
    cases ls with
    | nil => simp
    | cons l ls => simp [l.token_eq]
  have hsplit := stringsplit_words hwords hhead
  rwa [List.flatMap_map] at hsplit

/-- **Event string and events say what the file says.** -/
theorem getGroupdata_documented {W : GroupFolders} {cpuinfo : GroupCpuInfo} {group : List Char}
    {groups : List (List Char)} (file : GroupFile) (hcpu : W.cpuInfo = some cpuinfo)
    (hgroups : W.getGroups = some groups) (hgroup : group ∈ groups)
    (hfile : W.groupFile cpuinfo group = some file.text) :
    ∃ gd eventString, W.getGroupdata group = some (some gd) ∧ gd.eventString = some eventString ∧
      stringsplit eventString ',' = file.eventset.map EventLine.token ∧
      gd.events = some (file.eventset.map EventLine.entry) := by
  obtain ⟨s, hs, hstring, hevents⟩ := file.foldlM_lines
  refine ⟨{
    groupString := some group
    shortDescription := s.shortDescription
    eventString := some (s.eventString.drop 1)
    events := some s.events
    metrics := some s.metrics
    longDescription := some (s.longDescription.drop 1) }, s.eventString.drop 1, ?_, rfl, ?_, ?_⟩
  · unfold GroupFolders.getGroupdata
    rw [hcpu]
    dsimp only
    rw [hgroups]
    have hany : groups.any (· = group) = true :=
      List.any_eq_true.mpr ⟨group, hgroup, decide_eq_true rfl⟩
    show (if groups.any (· = group) = true then _ else _) = _
    rw [if_pos hany, hfile]
    dsimp only
    rw [readGroup, file.stringsplit_text, hs]
    rfl
  · rw [hstring, stringsplit_tokens]
  · rw [← hevents]

end Lines

/-- A line without options -/
def instructionsLine : EventLine where
  counter := "FIXC0".toList
  options := []
  event := "INSTR_RETIRED_ANY".toList
  counter_field := by decide +kernel
  options_field := List.forall_mem_nil _
  event_field := by decide +kernel
  indent_gap := isGap_nil
  gap_gap := by simp [IsGap, Scan.isSpace]
  behind_gap := isGap_nil

/-- A line with two options -/
def stallsLine : EventLine where
  counter := "PMC3".toList
  options := ["EDGEDETECT".toList, "THRESHOLD=0x1".toList]
  event := "UOPS_ISSUED_STALL_CYCLES".toList
  gap := [' ', ' ']
  counter_field := by decide +kernel
  options_field := by decide +kernel
  event_field := by decide +kernel
  indent_gap := isGap_nil
  gap_gap := by simp [IsGap, Scan.isSpace]
  behind_gap := isGap_nil

def sampleGroup : GroupFile where
  header := ["SHORT  Stalls".toList, []]
  eventset := [instructionsLine, stallsLine]
  rest := [[], "METRICS".toList, "Stalls PMC3".toList, [], "LONG".toList, "Stalls".toList, []]
  header_line := by decide +kernel
  rest_line := by decide +kernel
  rest_head := by decide

def sampleFolders : GroupFolders where
  cpuInfo := some ⟨"haswell".toList, 3⟩
  groupfolder := "/share".toList
  home := "/home".toList
  ls path := if path = "/share/haswell/*.txt".toList then some "/share/haswell/STALLS.txt\n".toList
    else some []
  file path := if path = "/share/haswell/STALLS.txt".toList then some sampleGroup.text else none

theorem getGroupdata_stalls :
    ∃ gd eventString, sampleFolders.getGroupdata "STALLS".toList = some (some gd) ∧
      gd.eventString = some eventString ∧
      stringsplit eventString ',' = sampleGroup.eventset.map EventLine.token ∧
      gd.events = some (sampleGroup.eventset.map EventLine.entry) :=
  @getGroupdata_documented sampleFolders ⟨"haswell".toList, 3⟩ _ ["STALLS".toList]
    sampleGroup rfl (by decide +kernel) (by simp) (by decide +kernel)

end Likwid
