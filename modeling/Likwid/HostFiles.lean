import Likwid.Lib.Merging
import Likwid.Lib.Scan
import Likwid.MarkerFile

/-!
# Host files (`likwid-mpirun.lua`)

The readers and writers of the host files of OpenMPI, Intel MPI, MVAPICH2 and of the batch system. A
reader should list each host once, with the sum of the slots of its lines as a number, and read back
what the writer writes (`Lawful`). The reader for OpenMPI never says that it has found a host, and
those for Intel MPI and MVAPICH2 keep the slots as text and merge nothing (`lawful_iff`).
-/

namespace Likwid

open Text Pattern

/-! ## Values -/

/-- A value that should be a number. A number is a double in Lua: one below `2 ^ 53` is exact. -/
inductive LuaValue where
  | number (n : ℕ)
  | text (s : List Char)
deriving DecidableEq, Repr

/-- `tonumber` of digits, or of nothing -/
def tonumber (digits : List Char) : Option ℕ := if digits = [] then none else some (readNat digits)

/-- `"%d"`; digits are taken for a number. From `2 ^ 63` on it fails in Lua. -/
def LuaValue.format : LuaValue → Option (List Char)
  | .number n => some (decimal n)
  | .text s => (tonumber s).map decimal

/-- An entry of a host list whose slots are of type `V`; what is `nil` has no value. -/
structure HostEntry (V : Type) where
  hostname : Option (List Char)
  slots : Option V
  maxslots : Option V
  interface : Option (List Char) := none
deriving DecidableEq, Repr

def HostEntry.toLua (host : HostEntry ℕ) : HostEntry LuaValue :=
  { hostname := host.hostname
    slots := host.slots.map .number
    maxslots := host.maxslots.map .number
    interface := host.interface }

/-! ## Patterns -/

/-- `[%.%a%d]` -/
def isHostChar (c : Char) : Bool := c == '.' || c.isAlpha || c.isDigit

def hostItem : Item := ⟨isHostChar, .plus⟩

/-- `"^([%.%a%d]+)%s+slots=(%d*)"` -/
def slotsPattern : List Item :=
  hostItem :: ⟨Scan.isSpace, .plus⟩ :: (literal "slots=".toList ++ [⟨Char.isDigit, .star⟩])

/-- `"^([%.%a%d]+)%s+slots=(%d*)%s+max%-slots=(%d*)"` -/
def maxSlotsPattern : List Item :=
  slotsPattern ++ ⟨Scan.isSpace, .plus⟩ :: (literal "max-slots=".toList ++ [⟨Char.isDigit, .star⟩])

/-- `"^([%.%a%d]+):(%d+)"` -/
def colonPattern : List Item := hostItem :: (literal ":".toList ++ [⟨Char.isDigit, .plus⟩])

/-- `"^([%.%a%d]+):(%d+):([%a%d]+)"` -/
def interfacePattern : List Item :=
  colonPattern ++ (literal ":".toList ++ [⟨fun c => c.isAlpha || c.isDigit, .plus⟩])

/-- `line:match("^([%.%a%d]+)")` -/
def matchHost (line : List Char) : Option (List Char) :=
  (matchHere [hostItem] line).bind (·[0]?)

/-- `line:match("^#") == nil and line:match("^%s*$") == nil` -/
def namesHost (line : List Char) : Bool := line.head? ≠ some '#' ∧ ¬line.all Scan.isSpace

/-! ## Readers -/

/-- What the OpenMPI reader finds in a line: the host, its slots and its maximal slots, each as what
`tonumber` makes of it -/
def openMpiLine (line : List Char) :
    Option (List Char) × Option (Option ℕ) × Option (Option ℕ) :=
  match matchHere maxSlotsPattern line with
  | some ws => (ws[0]?, (ws[8]?).map tonumber, (ws[20]?).map tonumber)
  | none =>
      match matchHere slotsPattern line with
      | some ws => (ws[0]?, (ws[8]?).map tonumber, none)
      | none => (matchHost line, some (some 1), some (some 1))

/-- `if slots and host["slots"]`; adding `nil` is an error. -/
def addSlots (host : Option ℕ) (slots : Option (Option ℕ)) : Option (Option ℕ) :=
  match host, slots with
  | some n, some slots => slots.map fun m => some (n + m)
  | host, _ => some host

/-- The loop over `hostlist`: the first entry of the host is changed. -/
def addToHost (hostname : Option (List Char)) (slots maxslots : Option (Option ℕ)) :
    List (HostEntry ℕ) → Option (List (HostEntry ℕ))
  | [] => some []
  | host :: hosts =>
      if host.hostname = hostname then do
        let slots ← addSlots host.slots slots
        let maxslots ← addSlots host.maxslots maxslots
        some ({ host with slots, maxslots } :: hosts)
      else (addToHost hostname slots maxslots hosts).map (host :: ·)

/-- `found` stays `false`, so there is a new entry for every line. -/
def openMpiStep (hosts : List (HostEntry ℕ)) (line : List Char) : Option (List (HostEntry ℕ)) :=
  if namesHost line then do
    let (hostname, slots, maxslots) := openMpiLine line
    let hosts ← addToHost hostname slots maxslots hosts
    some (hosts ++ [{ hostname, slots := slots.join, maxslots := maxslots.join }])
  else some hosts

/-- `host["slots"] == nil or host["slots"] == 0` -/
def orThreads (numHWThreads : ℕ) (slots : Option ℕ) : Option ℕ :=
  if slots = none ∨ slots = some 0 then some numHWThreads else slots

def readHostfileOpenMPI (numHWThreads : ℕ) (t : List Char) :
    Option (List (HostEntry LuaValue)) := do
  let hosts ← (stringsplit t '\n').foldlM openMpiStep []
  some (hosts.map fun host => HostEntry.toLua
    { host with
      slots := orThreads numHWThreads host.slots
      maxslots := orThreads numHWThreads host.maxslots })

def intelMpiLine (numHWThreads : ℕ) (line : List Char) : HostEntry LuaValue :=
  match matchHere colonPattern line with
  | some ws =>
      { hostname := ws[0]?, slots := (ws[2]?).map .text, maxslots := (ws[2]?).map .text }
  | none =>
      { hostname := matchHost line
        slots := some (.number numHWThreads)
        maxslots := some (.number numHWThreads) }

def mvapich2Line (line : List Char) : HostEntry LuaValue :=
  match matchHere interfacePattern line with
  | some ws =>
      { hostname := ws[0]?, slots := (ws[2]?).map .text, maxslots := (ws[2]?).map .text
        interface := ws[4]? }
  | none =>
      match matchHere colonPattern line with
      | some ws =>
          { hostname := ws[0]?, slots := (ws[2]?).map .text, maxslots := (ws[2]?).map .text }
      | none =>
          { hostname := matchHost line, slots := some (.number 1), maxslots := some (.number 1) }

def readHostfileIntelMPI (numHWThreads : ℕ) (t : List Char) : List (HostEntry LuaValue) :=
  ((stringsplit t '\n').filter namesHost).map (intelMpiLine numHWThreads)

def readHostfileMvapich2 (t : List Char) : List (HostEntry LuaValue) :=
  ((stringsplit t '\n').filter namesHost).map mvapich2Line

/-- One more process for a host -/
def pbsAdd (hostname : Option (List Char)) : List (HostEntry ℕ) → List (HostEntry ℕ)
  | [] => [{ hostname, slots := some 1, maxslots := some 1 }]
  | host :: hosts =>
      if host.hostname = hostname then
        { host with
          slots := host.slots.map (· + 1)
          maxslots := host.maxslots.map (· + 1) } :: hosts
      else host :: pbsAdd hostname hosts

def readHostfilePBS (t : List Char) : List (HostEntry LuaValue) :=
  (((stringsplit t '\n').filter namesHost).foldl (fun hosts line => pbsAdd (matchHost line) hosts)
    []).map HostEntry.toLua

/-! ## Writers -/

/-- `string.format` of what is there -/
def formatSlots (before : String) (slots : Option LuaValue) : Option (List Char) :=
  match slots with
  | some slots => slots.format.map (before.toList ++ ·)
  | none => some []

def openMpiText (host : HostEntry LuaValue) : Option (List Char) := do
  let hostname ← host.hostname
  let slots ← formatSlots " slots=" host.slots
  let maxslots ← formatSlots " max-slots=" host.maxslots
  some (hostname ++ slots ++ maxslots)

def intelMpiText (host : HostEntry LuaValue) : Option (List Char) := do
  let hostname ← host.hostname
  let slots ← formatSlots ":" host.slots
  some (hostname ++ slots)

def mvapich2Text (host : HostEntry LuaValue) : Option (List Char) := do
  let hostname ← host.hostname
  let slots ← formatSlots ":" host.slots
  some (hostname ++ slots ++ (host.interface.map (':' :: ·)).getD [])

/-- A host file, line by line; a host without a name is an error. -/
def writeHostfile (text : HostEntry LuaValue → Option (List Char))
    (hosts : List (HostEntry LuaValue)) : Option (List Char) :=
  (hosts.mapM text).map unlines

/-! ## Formats -/

inductive HostFormat where
  | openmpi
  | intelmpi
  | mvapich2
  | pbs
deriving DecidableEq, Repr

def HostFormat.read (numHWThreads : ℕ) :
    HostFormat → List Char → Option (List (HostEntry LuaValue))
  | .openmpi, t => readHostfileOpenMPI numHWThreads t
  | .intelmpi, t => some (readHostfileIntelMPI numHWThreads t)
  | .mvapich2, t => some (readHostfileMvapich2 t)
  | .pbs, t => some (readHostfilePBS t)

/-- Nothing writes a host file of the batch system. -/
def HostFormat.write? : HostFormat → Option (List (HostEntry LuaValue) → Option (List Char))
  | .openmpi => some (writeHostfile openMpiText)
  | .intelmpi => some (writeHostfile intelMpiText)
  | .mvapich2 => some (writeHostfile mvapich2Text)
  | .pbs => none

/-- The name of a host in a file -/
structure IsHostname (w : List Char) : Prop where
  ne_nil : w ≠ []
  visible : ∀ c ∈ w, Scan.isSpace c = false
  not_comment : w.head? ≠ some '#'
  no_colon : ':' ∉ w

/-- A line that names a host, with blanks behind it -/
structure HostLine (format : HostFormat) where
  hostname : List Char
  slots : Option ℕ := none
  maxslots : Option ℕ := none
  interface : Option (List Char) := none
  gap : List Char := [' ']
  behind : List Char := []
  hostname_ok : IsHostname hostname
  slots_ok : format = .pbs → slots = none
  maxslots_ok : maxslots ≠ none → format = .openmpi ∧ slots ≠ none
  interface_ok : interface ≠ none → format = .mvapich2 ∧ slots ≠ none
  letters_ok : ∀ w ∈ interface, w ≠ [] ∧ ∀ c ∈ w, (c.isAlpha || c.isDigit) = true
  gap_ok : gap ≠ [] ∧ ∀ c ∈ gap, Scan.isSpace c = true ∧ c ≠ '\n'
  behind_ok : ∀ c ∈ behind, Scan.isSpace c = true ∧ c ≠ '\n'

/-- The slots in a line, with `before` in front -/
def HostLine.field {format : HostFormat} (l : HostLine format) (before : String)
    (slots : Option ℕ) : List Char :=
  match slots with
  | some n =>
      (if format = .openmpi then l.gap else []) ++ before.toList ++ decimal n
  | none => []

def HostLine.text {format : HostFormat} (l : HostLine format) : List Char :=
  l.hostname ++ (l.field (if format = .openmpi then "slots=" else ":") l.slots ++
    (l.field "max-slots=" l.maxslots ++ ((l.interface.map (':' :: ·)).getD [] ++ l.behind)))

inductive FileLine (format : HostFormat) where
  | host (l : HostLine format)
  | comment (w : List Char) (h : '\n' ∉ w)
  | blank (w : List Char) (h : ∀ c ∈ w, Scan.isSpace c = true ∧ c ≠ '\n')

def FileLine.text {format : HostFormat} : FileLine format → List Char
  | .host l => l.text
  | .comment w _ => '#' :: w
  | .blank w _ => w

def FileLine.host? {format : HostFormat} : FileLine format → Option (HostLine format)
  | .host l => some l
  | _ => none

section File

variable {format : HostFormat} (numHWThreads : ℕ) (file : List (FileLine format))

def hostFileText : List Char := ['\n'].intercalate (file.map FileLine.text)

def hostLines : List (HostLine format) := file.filterMap FileLine.host?

def hostnames : List (List Char) := (hostLines file).map HostLine.hostname

/-- What a line gives a host: Intel MPI takes all threads where nothing is said, and a line of the
batch system is one process. -/
def HostLine.count (l : HostLine format) : ℕ :=
  l.slots.getD (if format = .intelmpi then numHWThreads else 1)

def slotsOf (name : List Char) : ℕ :=
  Merging.weightOf HostLine.hostname (HostLine.count numHWThreads) (· = name) (hostLines file)

/-! ## The law -/

/-- Each host of the file once, with the sum of its slots, and the same hosts and slots after
writing and reading -/
structure Lawful (hosts : List (HostEntry LuaValue)) : Prop where
  once : (hosts.map HostEntry.hostname).Perm ((hostnames file).dedup.map some)
  slots : ∀ host ∈ hosts, ∀ name, host.hostname = some name →
    host.slots = some (.number (slotsOf numHWThreads file name))
  readBack : ∀ write ∈ format.write?, ∃ t hosts', write hosts = some t ∧
    format.read numHWThreads t = some hosts' ∧
      hosts'.map (fun host => (host.hostname, host.slots)) =
        hosts.map fun host => (host.hostname, host.slots)

/-- All hosts have names that the readers know. -/
def PlainNames : Prop := ∀ name ∈ hostnames file, ∀ c ∈ name, isHostChar c = true

def LawfulWhen : Prop :=
  match format with
  | .openmpi => PlainNames file ∧ (hostnames file).Nodup ∧ ∀ l ∈ hostLines file, l.slots ≠ some 0
  | .pbs => PlainNames file
  | _ => hostnames file = []

end File

/-! ## What the patterns find -/

section Match

variable {w rest gap digits digits' : List Char} {n : ℕ}

/-- White space without an end of line -/
def Blank (w : List Char) : Prop := ∀ c ∈ w, Scan.isSpace c = true ∧ c ≠ '\n'

theorem space_of_hostChar {c : Char} (h : isHostChar c = true) : Scan.isSpace c = false := by
  cases hs : Scan.isSpace c with
  | false => rfl
  | true =>
      have hmem : c ∈ [' ', '\t', '\n', '\x0b', '\x0c', '\r'] := by
        simpa [Scan.isSpace, or_assoc] using hs
      simp only [List.mem_cons, List.not_mem_nil, or_false] at hmem
      rcases hmem with rfl | rfl | rfl | rfl | rfl | rfl <;> exact absurd h (by decide)

theorem not_hostChar_of_blank (hgap : gap ≠ [] ∧ Blank gap) (rest : List Char) :
    (gap ++ rest).head?.all (!isHostChar ·) = true := by
  obtain ⟨hne, hblank⟩ := hgap
  obtain ⟨c, gap, rfl⟩ := List.exists_cons_of_ne_nil hne
  have hspace := (hblank c List.mem_cons_self).1
  have hno : isHostChar c = false := by
    cases hc : isHostChar c with
    | false => rfl
    | true =>
        rw [space_of_hostChar hc] at hspace
        cases hspace
  simp [hno]

theorem matchHere_field {p : List Item} {s : List Char} {c : Char} {ws : List (List Char)}
    (hgap : gap ≠ [] ∧ Blank gap) (hc : Scan.isSpace c = false) (h : matchHere p s = some ws) :
    matchHere (⟨Scan.isSpace, .plus⟩ :: (literal (c :: w) ++ p)) (gap ++ (c :: w ++ s)) =
      some (gap :: ((c :: w).map ([·]) ++ ws)) :=
  matchHere_plus (fun d hd => (hgap.2 d hd).1) hgap.1 (by simp [hc]) (matchHere_literal h)

theorem matchHere_slots (hw : ∀ c ∈ w, isHostChar c = true) (hne : w ≠ [])
    (hgap : gap ≠ [] ∧ Blank gap) (hdigits : ∀ c ∈ digits, c.isDigit = true)
    (hrest : rest.head?.all (!Char.isDigit ·) = true) :
    matchHere slotsPattern (w ++ (gap ++ ("slots=".toList ++ (digits ++ rest)))) =
      some (w :: gap :: ("slots=".toList.map ([·]) ++ [digits])) :=
  matchHere_plus hw hne (not_hostChar_of_blank hgap _)
    (matchHere_field hgap (by decide) (matchHere_last hdigits hrest))

theorem matchHere_maxSlots {gap' : List Char} (hw : ∀ c ∈ w, isHostChar c = true) (hne : w ≠ [])
    (hgap : gap ≠ [] ∧ Blank gap) (hgap' : gap' ≠ [] ∧ Blank gap')
    (hdigits : ∀ c ∈ digits, c.isDigit = true) (hdigits' : ∀ c ∈ digits', c.isDigit = true)
    (hrest : rest.head?.all (!Char.isDigit ·) = true) :
    matchHere maxSlotsPattern (w ++ (gap ++ ("slots=".toList ++ (digits ++
        (gap' ++ ("max-slots=".toList ++ (digits' ++ rest))))))) =
      some (w :: gap :: ("slots=".toList.map ([·]) ++
        (digits :: gap' :: ("max-slots=".toList.map ([·]) ++ [digits'])))) := by
  have hhead : (gap' ++ ("max-slots=".toList ++ (digits' ++ rest))).head?.all
      (!Char.isDigit ·) = true := by
    obtain ⟨c, gap', rfl⟩ := List.exists_cons_of_ne_nil hgap'.1
    have hspace := (hgap'.2 c List.mem_cons_self).1
    have hno : c.isDigit = false := by
      cases hc : c.isDigit with
      | false => rfl
      | true =>
          rw [space_of_hostChar (by simp [isHostChar, hc])] at hspace
          cases hspace
    simp [hno]
  have hlast := matchHere_field (w := "ax-slots=".toList) (c := 'm') hgap' (by decide)
    (matchHere_last hdigits' hrest)
  have hdigit := maxExpand_append hdigits (maxExpand_stop hhead hlast)
  rw [List.append_nil] at hdigit
  have hslots := matchHere_field (w := "lots=".toList) (c := 's') hgap (by decide)
    (matchHere_star hdigit)
  exact matchHere_plus hw hne (not_hostChar_of_blank hgap _) hslots

theorem matchHere_colon (hw : ∀ c ∈ w, isHostChar c = true) (hne : w ≠ [])
    (hdigits : ∀ c ∈ digits, c.isDigit = true) (hdigitsne : digits ≠ [])
    (hrest : rest.head?.all (!Char.isDigit ·) = true) :
    matchHere colonPattern (w ++ ':' :: (digits ++ rest)) = some [w, [':'], digits] :=
  matchHere_plus hw hne rfl
    (matchHere_one (by decide) (matchHere_plus hdigits hdigitsne hrest rfl))

theorem matchHost_append (hw : ∀ c ∈ w, isHostChar c = true) (hne : w ≠ [])
    (hrest : rest.head?.all (!isHostChar ·) = true) : matchHost (w ++ rest) = some w := by
  rw [matchHost, hostItem, matchHere_plus hw hne hrest (rfl : matchHere [] rest = some [])]
  rfl

theorem matchHost_plain (line : List Char) :
    ∀ w ∈ matchHost line, ∀ c ∈ w, isHostChar c = true := by
  intro w hw
  obtain ⟨ws, hws, hfirst⟩ := Option.bind_eq_some_iff.mp hw
  obtain ⟨w', hw', hfit⟩ := fits_of_matchHere hws
  obtain rfl := Option.some.inj (hw'.symm.trans hfirst)
  exact hfit.1

theorem plain_of_match {p : List Item} {line : List Char} {ws : List (List Char)}
    (h : matchHere (hostItem :: p) line = some ws) :
    ∀ w ∈ ws[0]?, ∀ c ∈ w, isHostChar c = true := by
  intro w hw
  obtain ⟨w', hw', hfit⟩ := fits_of_matchHere h
  obtain rfl := Option.some.inj (hw'.symm.trans hw)
  exact hfit.1

theorem openMpiLine_plain (line : List Char) :
    ∀ w ∈ (openMpiLine line).1, ∀ c ∈ w, isHostChar c = true := by
  unfold openMpiLine
  split
  · next ws hws => exact plain_of_match hws
  · split
    · next ws hws => exact plain_of_match hws
    · exact matchHost_plain line

theorem intelMpiLine_plain (hw : ℕ) (line : List Char) :
    ∀ w ∈ (intelMpiLine hw line).hostname, ∀ c ∈ w, isHostChar c = true := by
  unfold intelMpiLine
  split
  · next ws hws => exact plain_of_match hws
  · exact matchHost_plain line

theorem mvapich2Line_plain (line : List Char) :
    ∀ w ∈ (mvapich2Line line).hostname, ∀ c ∈ w, isHostChar c = true := by
  unfold mvapich2Line
  split
  · next ws hws => exact plain_of_match hws
  · split
    · next ws hws => exact plain_of_match hws
    · exact matchHost_plain line

end Match

/-! ## The lines of a file -/

section Lines

variable {format : HostFormat} {l : HostLine format} {file : List (FileLine format)}

theorem HostLine.not_space (l : HostLine format) : ∃ c w, l.hostname = c :: w ∧ c ≠ '#' ∧
    Scan.isSpace c = false := by
  have hok := l.hostname_ok
  obtain ⟨c, w, hcw⟩ := List.exists_cons_of_ne_nil hok.ne_nil
  refine ⟨c, w, hcw, ?_, hok.visible c (by simp [hcw])⟩
  rintro rfl
  exact hok.not_comment (by simp [hcw])

theorem namesHost_text (l : FileLine format) : namesHost l.text = l.host?.isSome := by
  cases l with
  | host l =>
      obtain ⟨c, w, hcw, hhash, hspace⟩ := l.not_space
      simp [namesHost, FileLine.text, FileLine.host?, HostLine.text, hcw, hhash, hspace]
  | comment w h => simp [namesHost, FileLine.text, FileLine.host?]
  | blank w h =>
      have hall : w.all Scan.isSpace = true := List.all_eq_true.mpr fun c hc => (h c hc).1
      simp [namesHost, FileLine.text, FileLine.host?, hall]

theorem HostLine.not_newline (l : HostLine format) : '\n' ∉ l.text := by
  have hdecimal : ∀ n, '\n' ∉ decimal n := fun n => not_mem_decimal (by decide) n
  have hgap : '\n' ∉ l.gap := fun h => (l.gap_ok.2 _ h).2 rfl
  have hfield : ∀ (before : String) (slots : Option ℕ), '\n' ∉ before.toList →
      '\n' ∉ l.field before slots := by
    intro before slots hbefore
    unfold HostLine.field
    cases slots with
    | none => simp
    | some n =>
        dsimp only
        split <;> simp [hgap, hbefore, hdecimal]
  unfold HostLine.text
  simp only [List.mem_append, not_or]
  refine ⟨fun h => ?_, hfield _ _ ?_, hfield _ _ (by decide), ?_, fun h => ?_⟩
  · exact absurd (l.hostname_ok.visible _ h) (by decide)
  · split <;> decide
  · intro h
    cases hi : l.interface with
    | none => simp [hi] at h
    | some w =>
        rw [hi] at h
        have hw : '\n' ∈ w := by simpa using h
        exact absurd ((l.letters_ok w hi).2 _ hw) (by decide)
  · exact (l.behind_ok _ h).2 rfl

theorem FileLine.not_newline (l : FileLine format) : '\n' ∉ l.text := by
  cases l with
  | host l => exact l.not_newline
  | comment w h => simpa [FileLine.text] using h
  | blank w h => exact fun hmem => (h _ hmem).2 rfl

theorem stringsplit_lines {lines : List (List Char)} (h : ∀ line ∈ lines, '\n' ∉ line) :
    (stringsplit (['\n'].intercalate lines) '\n').filter namesHost = lines.filter namesHost := by
  cases lines with
  | nil => rfl
  | cons line lines =>
      have hsplit := List.splitOn_intercalate '\n' h (List.cons_ne_nil line lines)
      unfold stringsplit
      split
      · next hnil =>
          -- a single empty line
          rw [hnil] at hsplit
          rw [← hsplit]
          rfl
      · rw [hsplit]

/-- What names a host in a file -/
theorem filter_namesHost (file : List (FileLine format)) :
    (stringsplit (hostFileText file) '\n').filter namesHost =
      (hostLines file).map HostLine.text := by
  have hlines : ∀ line ∈ file.map FileLine.text, '\n' ∉ line := by
    intro line hline
    obtain ⟨l, -, rfl⟩ := List.mem_map.mp hline
    exact l.not_newline
  rw [hostFileText, stringsplit_lines hlines]
  unfold hostLines
  clear hlines
  induction file with
  | nil => rfl
  | cons l file ih =>
      rw [List.map_cons, List.filter_cons, namesHost_text, ih]
      cases l <;> rfl

end Lines

/-! ## OpenMPI -/

section OpenMpi

variable {l : HostLine .openmpi} {file : List (FileLine .openmpi)} {hosts : List (HostEntry ℕ)}

/-- A blank ends a number. -/
theorem blank_head {w : List Char} (h : Blank w) : w.head?.all (!Char.isDigit ·) = true := by
  cases w with
  | nil => rfl
  | cons c w =>
      have hspace := (h c List.mem_cons_self).1
      have hno : c.isDigit = false := by
        cases hc : c.isDigit with
        | false => rfl
        | true =>
            rw [space_of_hostChar (by simp [isHostChar, hc])] at hspace
            cases hspace
      simp [hno]

theorem hostChar_head {w : List Char} (h : Blank w) : w.head?.all (!isHostChar ·) = true := by
  cases w with
  | nil => rfl
  | cons c w => exact not_hostChar_of_blank ⟨List.cons_ne_nil c w, h⟩ []

theorem tonumber_decimal (n : ℕ) : tonumber (decimal n) = some n := by
  rw [tonumber, if_neg (decimal_ne_nil n), readNat_decimal]

/-- A line without slots is one process. -/
def HostLine.maximal (l : HostLine .openmpi) : Option (Option ℕ) :=
  if l.slots = none then some (some 1) else l.maxslots.map some

theorem equals_mem_slotsPattern : (⟨(· == '='), .one⟩ : Item) ∈ slotsPattern :=
  List.mem_cons_of_mem _ (List.mem_cons_of_mem _ (List.mem_append_left _ (mem_literal (by decide))))

theorem equals_mem_maxSlotsPattern : (⟨(· == '='), .one⟩ : Item) ∈ maxSlotsPattern :=
  List.mem_append_left _ equals_mem_slotsPattern

theorem dash_mem_maxSlotsPattern : (⟨(· == '-'), .one⟩ : Item) ∈ maxSlotsPattern :=
  List.mem_append_right _
    (List.mem_cons_of_mem _ (List.mem_append_left _ (mem_literal (by decide))))

theorem not_match {p : List Item} {line : List Char} {c : Char}
    (hp : (⟨(· == c), .one⟩ : Item) ∈ p) (hc : c ∉ line) : matchHere p line = none := by
  cases h : matchHere p line with
  | none => rfl
  | some ws => exact absurd (mem_of_matchHere h hp) hc

theorem not_mem_blank {w : List Char} {c : Char} (h : Blank w) (hc : Scan.isSpace c = false) :
    c ∉ w := fun hmem => by
  rw [(h c hmem).1] at hc
  cases hc

theorem HostLine.text_openmpi (l : HostLine .openmpi) :
    l.text = l.hostname ++ (l.field "slots=" l.slots ++ (l.field "max-slots=" l.maxslots ++
      l.behind)) := by
  have hnone : l.interface = none := by
    by_contra h
    cases (l.interface_ok h).1
  unfold HostLine.text
  rw [hnone, if_pos rfl]
  rfl

theorem openMpiLine_text (hplain : ∀ c ∈ l.hostname, isHostChar c = true) :
    openMpiLine l.text = (some l.hostname, some (some (l.slots.getD 1)), l.maximal) := by
  have hne := l.hostname_ok.ne_nil
  have hgap : l.gap ≠ [] ∧ Blank l.gap := l.gap_ok
  have hbehind : Blank l.behind := l.behind_ok
  have hdigits : ∀ n, ∀ c ∈ decimal n, c.isDigit = true := fun n c => isDigit_of_mem_decimal
  have hname : ∀ c, isHostChar c = false → c ∉ l.hostname := by
    intro c hc hmem
    rw [hplain c hmem] at hc
    cases hc
  rw [l.text_openmpi]
  unfold openMpiLine HostLine.maximal
  cases hslots : l.slots with
  | none =>
      have hmax : l.maxslots = none := by
        by_contra h
        exact (l.maxslots_ok h).2 hslots
      have hno : '=' ∉ l.hostname ++ l.behind := by
        rw [List.mem_append, not_or]
        exact ⟨hname _ (by decide), not_mem_blank hbehind (by decide)⟩
      have htext : l.hostname ++ (l.field "slots=" none ++ (l.field "max-slots=" none ++
          l.behind)) = l.hostname ++ l.behind := rfl
      rw [hmax, htext, not_match equals_mem_maxSlotsPattern hno,
        not_match equals_mem_slotsPattern hno, matchHost_append hplain hne (hostChar_head hbehind)]
      rfl
  | some n =>
      cases hmax : l.maxslots with
      | none =>
          have htext : l.hostname ++ (l.field "slots=" (some n) ++ (l.field "max-slots=" none ++
              l.behind)) =
              l.hostname ++ (l.gap ++ ("slots=".toList ++ (decimal n ++ l.behind))) := by
            simp [HostLine.field]
          have hno : '-' ∉
              l.hostname ++ (l.gap ++ ("slots=".toList ++ (decimal n ++ l.behind))) := by
            simp only [List.mem_append, not_or]
            exact ⟨hname _ (by decide), not_mem_blank hgap.2 (by decide), by decide,
              not_mem_decimal (by decide) n, not_mem_blank hbehind (by decide)⟩
          rw [htext, not_match dash_mem_maxSlotsPattern hno,
            matchHere_slots hplain hne hgap (hdigits n) (blank_head hbehind)]
          show (some l.hostname, some (tonumber (decimal n)), none) = _
          rw [tonumber_decimal]
          rfl
      | some m =>
          have htext : l.hostname ++ (l.field "slots=" (some n) ++
              (l.field "max-slots=" (some m) ++ l.behind)) =
              l.hostname ++ (l.gap ++ ("slots=".toList ++ (decimal n ++ (l.gap ++
                ("max-slots=".toList ++ (decimal m ++ l.behind)))))) := by
            simp [HostLine.field]
          rw [htext, matchHere_maxSlots hplain hne hgap hgap (hdigits n) (hdigits m)
            (blank_head hbehind)]
          show (some l.hostname, some (tonumber (decimal n)), some (tonumber (decimal m))) = _
          rw [tonumber_decimal, tonumber_decimal]
          rfl

theorem addToHost_hostnames {hostname : Option (List Char)} {slots maxslots : Option (Option ℕ)}
    {hosts' : List (HostEntry ℕ)} (h : addToHost hostname slots maxslots hosts = some hosts') :
    hosts'.map HostEntry.hostname = hosts.map HostEntry.hostname := by
  induction hosts generalizing hosts' with
  | nil =>
      obtain rfl := Option.some.inj h
      rfl
  | cons host hosts ih =>
      rw [addToHost] at h
      split at h
      · obtain ⟨s, -, h⟩ := Option.bind_eq_some_iff.mp h
        obtain ⟨m, -, h⟩ := Option.bind_eq_some_iff.mp h
        obtain rfl := Option.some.inj h
        rfl
      · obtain ⟨t, ht, rfl⟩ := Option.map_eq_some_iff.mp h
        rw [List.map_cons, List.map_cons, ih ht]

theorem addToHost_new {hostname : Option (List Char)} (slots maxslots : Option (Option ℕ))
    (h : hostname ∉ hosts.map HostEntry.hostname) :
    addToHost hostname slots maxslots hosts = some hosts := by
  induction hosts with
  | nil => rfl
  | cons host hosts ih =>
      rw [List.map_cons, List.mem_cons, not_or] at h
      rw [addToHost, if_neg fun heq => h.1 heq.symm, ih h.2]
      rfl

theorem foldlM_namesHost (lines : List (List Char)) (hosts : List (HostEntry ℕ)) :
    lines.foldlM openMpiStep hosts = (lines.filter namesHost).foldlM openMpiStep hosts := by
  induction lines generalizing hosts with
  | nil => rfl
  | cons line lines ih =>
      rw [List.filter_cons]
      by_cases hline : namesHost line = true
      · rw [if_pos hline, List.foldlM_cons, List.foldlM_cons]
        exact congrArg _ (funext ih)
      · rw [if_neg hline, List.foldlM_cons, openMpiStep, if_neg hline]
        exact ih hosts

/-- **Every line that names a host has an entry of its own.** -/
theorem foldlM_hostnames {lines : List (List Char)} {hosts' : List (HostEntry ℕ)}
    (hlines : ∀ line ∈ lines, namesHost line = true)
    (h : lines.foldlM openMpiStep hosts = some hosts') :
    hosts'.map HostEntry.hostname =
      hosts.map HostEntry.hostname ++ lines.map fun line => (openMpiLine line).1 := by
  induction lines generalizing hosts with
  | nil =>
      obtain rfl := Option.some.inj h
      simp
  | cons line lines ih =>
      obtain ⟨hline, hlines⟩ := List.forall_mem_cons.mp hlines
      rw [List.foldlM_cons] at h
      obtain ⟨t, ht, h⟩ := Option.bind_eq_some_iff.mp h
      rw [openMpiStep, if_pos hline] at ht
      obtain ⟨t', ht', ht⟩ := Option.bind_eq_some_iff.mp ht
      obtain rfl := Option.some.inj ht
      rw [ih hlines h, List.map_append, addToHost_hostnames ht', List.map_cons, List.append_assoc]
      rfl

/-- The entry of a line, as it is put into the list -/
def HostLine.newEntry (l : HostLine .openmpi) : HostEntry ℕ :=
  { hostname := some l.hostname, slots := some (l.slots.getD 1), maxslots := l.maximal.join }

/-- Different hosts get their entries one after the other. -/
theorem foldlM_newEntry {ls : List (HostLine .openmpi)}
    (hplain : ∀ l ∈ ls, ∀ c ∈ l.hostname, isHostChar c = true)
    (hnodup : (ls.map HostLine.hostname).Nodup)
    (hnew : ∀ l ∈ ls, some l.hostname ∉ hosts.map HostEntry.hostname) :
    (ls.map HostLine.text).foldlM openMpiStep hosts = some (hosts ++ ls.map HostLine.newEntry) := by
  induction ls generalizing hosts with
  | nil => simp
  | cons l ls ih =>
      obtain ⟨hl, hls⟩ := List.forall_mem_cons.mp hplain
      obtain ⟨hl', hls'⟩ := List.forall_mem_cons.mp hnew
      rw [List.map_cons, List.nodup_cons] at hnodup
      have hnames : namesHost l.text = true := namesHost_text (.host l)
      have hstep : openMpiStep hosts l.text = some (hosts ++ [l.newEntry]) := by
        rw [openMpiStep, if_pos hnames, openMpiLine_text hl]
        show (do let hosts ← addToHost _ _ _ hosts; _) = _
        rw [addToHost_new _ _ hl']
        rfl
      rw [List.map_cons, List.foldlM_cons, hstep]
      show (ls.map HostLine.text).foldlM openMpiStep (hosts ++ [l.newEntry]) = _
      rw [ih hls hnodup.2, List.append_assoc]
      · rfl
      · intro l' hmem
        rw [List.map_append, List.mem_append, not_or]
        refine ⟨hls' l' hmem, fun h => hnodup.1 ?_⟩
        have heq : l'.hostname = l.hostname := by simpa [HostLine.newEntry] using h
        exact heq ▸ List.mem_map_of_mem hmem

/-- The entry of a line in the result -/
def HostLine.entry (numHWThreads : ℕ) (l : HostLine .openmpi) : HostEntry LuaValue :=
  HostEntry.toLua { l.newEntry with
    slots := orThreads numHWThreads l.newEntry.slots
    maxslots := orThreads numHWThreads l.newEntry.maxslots }

/-- **Different hosts with plain names are read as they are.** -/
theorem readHostfileOpenMPI_distinct {numHWThreads : ℕ} (hplain : PlainNames file)
    (hnodup : (hostnames file).Nodup) :
    readHostfileOpenMPI numHWThreads (hostFileText file) =
      some ((hostLines file).map (HostLine.entry numHWThreads)) := by
  have hloop : ((hostLines file).map HostLine.text).foldlM openMpiStep [] = some ([] ++ _) :=
    foldlM_newEntry (fun l hl => hplain l.hostname (List.mem_map_of_mem hl)) hnodup (by simp)
  unfold readHostfileOpenMPI
  rw [foldlM_namesHost, filter_namesHost, hloop]
  show some (List.map _ (List.map _ _)) = _
  rw [List.map_map]
  rfl

/-! ### Writing -/

theorem unlines_eq (ws : List (List Char)) :
    unlines ws = ['\n'].intercalate (ws ++ [[]]) := by
  induction ws with
  | nil => rfl
  | cons w ws ih =>
      have hcons : ws ++ [[]] = (ws ++ [[]]).headD [] :: (ws ++ [[]]).tail := by
        cases ws <;> rfl
      rw [List.cons_append, hcons, List.intercalate_cons_cons, ← hcons, ← ih]
      simp [unlines]

theorem orThreads_isSome (numHWThreads : ℕ) (slots : Option ℕ) :
    ∃ m, orThreads numHWThreads slots = some m := by
  unfold orThreads
  split
  · exact ⟨_, rfl⟩
  · next h =>
      obtain ⟨hnone, -⟩ := not_or.mp h
      exact Option.ne_none_iff_exists'.mp hnone

/-- The line that is written for an entry -/
def HostLine.written (numHWThreads : ℕ) (l : HostLine .openmpi) : HostLine .openmpi where
  hostname := l.hostname
  slots := some (l.slots.getD 1)
  maxslots := some ((orThreads numHWThreads l.maximal.join).getD 0)
  hostname_ok := l.hostname_ok
  slots_ok := by simp
  maxslots_ok _ := ⟨rfl, by simp⟩
  interface_ok h := absurd rfl h
  letters_ok := by simp
  gap_ok := ⟨by simp, by simp [Scan.isSpace]⟩
  behind_ok := by simp

theorem orThreads_slots {numHWThreads : ℕ} (hl : l.slots ≠ some 0) :
    orThreads numHWThreads (some (l.slots.getD 1)) = some (l.slots.getD 1) := by
  rw [orThreads, if_neg]
  rintro (h | h)
  · cases h
  · cases hs : l.slots with
    | none => simp [hs] at h
    | some n =>
        rw [hs] at h hl
        exact hl h

theorem openMpiText_entry {numHWThreads : ℕ} (hl : l.slots ≠ some 0) :
    openMpiText (l.entry numHWThreads) = some (l.written numHWThreads).text := by
  obtain ⟨m, hm⟩ := orThreads_isSome numHWThreads l.maximal.join
  have hentry : l.entry numHWThreads =
      { hostname := some l.hostname, slots := some (.number (l.slots.getD 1)),
        maxslots := some (.number m), interface := none } := by
    unfold HostLine.entry HostEntry.toLua HostLine.newEntry
    dsimp only
    rw [orThreads_slots hl, hm]
    rfl
  rw [hentry, (l.written numHWThreads).text_openmpi]
  show some (l.hostname ++ (" slots=".toList ++ decimal (l.slots.getD 1)) ++
    (" max-slots=".toList ++ decimal m)) = some (l.hostname ++
      ([' '] ++ "slots=".toList ++ decimal (l.slots.getD 1) ++ ([' '] ++ "max-slots=".toList ++
        decimal ((orThreads numHWThreads l.maximal.join).getD 0) ++ [])))
  rw [hm]
  simp

/-- The file that is written -/
def writtenFile (numHWThreads : ℕ) (file : List (FileLine .openmpi)) : List (FileLine .openmpi) :=
  ((hostLines file).map fun l => .host (l.written numHWThreads)) ++ [.blank [] (by simp)]

theorem hostLines_written (numHWThreads : ℕ) (file : List (FileLine .openmpi)) :
    hostLines (writtenFile numHWThreads file) =
      (hostLines file).map (HostLine.written numHWThreads) := by
  unfold writtenFile
  rw [hostLines, List.filterMap_append, List.filterMap_map]
  simp [FileLine.host?, Function.comp_def]

theorem writeHostfile_entries {numHWThreads : ℕ} (hslots : ∀ l ∈ hostLines file, l.slots ≠ some 0) :
    writeHostfile openMpiText ((hostLines file).map (HostLine.entry numHWThreads)) =
      some (hostFileText (writtenFile numHWThreads file)) := by
  have hmap : ((hostLines file).map (HostLine.entry numHWThreads)).mapM openMpiText =
      some ((hostLines file).map fun l => (l.written numHWThreads).text) := by
    generalize hostLines file = ls at hslots
    induction ls with
    | nil => rfl
    | cons l ls ih =>
        obtain ⟨hl, hls⟩ := List.forall_mem_cons.mp hslots
        rw [List.map_cons, List.mapM_cons, openMpiText_entry hl, ih hls]
        rfl
  rw [writeHostfile, hmap, Option.map_some, unlines_eq, hostFileText, writtenFile, List.map_append,
    List.map_map]
  rfl

theorem entry_slots {numHWThreads : ℕ} (hl : l.slots ≠ some 0) :
    (l.entry numHWThreads).slots = some (.number (l.slots.getD 1)) := by
  show Option.map _ (orThreads numHWThreads (some (l.slots.getD 1))) = _
  rw [orThreads_slots hl]
  rfl

theorem written_slots {numHWThreads : ℕ} (hl : l.slots ≠ some 0) :
    (l.written numHWThreads).slots ≠ some 0 := by
  show some (l.slots.getD 1) ≠ some 0
  cases hs : l.slots with
  | none => simp
  | some n =>
      rw [hs] at hl
      exact hl

/-- **The reader for OpenMPI** is right if the hosts are all different. -/
theorem lawful_openmpi {numHWThreads : ℕ} (hplain : PlainNames file)
    (hnodup : (hostnames file).Nodup) (hslots : ∀ l ∈ hostLines file, l.slots ≠ some 0) :
    Lawful numHWThreads file ((hostLines file).map (HostLine.entry numHWThreads)) := by
  have hnames : hostnames (writtenFile numHWThreads file) = hostnames file := by
    rw [hostnames, hostLines_written, List.map_map]
    rfl
  constructor
  · rw [hnodup.dedup, hostnames, List.map_map, List.map_map]
    exact List.Perm.refl _
  · intro host hhost name hname
    obtain ⟨l, hl, rfl⟩ := List.mem_map.mp hhost
    obtain rfl : l.hostname = name := Option.some.inj hname
    rw [entry_slots (hslots l hl), slotsOf, Merging.weightOf_of_nodup hnodup hl]
    rfl
  · intro write hwrite
    obtain rfl : writeHostfile openMpiText = write := Option.some.inj hwrite
    refine ⟨_, _, writeHostfile_entries hslots, readHostfileOpenMPI_distinct ?_ ?_, ?_⟩
    · unfold PlainNames
      rw [hnames]
      exact hplain
    · rw [hnames]
      exact hnodup
    · rw [hostLines_written, List.map_map, List.map_map, List.map_map]
      refine List.map_congr_left fun l hl => ?_
      show (some l.hostname, ((l.written numHWThreads).entry numHWThreads).slots) =
        (some l.hostname, (l.entry numHWThreads).slots)
      rw [entry_slots (hslots l hl), entry_slots (written_slots (hslots l hl))]
      rfl

/-- What a lawful list of the OpenMPI reader says about its file -/
theorem distinct_of_lawful {numHWThreads : ℕ} {result : List (HostEntry LuaValue)}
    (hpos : 0 < numHWThreads)
    (hread : readHostfileOpenMPI numHWThreads (hostFileText file) = some result)
    (h : Lawful numHWThreads file result) :
    PlainNames file ∧ (hostnames file).Nodup ∧ ∀ l ∈ hostLines file, l.slots ≠ some 0 := by
  obtain ⟨hosts, hhosts, hresult⟩ := Option.bind_eq_some_iff.mp hread
  obtain rfl := Option.some.inj hresult
  rw [foldlM_namesHost, filter_namesHost] at hhosts
  have hnames := foldlM_hostnames (fun line hline => by
    obtain ⟨l, -, rfl⟩ := List.mem_map.mp hline
    exact namesHost_text (.host l)) hhosts
  rw [List.map_nil, List.nil_append, List.map_map] at hnames
  have honce := h.once
  rw [List.map_map] at honce
  have hsame : (hosts.map fun host => (HostEntry.toLua { host with
      slots := orThreads numHWThreads host.slots
      maxslots := orThreads numHWThreads host.maxslots }).hostname) =
      hosts.map HostEntry.hostname := rfl
  have hperm : ((hostLines file).map fun l => (openMpiLine l.text).1).Perm
      ((hostnames file).dedup.map some) := by
    rw [show ((hostLines file).map fun l => (openMpiLine l.text).1) =
      hosts.map HostEntry.hostname from hnames.symm, ← hsame]
    exact honce
  have hnodup : (hostnames file).Nodup := by
    have hlen := hperm.length_eq
    rw [List.length_map, List.length_map] at hlen
    have hlen' : (hostnames file).dedup.length = (hostnames file).length := by
      rw [← hlen, hostnames, List.length_map]
    rw [← (List.dedup_sublist (hostnames file)).eq_of_length hlen']
    exact List.nodup_dedup _
  have hplain : PlainNames file := by
    intro name hname
    have hmem := hperm.mem_iff.mpr (List.mem_map_of_mem (List.mem_dedup.mpr hname))
    obtain ⟨l, -, hl⟩ := List.mem_map.mp hmem
    exact openMpiLine_plain l.text name hl
  refine ⟨hplain, hnodup, fun l hl hzero => ?_⟩
  have hdistinct : readHostfileOpenMPI numHWThreads (hostFileText file) = _ :=
    readHostfileOpenMPI_distinct hplain hnodup
  rw [hread] at hdistinct
  have hmem : l.entry numHWThreads ∈ _ :=
    (Option.some.inj hdistinct) ▸ List.mem_map_of_mem (f := HostLine.entry numHWThreads) hl
  have hslots := h.slots _ hmem l.hostname rfl
  have hthreads : (l.entry numHWThreads).slots = some (.number numHWThreads) := by
    show Option.map _ (orThreads numHWThreads (some (l.slots.getD 1))) = _
    rw [hzero]
    rfl
  have hcount : slotsOf numHWThreads file l.hostname = 0 := by
    rw [slotsOf, Merging.weightOf_of_nodup hnodup hl, HostLine.count, hzero]
    rfl
  rw [hthreads, hcount] at hslots
  have hzero' : numHWThreads = 0 := by simpa using hslots
  omega

end OpenMpi

/-! ## The batch system -/

section Pbs

variable {file : List (FileLine .pbs)} {names order : List (List Char)}
  {hosts : List (HostEntry ℕ)} {count : List Char → ℕ}

/-- A host with as many processes as are counted for it -/
def counted (count : List Char → ℕ) (name : List Char) : HostEntry ℕ :=
  { hostname := some name, slots := some (count name), maxslots := some (count name) }

theorem pbsAdd_counted (hnodup : order.Nodup) {w : List Char} (hzero : w ∉ order → count w = 0) :
    pbsAdd (some w) (order.map (counted count)) =
      (if w ∈ order then order else order ++ [w]).map
        (counted fun name => count name + if name = w then 1 else 0) := by
  induction order with
  | nil => simp [pbsAdd, counted, hzero List.not_mem_nil]
  | cons name order ih =>
      obtain ⟨hname, hnodup⟩ := List.nodup_cons.mp hnodup
      rw [List.map_cons, pbsAdd]
      by_cases heq : name = w
      · subst heq
        have hrest : ∀ other ∈ order, counted count other =
            counted (fun n => count n + if n = name then 1 else 0) other := by
          intro other hother
          have hne : other ≠ name := fun h => hname (h ▸ hother)
          simp [counted, hne]
        rw [if_pos List.mem_cons_self, List.map_cons, List.map_congr_left hrest]
        simp [counted]
      · have hsome : (counted count name).hostname ≠ some w := fun h => heq (Option.some.inj h)
        have hmem : w ∈ name :: order ↔ w ∈ order := by simp [Ne.symm heq]
        have hhead : counted count name =
            counted (fun n => count n + if n = w then 1 else 0) name := by
          simp [counted, heq]
        rw [if_neg hsome, ih hnodup fun h => hzero (fun h' => h (hmem.mp h')), hhead]
        by_cases hw : w ∈ order
        · rw [if_pos hw, if_pos (hmem.mpr hw), List.map_cons]
        · rw [if_neg hw, if_neg (fun h => hw (hmem.mp h)), List.cons_append, List.map_cons]

/-- **The loop counts** how often each name occurs. -/
theorem foldl_pbsAdd (names : List (List Char)) :
    ∃ order : List (List Char), order.Nodup ∧ (∀ name, name ∈ order ↔ name ∈ names) ∧
      names.foldl (fun hosts name => pbsAdd (some name) hosts) [] =
        order.map (counted fun name => names.count name) := by
  induction names using List.reverseRecOn with
  | nil => exact ⟨[], List.nodup_nil, fun name => Iff.rfl, rfl⟩
  | append_singleton names w ih =>
      obtain ⟨order, hnodup, hmem, hfold⟩ := ih
      have hzero : w ∉ order → names.count w = 0 := fun h =>
        List.count_eq_zero.mpr fun h' => h ((hmem w).mpr h')
      have hcount : (fun name => names.count name + if name = w then 1 else 0) =
          fun name => (names ++ [w]).count name := by
        funext name
        rw [List.count_append, List.count_singleton]
        by_cases h : name = w
        · simp [h]
        · simp [h, Ne.symm h]
      rw [List.foldl_append, hfold]
      show ∃ order', _ ∧ _ ∧ pbsAdd (some w) (order.map _) = _
      rw [pbsAdd_counted hnodup hzero, hcount]
      refine ⟨_, ?_, ?_, rfl⟩
      · split
        · exact hnodup
        · next hw => exact List.nodup_append_comm.mp (List.nodup_cons.mpr ⟨hw, hnodup⟩)
      · intro name
        rw [List.mem_append, List.mem_singleton, ← hmem name]
        split
        · next hw =>
            constructor
            · exact Or.inl
            · rintro (h | rfl)
              · exact h
              · exact hw
        · rw [List.mem_append, List.mem_singleton]

theorem HostLine.text_pbs (l : HostLine .pbs) : l.text = l.hostname ++ l.behind := by
  have hslots : l.slots = none := l.slots_ok rfl
  have hmax : l.maxslots = none := by
    by_contra h
    cases (l.maxslots_ok h).1
  have hinterface : l.interface = none := by
    by_contra h
    cases (l.interface_ok h).1
  unfold HostLine.text
  rw [hslots, hmax, hinterface]
  rfl

theorem matchHost_text {l : HostLine .pbs} (hplain : ∀ c ∈ l.hostname, isHostChar c = true) :
    matchHost l.text = some l.hostname := by
  rw [l.text_pbs]
  exact matchHost_append hplain l.hostname_ok.ne_nil (hostChar_head l.behind_ok)

theorem slotsOf_pbs (numHWThreads : ℕ) (file : List (FileLine .pbs)) (name : List Char) :
    slotsOf numHWThreads file name = (hostnames file).count name := by
  unfold slotsOf hostnames
  induction hostLines file with
  | nil => rfl
  | cons l ls ih =>
      have hone : l.count numHWThreads = 1 := by
        rw [HostLine.count, l.slots_ok rfl]
        rfl
      rw [Merging.weightOf_cons, ih, List.map_cons, List.count_cons, hone, Nat.add_comm]
      simp

theorem lawful_pbs {numHWThreads : ℕ} (hplain : PlainNames file) :
    Lawful numHWThreads file (readHostfilePBS (hostFileText file)) := by
  have hloop : ∀ ls : List (HostLine .pbs),
      (∀ l ∈ ls, ∀ c ∈ l.hostname, isHostChar c = true) → ∀ hosts,
      (ls.map HostLine.text).foldl (fun hosts line => pbsAdd (matchHost line) hosts) hosts =
        (ls.map HostLine.hostname).foldl (fun hosts name => pbsAdd (some name) hosts) hosts := by
    intro ls
    induction ls with
    | nil => exact fun _ _ => rfl
    | cons l ls ih =>
        intro hls hosts
        obtain ⟨hl, hls⟩ := List.forall_mem_cons.mp hls
        rw [List.map_cons, List.foldl_cons, matchHost_text hl, ih hls]
        rfl
  obtain ⟨order, hnodup, hmem, hfold⟩ := foldl_pbsAdd (hostnames file)
  have hread : readHostfilePBS (hostFileText file) =
      (order.map (counted fun name => (hostnames file).count name)).map HostEntry.toLua := by
    rw [readHostfilePBS, filter_namesHost,
      hloop _ fun l hl => hplain l.hostname (List.mem_map_of_mem hl), ← hostnames, hfold]
  rw [hread]
  constructor
  · have hperm : order.Perm (hostnames file).dedup :=
      (List.perm_ext_iff_of_nodup hnodup (List.nodup_dedup _)).mpr fun name => by
        rw [hmem, List.mem_dedup]
    rw [List.map_map, List.map_map]
    exact hperm.map some
  · intro host hhost name hname
    rw [List.map_map] at hhost
    obtain ⟨other, -, rfl⟩ := List.mem_map.mp hhost
    obtain rfl : other = name := Option.some.inj hname
    rw [slotsOf_pbs]
    rfl
  · intro write hwrite
    cases hwrite

theorem mem_pbsAdd {hostname : Option (List Char)} {host : HostEntry ℕ}
    (h : host ∈ pbsAdd hostname hosts) :
    host.hostname = hostname ∨ host.hostname ∈ hosts.map HostEntry.hostname := by
  induction hosts with
  | nil =>
      obtain rfl := List.mem_singleton.mp h
      exact Or.inl rfl
  | cons first hosts ih =>
      rw [pbsAdd] at h
      split at h
      · next heq =>
          rcases List.mem_cons.mp h with rfl | h
          · exact Or.inl heq
          · exact Or.inr (List.mem_cons_of_mem _ (List.mem_map_of_mem h))
      · rcases List.mem_cons.mp h with rfl | h
        · exact Or.inr List.mem_cons_self
        · exact (ih h).imp_right (List.mem_cons_of_mem _)

theorem plainNames_of_lawful_pbs {numHWThreads : ℕ}
    (h : Lawful numHWThreads file (readHostfilePBS (hostFileText file))) : PlainNames file := by
  have hloop : ∀ (lines : List (List Char)) (hosts : List (HostEntry ℕ)),
      (∀ host ∈ hosts, ∀ w ∈ host.hostname, ∀ c ∈ w, isHostChar c = true) →
      ∀ host ∈ lines.foldl (fun hosts line => pbsAdd (matchHost line) hosts) hosts,
        ∀ w ∈ host.hostname, ∀ c ∈ w, isHostChar c = true := by
    intro lines
    induction lines with
    | nil => exact fun _ h => h
    | cons line lines ih =>
        intro hosts hhosts
        refine ih _ fun host hhost => ?_
        rcases mem_pbsAdd hhost with heq | hmem
        · rw [heq]
          exact matchHost_plain line
        · obtain ⟨other, hother, heq⟩ := List.mem_map.mp hmem
          rw [← heq]
          exact hhosts other hother
  intro name hname
  have hmem := h.once.mem_iff.mpr (List.mem_map_of_mem (List.mem_dedup.mpr hname))
  obtain ⟨result, hresult, hhostname⟩ := List.mem_map.mp hmem
  obtain ⟨host, hhost, rfl⟩ := List.mem_map.mp hresult
  exact hloop _ [] (fun host h => absurd h List.not_mem_nil) host hhost name hhostname

end Pbs

/-! ## Intel MPI and MVAPICH2 -/

section Colon

variable {format : HostFormat} {file : List (FileLine format)}
  {line : List Char → HostEntry LuaValue} {text : HostEntry LuaValue → Option (List Char)}

/-- A host and its slots as they are written -/
def slotsLine (p : List Char × ℕ) : List Char := p.1 ++ ':' :: decimal p.2

def Plain (w : List Char) : Prop := w ≠ [] ∧ ∀ c ∈ w, isHostChar c = true

theorem Plain.namesHost {p : List Char × ℕ} (h : Plain p.1) : namesHost (slotsLine p) = true := by
  obtain ⟨hne, hplain⟩ := h
  obtain ⟨c, w, hcw⟩ := List.exists_cons_of_ne_nil hne
  have hc : isHostChar c = true := hplain c (by simp [hcw])
  have hhash : c ≠ '#' := by
    rintro rfl
    exact absurd hc (by decide)
  simp [Likwid.namesHost, slotsLine, hcw, hhash, space_of_hostChar hc]

theorem Plain.not_newline {p : List Char × ℕ} (h : Plain p.1) : '\n' ∉ slotsLine p := by
  rw [slotsLine, List.mem_append, List.mem_cons, not_or, not_or]
  refine ⟨fun hmem => ?_, by decide, not_mem_decimal (by decide) _⟩
  exact absurd (h.2 _ hmem) (by decide)

theorem mapM_slotsLine {hosts : List (HostEntry LuaValue)}
    (h : ∀ host ∈ hosts, ∃ p : List Char × ℕ, Plain p.1 ∧ text host = some (slotsLine p)) :
    ∃ ps : List (List Char × ℕ), (∀ p ∈ ps, Plain p.1) ∧ ps.length = hosts.length ∧
      hosts.mapM text = some (ps.map slotsLine) := by
  induction hosts with
  | nil => exact ⟨[], by simp, rfl, rfl⟩
  | cons host hosts ih =>
      obtain ⟨⟨p, hp, htext⟩, hhosts⟩ := List.forall_mem_cons.mp h
      obtain ⟨ps, hps, hlen, hmap⟩ := ih hhosts
      refine ⟨p :: ps, List.forall_mem_cons.mpr ⟨hp, hps⟩, by simp [hlen], ?_⟩
      rw [List.mapM_cons, htext, hmap]
      rfl

/-- What is written is read line by line. -/
theorem filter_slotsLines {ps : List (List Char × ℕ)} (hps : ∀ p ∈ ps, Plain p.1) :
    (stringsplit (unlines (ps.map slotsLine)) '\n').filter namesHost = ps.map slotsLine := by
  have hlines : ∀ s ∈ ps.map slotsLine ++ [[]], '\n' ∉ s := by
    intro s hs
    rcases List.mem_append.mp hs with hs | hs
    · obtain ⟨p, hp, rfl⟩ := List.mem_map.mp hs
      exact (hps p hp).not_newline
    · obtain rfl := List.mem_singleton.mp hs
      exact List.not_mem_nil
  rw [unlines_eq, stringsplit_lines hlines, List.filter_append,
    List.filter_eq_self.mpr fun s hs => ?_]
  · simp [namesHost]
  · obtain ⟨p, hp, rfl⟩ := List.mem_map.mp hs
    exact (hps p hp).namesHost

/-- **Slots that come back as text** are not those of any host. -/
theorem hostnames_eq_nil {numHWThreads : ℕ}
    (hread : ∀ t, format.read numHWThreads t =
      some (((stringsplit t '\n').filter namesHost).map line))
    (hwrite : format.write? = some (writeHostfile text))
    (hplain : ∀ s, ∀ w ∈ (line s).hostname, ∀ c ∈ w, isHostChar c = true)
    (htext : ∀ s w n, (line s).hostname = some w → (line s).slots = some (.number n) →
      text (line s) = some (slotsLine (w, n)))
    (hback : ∀ p : List Char × ℕ, Plain p.1 →
      ∃ s, (line (slotsLine p)).slots = some (.text s))
    {result : List (HostEntry LuaValue)}
    (hresult : format.read numHWThreads (hostFileText file) = some result)
    (h : Lawful numHWThreads file result) : hostnames file = [] := by
  rw [hread] at hresult
  obtain rfl := Option.some.inj hresult
  generalize hhosts : ((stringsplit (hostFileText file) '\n').filter namesHost).map line = hosts
    at h
  have hnumber : ∀ host ∈ hosts, ∃ w ∈ hostnames file, ∃ n, host.hostname = some w ∧
      host.slots = some (.number n) := by
    intro host hhost
    obtain ⟨w, hw, hname⟩ := List.mem_map.mp (h.once.mem_iff.mp (List.mem_map_of_mem hhost))
    exact ⟨w, List.mem_dedup.mp hw, _, hname.symm, h.slots host hhost w hname.symm⟩
  have hwritten : ∀ host ∈ hosts, ∃ p : List Char × ℕ, Plain p.1 ∧
      text host = some (slotsLine p) := by
    intro host hhost
    obtain ⟨w, hw, n, hname, hslots⟩ := hnumber host hhost
    obtain ⟨l, -, rfl⟩ := List.mem_map.mp hw
    obtain ⟨s, -, rfl⟩ := List.mem_map.mp (hhosts ▸ hhost)
    exact ⟨(l.hostname, n), ⟨l.hostname_ok.ne_nil, hplain s _ hname⟩, htext s _ n hname hslots⟩
  obtain ⟨ps, hps, hlen, hmap⟩ := mapM_slotsLine hwritten
  obtain ⟨t, hosts', ht, hread', hsame⟩ := h.readBack _ hwrite
  have hunlines : unlines (ps.map slotsLine) = t := by
    rw [writeHostfile, hmap] at ht
    exact Option.some.inj ht
  rw [hread, ← hunlines, filter_slotsLines hps] at hread'
  obtain rfl := Option.some.inj hread'
  -- a first entry has its slots as text and as a number
  cases hps' : ps with
  | nil =>
      rw [hps'] at hlen
      have hnil : hosts = [] := List.length_eq_zero_iff.mp hlen.symm
      have honce := h.once
      rw [hnil, List.map_nil] at honce
      have hdedup : (hostnames file).dedup = [] := List.map_eq_nil_iff.mp honce.nil_eq.symm
      exact List.eq_nil_iff_forall_not_mem.mpr fun w hw =>
        List.not_mem_nil (hdedup ▸ List.mem_dedup.mpr hw)
  | cons p ps' =>
      obtain ⟨s, hs⟩ := hback p (hps p (by simp [hps']))
      have hmem : ((line (slotsLine p)).hostname, (line (slotsLine p)).slots) ∈
          hosts.map fun host => (host.hostname, host.slots) := by
        rw [← hsame, hps']
        simp
      obtain ⟨host, hhost, heq⟩ := List.mem_map.mp hmem
      obtain ⟨w, -, n, -, hslots⟩ := hnumber host hhost
      obtain ⟨-, heq⟩ := Prod.mk.inj heq
      rw [hslots, hs] at heq
      cases Option.some.inj heq

theorem matchHere_slotsLine {p : List Char × ℕ} (h : Plain p.1) :
    matchHere colonPattern (slotsLine p) = some [p.1, [':'], decimal p.2] := by
  have hmatch := matchHere_colon h.2 h.1 (fun c => isDigit_of_mem_decimal) (decimal_ne_nil p.2)
    (rfl : ([] : List Char).head?.all (!Char.isDigit ·) = true)
  rwa [List.append_nil] at hmatch

theorem intelMpi_eq_nil {file : List (FileLine .intelmpi)} {numHWThreads : ℕ}
    (h : Lawful numHWThreads file (readHostfileIntelMPI numHWThreads (hostFileText file))) :
    hostnames file = [] := by
  refine hostnames_eq_nil (fun t => rfl) rfl (intelMpiLine_plain numHWThreads) ?_ ?_ rfl h
  · intro s w n hname hslots
    rw [intelMpiText, hname, hslots]
    rfl
  · intro p hp
    rw [intelMpiLine, matchHere_slotsLine hp]
    exact ⟨_, rfl⟩

theorem mvapich2_eq_nil {file : List (FileLine .mvapich2)} {numHWThreads : ℕ}
    (h : Lawful numHWThreads file (readHostfileMvapich2 (hostFileText file))) :
    hostnames file = [] := by
  refine hostnames_eq_nil (fun t => rfl) rfl mvapich2Line_plain ?_ ?_ rfl h
  · intro s w n hname hslots
    have hinterface : (mvapich2Line s).interface = none := by
      revert hslots
      unfold mvapich2Line
      split
      · next ws hws =>
          intro hslots
          obtain ⟨v, -, hv⟩ := Option.map_eq_some_iff.mp hslots
          cases hv
      · split
        · exact fun _ => rfl
        · exact fun _ => rfl
    rw [mvapich2Text, hname, hslots, hinterface]
    show some (_ ++ _ ++ []) = _
    rw [List.append_nil]
    rfl
  · intro p hp
    unfold mvapich2Line
    split
    · next ws hws =>
        obtain ⟨t, ht, hfits⟩ := matchHere_sound hws
        have hlen : 2 < ws.length := by
          rw [← hfits.length_eq]
          decide
        exact ⟨ws[2], by rw [List.getElem?_eq_getElem hlen]; rfl⟩
    · rw [matchHere_slotsLine hp]
      exact ⟨_, rfl⟩

theorem lawful_nil {numHWThreads : ℕ} (hread : format.read numHWThreads [] = some [])
    (hwrite : ∀ write ∈ format.write?, write [] = some []) (h : hostnames file = []) :
    Lawful numHWThreads file [] := by
  constructor
  · rw [h]
    exact List.Perm.refl _
  · exact fun host hhost => absurd hhost List.not_mem_nil
  · exact fun write hw => ⟨[], [], hwrite write hw, hread, rfl⟩

theorem filter_nil (h : hostnames file = []) :
    (stringsplit (hostFileText file) '\n').filter namesHost = [] := by
  rw [filter_namesHost, List.map_eq_nil_iff.mp h]
  rfl

end Colon

/-! ## All formats -/

/-- **A host file is read by the law** just in these cases. -/
theorem lawful_iff {format : HostFormat} {numHWThreads : ℕ} (hpos : 0 < numHWThreads)
    (file : List (FileLine format)) :
    (∃ hosts, format.read numHWThreads (hostFileText file) = some hosts ∧
      Lawful numHWThreads file hosts) ↔ LawfulWhen file := by
  cases format with
  | openmpi =>
      constructor
      · rintro ⟨hosts, hread, h⟩
        exact distinct_of_lawful hpos hread h
      · rintro ⟨hplain, hnodup, hslots⟩
        exact ⟨_, readHostfileOpenMPI_distinct hplain hnodup, lawful_openmpi hplain hnodup hslots⟩
  | intelmpi =>
      constructor
      · rintro ⟨hosts, hread, h⟩
        obtain rfl := Option.some.inj hread
        exact intelMpi_eq_nil h
      · intro h
        refine ⟨[], ?_, lawful_nil rfl (fun write hw => ?_) h⟩
        · show some (List.map _ _) = _
          rw [filter_nil h]
          rfl
        · obtain rfl : writeHostfile intelMpiText = write := Option.some.inj hw
          rfl
  | mvapich2 =>
      constructor
      · rintro ⟨hosts, hread, h⟩
        obtain rfl := Option.some.inj hread
        exact mvapich2_eq_nil h
      · intro h
        refine ⟨[], ?_, lawful_nil rfl (fun write hw => ?_) h⟩
        · show some (List.map _ _) = _
          rw [filter_nil h]
          rfl
        · obtain rfl : writeHostfile mvapich2Text = write := Option.some.inj hw
          rfl
  | pbs =>
      constructor
      · rintro ⟨hosts, hread, h⟩
        obtain rfl := Option.some.inj hread
        exact plainNames_of_lawful_pbs h
      · exact fun h => ⟨_, rfl, lawful_pbs h⟩

/-! ## A host on two lines -/

/-- `n1 slots=2` -/
def firstNode : HostLine .openmpi where
  hostname := "n1".toList
  slots := some 2
  hostname_ok := ⟨by decide, by simp [Scan.isSpace], by decide, by decide⟩
  slots_ok h := nomatch h
  maxslots_ok h := absurd rfl h
  interface_ok h := absurd rfl h
  letters_ok := by simp
  gap_ok := ⟨by decide, by simp [Scan.isSpace]⟩
  behind_ok := by simp

def oneNode : List (FileLine .openmpi) := [.comment " nodes".toList (by decide), .host firstNode]

def nodeTwice : List (FileLine .openmpi) := [.host firstNode, .host firstNode]

theorem lawful_oneNode : 0 < 4 ∧ ∃ hosts,
    HostFormat.read 4 .openmpi (hostFileText oneNode) = some hosts ∧ Lawful 4 oneNode hosts := by
  refine ⟨by decide, (lawful_iff (by decide) oneNode).mpr ⟨?_, by decide, by decide⟩⟩
  intro name hname
  obtain rfl : name = "n1".toList := List.mem_singleton.mp hname
  exact List.all_eq_true.mp (by decide)

/-- The host is there twice, with all its slots and with those of its last line. -/
theorem not_lawful_nodeTwice : ¬∃ hosts,
    HostFormat.read 4 .openmpi (hostFileText nodeTwice) = some hosts ∧
      Lawful 4 nodeTwice hosts := by
  have hread : (HostFormat.read 4 .openmpi (hostFileText nodeTwice)).map
      (List.map fun host => (host.hostname, host.slots)) =
      some [(some "n1".toList, some (.number 4)), (some "n1".toList, some (.number 2))] := by
    decide +kernel
  rintro ⟨hosts, hhosts, h⟩
  rw [hhosts] at hread
  have hlen := congrArg List.length (Option.some.inj hread)
  have honce := h.once.length_eq
  rw [List.length_map] at hlen honce
  have hone : ((hostnames nodeTwice).dedup.map some).length = 1 := by decide
  rw [hlen, hone] at honce
  cases honce

end Likwid
