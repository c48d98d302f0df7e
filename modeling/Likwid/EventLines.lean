import Likwid.Lib.Pattern
import Mathlib.Data.List.Basic
import Mathlib.Data.List.DropRight

/-!
# The lines of an event description (`gen_events.pl`)

The script goes through the lines with unanchored patterns. A line is read as what it was written
as, except that a `UMASK` line with three numbers is taken for an `EVENT` line if `EVENT_` stands
in its key.
-/

namespace Likwid

open Pattern

/-! ## The script -/

def isKeyChar (c : Char) : Bool := c.isUpper || c.isDigit || c == '_'

/-- `[A-F0-9]` -/
def isHexChar (c : Char) : Bool := c.isDigit || ('A' ≤ c && c ≤ 'F')

/-- `[A-Z0-9|]` -/
def isLimitChar (c : Char) : Bool := c.isUpper || c.isDigit || c == '|'

/-- `[A-Z0-9_\|]` -/
def isMaskChar (c : Char) : Bool := isKeyChar c || c == '|'

/-- `[xA-Z0-9_=,]` -/
def isOptionChar (c : Char) : Bool := isKeyChar c || c == 'x' || c == '=' || c == ','

def spaces (rep : Repeat) : Item := ⟨(· == ' '), rep⟩

/-- `0x[A-F0-9]+` -/
def hexItems : List Item := literal ['0', 'x'] ++ [⟨isHexChar, .plus⟩]

def eventWord : List Char := ['E', 'V', 'E', 'N', 'T', '_']

def umaskWord : List Char := ['U', 'M', 'A', 'S', 'K', '_']

def defaultOptionsWord : List Char :=
  ['D', 'E', 'F', 'A', 'U', 'L', 'T', '_', 'O', 'P', 'T', 'I', 'O', 'N', 'S', '_']

def optionsWord : List Char := ['O', 'P', 'T', 'I', 'O', 'N', 'S', '_']

def eventPattern : List Item :=
  literal eventWord ++ ⟨isKeyChar, .star⟩ :: spaces .plus :: (hexItems ++
    [spaces .plus, ⟨isLimitChar, .plus⟩])

def umaskPattern : List Item :=
  literal umaskWord ++ ⟨isKeyChar, .star⟩ :: spaces .star :: hexItems

/-- The pattern of a `UMASK` line with three numbers -/
def umaskPattern3 : List Item :=
  literal umaskWord ++ ⟨isKeyChar, .star⟩ :: spaces .star :: (hexItems ++
    spaces .star :: (hexItems ++ spaces .star :: hexItems))

def defaultOptionsPattern : List Item :=
  literal defaultOptionsWord ++ [⟨isKeyChar, .star⟩, spaces .star, ⟨isOptionChar, .star⟩]

def optionsPattern : List Item :=
  literal optionsWord ++ [⟨isKeyChar, .star⟩, spaces .star, ⟨isMaskChar, .plus⟩]

/-- The texts of `n` items from the item `i` on -/
def group (ws : List (List Char)) (i n : ℕ) : List Char := ((ws.drop i).take n).flatten

/-- `split`, which leaves out the empty fields at the end -/
def perlSplit (sep : Char) (s : List Char) : List (List Char) :=
  (s.splitOn sep).rdropWhile (· = [])

/-- `$key =~ m/$defoptkey[A-Z0-9_]*/` -/
def matchesKey (defoptkey key : List Char) : Bool :=
  (find (literal defoptkey ++ [⟨isKeyChar, .star⟩]) key).isSome

/-- `EVENT_OPTION_NONE_MASK` -/
def noneMask : List Char :=
  ['E', 'V', 'E', 'N', 'T', '_', 'O', 'P', 'T', 'I', 'O', 'N', '_',
    'N', 'O', 'N', 'E', '_', 'M', 'A', 'S', 'K']

/-- An entry of `@events` -/
structure GenEvent where
  name : List Char
  limit : List Char
  eventId : List Char
  cfg : List Char
  cmask : List Char
  mask : List Char
  nropts : ℕ
  opts : List Char
  defopts : List Char
deriving DecidableEq

/-- The variables that are carried from line to line; one that was never set is empty. -/
structure GenState where
  optkey : List Char := []
  eventId : List Char := []
  limit : List Char := []
  opts : List Char := []
  defoptkey : List Char := []
  defopts : List Char := []
  numEvents : ℕ := 0
  events : List GenEvent := []

/-- `"{".$tmplist[0].",".$tmplist[1]."},"` -/
def optionText (opt : List Char) : List Char :=
  let tmplist := perlSplit '=' opt
  '{' :: (tmplist.getD 0 [] ++ ',' :: (tmplist.getD 1 [] ++ ['}', ',']))

/-- The text of the default options: the last comma becomes the closing brace. -/
def defaultOptionsText (optlist : List (List Char)) : List Char :=
  let defaultopts := '{' :: (optlist.map optionText).flatten
  if 1 < defaultopts.length then defaultopts.dropLast ++ ['}'] else defaultopts ++ ['}']

/-- What the script does for a `UMASK` line -/
def pushEvent (s : GenState) (key umask cfg cmask : List Char) : GenState :=
  let opts := if key ≠ s.optkey ∨ s.optkey = [] then noneMask else s.opts
  let optlist := if matchesKey s.defoptkey key then perlSplit ',' s.defopts else []
  { s with
    opts := opts
    numEvents := s.numEvents + 1
    events := s.events ++
      [{ name := key, limit := s.limit, eventId := s.eventId, cfg := cfg, cmask := cmask,
         mask := umask, nropts := optlist.length, opts := opts,
         defopts := defaultOptionsText optlist }] }

def genLine (s : GenState) (line : List Char) : GenState :=
  if line.head? = some '#' then s
  else if let some ws := find eventPattern line then
    { s with eventId := group ws 8 3, limit := group ws 12 1, opts := noneMask }
  else if let some ws := find umaskPattern3 line then
    pushEvent s (group ws 6 1) (group ws 8 3) (group ws 12 3) (group ws 16 3)
  else if let some ws := find umaskPattern line then
    pushEvent s (group ws 6 1) (group ws 8 3) ['0'] ['0']
  else if let some ws := find defaultOptionsPattern line then
    { s with defoptkey := group ws 16 1, defopts := group ws 18 1 }
  else if let some ws := find optionsPattern line then
    { s with optkey := group ws 8 1, opts := group ws 10 1 }
  else s

def readEvents (lines : List (List Char)) : GenState := lines.foldl genLine {}

/-! ## The lines of a description -/

/-- A line. `gap i` is the number of spaces before the `i`-th word, less one. -/
inductive DescLine where
  | comment (text : List Char)
  | event (name id limit : List Char) (gap : ℕ → ℕ)
  | umask (key value : List Char) (more : Option (List Char × List Char)) (gap : ℕ → ℕ)
  | defaultOptions (key : List Char) (opts : List (List Char × List Char)) (gap : ℕ → ℕ)
  | options (key mask : List Char) (gap : ℕ → ℕ)

def blanks (n : ℕ) : List Char := List.replicate (n + 1) ' '

/-- A hexadecimal number, given by its digits -/
def hexText (digits : List Char) : List Char := '0' :: 'x' :: digits

def optsText (opts : List (List Char × List Char)) : List Char :=
  [','].intercalate (opts.map fun o => o.1 ++ '=' :: o.2)

def DescLine.text : DescLine → List Char
  | .comment rest => '#' :: rest
  | .event name id limit gap =>
    eventWord ++ (name ++ (blanks (gap 0) ++ (hexText id ++ (blanks (gap 1) ++ limit))))
  | .umask key value none gap => umaskWord ++ (key ++ (blanks (gap 0) ++ hexText value))
  | .umask key value (some (cfg, cmask)) gap =>
    umaskWord ++ (key ++ (blanks (gap 0) ++ (hexText value ++ (blanks (gap 1) ++
      (hexText cfg ++ (blanks (gap 2) ++ hexText cmask))))))
  | .defaultOptions key opts gap =>
    defaultOptionsWord ++ (key ++ (blanks (gap 0) ++ optsText opts))
  | .options key mask gap => optionsWord ++ (key ++ (blanks (gap 0) ++ mask))

/-- A word of characters of a class -/
def WordOf (cls : Char → Bool) (w : List Char) : Prop := w ≠ [] ∧ ∀ c ∈ w, cls c = true

/-- The words of the line are of their classes. A line of options is none of default options. -/
def DescLine.WellFormed : DescLine → Prop
  | .comment _ => True
  | .event name id limit _ =>
    (∀ c ∈ name, isKeyChar c = true) ∧ WordOf isHexChar id ∧ WordOf isLimitChar limit
  | .umask key value more _ =>
    (∀ c ∈ key, isKeyChar c = true) ∧ WordOf isHexChar value ∧
      ∀ m ∈ more, WordOf isHexChar m.1 ∧ WordOf isHexChar m.2
  | .defaultOptions key opts _ =>
    (∀ c ∈ key, isKeyChar c = true) ∧ ∀ o ∈ opts, WordOf isKeyChar o.1 ∧
      WordOf (fun c => isHexChar c || c == 'x') o.2
  | .options key mask _ =>
    (∀ c ∈ key, isKeyChar c = true) ∧ WordOf isMaskChar mask ∧
      ¬defaultOptionsWord <:+: key ∧ ¬defaultOptionsWord <:+: mask

/-- A `UMASK` line with three numbers reads as an `EVENT` line if `EVENT_` stands in its key. -/
def DescLine.Misread : DescLine → Prop
  | .umask key _ (some _) _ => eventWord <:+: key
  | _ => False

/-! ## Matches of the items -/

section Items

variable {p : List Item} {s w key id line : List Char} {ws : List (List Char)} {n : ℕ}

theorem isKeyChar_ne {c d : Char} (hc : isKeyChar c = true) (hd : isKeyChar d = false) : c ≠ d :=
  fun h => by
    rw [h, hd] at hc
    cases hc

theorem head_blanks (cls : Char → Bool) (h : cls ' ' = false) :
    (blanks n ++ s).head?.all (!cls ·) = true := by
  show (!cls ' ') = true
  rw [h]
  rfl

theorem head_hexText (cls : Char → Bool) (h : cls '0' = false) :
    (hexText id ++ s).head?.all (!cls ·) = true := by
  show (!cls '0') = true
  rw [h]
  rfl

theorem mem_blanks {c : Char} (hc : c ∈ blanks n) : c = ' ' := List.eq_of_mem_replicate hc

theorem matchHere_blanks (hs : s.head?.all (!(· == ' ') ·) = true)
    (h : matchHere p s = some ws) :
    matchHere (spaces .plus :: p) (blanks n ++ s) = some (blanks n :: ws) :=
  matchHere_plus (fun c hc => by rw [mem_blanks hc]; rfl) (List.cons_ne_nil _ _) hs h

theorem matchHere_blanks_star (hs : s.head?.all (!(· == ' ') ·) = true)
    (h : matchHere p s = some ws) :
    matchHere (spaces .star :: p) (blanks n ++ s) = some (blanks n :: ws) :=
  matchHere_run (fun c hc => by rw [mem_blanks hc]; rfl) hs h

theorem matchHere_hex (hid : WordOf isHexChar id) (hs : s.head?.all (!isHexChar ·) = true)
    (h : matchHere p s = some ws) :
    matchHere (hexItems ++ p) (hexText id ++ s) = some (['0'] :: ['x'] :: id :: ws) :=
  matchHere_one rfl (matchHere_one rfl (matchHere_plus hid.2 hid.1 hs h))

end Items

/-! ## What a match says of the line -/

section Sound

variable {p : List Item} {line : List Char} {ws : List (List Char)}

/-- What an `EVENT` match is made of -/
theorem find_event_sound (h : find eventPattern line = some ws) :
    ∃ pre key b id b' rest, b' ≠ [] ∧ (∀ c ∈ key, isKeyChar c = true) ∧ (∀ c ∈ b, c = ' ') ∧
      (∀ c ∈ b', c = ' ') ∧
      line = pre ++ (eventWord ++ (key ++ (b ++ '0' :: 'x' :: (id ++ (b' ++ rest))))) := by
  obtain ⟨pre, t, hline, hfits⟩ := find_sound h
  obtain ⟨ws1, hword, hfits⟩ := fits_literal hfits
  obtain ⟨key, ws2, hkey, hkeyfits, hfits⟩ := fits_cons hfits
  obtain ⟨b, ws3, hb, hbfits, hfits⟩ := fits_cons hfits
  obtain ⟨ws4, hzero, hfits⟩ := fits_literal (w := ['0', 'x']) (p := _ :: _) hfits
  obtain ⟨id, ws5, hid, -, hfits⟩ := fits_cons hfits
  obtain ⟨b', ws6, hb', hbfits', -⟩ := fits_cons hfits
  refine ⟨pre, key, b, id, b', ws6.flatten ++ t, hbfits'.2, hkeyfits.1, ?_, ?_, ?_⟩
  · exact fun c hc => by simpa [spaces] using hbfits.1 c hc
  · exact fun c hc => by simpa [spaces] using hbfits'.1 c hc
  · rw [hline, hword, hkey, hb, hzero, hid, hb']
    simp only [List.append_assoc, List.cons_append, List.nil_append]

/-- What a `UMASK` match is made of -/
theorem find_umask_sound (h : find umaskPattern line = some ws) :
    ∃ pre key b rest, (∀ c ∈ key, isKeyChar c = true) ∧ (∀ c ∈ b, c = ' ') ∧
      line = pre ++ (umaskWord ++ (key ++ (b ++ '0' :: 'x' :: rest))) := by
  obtain ⟨pre, t, hline, hfits⟩ := find_sound h
  obtain ⟨ws1, hword, hfits⟩ := fits_literal hfits
  obtain ⟨key, ws2, hkey, hkeyfits, hfits⟩ := fits_cons hfits
  obtain ⟨b, ws3, hb, hbfits, hfits⟩ := fits_cons hfits
  obtain ⟨ws4, hzero, -⟩ := fits_literal (w := ['0', 'x']) (p := [_]) hfits
  refine ⟨pre, key, b, ws4.flatten ++ t, hkeyfits.1, ?_, ?_⟩
  · exact fun c hc => by simpa [spaces] using hbfits.1 c hc
  · rw [hline, hword, hkey, hb, hzero]
    simp only [List.append_assoc, List.cons_append, List.nil_append]

/-- The match of a `UMASK` line with three numbers is one of a `UMASK` line, and has another number
in it. -/
theorem find_umask3_sound (h : find umaskPattern3 line = some ws) :
    ∃ pre key b rest, (∀ c ∈ key, isKeyChar c = true) ∧ (∀ c ∈ b, c = ' ') ∧ 'x' ∈ rest ∧
      line = pre ++ (umaskWord ++ (key ++ (b ++ '0' :: 'x' :: rest))) := by
  obtain ⟨pre, t, hline, hfits⟩ := find_sound h
  obtain ⟨ws1, hword, hfits⟩ := fits_literal hfits
  obtain ⟨key, ws2, hkey, hkeyfits, hfits⟩ := fits_cons hfits
  obtain ⟨b, ws3, hb, hbfits, hfits⟩ := fits_cons hfits
  obtain ⟨ws4, hzero, hfits⟩ := fits_literal (w := ['0', 'x']) (p := _ :: _) hfits
  obtain ⟨id, ws5, hid, -, hfits⟩ := fits_cons hfits
  obtain ⟨b', ws6, hb', -, hfits⟩ := fits_cons hfits
  obtain ⟨ws7, hzero', -⟩ := fits_literal (w := ['0', 'x']) (p := _ :: _) hfits
  refine ⟨pre, key, b, id ++ (b' ++ '0' :: 'x' :: (ws7.flatten ++ t)), hkeyfits.1, ?_, ?_, ?_⟩
  · exact fun c hc => by simpa [spaces] using hbfits.1 c hc
  · simp
  · rw [hline, hword, hkey, hb, hzero, hid, hb', hzero']
    simp only [List.append_assoc, List.cons_append, List.nil_append]

/-- The patterns with a number need an `x`. -/
theorem find_none_of_no_x (hx : 'x' ∉ line) : find eventPattern line = none ∧
    find umaskPattern3 line = none ∧ find umaskPattern line = none := by
  refine ⟨?_, ?_, ?_⟩
  · by_contra hne
    obtain ⟨ws, h⟩ := Option.ne_none_iff_exists'.mp hne
    obtain ⟨_, _, _, _, _, _, _, _, _, _, rfl⟩ := find_event_sound h
    exact hx (by simp)
  · by_contra hne
    obtain ⟨ws, h⟩ := Option.ne_none_iff_exists'.mp hne
    obtain ⟨_, _, _, _, _, _, _, rfl⟩ := find_umask3_sound h
    exact hx (by simp)
  · by_contra hne
    obtain ⟨ws, h⟩ := Option.ne_none_iff_exists'.mp hne
    obtain ⟨_, _, _, _, _, _, rfl⟩ := find_umask_sound h
    exact hx (by simp)

end Sound

/-! ## Reading a line -/

section Reading

variable {s : GenState} {key value name id limit mask : List Char} {gap : ℕ → ℕ}
  {opts : List (List Char × List Char)} {cfg cmask : List Char}

section Branches

variable {line : List Char} {ws : List (List Char)} (hhash : line.head? ≠ some '#')

include hhash

theorem genLine_of_event (h : find eventPattern line = some ws) :
    genLine s line =
      { s with eventId := group ws 8 3, limit := group ws 12 1, opts := noneMask } := by
  rw [genLine, if_neg hhash, h]

theorem genLine_of_umask3 (h0 : find eventPattern line = none)
    (h : find umaskPattern3 line = some ws) :
    genLine s line =
      pushEvent s (group ws 6 1) (group ws 8 3) (group ws 12 3) (group ws 16 3) := by
  rw [genLine, if_neg hhash, h0, h]

theorem genLine_of_umask (h0 : find eventPattern line = none)
    (h1 : find umaskPattern3 line = none) (h : find umaskPattern line = some ws) :
    genLine s line = pushEvent s (group ws 6 1) (group ws 8 3) ['0'] ['0'] := by
  rw [genLine, if_neg hhash, h0, h1, h]

theorem genLine_of_defaultOptions (h0 : find eventPattern line = none)
    (h1 : find umaskPattern3 line = none) (h2 : find umaskPattern line = none)
    (h : find defaultOptionsPattern line = some ws) :
    genLine s line = { s with defoptkey := group ws 16 1, defopts := group ws 18 1 } := by
  rw [genLine, if_neg hhash, h0, h1, h2, h]

theorem genLine_of_options (h0 : find eventPattern line = none)
    (h1 : find umaskPattern3 line = none) (h2 : find umaskPattern line = none)
    (h3 : find defaultOptionsPattern line = none) (h : find optionsPattern line = some ws) :
    genLine s line = { s with optkey := group ws 8 1, opts := group ws 10 1 } := by
  rw [genLine, if_neg hhash, h0, h1, h2, h3, h]

end Branches

theorem genLine_comment (rest : List Char) : genLine s ('#' :: rest) = s := if_pos rfl

theorem genLine_event (hname : ∀ c ∈ name, isKeyChar c = true) (hid : WordOf isHexChar id)
    (hlimit : WordOf isLimitChar limit) :
    genLine s (DescLine.event name id limit gap).text =
      { s with eventId := hexText id, limit := limit, opts := noneMask } := by
  have hlast : matchHere [⟨isLimitChar, .plus⟩] limit = some [limit] := by
    have h := matchHere_plus (s := []) (p := []) hlimit.2 hlimit.1 rfl rfl
    rwa [List.append_nil] at h
  obtain ⟨c, w, hcw⟩ := List.exists_cons_of_ne_nil hlimit.1
  have hblank : limit.head?.all (!(· == ' ') ·) = true := by
    have hc := hlimit.2 c (by rw [hcw]; exact List.mem_cons_self)
    have hne : c ≠ ' ' := fun h => by
      rw [h] at hc
      exact absurd hc (by decide)
    rw [hcw]
    simpa using hne
  have hmatch : find eventPattern (DescLine.event name id limit gap).text =
      some (eventWord.map ([·]) ++ name :: blanks (gap 0) :: ['0'] :: ['x'] :: id ::
        blanks (gap 1) :: [limit]) :=
    find_of_matchHere (matchHere_literal (matchHere_run hname (head_blanks _ (by decide))
      (matchHere_blanks (head_hexText _ (by decide)) (matchHere_hex hid
        (head_blanks _ (by decide)) (matchHere_blanks hblank hlast)))))
  have hhash : (DescLine.event name id limit gap).text.head? ≠ some '#' := by
    show some 'E' ≠ some '#'
    decide
  rw [genLine_of_event hhash hmatch]
  have hgroup : group (eventWord.map ([·]) ++ name :: blanks (gap 0) :: ['0'] :: ['x'] :: id ::
      blanks (gap 1) :: [limit]) 8 3 = hexText id := by
    show '0' :: 'x' :: (id ++ []) = _
    rw [List.append_nil]
    rfl
  have hgroup' : group (eventWord.map ([·]) ++ name :: blanks (gap 0) :: ['0'] :: ['x'] :: id ::
      blanks (gap 1) :: [limit]) 12 1 = limit := List.append_nil limit
  rw [hgroup, hgroup']

theorem hex_no_x (h : ∀ c ∈ id, isHexChar c = true) : 'x' ∉ id := fun hx =>
  absurd (h 'x' hx) (by decide)

theorem hex_no_blank (h : ∀ c ∈ id, isHexChar c = true) : ' ' ∉ id := fun hx =>
  absurd (h ' ' hx) (by decide)

theorem key_no_x (h : ∀ c ∈ key, isKeyChar c = true) : 'x' ∉ key := fun hx =>
  absurd (h 'x' hx) (by decide)

theorem blanks_no {c : Char} (hc : c ≠ ' ') (n : ℕ) : c ∉ blanks n := fun h => hc (mem_blanks h)

/-- In a line with one `x` and no space behind it only a `UMASK` line with one number is found. -/
theorem find_none_of_one_x {front : List Char} (hfront : 'x' ∉ front)
    (hvalue : ∀ c ∈ value, isHexChar c = true) :
    find eventPattern (front ++ 'x' :: value) = none ∧
      find umaskPattern3 (front ++ 'x' :: value) = none := by
  constructor
  · by_contra hne
    obtain ⟨ws, h⟩ := Option.ne_none_iff_exists'.mp hne
    obtain ⟨pre, key, b, id, b', rest, hb', -, -, hblank, hline⟩ := find_event_sound h
    have hsplit : front ++ 'x' :: value =
        (pre ++ (eventWord ++ (key ++ (b ++ ['0'])))) ++ 'x' :: (id ++ (b' ++ rest)) := by
      rw [hline]
      simp only [List.append_assoc, List.cons_append, List.nil_append]
    obtain ⟨-, -, htail⟩ :=
      (List.append_cons_inj_of_notMem hfront (hex_no_x hvalue)).mp hsplit
    obtain ⟨c, w, rfl⟩ := List.exists_cons_of_ne_nil hb'
    have hc := hblank c List.mem_cons_self
    refine hex_no_blank hvalue ?_
    rw [htail, ← hc]
    simp
  · by_contra hne
    obtain ⟨ws, h⟩ := Option.ne_none_iff_exists'.mp hne
    obtain ⟨pre, key, b, rest, -, -, hx, hline⟩ := find_umask3_sound h
    have hsplit : front ++ 'x' :: value =
        (pre ++ (umaskWord ++ (key ++ (b ++ ['0'])))) ++ 'x' :: rest := by
      rw [hline]
      simp only [List.append_assoc, List.cons_append, List.nil_append]
    obtain ⟨-, -, htail⟩ :=
      (List.append_cons_inj_of_notMem hfront (hex_no_x hvalue)).mp hsplit
    exact hex_no_x hvalue (htail ▸ hx)

theorem head_umask (s : List Char) : (umaskWord ++ s).head? ≠ some '#' := by
  show some 'U' ≠ some '#'
  decide

theorem genLine_umask (hkey : ∀ c ∈ key, isKeyChar c = true) (hvalue : WordOf isHexChar value) :
    genLine s (DescLine.umask key value none gap).text =
      pushEvent s key (hexText value) ['0'] ['0'] := by
  have htext : (DescLine.umask key value none gap).text =
      (umaskWord ++ (key ++ (blanks (gap 0) ++ ['0']))) ++ 'x' :: value := by
    simp only [DescLine.text, hexText, List.append_assoc, List.cons_append, List.nil_append]
  have hfront : 'x' ∉ umaskWord ++ (key ++ (blanks (gap 0) ++ ['0'])) := by
    simp only [List.mem_append, not_or]
    exact ⟨by decide, key_no_x hkey, blanks_no (by decide) _, by decide⟩
  obtain ⟨hevent, humask3⟩ := find_none_of_one_x hfront hvalue.2
  rw [← htext] at hevent humask3
  have hmatch : find umaskPattern (DescLine.umask key value none gap).text =
      some (umaskWord.map ([·]) ++ key :: blanks (gap 0) :: ['0'] :: ['x'] :: [value]) := by
    have hhex := matchHere_hex (p := []) (s := []) hvalue rfl rfl
    rw [List.append_nil, List.append_nil] at hhex
    exact find_of_matchHere (matchHere_literal (matchHere_run hkey (head_blanks _ (by decide))
      (matchHere_blanks_star rfl hhex)))
  refine (genLine_of_umask (head_umask _) hevent humask3 hmatch).trans ?_
  show pushEvent s (key ++ []) ('0' :: 'x' :: (value ++ [])) ['0'] ['0'] = _
  rw [List.append_nil, List.append_nil]
  rfl

/-- The text of a `UMASK` line with three numbers -/
def umaskText3 (key value cfg cmask : List Char) (gap : ℕ → ℕ) : List Char :=
  (DescLine.umask key value (some (cfg, cmask)) gap).text

theorem find_umask3 (hkey : ∀ c ∈ key, isKeyChar c = true) (hvalue : WordOf isHexChar value)
    (hcfg : WordOf isHexChar cfg) (hcmask : WordOf isHexChar cmask) :
    find umaskPattern3 (umaskText3 key value cfg cmask gap) =
      some (umaskWord.map ([·]) ++ key :: blanks (gap 0) :: ['0'] :: ['x'] :: value ::
        blanks (gap 1) :: ['0'] :: ['x'] :: cfg :: blanks (gap 2) :: ['0'] :: ['x'] ::
        [cmask]) := by
  have hlast := matchHere_hex (p := []) (s := []) hcmask rfl rfl
  rw [List.append_nil, List.append_nil] at hlast
  exact find_of_matchHere (matchHere_literal (matchHere_run hkey (head_blanks _ (by decide))
    (matchHere_blanks_star rfl (matchHere_hex hvalue (head_blanks _ (by decide))
      (matchHere_blanks_star rfl (matchHere_hex hcfg (head_blanks _ (by decide))
        (matchHere_blanks_star rfl hlast)))))))

/-- A word without the separator stands on one of its sides. -/
theorem infix_of_append_cons {w a b : List Char} {c : Char} (hc : c ∉ w)
    (h : w <:+: a ++ c :: b) : w <:+: a ∨ w <:+: b := by
  obtain ⟨p, q, hpq⟩ := h
  rw [List.append_assoc] at hpq
  rcases List.append_eq_append_iff.mp hpq with ⟨t, ha, hrest⟩ | ⟨t, hp, hrest⟩
  · rcases List.append_eq_append_iff.mp hrest with ⟨u, ht, -⟩ | ⟨u, hw, htail⟩
    · exact .inl ⟨p, u, by rw [ha, ht, List.append_assoc]⟩
    · cases u with
      | nil => exact .inl ⟨p, [], by rw [ha, hw, List.append_nil, List.append_nil]⟩
      | cons d u =>
        rw [List.cons_append, List.cons.injEq] at htail
        exact absurd (by rw [hw, ← htail.1]; simp) hc
  · cases t with
    | nil =>
      cases w with
      | nil => exact .inl (List.nil_infix)
      | cons d w =>
        rw [List.nil_append, List.cons_append, List.cons.injEq] at hrest
        exact absurd (hrest.1 ▸ List.mem_cons_self) hc
    | cons d t =>
      rw [List.cons_append, List.cons.injEq] at hrest
      exact .inr ⟨t, q, by rw [List.append_assoc, ← hrest.2]⟩

theorem infix_of_blanks {w a t : List Char} (hw : ' ' ∉ w) (hne : w ≠ []) (n : ℕ)
    (h : w <:+: a ++ (List.replicate n ' ' ++ t)) (ha : n ≠ 0 ∨ a = []) :
    w <:+: a ∨ w <:+: t := by
  induction n generalizing a with
  | zero =>
    rcases ha with h0 | rfl
    · exact absurd rfl h0
    · exact .inr h
  | succ n ih =>
    rcases infix_of_append_cons hw h with h | h
    · exact .inl h
    · rcases ih (a := []) h (.inr rfl) with h | h
      · exact absurd (List.infix_nil.mp h) hne
      · exact .inr h

theorem eventWord_infix_umask (h : eventWord <:+: umaskWord ++ key) : eventWord <:+: key := by
  simpa [umaskWord, eventWord, List.infix_cons_iff, List.cons_prefix_cons] using h

theorem genLine_umask3 (hkey : ∀ c ∈ key, isKeyChar c = true)
    (hvalue : WordOf isHexChar value) (hcfg : WordOf isHexChar cfg)
    (hcmask : WordOf isHexChar cmask) (hevent : ¬eventWord <:+: key) :
    genLine s (DescLine.umask key value (some (cfg, cmask)) gap).text =
      pushEvent s key (hexText value) (hexText cfg) (hexText cmask) := by
  have hnone : find eventPattern (umaskText3 key value cfg cmask gap) = none := by
    by_contra hne
    obtain ⟨ws, h⟩ := Option.ne_none_iff_exists'.mp hne
    obtain ⟨pre, key', b, id, b', rest, -, -, -, -, hline⟩ := find_event_sound h
    have hinfix : eventWord <:+: (umaskWord ++ key) ++ (blanks (gap 0) ++
        (hexText value ++ (blanks (gap 1) ++ (hexText cfg ++ (blanks (gap 2) ++
          hexText cmask))))) := by
      refine ⟨pre, key' ++ (b ++ '0' :: 'x' :: (id ++ (b' ++ rest))), ?_⟩
      rw [List.append_assoc, ← hline]
      simp only [umaskText3, DescLine.text, List.append_assoc]
    rcases infix_of_blanks (by decide) (by decide) _ hinfix (.inl (Nat.succ_ne_zero _)) with h | h
    · exact hevent (eventWord_infix_umask h)
    · -- no number has a V
      have hv : 'V' ∈ eventWord := by decide
      have hhex : ∀ {w : List Char}, (∀ c ∈ w, isHexChar c = true) → 'V' ∉ hexText w := by
        intro w hw hmem
        rcases List.mem_cons.mp hmem with h | hmem
        · exact absurd h (by decide)
        · rcases List.mem_cons.mp hmem with h | hmem
          · exact absurd h (by decide)
          · exact absurd (hw 'V' hmem) (by decide)
      have hmem := h.subset hv
      simp only [List.mem_append] at hmem
      rcases hmem with h | h | h | h | h
      · exact hhex hvalue.2 h
      · exact blanks_no (by decide) _ h
      · exact hhex hcfg.2 h
      · exact blanks_no (by decide) _ h
      · exact hhex hcmask.2 h
  refine (genLine_of_umask3 (head_umask _) hnone
    (find_umask3 hkey hvalue hcfg hcmask)).trans ?_
  show pushEvent s (key ++ []) ('0' :: 'x' :: (value ++ [])) ('0' :: 'x' :: (cfg ++ []))
    ('0' :: 'x' :: (cmask ++ [])) = _
  simp only [List.append_nil]
  rfl

/-- With `EVENT_` in the key the line takes the place of the last event. -/
theorem genLine_misread (s : GenState) (gap : ℕ → ℕ) (cfg cmask : List Char)
    (hkey : ∀ c ∈ key, isKeyChar c = true) (hvalue : WordOf isHexChar value)
    (hevent : eventWord <:+: key) :
    ∃ id limit', genLine s (DescLine.umask key value (some (cfg, cmask)) gap).text =
      { s with eventId := id, limit := limit', opts := noneMask } := by
  obtain ⟨k1, k2, hk⟩ := hevent
  have hk2 : ∀ c ∈ k2, isKeyChar c = true := fun c hc => hkey c (by
    rw [← hk]
    exact List.mem_append_right _ hc)
  have hlimit : ∀ t, matchHere [⟨isLimitChar, .plus⟩] (hexText cfg ++ t) = some [['0']] :=
    fun t => matchHere_plus (w := ['0']) (p := []) (List.all_eq_true.mp rfl) (by decide)
      (by show (!isLimitChar 'x') = true; decide) rfl
  have hmatch : ∀ t, matchHere eventPattern (eventWord ++ (k2 ++ (blanks (gap 0) ++
      (hexText value ++ (blanks (gap 1) ++ (hexText cfg ++ t)))))) ≠ none := by
    intro t
    have h := matchHere_literal (w := eventWord) (matchHere_run hk2 (head_blanks _ (by decide))
      (matchHere_blanks (n := gap 0) (head_hexText _ (by decide)) (matchHere_hex hvalue
        (head_blanks _ (by decide)) (matchHere_blanks (n := gap 1) rfl (hlimit t)))))
    show matchHere (literal eventWord ++ _) _ ≠ none
    rw [h]
    exact Option.some_ne_none _
  obtain ⟨ws, hws⟩ := Option.ne_none_iff_exists'.mp (hmatch (blanks (gap 2) ++ hexText cmask))
  have hsome : (find eventPattern (umaskText3 key value cfg cmask gap)).isSome = true := by
    have htext : umaskText3 key value cfg cmask gap = (umaskWord ++ k1) ++ (eventWord ++ (k2 ++
        (blanks (gap 0) ++ (hexText value ++ (blanks (gap 1) ++
          (hexText cfg ++ (blanks (gap 2) ++ hexText cmask))))))) := by
      simp only [umaskText3, DescLine.text, ← hk, List.append_assoc]
    rw [htext]
    apply find_isSome_append
    rw [find_of_matchHere hws]
    rfl
  obtain ⟨ws', hws'⟩ := Option.isSome_iff_exists.mp hsome
  exact ⟨_, _, genLine_of_event (head_umask _) hws'⟩

/-! ### Lines of options -/

theorem genLine_options (hkey : ∀ c ∈ key, isKeyChar c = true) (hmask : WordOf isMaskChar mask)
    (hdefaultKey : ¬defaultOptionsWord <:+: key) (hdefaultMask : ¬defaultOptionsWord <:+: mask) :
    genLine s (DescLine.options key mask gap).text = { s with optkey := key, opts := mask } := by
  have hx : 'x' ∉ (DescLine.options key mask gap).text := by
    simp only [DescLine.text, List.mem_append, not_or]
    exact ⟨by decide, key_no_x hkey, blanks_no (by decide) _, fun h =>
      absurd (hmask.2 'x' h) (by decide)⟩
  obtain ⟨h0, h1, h2⟩ := find_none_of_no_x hx
  have h3 : find defaultOptionsPattern (DescLine.options key mask gap).text = none := by
    by_contra hne
    obtain ⟨ws, h⟩ := Option.ne_none_iff_exists'.mp hne
    obtain ⟨pre, t, hline, hfits⟩ := find_sound h
    obtain ⟨ws', hword, -⟩ := fits_literal hfits
    have hinfix : defaultOptionsWord <:+: (optionsWord ++ key) ++ (blanks (gap 0) ++ mask) := by
      refine ⟨pre, ws'.flatten ++ t, ?_⟩
      rw [List.append_assoc, List.append_assoc, ← List.append_assoc _ _ t, ← hword,
        ← List.append_assoc, ← hline]
      rfl
    rcases infix_of_blanks (by decide) (by decide) _ hinfix (.inl (Nat.succ_ne_zero _)) with h | h
    · refine hdefaultKey ?_
      simpa [optionsWord, defaultOptionsWord, List.infix_cons_iff, List.cons_prefix_cons] using h
    · exact hdefaultMask h
  have hblank : mask.head?.all (!(· == ' ') ·) = true := by
    obtain ⟨c, w, hcw⟩ := List.exists_cons_of_ne_nil hmask.1
    have hc := hmask.2 c (by rw [hcw]; exact List.mem_cons_self)
    have hne : c ≠ ' ' := fun h => by
      rw [h] at hc
      exact absurd hc (by decide)
    rw [hcw]
    simpa using hne
  have hlast : matchHere [⟨isMaskChar, .plus⟩] mask = some [mask] := by
    have h := matchHere_plus (s := []) (p := []) hmask.2 hmask.1 rfl rfl
    rwa [List.append_nil] at h
  have hmatch : find optionsPattern (DescLine.options key mask gap).text =
      some (optionsWord.map ([·]) ++ key :: blanks (gap 0) :: [mask]) :=
    find_of_matchHere (matchHere_literal (matchHere_run hkey (head_blanks _ (by decide))
      (matchHere_blanks_star hblank hlast)))
  have hhash : (DescLine.options key mask gap).text.head? ≠ some '#' := by
    show some 'O' ≠ some '#'
    decide
  refine (genLine_of_options hhash h0 h1 h2 h3 hmatch).trans ?_
  show { s with optkey := key ++ [], opts := mask ++ [] } = _
  rw [List.append_nil, List.append_nil]

/-! ### Lines of default options -/

/-- Between a `c` and an `x` behind it there is a `=`: the scan, where `o` says that a `c` has been
read and no `=` since -/
def parted (c : Char) : Bool → List Char → Bool
  | _, [] => true
  | o, d :: t =>
    if d = 'x' then !o && parted c o t
    else if d = '=' then parted c false t
    else parted c (o || d == c) t

variable {c : Char} {w t : List Char}

theorem parted_true (h : parted c true (w ++ 'x' :: t) = true) : '=' ∈ w := by
  induction w with
  | nil =>
    rw [List.nil_append, parted, if_pos rfl] at h
    cases h
  | cons d w ih =>
    rw [List.cons_append, parted] at h
    split at h
    · cases h
    · split at h
      · rename_i heq
        rw [heq]
        exact List.mem_cons_self
      · exact List.mem_cons_of_mem _ (ih h)

theorem parted_append {o : Bool} (h : parted c o (w ++ t) = true) :
    ∃ o', parted c o' t = true := by
  induction w generalizing o with
  | nil => exact ⟨o, h⟩
  | cons d w ih =>
    rw [List.cons_append, parted] at h
    split at h
    · rw [Bool.and_eq_true] at h
      exact ih h.2
    · split at h
      · exact ih h
      · exact ih h

theorem mem_of_parted {pre : List Char} {o : Bool} (hx : c ≠ 'x') (heq : c ≠ '=')
    (h : parted c o (pre ++ c :: (w ++ 'x' :: t)) = true) : '=' ∈ w := by
  obtain ⟨o', h'⟩ := parted_append h
  rw [parted, if_neg hx, if_neg heq, beq_self_eq_true, Bool.or_true] at h'
  exact parted_true h'

theorem parted_word (hw : 'x' ∉ w) (h : ∀ o, parted c o t = true) (o : Bool) :
    parted c o (w ++ t) = true := by
  induction w generalizing o with
  | nil => exact h o
  | cons d w ih =>
    rw [List.mem_cons, not_or] at hw
    obtain ⟨hd, hw⟩ := hw
    rw [List.cons_append, parted, if_neg (fun h => hd h.symm)]
    split
    · exact ih hw false
    · exact ih hw _

/-- A value has no `c` in it. -/
theorem parted_value (hw : c ∉ w) (h : parted c false t = true) :
    parted c false (w ++ t) = true := by
  induction w with
  | nil => exact h
  | cons d w ih =>
    rw [List.mem_cons, not_or] at hw
    obtain ⟨hd, hw⟩ := hw
    have hdc : (d == c) = false := by simpa using fun h => hd h.symm
    rw [List.cons_append, parted, hdc]
    split
    · rw [ih hw]
      rfl
    · split
      · exact ih hw
      · exact ih hw

theorem optsText_cons (o : List Char × List Char) (o' : List Char × List Char) :
    optsText (o :: o' :: opts) = o.1 ++ '=' :: (o.2 ++ ',' :: optsText (o' :: opts)) := by
  simp [optsText, List.intercalate]

theorem optsText_single (o : List Char × List Char) : optsText [o] = o.1 ++ '=' :: o.2 := by
  simp [optsText, List.intercalate]

/-- The listed options are matched. -/
theorem optsText_chars (hopts : ∀ o ∈ opts, WordOf isKeyChar o.1 ∧
    WordOf (fun c => isHexChar c || c == 'x') o.2) :
    ∀ c ∈ optsText opts, isOptionChar c = true := by
  have hkeyChar : ∀ {c}, isKeyChar c = true → isOptionChar c = true := by
    intro c h
    rw [isOptionChar, h]
    rfl
  have hvalueChar : ∀ {c}, (isHexChar c || c == 'x') = true → isOptionChar c = true := by
    intro c h
    rcases Bool.or_eq_true _ _ ▸ h with hhex | hx
    · refine hkeyChar ?_
      simp only [isHexChar, Bool.or_eq_true, Bool.and_eq_true, decide_eq_true_eq] at hhex
      simp only [isKeyChar, Bool.or_eq_true]
      rcases hhex with h | ⟨hlow, hhigh⟩
      · exact .inl (.inr h)
      · have hlast : 'F' ≤ 'Z' := by decide
        exact .inl (.inl (decide_eq_true ⟨hlow, Char.le_trans hhigh hlast⟩))
    · rw [beq_iff_eq.mp hx]
      decide
  have hopt : ∀ o : List Char × List Char, WordOf isKeyChar o.1 ∧
      WordOf (fun c => isHexChar c || c == 'x') o.2 →
      ∀ c ∈ o.1 ++ '=' :: o.2, isOptionChar c = true := by
    intro o ho c hc
    rcases List.mem_append.mp hc with hc | hc
    · exact hkeyChar (ho.1.2 c hc)
    · rcases List.mem_cons.mp hc with rfl | hc
      · rfl
      · exact hvalueChar (ho.2.2 c hc)
  induction opts with
  | nil => exact fun c hc => absurd hc (List.not_mem_nil)
  | cons a opts ih =>
    have ha := hopt a (hopts a List.mem_cons_self)
    cases opts with
    | nil => rwa [optsText_single]
    | cons b opts =>
      intro c hc
      have htail := ih fun o ho => hopts o (List.mem_cons_of_mem _ ho)
      rw [optsText_cons, ← List.cons_append, ← List.append_assoc] at hc
      rcases List.mem_append.mp hc with hc | hc
      · exact ha c hc
      · rcases List.mem_cons.mp hc with rfl | hc
        · rfl
        · exact htail c hc

theorem parted_opts (hc : isHexChar c = false) (hx : c ≠ 'x') (hopts : ∀ o ∈ opts,
    WordOf isKeyChar o.1 ∧ WordOf (fun c => isHexChar c || c == 'x') o.2) (o : Bool) :
    parted c o (optsText opts) = true := by
  have hvalue : ∀ {v : List Char}, WordOf (fun c => isHexChar c || c == 'x') v → c ∉ v := by
    intro v hv hmem
    have h : (isHexChar c || c == 'x') = true := hv.2 c hmem
    rw [hc, Bool.false_or, beq_iff_eq] at h
    exact hx h
  induction opts generalizing o with
  | nil => rfl
  | cons a opts ih =>
    obtain ⟨hname, hval⟩ := hopts a List.mem_cons_self
    cases opts with
    | nil =>
      rw [optsText_single]
      refine parted_word (key_no_x hname.2) (fun o => ?_) o
      rw [parted, if_neg (by decide), if_pos rfl]
      have h := parted_value (t := []) (hvalue hval) rfl
      rwa [List.append_nil] at h
    | cons b opts =>
      rw [optsText_cons]
      refine parted_word (key_no_x hname.2) (fun o => ?_) o
      rw [parted, if_neg (by decide), if_pos rfl]
      refine parted_value (hvalue hval) ?_
      rw [parted, if_neg (by decide), if_neg (by decide)]
      exact ih (fun o' ho' => hopts o' (List.mem_cons_of_mem _ ho')) _

theorem genLine_defaultOptions (hkey : ∀ c ∈ key, isKeyChar c = true)
    (hopts : ∀ o ∈ opts, WordOf isKeyChar o.1 ∧ WordOf (fun c => isHexChar c || c == 'x') o.2) :
    genLine s (DescLine.defaultOptions key opts gap).text =
      { s with defoptkey := key, defopts := optsText opts } := by
  have hparted : ∀ d : Char, isHexChar d = false → d ≠ 'x' → ∀ o,
      parted d o (DescLine.defaultOptions key opts gap).text = true := by
    intro d hd hx o
    have hfront : 'x' ∉ defaultOptionsWord ++ (key ++ blanks (gap 0)) := by
      simp only [List.mem_append, not_or]
      exact ⟨by decide, key_no_x hkey, blanks_no (by decide) _⟩
    have h := parted_word hfront (fun o => parted_opts hd hx hopts o) o
    simpa only [DescLine.text, List.append_assoc] using h
  have hfree : ∀ {key' b : List Char}, (∀ c ∈ key', isKeyChar c = true) → (∀ c ∈ b, c = ' ') →
      '=' ∉ key' ++ (b ++ ['0']) := by
    intro key' b hk hb hmem
    simp only [List.mem_append] at hmem
    rcases hmem with h | h | h
    · exact absurd (hk '=' h) (by decide)
    · exact absurd (hb '=' h) (by decide)
    · exact absurd h (by decide)
  have h0 : find eventPattern (DescLine.defaultOptions key opts gap).text = none := by
    by_contra hne
    obtain ⟨ws, h⟩ := Option.ne_none_iff_exists'.mp hne
    obtain ⟨pre, key', b, id, b', rest, -, hkey', hb, -, hline⟩ := find_event_sound h
    have hscan := hparted 'V' (by decide) (by decide) false
    have hsplit : (DescLine.defaultOptions key opts gap).text = (pre ++ ['E']) ++ 'V' ::
        ((['E', 'N', 'T', '_'] ++ (key' ++ (b ++ ['0']))) ++ 'x' :: (id ++ (b' ++ rest))) := by
      rw [hline]
      simp [eventWord]
    rw [hsplit] at hscan
    rcases List.mem_append.mp (mem_of_parted (by decide) (by decide) hscan) with h | h
    · exact absurd h (by decide)
    · exact hfree hkey' hb h
  have humask : ∀ {pre key' b rest : List Char}, (∀ c ∈ key', isKeyChar c = true) →
      (∀ c ∈ b, c = ' ') → (DescLine.defaultOptions key opts gap).text ≠
        pre ++ (umaskWord ++ (key' ++ (b ++ '0' :: 'x' :: rest))) := by
    intro pre key' b rest hkey' hb hline
    have hscan := hparted 'U' (by decide) (by decide) false
    have hsplit : (DescLine.defaultOptions key opts gap).text = pre ++ 'U' ::
        ((['M', 'A', 'S', 'K', '_'] ++ (key' ++ (b ++ ['0']))) ++ 'x' :: rest) := by
      rw [hline]
      simp [umaskWord]
    rw [hsplit] at hscan
    rcases List.mem_append.mp (mem_of_parted (by decide) (by decide) hscan) with h | h
    · exact absurd h (by decide)
    · exact hfree hkey' hb h
  have h1 : find umaskPattern3 (DescLine.defaultOptions key opts gap).text = none := by
    by_contra hne
    obtain ⟨ws, h⟩ := Option.ne_none_iff_exists'.mp hne
    obtain ⟨pre, key', b, rest, hkey', hb, -, hline⟩ := find_umask3_sound h
    exact humask hkey' hb hline
  have h2 : find umaskPattern (DescLine.defaultOptions key opts gap).text = none := by
    by_contra hne
    obtain ⟨ws, h⟩ := Option.ne_none_iff_exists'.mp hne
    obtain ⟨pre, key', b, rest, hkey', hb, hline⟩ := find_umask_sound h
    exact humask hkey' hb hline
  have hchars := optsText_chars hopts
  have hblank : (optsText opts).head?.all (!(· == ' ') ·) = true := by
    cases htext : optsText opts with
    | nil => rfl
    | cons c w =>
      have hc := hchars c (by rw [htext]; exact List.mem_cons_self)
      have hne : c ≠ ' ' := fun h => by
        rw [h] at hc
        exact absurd hc (by decide)
      simpa using hne
  have hlast : matchHere [⟨isOptionChar, .star⟩] (optsText opts) = some [optsText opts] := by
    have h := matchHere_last (s := []) hchars rfl
    rwa [List.append_nil] at h
  have hmatch : find defaultOptionsPattern (DescLine.defaultOptions key opts gap).text =
      some (defaultOptionsWord.map ([·]) ++ key :: blanks (gap 0) :: [optsText opts]) :=
    find_of_matchHere (matchHere_literal (matchHere_run hkey (head_blanks _ (by decide))
      (matchHere_blanks_star hblank hlast)))
  have hhash : (DescLine.defaultOptions key opts gap).text.head? ≠ some '#' := by
    show some 'D' ≠ some '#'
    decide
  refine (genLine_of_defaultOptions hhash h0 h1 h2 hmatch).trans ?_
  show { s with defoptkey := key ++ [], defopts := optsText opts ++ [] } = _
  rw [List.append_nil, List.append_nil]

end Reading

end Likwid
