import Likwid.EventLines
import Mathlib.Data.List.Infix

/-!
# The event tables

The script carries one key and one option mask along. A `UMASK` line of another key takes the mask
away from the lines behind it, a later `OPTIONS` line replaces it, and the key of the default
options may stand anywhere in the key of a `UMASK` line.
-/

namespace Likwid

open Pattern

/-! ## The table that is asked for -/

/-- The lines before a line are listed from the closest one on. -/
abbrev Before := List DescLine

/-- The id and the limit of the closest `EVENT` line -/
def lastEvent : Before → List Char × List Char
  | [] => ([], [])
  | .event _ id limit _ :: _ => (hexText id, limit)
  | _ :: before => lastEvent before

/-- The mask of the latest `OPTIONS` line with the key since the last `EVENT` line -/
def maskFor (key : List Char) : Before → List Char
  | [] => noneMask
  | .event _ _ _ _ :: _ => noneMask
  | .options key' mask _ :: before => if key' = key then mask else maskFor key before
  | _ :: before => maskFor key before

/-- The key and the options of the latest `DEFAULT_OPTIONS` line -/
def lastDefaults : Before → Option (List Char × List (List Char × List Char))
  | [] => none
  | .defaultOptions key opts _ :: _ => some (key, opts)
  | _ :: before => lastDefaults before

def defaultsFor (key : List Char) (before : Before) : List (List Char × List Char) :=
  match lastDefaults before with
  | some (key', opts) => if key' <+: key then opts else []
  | none => []

/-- `{{name,value},…}` -/
def optsInitialiser (opts : List (List Char × List Char)) : List Char :=
  '{' :: ([','].intercalate (opts.map fun o => '{' :: (o.1 ++ ',' :: (o.2 ++ ['}']))) ++ ['}'])

/-- The entry of a `UMASK` line -/
def expectedEntry (before : Before) (key umask : List Char)
    (more : Option (List Char × List Char)) : GenEvent where
  name := key
  limit := (lastEvent before).2
  eventId := (lastEvent before).1
  cfg := more.elim ['0'] fun m => hexText m.1
  cmask := more.elim ['0'] fun m => hexText m.2
  mask := hexText umask
  nropts := (defaultsFor key before).length
  opts := maskFor key before
  defopts := optsInitialiser (defaultsFor key before)

def expectedEvents (before : Before) : List DescLine → List GenEvent
  | [] => []
  | .umask key umask more gap :: lines =>
    expectedEntry before key umask more ::
      expectedEvents (.umask key umask more gap :: before) lines
  | line :: lines => expectedEvents (line :: before) lines

/-- The script makes the table of the description. -/
structure TableRight (lines : List DescLine) : Prop where
  events : (readEvents (lines.map DescLine.text)).events = expectedEvents [] lines
  numEvents : (readEvents (lines.map DescLine.text)).numEvents = (expectedEvents [] lines).length

/-- A line that leaves the options of a key in force -/
def DescLine.Leaves (key : List Char) : DescLine → Prop
  | .comment _ => True
  | .defaultOptions _ _ _ => True
  | .umask key' _ _ _ => key' = key
  | .event _ _ _ _ => False
  | .options _ _ _ => False

/-- The key has no mask, or its `OPTIONS` line is the latest one and no `UMASK` line of another key
stands behind it. -/
def MaskFits (key : List Char) (before : Before) : Prop :=
  maskFor key before = noneMask ∨ key ≠ [] ∧ ∃ between mask gap rest,
    before = between ++ .options key mask gap :: rest ∧ ∀ l ∈ between, l.Leaves key

/-- The key of the default options does not stand in the key behind its beginning only. -/
def DefaultsFit (key : List Char) (before : Before) : Prop :=
  ∀ key' opts, lastDefaults before = some (key', opts) → key' <:+: key →
    key' <+: key ∨ opts = []

/-- All the `UMASK` lines fit what is before them. -/
def LinesFit (before : Before) : List DescLine → Prop
  | [] => True
  | .umask key value more gap :: lines =>
    (¬(DescLine.umask key value more gap).Misread ∧ MaskFits key before ∧
      DefaultsFit key before) ∧ LinesFit (.umask key value more gap :: before) lines
  | line :: lines => LinesFit (line :: before) lines

/-! ## The default options -/

section Defaults

variable {key defoptkey : List Char} {opts : List (List Char × List Char)}

/-- The pattern is found wherever its key stands. -/
theorem matchesKey_iff (hkey : ∀ c ∈ key, isKeyChar c = true) :
    matchesKey defoptkey key = true ↔ defoptkey <:+: key := by
  constructor
  · intro h
    obtain ⟨ws, hws⟩ := Option.isSome_iff_exists.mp h
    obtain ⟨pre, t, hline, hfits⟩ := find_sound hws
    obtain ⟨ws', hword, -⟩ := fits_literal hfits
    exact ⟨pre, ws'.flatten ++ t, by rw [hline, hword]; simp only [List.append_assoc]⟩
  · rintro ⟨pre, t, rfl⟩
    have ht : ∀ c ∈ t, isKeyChar c = true := fun c hc => hkey c (List.mem_append_right _ hc)
    have hlast := matchHere_last (s := []) ht rfl
    rw [List.append_nil] at hlast
    rw [matchesKey, List.append_assoc]
    apply find_isSome_append
    rw [find_of_matchHere (matchHere_literal hlast)]
    rfl

/-- The text of an option -/
def setting (o : List Char × List Char) : List Char := o.1 ++ '=' :: o.2

theorem setting_ne_nil (o : List Char × List Char) : setting o ≠ [] :=
  List.append_ne_nil_of_right_ne_nil _ (List.cons_ne_nil _ _)

/-- The words of a listed option -/
def OptionOf (o : List Char × List Char) : Prop :=
  WordOf isKeyChar o.1 ∧ WordOf (fun c => isHexChar c || c == 'x') o.2

theorem OptionOf.not_mem {o : List Char × List Char} {c : Char} (h : OptionOf o)
    (hc : isKeyChar c = false) (hv : (isHexChar c || c == 'x') = false) : c ∉ o.1 ∧ c ∉ o.2 := by
  constructor
  · intro hmem
    exact isKeyChar_ne (h.1.2 c hmem) hc rfl
  · intro hmem
    have hcls : (isHexChar c || c == 'x') = true := h.2.2 c hmem
    rw [hv] at hcls
    cases hcls

theorem perlSplit_optsText (hopts : ∀ o ∈ opts, OptionOf o) :
    perlSplit ',' (optsText opts) = opts.map setting := by
  cases opts with
  | nil => rfl
  | cons a opts =>
    have hfree : ∀ w ∈ (a :: opts).map setting, ',' ∉ w := by
      intro w hw
      obtain ⟨o, ho, rfl⟩ := List.mem_map.mp hw
      obtain ⟨hname, hvalue⟩ := (hopts o ho).not_mem (c := ',') (by decide) (by decide)
      simp only [setting, List.mem_append, List.mem_cons, not_or]
      exact ⟨hname, by decide, hvalue⟩
    have hsplit : (optsText (a :: opts)).splitOn ',' = (a :: opts).map setting :=
      List.splitOn_intercalate ',' hfree (List.cons_ne_nil _ _)
    rw [perlSplit, hsplit]
    refine List.rdropWhile_eq_self_iff.mpr fun hne h => ?_
    obtain ⟨o, -, ho⟩ := List.mem_map.mp (List.getLast_mem hne)
    exact setting_ne_nil o (ho.trans (of_decide_eq_true h))

theorem perlSplit_setting {o : List Char × List Char} (h : OptionOf o) :
    perlSplit '=' (setting o) = [o.1, o.2] := by
  obtain ⟨hname, hvalue⟩ := h.not_mem (c := '=') (by decide) (by decide)
  have hsplit : (setting o).splitOn '=' = [o.1, o.2] := by
    rw [setting, List.splitOn_append_cons_self_of_not_mem hname,
      List.splitOn_eq_singleton hvalue]
  rw [perlSplit, hsplit]
  exact List.rdropWhile_concat_neg _ [o.1] o.2 (by simpa using h.2.1)

/-- The braces around an option -/
def braced (o : List Char × List Char) : List Char := '{' :: (o.1 ++ ',' :: (o.2 ++ ['}']))

theorem optionText_setting {o : List Char × List Char} (h : OptionOf o) :
    optionText (setting o) = braced o ++ [','] := by
  rw [optionText, perlSplit_setting h]
  show '{' :: (o.1 ++ ',' :: (o.2 ++ ['}', ','])) = _
  simp [braced]

/-- A separator behind every text, or between the texts and one at the end -/
theorem flatten_separated {ws : List (List Char)} {c : Char} (h : ws ≠ []) :
    (ws.map (· ++ [c])).flatten = [c].intercalate ws ++ [c] := by
  induction ws with
  | nil => exact absurd rfl h
  | cons w ws ih =>
    cases ws with
    | nil => simp [List.intercalate]
    | cons v ws =>
      rw [List.map_cons, List.flatten_cons, ih (List.cons_ne_nil _ _)]
      simp [List.intercalate]

theorem defaultOptionsText_settings (hopts : ∀ o ∈ opts, OptionOf o) :
    defaultOptionsText (opts.map setting) = optsInitialiser opts := by
  have hmap : (opts.map setting).map optionText = (opts.map braced).map (· ++ [',']) := by
    rw [List.map_map, List.map_map]
    exact List.map_congr_left fun o ho => optionText_setting (hopts o ho)
  rw [defaultOptionsText, hmap]
  cases opts with
  | nil => rfl
  | cons a opts =>
    have hflat := flatten_separated (c := ',') (List.cons_ne_nil (braced a) (opts.map braced))
    rw [← List.map_cons] at hflat
    rw [hflat, if_pos (by simp [List.length_append]), ← List.cons_append, List.dropLast_concat]
    rfl

end Defaults

/-! ## The options in force -/

section InForce

variable {key : List Char} {before : Before}

/-- `$optkey` behind the lines -/
def keyInForce : Before → List Char
  | [] => []
  | .options key _ _ :: _ => key
  | _ :: before => keyInForce before

/-- `$opts` behind the lines -/
def optsInForce : Before → List Char
  | [] => []
  | .event _ _ _ _ :: _ => noneMask
  | .options _ mask _ :: _ => mask
  | .umask key _ _ _ :: before =>
    if key ≠ keyInForce before ∨ keyInForce before = [] then noneMask else optsInForce before
  | _ :: before => optsInForce before

/-- The mask that is written for a key -/
def codeMask (key : List Char) (before : Before) : List Char :=
  if key ≠ keyInForce before ∨ keyInForce before = [] then noneMask else optsInForce before

/-- Where options are in force their line is behind the last event, with no other key since. -/
theorem line_of_inForce (hkey : keyInForce before = key) (hne : key ≠ [])
    (hopts : optsInForce before ≠ noneMask) :
    ∃ between mask gap rest,
      before = between ++ .options key mask gap :: rest ∧ ∀ l ∈ between, l.Leaves key := by
  induction before with
  | nil => exact absurd hkey.symm hne
  | cons line before ih =>
    have behind : line.Leaves key → keyInForce before = key → optsInForce before ≠ noneMask →
        ∃ between mask gap rest, line :: before = between ++ .options key mask gap :: rest ∧
          ∀ l ∈ between, l.Leaves key := by
      intro hleaves hkey hopts
      obtain ⟨between, mask, gap, rest, rfl, hbetween⟩ := ih hkey hopts
      exact ⟨line :: between, mask, gap, rest, rfl, List.forall_mem_cons.mpr ⟨hleaves, hbetween⟩⟩
    cases line with
    | comment rest => exact behind trivial hkey hopts
    | defaultOptions key' opts gap => exact behind trivial hkey hopts
    | event name id limit gap => exact absurd rfl hopts
    | options key' mask gap =>
      obtain rfl : key' = key := hkey
      exact ⟨[], mask, gap, before, rfl, fun l hl => absurd hl List.not_mem_nil⟩
    | umask key' value more gap =>
      rw [optsInForce] at hopts
      split at hopts
      · exact absurd rfl hopts
      · rename_i hsame
        rw [not_or, not_not] at hsame
        exact behind (hsame.1.trans hkey) hkey hopts

/-- The options stay in force as long as no other key comes. -/
theorem inForce_of_line {between : Before} (mask : List Char) (gap : ℕ → ℕ) (rest : Before)
    (hne : key ≠ []) (hbetween : ∀ l ∈ between, l.Leaves key) :
    keyInForce (between ++ .options key mask gap :: rest) = key ∧
      optsInForce (between ++ .options key mask gap :: rest) = mask ∧
      maskFor key (between ++ .options key mask gap :: rest) = mask := by
  induction between with
  | nil =>
    refine ⟨rfl, rfl, ?_⟩
    rw [List.nil_append, maskFor, if_pos rfl]
  | cons line between ih =>
    obtain ⟨hline, hbetween⟩ := List.forall_mem_cons.mp hbetween
    obtain ⟨hkey, hopts, hmask⟩ := ih hbetween
    cases line with
    | comment rest => exact ⟨hkey, hopts, hmask⟩
    | defaultOptions key' opts gap => exact ⟨hkey, hopts, hmask⟩
    | event name id limit gap => exact False.elim hline
    | options key' mask gap => exact False.elim hline
    | umask key' value more gap =>
      refine ⟨hkey, ?_, hmask⟩
      have hsame : ¬(key' ≠ key ∨ key = []) := by
        rw [not_or, not_not]
        exact ⟨hline, hne⟩
      rw [List.cons_append, optsInForce, hkey, if_neg hsame, hopts]

/-- The mask that is written is the one asked for if the options of the key are in force, or if
there are none. -/
theorem codeMask_eq_iff : codeMask key before = maskFor key before ↔ MaskFits key before := by
  have hline : codeMask key before ≠ noneMask → key ≠ [] ∧ ∃ between mask gap rest,
      before = between ++ .options key mask gap :: rest ∧ ∀ l ∈ between, l.Leaves key := by
    intro hcode
    rw [codeMask] at hcode
    split at hcode
    · exact absurd rfl hcode
    · rename_i hsame
      rw [not_or, not_not] at hsame
      have hne : key ≠ [] := hsame.1 ▸ hsame.2
      exact ⟨hne, line_of_inForce hsame.1.symm hne hcode⟩
  have hright : (key ≠ [] ∧ ∃ between mask gap rest,
      before = between ++ .options key mask gap :: rest ∧ ∀ l ∈ between, l.Leaves key) →
      codeMask key before = maskFor key before := by
    rintro ⟨hne, between, mask, gap, rest, rfl, hbetween⟩
    obtain ⟨hkey, hopts, hmask⟩ := inForce_of_line mask gap rest hne hbetween
    have hsame : ¬(key ≠ key ∨ key = []) := by
      rw [not_or, not_not]
      exact ⟨rfl, hne⟩
    rw [codeMask, hkey, if_neg hsame, hopts, hmask]
  constructor
  · intro h
    by_cases hcode : codeMask key before = noneMask
    · exact .inl (h ▸ hcode)
    · exact .inr (hline hcode)
  · rintro (hnone | hfits)
    · by_cases hcode : codeMask key before = noneMask
      · rw [hcode, hnone]
      · exact hright (hline hcode)
    · exact hright hfits

/-- The default options that are written for a key -/
def codeDefaults (key : List Char) (before : Before) : List (List Char × List Char) :=
  match lastDefaults before with
  | some (key', opts) => if key' <:+: key then opts else []
  | none => []

/-- The number of the options tells whether they are the right ones. -/
theorem codeDefaults_iff : DefaultsFit key before ↔
    (codeDefaults key before).length = (defaultsFor key before).length := by
  rw [DefaultsFit, codeDefaults, defaultsFor]
  rcases lastDefaults before with - | ⟨key', opts⟩
  · exact ⟨fun _ => rfl, fun _ key' opts h => by cases h⟩
  · by_cases hpre : key' <+: key
    · refine ⟨fun _ => ?_, ?_⟩
      · show (if key' <:+: key then opts else []).length =
          (if key' <+: key then opts else []).length
        rw [if_pos hpre, if_pos hpre.isInfix]
      · rintro - key' opts h -
        cases h
        exact .inl hpre
    · show _ ↔ (if key' <:+: key then opts else []).length =
        (if key' <+: key then opts else []).length
      rw [if_neg hpre]
      by_cases hin : key' <:+: key
      · rw [if_pos hin]
        constructor
        · intro h
          rcases h key' opts rfl hin with h | rfl
          · exact absurd h hpre
          · rfl
        · rintro h key' opts heq -
          cases heq
          exact .inr (List.eq_nil_of_length_eq_zero h)
      · rw [if_neg hin]
        refine ⟨fun _ => rfl, ?_⟩
        rintro - key' opts heq hin'
        cases heq
        exact absurd hin' hin

theorem codeDefaults_eq (h : DefaultsFit key before) :
    codeDefaults key before = defaultsFor key before := by
  rw [codeDefaults, defaultsFor]
  rcases hlast : lastDefaults before with - | ⟨key', opts⟩
  · rfl
  · show (if key' <:+: key then opts else []) = if key' <+: key then opts else []
    by_cases hin : key' <:+: key
    · rw [if_pos hin]
      rcases h key' opts hlast hin with hpre | rfl
      · rw [if_pos hpre]
      · rw [ite_self]
    · rw [if_neg hin, if_neg fun hpre => hin hpre.isInfix]

end InForce

/-! ## The run of the script -/

/-- The state behind lines that are all read as what they are -/
structure Carried (s : GenState) (before : Before) : Prop where
  optkey : s.optkey = keyInForce before
  opts : s.opts = optsInForce before
  event : (s.eventId, s.limit) = lastEvent before
  defaults : (s.defoptkey, s.defopts) =
    (lastDefaults before).elim ([], []) fun d => (d.1, optsText d.2)
  listed : ∀ d ∈ lastDefaults before, ∀ o ∈ d.2, OptionOf o

/-- The entry that is written for a `UMASK` line -/
def codeEntry (before : Before) (key umask : List Char)
    (more : Option (List Char × List Char)) : GenEvent :=
  { expectedEntry before key umask more with
    nropts := (codeDefaults key before).length
    opts := codeMask key before
    defopts := optsInitialiser (codeDefaults key before) }

def codeEvents (before : Before) : List DescLine → List GenEvent
  | [] => []
  | .umask key umask more gap :: lines =>
    codeEntry before key umask more :: codeEvents (.umask key umask more gap :: before) lines
  | line :: lines => codeEvents (line :: before) lines

section Run

variable {s : GenState} {before : Before} {lines : List DescLine} {line : DescLine}
  {key umask : List Char} {more : Option (List Char × List Char)} {gap : ℕ → ℕ}

theorem codeEntry_eq_iff : codeEntry before key umask more = expectedEntry before key umask more ↔
    MaskFits key before ∧ DefaultsFit key before := by
  constructor
  · intro h
    have hopts : codeMask key before = maskFor key before := congrArg GenEvent.opts h
    have hlength : (codeDefaults key before).length = (defaultsFor key before).length :=
      congrArg GenEvent.nropts h
    exact ⟨codeMask_eq_iff.mp hopts, codeDefaults_iff.mpr hlength⟩
  · rintro ⟨hmask, hdefaults⟩
    rw [codeEntry, codeMask_eq_iff.mpr hmask, codeDefaults_eq hdefaults]
    rfl

/-- The state of the script behind a `UMASK` line -/
theorem Carried.pushEvent {cfg cmask : List Char} (h : Carried s before)
    (hkey : ∀ c ∈ key, isKeyChar c = true) :
    Carried (pushEvent s key (hexText umask) cfg cmask) (.umask key umask more gap :: before) ∧
      (Likwid.pushEvent s key (hexText umask) cfg cmask).events = s.events ++
        [{ codeEntry before key umask more with cfg := cfg, cmask := cmask }] := by
  have hmask : (if key ≠ s.optkey ∨ s.optkey = [] then noneMask else s.opts) =
      codeMask key before := by
    rw [h.optkey, h.opts]
    rfl
  have hdefaults : (if matchesKey s.defoptkey key then perlSplit ',' s.defopts else []) =
      (codeDefaults key before).map setting ∧
        ∀ o ∈ codeDefaults key before, OptionOf o := by
    have hcarried := h.defaults
    rw [codeDefaults]
    rcases hlast : lastDefaults before with - | ⟨key', opts⟩
    · rw [hlast] at hcarried
      obtain ⟨-, htexts⟩ : s.defoptkey = [] ∧ s.defopts = [] := Prod.mk.inj hcarried
      rw [htexts]
      refine ⟨?_, fun o ho => absurd ho List.not_mem_nil⟩
      split
      · rfl
      · rfl
    · rw [hlast] at hcarried
      obtain ⟨hkeys, htexts⟩ : s.defoptkey = key' ∧ s.defopts = optsText opts :=
        Prod.mk.inj hcarried
      rw [hkeys, htexts]
      have hlisted := h.listed (key', opts) hlast
      show (if matchesKey key' key then perlSplit ',' (optsText opts) else []) =
        (if key' <:+: key then opts else []).map setting ∧
          ∀ o ∈ if key' <:+: key then opts else [], OptionOf o
      by_cases hin : key' <:+: key
      · rw [if_pos ((matchesKey_iff hkey).mpr hin), if_pos hin]
        exact ⟨perlSplit_optsText hlisted, hlisted⟩
      · rw [if_neg (fun hfind => hin ((matchesKey_iff hkey).mp hfind)), if_neg hin]
        exact ⟨rfl, fun o ho => absurd ho List.not_mem_nil⟩
  obtain ⟨hsplit, hlisted⟩ := hdefaults
  constructor
  · exact ⟨h.optkey, hmask, h.event, h.defaults, h.listed⟩
  · show s.events ++ [_] = _
    rw [hmask, hsplit, defaultOptionsText_settings hlisted, List.length_map]
    obtain ⟨hid, hlimit⟩ : s.eventId = (lastEvent before).1 ∧ s.limit = (lastEvent before).2 :=
      Prod.mk.inj h.event
    rw [hid, hlimit]
    rfl

/-- A line that is read as what it is -/
theorem Carried.step (h : Carried s before) (hline : line.WellFormed) (hread : ¬line.Misread) :
    Carried (genLine s line.text) (line :: before) ∧
      (genLine s line.text).events = s.events ++ codeEvents before [line] := by
  cases line with
  | comment rest =>
    have hstep : genLine s (DescLine.comment rest).text = s := genLine_comment rest
    rw [hstep]
    exact ⟨⟨h.optkey, h.opts, h.event, h.defaults, h.listed⟩, (List.append_nil _).symm⟩
  | event name id limit gap =>
    obtain ⟨hname, hid, hlimit⟩ := hline
    rw [genLine_event hname hid hlimit]
    exact ⟨⟨h.optkey, rfl, rfl, h.defaults, h.listed⟩, (List.append_nil _).symm⟩
  | umask key value more gap =>
    obtain ⟨hkey, hvalue, hmore⟩ := hline
    rcases more with - | ⟨cfg, cmask⟩
    · rw [genLine_umask hkey hvalue]
      exact h.pushEvent hkey
    · obtain ⟨hcfg, hcmask⟩ := hmore (cfg, cmask) rfl
      rw [genLine_umask3 hkey hvalue hcfg hcmask hread]
      exact h.pushEvent hkey
  | defaultOptions key opts gap =>
    obtain ⟨hkey, hopts⟩ := hline
    rw [genLine_defaultOptions hkey hopts]
    refine ⟨⟨h.optkey, h.opts, h.event, rfl, ?_⟩, (List.append_nil _).symm⟩
    rintro d hd
    cases hd
    exact hopts
  | options key mask gap =>
    obtain ⟨hkey, hmask, hdefaultKey, hdefaultMask⟩ := hline
    rw [genLine_options hkey hmask hdefaultKey hdefaultMask]
    exact ⟨⟨rfl, rfl, h.event, h.defaults, h.listed⟩, (List.append_nil _).symm⟩

theorem codeEvents_cons (line : DescLine) (lines : List DescLine) :
    codeEvents before (line :: lines) =
      codeEvents before [line] ++ codeEvents (line :: before) lines := by
  cases line <;> rfl

/-- A file whose lines are all read as what they are -/
theorem Carried.run (h : Carried s before) (hlines : ∀ l ∈ lines, l.WellFormed)
    (hread : ∀ l ∈ lines, ¬l.Misread) :
    ((lines.map DescLine.text).foldl genLine s).events = s.events ++ codeEvents before lines := by
  induction lines generalizing s before with
  | nil => exact (List.append_nil _).symm
  | cons line lines ih =>
    obtain ⟨hline, hlines⟩ := List.forall_mem_cons.mp hlines
    obtain ⟨hreadLine, hread⟩ := List.forall_mem_cons.mp hread
    obtain ⟨hcarried, hevents⟩ := h.step hline hreadLine
    rw [List.map_cons, List.foldl_cons, ih hcarried hlines hread, hevents,
      codeEvents_cons line lines, List.append_assoc]

theorem length_expectedEvents (before' : Before) :
    (expectedEvents before lines).length = (expectedEvents before' lines).length := by
  induction lines generalizing before before' with
  | nil => rfl
  | cons line lines ih =>
    cases line with
    | umask key value more gap => exact congrArg (· + 1) (ih _)
    | comment rest => exact ih _
    | event name id limit gap => exact ih _
    | defaultOptions key opts gap => exact ih _
    | options key mask gap => exact ih _

/-- Every line makes at most its own entry, and makes it unless it is misread. -/
theorem numEvents_line (hline : line.WellFormed) :
    (genLine s line.text).numEvents ≤ s.numEvents + (expectedEvents [] [line]).length ∧
      ((genLine s line.text).numEvents = s.numEvents + (expectedEvents [] [line]).length ↔
        ¬line.Misread) := by
  cases line with
  | comment rest => exact ⟨le_rfl, fun _ h => h.elim, fun _ => rfl⟩
  | event name id limit gap =>
    obtain ⟨hname, hid, hlimit⟩ := hline
    rw [genLine_event hname hid hlimit]
    exact ⟨le_rfl, fun _ h => h.elim, fun _ => rfl⟩
  | umask key value more gap =>
    obtain ⟨hkey, hvalue, hmore⟩ := hline
    rcases more with - | ⟨cfg, cmask⟩
    · rw [genLine_umask hkey hvalue]
      exact ⟨le_rfl, fun _ h => h.elim, fun _ => rfl⟩
    · obtain ⟨hcfg, hcmask⟩ := hmore (cfg, cmask) rfl
      by_cases hevent : eventWord <:+: key
      · obtain ⟨id, limit, hstep⟩ := genLine_misread s gap cfg cmask hkey hvalue hevent
        rw [hstep]
        exact ⟨Nat.le_succ _, fun h => absurd h (Nat.succ_ne_self _).symm,
          fun h => absurd hevent h⟩
      · rw [genLine_umask3 hkey hvalue hcfg hcmask hevent]
        exact ⟨le_rfl, fun _ => hevent, fun _ => rfl⟩
  | defaultOptions key opts gap =>
    obtain ⟨hkey, hopts⟩ := hline
    rw [genLine_defaultOptions hkey hopts]
    exact ⟨le_rfl, fun _ h => h.elim, fun _ => rfl⟩
  | options key mask gap =>
    obtain ⟨hkey, hmask, hdefaultKey, hdefaultMask⟩ := hline
    rw [genLine_options hkey hmask hdefaultKey hdefaultMask]
    exact ⟨le_rfl, fun _ h => h.elim, fun _ => rfl⟩

theorem length_expectedEvents_cons :
    (expectedEvents before (line :: lines)).length =
      (expectedEvents [] [line]).length + (expectedEvents before lines).length := by
  have hskip : (expectedEvents (line :: before) lines).length =
      0 + (expectedEvents before lines).length := by
    rw [Nat.zero_add]
    exact length_expectedEvents before
  cases line with
  | umask key value more gap =>
    show (expectedEvents _ lines).length + 1 = 1 + _
    rw [hskip, Nat.zero_add, Nat.add_comm]
  | comment rest => exact hskip
  | event name id limit gap => exact hskip
  | defaultOptions key opts gap => exact hskip
  | options key mask gap => exact hskip

/-- The count is right if and only if no line is misread. -/
theorem numEvents_lines (hlines : ∀ l ∈ lines, l.WellFormed) :
    ((lines.map DescLine.text).foldl genLine s).numEvents ≤
        s.numEvents + (expectedEvents [] lines).length ∧
      (((lines.map DescLine.text).foldl genLine s).numEvents =
        s.numEvents + (expectedEvents [] lines).length ↔ ∀ l ∈ lines, ¬l.Misread) := by
  induction lines generalizing s with
  | nil => exact ⟨le_rfl, fun _ l hl => absurd hl List.not_mem_nil, fun _ => rfl⟩
  | cons line lines ih =>
    obtain ⟨hline, hlines⟩ := List.forall_mem_cons.mp hlines
    obtain ⟨hone, hread⟩ := numEvents_line (s := s) hline
    obtain ⟨hle, hreads⟩ := ih (s := genLine s line.text) hlines
    rw [List.map_cons, List.foldl_cons, length_expectedEvents_cons, List.forall_mem_cons,
      ← hread, ← hreads]
    omega

theorem not_misread_of_linesFit (h : LinesFit before lines) : ∀ l ∈ lines, ¬l.Misread := by
  induction lines generalizing before with
  | nil => exact fun l hl => absurd hl List.not_mem_nil
  | cons line lines ih =>
    cases line with
    | umask key value more gap => exact List.forall_mem_cons.mpr ⟨h.1.1, ih h.2⟩
    | comment rest => exact List.forall_mem_cons.mpr ⟨fun hmis => hmis.elim, ih h⟩
    | event name id limit gap => exact List.forall_mem_cons.mpr ⟨fun hmis => hmis.elim, ih h⟩
    | defaultOptions key opts gap =>
      exact List.forall_mem_cons.mpr ⟨fun hmis => hmis.elim, ih h⟩
    | options key mask gap => exact List.forall_mem_cons.mpr ⟨fun hmis => hmis.elim, ih h⟩

/-- The entries are the ones asked for if the `UMASK` lines fit what is before them. -/
theorem codeEvents_eq_iff (hread : ∀ l ∈ lines, ¬l.Misread) :
    codeEvents before lines = expectedEvents before lines ↔ LinesFit before lines := by
  induction lines generalizing before with
  | nil => exact ⟨fun _ => trivial, fun _ => rfl⟩
  | cons line lines ih =>
    obtain ⟨hreadLine, hreads⟩ := List.forall_mem_cons.mp hread
    cases line with
    | umask key value more gap =>
      show codeEntry before key value more :: _ = expectedEntry before key value more :: _ ↔ _
      rw [List.cons.injEq, codeEntry_eq_iff, ih hreads]
      exact and_congr_left fun _ => (and_iff_right hreadLine).symm
    | comment rest => exact ih hreads
    | event name id limit gap => exact ih hreads
    | defaultOptions key opts gap => exact ih hreads
    | options key mask gap => exact ih hreads

end Run

/-- The script makes the right table of exactly the descriptions where no key of a `UMASK` line
with three numbers holds `EVENT_`, where the mask of every `UMASK` line is still in force there,
and where the default options are for keys they stand at the beginning of. -/
theorem tableRight_iff {lines : List DescLine} (hlines : ∀ l ∈ lines, l.WellFormed) :
    TableRight lines ↔ LinesFit [] lines := by
  have hstart : Carried {} [] := ⟨rfl, rfl, rfl, rfl, fun d hd => by cases hd⟩
  have hcount := (numEvents_lines (s := {}) hlines).2
  rw [Nat.zero_add] at hcount
  constructor
  · rintro ⟨hevents, hnumber⟩
    have hread := hcount.mp hnumber
    rw [readEvents, hstart.run hlines hread] at hevents
    exact (codeEvents_eq_iff hread).mp hevents
  · intro hfit
    have hread := not_misread_of_linesFit hfit
    have hevents := (hstart.run hlines hread).trans ((codeEvents_eq_iff hread).mpr hfit)
    exact ⟨hevents, hcount.mpr hread⟩

/-- One event, options for its first `UMASK` line and a default option for both -/
def cacheLines : List DescLine :=
  [.comment [],
    .event ['L', '1', 'D'] ['5', '1'] ['P', 'M', 'C'] fun _ => 0,
    .defaultOptions ['L', '1', 'D'] [(['E', 'D', 'G', 'E'], ['0', 'x', '1'])] fun _ => 0,
    .options ['L', '1', 'D', '_', 'R'] ['E', 'D', 'G', 'E', '_', 'M', 'A', 'S', 'K'] fun _ => 0,
    .umask ['L', '1', 'D', '_', 'R'] ['0', '1'] none fun _ => 0,
    .umask ['L', '1', 'D', '_', 'S'] ['0', '2'] (some (['0', '1'], ['0', '0'])) fun _ => 1]

theorem tableRight_cacheLines : TableRight cacheLines := by
  refine (tableRight_iff ?_).mpr ?_
  · intro l hl
    simp only [cacheLines, List.mem_cons, List.not_mem_nil, or_false] at hl
    rcases hl with rfl | rfl | rfl | rfl | rfl | rfl
    · trivial
    · exact ⟨List.all_eq_true.mp rfl,
        ⟨by decide, List.all_eq_true.mp rfl⟩, ⟨by decide, List.all_eq_true.mp rfl⟩⟩
    · refine ⟨List.all_eq_true.mp rfl, fun o ho => ?_⟩
      rw [List.mem_singleton.mp ho]
      exact ⟨⟨by decide, List.all_eq_true.mp rfl⟩, ⟨by decide, List.all_eq_true.mp rfl⟩⟩
    · exact ⟨List.all_eq_true.mp rfl, ⟨by decide, List.all_eq_true.mp rfl⟩, by decide, by decide⟩
    · exact ⟨List.all_eq_true.mp rfl, ⟨by decide, List.all_eq_true.mp rfl⟩, fun m hm => by cases hm⟩
    · refine ⟨List.all_eq_true.mp rfl, ⟨by decide, List.all_eq_true.mp rfl⟩, fun m hm => ?_⟩
      cases hm
      exact ⟨⟨by decide, List.all_eq_true.mp rfl⟩, ⟨by decide, List.all_eq_true.mp rfl⟩⟩
  · have hdefaults : ∀ {key' : List Char} {opts}, some (['L', '1', 'D'],
        [(['E', 'D', 'G', 'E'], ['0', 'x', '1'])]) = some (key', opts) →
        key' <+: ['L', '1', 'D', '_', 'R'] ∧ key' <+: ['L', '1', 'D', '_', 'S'] := by
      intro key' opts h
      cases h
      decide
    have hread : ¬eventWord <:+: ['L', '1', 'D', '_', 'S'] := by decide
    refine ⟨⟨fun h => h.elim, .inr ⟨by decide, [], _, _, _, rfl, ?_⟩, ?_⟩,
      ⟨hread, .inl (by decide), ?_⟩, trivial⟩
    · exact fun l hl => absurd hl List.not_mem_nil
    · exact fun key' opts h _ => .inl (hdefaults h).1
    · exact fun key' opts h _ => .inl (hdefaults h).2

/-- The options of the first key, and a `UMASK` line of another key before its own -/
def crossedLines : List DescLine :=
  [.event ['L', '1', 'D'] ['5', '1'] ['P', 'M', 'C'] fun _ => 0,
    .options ['A'] ['E', 'D', 'G', 'E'] fun _ => 0,
    .umask ['B'] ['0', '1'] none fun _ => 0,
    .umask ['A'] ['0', '2'] none fun _ => 0]

/-- The key has options, and its entry is written without them. -/
theorem not_tableRight_crossedLines :
    (∀ l ∈ crossedLines, l.WellFormed) ∧ ¬TableRight crossedLines := by
  constructor
  · intro l hl
    simp only [crossedLines, List.mem_cons, List.not_mem_nil, or_false] at hl
    rcases hl with rfl | rfl | rfl | rfl
    · exact ⟨List.all_eq_true.mp rfl,
        ⟨by decide, List.all_eq_true.mp rfl⟩, ⟨by decide, List.all_eq_true.mp rfl⟩⟩
    · exact ⟨List.all_eq_true.mp rfl, ⟨by decide, List.all_eq_true.mp rfl⟩, by decide, by decide⟩
    · exact ⟨List.all_eq_true.mp rfl, ⟨by decide, List.all_eq_true.mp rfl⟩, fun m hm => by cases hm⟩
    · exact ⟨List.all_eq_true.mp rfl, ⟨by decide, List.all_eq_true.mp rfl⟩, fun m hm => by cases hm⟩
  · rintro ⟨hevents, -⟩
    revert hevents
    decide +kernel

end Likwid
