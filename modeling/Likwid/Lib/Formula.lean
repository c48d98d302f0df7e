import Likwid.Lib.Numeral
import Mathlib.Data.List.Chain
import Mathlib.Data.List.Infix
import Mathlib.Data.List.TakeWhile

/-!
# Arithmetic in text

Text over numbers, names and `+ - * / ( )` and its tokens, read as Lua reads them (`lex`). Where
an operand follows another without a symbol in between, and where two minus signs begin a comment,
there are no tokens.

Text is the image of its tokens (`render_of_lex`) and well formed tokens are read back
(`lex_render`). Replacing a name in the text everywhere (`replaceAll`) is replacing it in the tokens
where it occurs nowhere else (`replaceAll_render`).
-/

namespace Formula

/-! ## Tokens -/

def isSymbol (c : Char) : Bool := ['+', '-', '*', '/', '(', ')'].contains c

def isNameStart (c : Char) : Bool := c.isAlpha || c == '_'

def isNameChar (c : Char) : Bool := c.isAlphanum || c == '_'

inductive Token where
  | number (w : List Char)
  | name (w : List Char)
  | symbol (c : Char)
deriving DecidableEq, Repr

def Token.text : Token → List Char
  | .number w => w
  | .name w => w
  | .symbol c => [c]

def Token.isSymbol : Token → Bool
  | .symbol _ => true
  | _ => false

def Token.isName : Token → Bool
  | .name _ => true
  | _ => false

def render (ts : List Token) : List Char := ts.flatMap Token.text

def isHexDigit (c : Char) : Bool :=
  c.isDigit || ['a', 'b', 'c', 'd', 'e', 'f', 'A', 'B', 'C', 'D', 'E', 'F'].contains c

/-- The characters that Lua takes for a numeral, well formed or not, and what is behind them -/
def numeralRun : List Char → List Char × List Char
  | [] => ([], [])
  | [c] => if isHexDigit c ∨ c = '.' then ([c], []) else ([], [c])
  | c :: d :: s =>
      if (c = 'e' ∨ c = 'E') ∧ (d = '+' ∨ d = '-') then
        (c :: d :: (numeralRun s).1, (numeralRun s).2)
      else if isHexDigit c ∨ c = '.' then
        (c :: (numeralRun (d :: s)).1, (numeralRun (d :: s)).2)
      else ([], c :: d :: s)

/-- A number begins with a digit, or with a point and a digit. -/
def beginsNumber : List Char → Bool
  | [] => false
  | [c] => c.isDigit
  | c :: d :: _ => c.isDigit || (c == '.' && d.isDigit)

def lex : ℕ → List Char → Option (List Token)
  | _, [] => some []
  | 0, _ :: _ => none
  | n + 1, c :: s =>
      if beginsNumber (c :: s) then
        let (w, rest) := numeralRun (c :: s)
        if rest.head?.all isSymbol ∧ (Text.number w).isSome then
          (lex n rest).map (.number w :: ·)
        else none
      else if isNameStart c then
        let w := (c :: s).takeWhile isNameChar
        let rest := (c :: s).dropWhile isNameChar
        if rest.head?.all isSymbol then (lex n rest).map (.name w :: ·) else none
      else if isSymbol c ∧ ¬(c = '-' ∧ s.head? = some '-') then (lex n s).map (.symbol c :: ·)
      else none

def tokens? (s : List Char) : Option (List Token) := lex s.length s

/-! ## Well formed tokens -/

structure IsNumeral (w : List Char) : Prop where
  begins : beginsNumber w = true
  number : (Text.number w).isSome = true

structure IsName (w : List Char) : Prop where
  start : w.head?.any isNameStart = true
  chars : ∀ c ∈ w, isNameChar c = true

def Token.Ok : Token → Prop
  | .number w => IsNumeral w
  | .name w => IsName w
  | .symbol c => Formula.isSymbol c = true

/-- What may stand behind a token: a symbol behind an operand, and no second minus -/
def Token.Fits : Token → Token → Prop
  | .symbol c, u => ¬(c = '-' ∧ u = .symbol '-')
  | _, u => u.isSymbol = true

structure WellFormed (ts : List Token) : Prop where
  ok : ∀ t ∈ ts, t.Ok
  fits : ts.IsChain Token.Fits

/-! ## Characters -/

theorem mem_symbols {c : Char} (h : isSymbol c = true) :
    c = '+' ∨ c = '-' ∨ c = '*' ∨ c = '/' ∨ c = '(' ∨ c = ')' := by
  simpa [isSymbol] using h

theorem not_nameChar_of_symbol {c : Char} (h : isSymbol c = true) : isNameChar c = false := by
  rcases mem_symbols h with rfl | rfl | rfl | rfl | rfl | rfl <;> decide

theorem isNameChar_of_start {c : Char} (h : isNameStart c = true) : isNameChar c = true := by
  unfold isNameStart at h
  unfold isNameChar Char.isAlphanum
  rcases Bool.or_eq_true_iff.mp h with halpha | hline
  · simp [halpha]
  · simp [hline]

theorem numeralRun_symbol {rest : List Char} (h : rest.head?.all isSymbol = true) :
    numeralRun rest = ([], rest) := by
  have hstop : ∀ c : Char, isSymbol c = true → ¬(isHexDigit c = true ∨ c = '.') ∧
      ¬(c = 'e' ∨ c = 'E') := by
    intro c hc
    rcases mem_symbols hc with rfl | rfl | rfl | rfl | rfl | rfl <;> decide
  cases rest with
  | nil => rfl
  | cons c s =>
      obtain ⟨hhex, he⟩ := hstop c (by simpa using h)
      cases s with
      | nil => rw [numeralRun, if_neg hhex]
      | cons d s => rw [numeralRun, if_neg fun h => he h.1, if_neg hhex]

theorem digit_hex {c : Char} (h : c.isDigit = true) : isHexDigit c = true := by
  simp [isHexDigit, h]

theorem numeralRun_cons {c : Char} {s : List Char} (hc : isHexDigit c = true ∨ c = '.')
    (hs : ¬((c = 'e' ∨ c = 'E') ∧ (s.head? = some '+' ∨ s.head? = some '-'))) :
    numeralRun (c :: s) = (c :: (numeralRun s).1, (numeralRun s).2) := by
  cases s with
  | nil => simp only [numeralRun, if_pos hc]
  | cons d s =>
      rw [numeralRun, if_neg ?_, if_pos hc]
      rintro ⟨he, hd⟩
      exact hs ⟨he, by simpa using hd⟩

theorem digit_ne_exponent {c : Char} (h : c.isDigit = true) : ¬(c = 'e' ∨ c = 'E') := by
  rintro (rfl | rfl)
  · exact absurd h (by decide)
  · exact absurd h (by decide)

theorem numeralRun_digits {ds s : List Char} (hds : ∀ c ∈ ds, c.isDigit = true) :
    numeralRun (ds ++ s) = (ds ++ (numeralRun s).1, (numeralRun s).2) := by
  induction ds with
  | nil => rfl
  | cons c ds ih =>
      obtain ⟨hc, hds⟩ := List.forall_mem_cons.mp hds
      rw [List.cons_append, numeralRun_cons (Or.inl (digit_hex hc))
        fun h => digit_ne_exponent hc h.1, ih hds]
      rfl

/-! ## Numerals -/

/-- The exponent of a numeral, if it has one -/
def Exponent (tail : List Char) : Prop :=
  tail = [] ∨ ∃ e ds, (e = 'e' ∨ e = 'E') ∧ (∀ c ∈ ds, c.isDigit = true) ∧ ds ≠ [] ∧
    (tail = e :: ds ∨ tail = e :: '+' :: ds ∨ tail = e :: '-' :: ds)

/-- The parts of a numeral without a sign -/
structure Shape (w int frac tail : List Char) : Prop where
  intDigits : ∀ c ∈ int, c.isDigit = true
  fracDigits : ∀ c ∈ frac, c.isDigit = true
  exponent : Exponent tail
  text : (w = int ++ tail ∧ frac = []) ∨ w = int ++ '.' :: (frac ++ tail)

theorem exponent_shape {tail : List Char} (h : (Text.exponent tail).isSome = true) :
    Exponent tail := by
  cases tail with
  | nil => exact Or.inl rfl
  | cons e s =>
      right
      unfold Text.exponent at h
      dsimp only at h
      split at h
      · next hcond =>
          obtain ⟨he, hne, hall⟩ := hcond
          refine ⟨e, (Text.sign s).2, he, List.all_eq_true.mp hall, hne, ?_⟩
          unfold Text.sign
          split
          · exact Or.inr (Or.inr rfl)
          · exact Or.inr (Or.inl rfl)
          · exact Or.inl rfl
      · simp at h

theorem digits_takeWhile (s : List Char) : ∀ c ∈ s.takeWhile Char.isDigit, c.isDigit = true :=
  fun _ hc => List.mem_takeWhile_imp hc

theorem IsNumeral.sign {w : List Char} (h : beginsNumber w = true) : Text.sign w = (false, w) := by
  have hno : ∀ c : Char, (c = '-' ∨ c = '+') → ∀ s, beginsNumber (c :: s) = false := by
    rintro c (rfl | rfl) s <;> cases s <;> rfl
  unfold Text.sign
  split
  · rw [hno _ (Or.inl rfl)] at h
    simp at h
  · rw [hno _ (Or.inr rfl)] at h
    simp at h
  · rfl

theorem IsNumeral.shape {w : List Char} (h : IsNumeral w) :
    ∃ int frac tail, Shape w int frac tail := by
  have hnumber := h.number
  unfold Text.number at hnumber
  rw [IsNumeral.sign h.begins] at hnumber
  have hsplit := (List.takeWhile_append_dropWhile (p := Char.isDigit) (l := w)).symm
  dsimp only at hnumber
  split at hnumber
  · next s heq =>
      rw [heq] at hsplit
      dsimp only at hnumber
      split at hnumber
      · simp at hnumber
      · rw [Option.isSome_map] at hnumber
        refine ⟨_, _, _, digits_takeWhile w, digits_takeWhile s, exponent_shape hnumber,
          Or.inr ?_⟩
        rw [List.takeWhile_append_dropWhile]
        exact hsplit
  · dsimp only at hnumber
    split at hnumber
    · simp at hnumber
    · rw [Option.isSome_map] at hnumber
      exact ⟨_, [], _, digits_takeWhile w, by simp, exponent_shape hnumber, Or.inl ⟨hsplit, rfl⟩⟩

theorem numeralRun_tail {tail rest : List Char} (hrest : rest.head?.all isSymbol = true)
    (h : Exponent tail) : numeralRun (tail ++ rest) = (tail, rest) := by
  have hsymbol := numeralRun_symbol hrest
  rcases h with rfl | ⟨e, ds, he, hds, hne, htail⟩
  · exact hsymbol
  have hdigits : numeralRun (ds ++ rest) = (ds, rest) := by
    rw [numeralRun_digits hds, hsymbol, List.append_nil]
  have hhex : isHexDigit e = true := by
    rcases he with rfl | rfl <;> decide
  rcases htail with rfl | rfl | rfl
  · rw [List.cons_append, numeralRun_cons (Or.inl hhex), hdigits]
    rintro ⟨-, hsign⟩
    obtain ⟨d, ds, rfl⟩ := List.exists_cons_of_ne_nil hne
    have hd := hds d List.mem_cons_self
    rcases hsign with hsign | hsign
    · obtain rfl : d = '+' := by simpa using hsign
      exact absurd hd (by decide)
    · obtain rfl : d = '-' := by simpa using hsign
      exact absurd hd (by decide)
  · show numeralRun (e :: '+' :: (ds ++ rest)) = _
    rw [numeralRun, if_pos ⟨he, Or.inl rfl⟩, hdigits]
  · show numeralRun (e :: '-' :: (ds ++ rest)) = _
    rw [numeralRun, if_pos ⟨he, Or.inr rfl⟩, hdigits]

/-- **A numeral is taken whole** in front of a symbol. -/
theorem IsNumeral.run {w rest : List Char} (h : IsNumeral w)
    (hrest : rest.head?.all isSymbol = true) : numeralRun (w ++ rest) = (w, rest) := by
  obtain ⟨int, frac, tail, hint, hfrac, htail, htext⟩ := h.shape
  have hrun := numeralRun_tail hrest htail
  rcases htext with ⟨rfl, -⟩ | rfl
  · rw [List.append_assoc, numeralRun_digits hint, hrun]
  · have hpoint : numeralRun ('.' :: (frac ++ (tail ++ rest))) =
        ('.' :: (frac ++ tail), rest) := by
      rw [numeralRun_cons (Or.inr rfl) fun h => absurd h.1 (by decide), numeralRun_digits hfrac,
        hrun]
    rw [List.append_assoc, List.cons_append, List.append_assoc, numeralRun_digits hint, hpoint]

theorem IsNumeral.chars {w : List Char} (h : IsNumeral w) :
    ∀ c ∈ w, c.isDigit = true ∨ c ∈ ['.', 'e', 'E', '+', '-'] := by
  obtain ⟨int, frac, tail, hint, hfrac, htail, htext⟩ := h.shape
  have hin : ∀ c ∈ tail, c.isDigit = true ∨ c ∈ ['.', 'e', 'E', '+', '-'] := by
    intro c hc
    rcases htail with rfl | ⟨e, ds, he, hds, -, heq⟩
    · cases hc
    have he' : e ∈ ['.', 'e', 'E', '+', '-'] := by rcases he with rfl | rfl <;> decide
    rcases heq with rfl | rfl | rfl
    · rcases List.mem_cons.mp hc with rfl | hc
      · exact Or.inr he'
      · exact Or.inl (hds c hc)
    · rcases List.mem_cons.mp hc with rfl | hc
      · exact Or.inr he'
      rcases List.mem_cons.mp hc with rfl | hc
      · exact Or.inr (by decide)
      · exact Or.inl (hds c hc)
    · rcases List.mem_cons.mp hc with rfl | hc
      · exact Or.inr he'
      rcases List.mem_cons.mp hc with rfl | hc
      · exact Or.inr (by decide)
      · exact Or.inl (hds c hc)
  intro c hc
  rcases htext with ⟨rfl, -⟩ | rfl
  · rcases List.mem_append.mp hc with hc | hc
    · exact Or.inl (hint c hc)
    · exact hin c hc
  · rcases List.mem_append.mp hc with hc | hc
    · exact Or.inl (hint c hc)
    rcases List.mem_cons.mp hc with rfl | hc
    · exact Or.inr (by decide)
    rcases List.mem_append.mp hc with hc | hc
    · exact Or.inl (hfrac c hc)
    · exact hin c hc

/-! ## Reading what was written -/

section Lex

variable {n : ℕ} {s w rest : List Char} {t : Token} {ts : List Token} {c : Char}

@[simp] theorem render_nil : render [] = [] := rfl

@[simp] theorem render_cons : render (t :: ts) = t.text ++ render ts := rfl

theorem IsNumeral.cons (h : IsNumeral w) : ∃ c v, w = c :: v := by
  cases w with
  | nil => exact absurd h.begins (by simp [beginsNumber])
  | cons c v => exact ⟨c, v, rfl⟩

theorem IsName.cons (h : IsName w) : ∃ c v, w = c :: v ∧ isNameStart c = true := by
  cases w with
  | nil => simpa using h.start
  | cons c v => exact ⟨c, v, rfl, by simpa using h.start⟩

theorem not_symbol_of_begins (h : beginsNumber (c :: w) = true) : isSymbol c = false := by
  cases hs : isSymbol c with
  | false => rfl
  | true =>
      rcases mem_symbols hs with rfl | rfl | rfl | rfl | rfl | rfl <;> cases w <;>
        simp [beginsNumber] at h

theorem not_begins_of_start (h : isNameStart c = true) : beginsNumber (c :: w) = false := by
  have hdigit : c.isDigit = false := by
    cases hd : c.isDigit with
    | false => rfl
    | true =>
        exfalso
        unfold isNameStart at h
        rcases Bool.or_eq_true_iff.mp h with halpha | hline
        · have hletter : (decide (c.val ≥ 'A'.val ∧ c.val ≤ 'Z'.val) ||
              (c.val ≥ 'a'.val && c.val ≤ 'z'.val)) = true := halpha
          simp only [Char.isDigit, Bool.or_eq_true, Bool.and_eq_true, decide_eq_true_eq,
            ge_iff_le, UInt32.le_iff_toNat_le] at hletter hd
          have h9 : '9'.val.toNat = 57 := rfl
          have hA : 'A'.val.toNat = 65 := rfl
          have ha : 'a'.val.toNat = 97 := rfl
          omega
        · rw [beq_iff_eq.mp hline] at hd
          exact absurd hd (by decide)
  have hpoint : (c == '.') = false := by
    cases hp : c == '.' with
    | false => rfl
    | true =>
        rw [beq_iff_eq.mp hp] at h
        exact absurd h (by decide)
  cases w with
  | nil => exact hdigit
  | cons d w => simp [beginsNumber, hdigit, hpoint]

/-- The first token of text that begins with a symbol, or that is empty -/
theorem head_isSymbol (hok : ∀ t ∈ ts, t.Ok) (h : (render ts).head?.all isSymbol = true) :
    ts.head?.all Token.isSymbol = true := by
  cases ts with
  | nil => rfl
  | cons t ts =>
      have ht := hok t List.mem_cons_self
      cases t with
      | symbol c => rfl
      | number w =>
          obtain ⟨c, v, rfl⟩ := IsNumeral.cons ht
          have hc : isSymbol c = true := by simpa [Token.text] using h
          rw [not_symbol_of_begins ht.begins] at hc
          simp at hc
      | name w =>
          obtain ⟨c, v, rfl, hstart⟩ := IsName.cons ht
          have hc : isSymbol c = true := by simpa [Token.text] using h
          have hname := isNameChar_of_start hstart
          rw [not_nameChar_of_symbol hc] at hname
          simp at hname

theorem fits_of_head {u : List Token} (hop : t.isSymbol = false)
    (h : u.head?.all Token.isSymbol = true) : ∀ v ∈ u.head?, t.Fits v := by
  intro v hv
  have hsym : v.isSymbol = true := by
    rw [hv] at h
    simpa using h
  cases t with
  | symbol c => simp [Token.isSymbol] at hop
  | number w => exact hsym
  | name w => exact hsym

theorem numeralRun_append (s : List Char) : (numeralRun s).1 ++ (numeralRun s).2 = s := by
  fun_induction numeralRun s with
  | case1 => rfl
  | case2 c hc => rfl
  | case3 c hc => rfl
  | case4 c d s hc ih => simpa using ih
  | case5 c d s hc hhex ih => simpa using ih
  | case6 c d s hc hhex => rfl

theorem begins_digit (hc : c.isDigit = true) (w : List Char) : beginsNumber (c :: w) = true := by
  cases w with
  | nil => exact hc
  | cons d w => simp [beginsNumber, hc]

/-- What is taken for a numeral begins like one. -/
theorem begins_run (h : beginsNumber s = true) : beginsNumber (numeralRun s).1 = true := by
  have hdigit : ∀ (c : Char) (s : List Char), c.isDigit = true →
      (numeralRun (c :: s)).1 = c :: (numeralRun s).1 := by
    intro c s hc
    rw [numeralRun_cons (Or.inl (digit_hex hc)) fun h => digit_ne_exponent hc h.1]
  cases s with
  | nil => simp [beginsNumber] at h
  | cons c s =>
      by_cases hc : c.isDigit = true
      · rw [hdigit c s hc]
        exact begins_digit hc _
      · cases s with
        | nil => exact absurd h hc
        | cons d s =>
            have hpoint : c = '.' ∧ d.isDigit = true := by simpa [beginsNumber, hc] using h
            obtain ⟨rfl, hd⟩ := hpoint
            rw [numeralRun_cons (Or.inr rfl) fun h => absurd h.1 (by decide), hdigit d s hd]
            simp [beginsNumber, hd]

/-- What `lex` finds first, if it finds anything -/
inductive First (s : List Char) (t : Token) (rest : List Char) : Prop
  | operand : t.isSymbol = false → rest.head?.all isSymbol = true → First s t rest
  | symbol {c : Char} : t = .symbol c → ¬(c = '-' ∧ rest.head? = some '-') → First s t rest

theorem lex_cons (h : lex (n + 1) (c :: s) = some ts) :
    ∃ t rest us, ts = t :: us ∧ lex n rest = some us ∧ t.text ++ rest = c :: s ∧ t.Ok ∧
      First (c :: s) t rest := by
  rw [lex] at h
  split at h
  · next hbegins =>
      dsimp only at h
      split at h
      · next hcond =>
          obtain ⟨us, hus, rfl⟩ := Option.map_eq_some_iff.mp h
          exact ⟨_, _, us, rfl, hus, numeralRun_append (c :: s), ⟨begins_run hbegins, hcond.2⟩,
            .operand rfl hcond.1⟩
      · simp at h
  split at h
  · next hstart =>
      dsimp only at h
      split at h
      · next hrest =>
          obtain ⟨us, hus, rfl⟩ := Option.map_eq_some_iff.mp h
          refine ⟨_, _, us, rfl, hus, List.takeWhile_append_dropWhile, ⟨?_, ?_⟩,
            .operand rfl hrest⟩
          · rw [List.takeWhile_cons_of_pos (isNameChar_of_start hstart)]
            simpa using hstart
          · exact fun d hd => List.mem_takeWhile_imp hd
      · simp at h
  split at h
  · next hsymbol =>
      obtain ⟨us, hus, rfl⟩ := Option.map_eq_some_iff.mp h
      exact ⟨_, s, us, rfl, hus, rfl, hsymbol.1, .symbol rfl hsymbol.2⟩
  · simp at h

theorem head_eq_minus (hok : ∀ t ∈ ts, t.Ok) (h : ts.head? = some (.symbol '-')) :
    (render ts).head? = some '-' := by
  cases ts with
  | nil => simp at h
  | cons t ts =>
      obtain rfl : t = .symbol '-' := by simpa using h
      rfl

/-- **The tokens of text spell it**, and they are well formed. -/
theorem render_of_lex (h : lex n s = some ts) : render ts = s ∧ WellFormed ts := by
  induction n generalizing s ts with
  | zero =>
      cases s with
      | nil =>
          obtain rfl : [] = ts := Option.some.inj h
          exact ⟨rfl, by simp, .nil⟩
      | cons c s => simp [lex] at h
  | succ n ih =>
      cases s with
      | nil =>
          obtain rfl : [] = ts := Option.some.inj h
          exact ⟨rfl, by simp, .nil⟩
      | cons c s =>
          obtain ⟨t, rest, us, rfl, hus, htext, hok, hfirst⟩ := lex_cons h
          obtain ⟨hrender, hwell⟩ := ih hus
          refine ⟨by rw [render_cons, hrender, htext], ?_, ?_⟩
          · exact List.forall_mem_cons.mpr ⟨hok, hwell.ok⟩
          · refine List.isChain_cons.mpr ⟨?_, hwell.fits⟩
            cases hfirst with
            | operand hop hrest =>
                exact fits_of_head hop (head_isSymbol hwell.ok (by rw [hrender]; exact hrest))
            | symbol heq hminus =>
                intro u hu
                rw [heq]
                rintro ⟨hc, rfl⟩
                exact hminus ⟨hc, hrender ▸ head_eq_minus hwell.ok hu⟩

/-- Behind an operand comes a symbol, or nothing. -/
theorem WellFormed.behind (h : WellFormed (t :: ts)) (hop : t.isSymbol = false) :
    (render ts).head?.all isSymbol = true := by
  cases ts with
  | nil => rfl
  | cons u us =>
      have hfits := (List.isChain_cons_cons.mp h.fits).1
      have hu : u.isSymbol = true := by
        cases t with
        | symbol c => simp [Token.isSymbol] at hop
        | number w => exact hfits
        | name w => exact hfits
      cases u with
      | symbol c =>
          have hc : isSymbol c = true := h.ok (.symbol c) (by simp)
          simpa [Token.text] using hc
      | number w => simp [Token.isSymbol] at hu
      | name w => simp [Token.isSymbol] at hu

theorem WellFormed.tail (h : WellFormed (t :: ts)) : WellFormed ts :=
  ⟨fun u hu => h.ok u (List.mem_cons_of_mem _ hu), h.fits.tail⟩

theorem WellFormed.not_comment (h : WellFormed (.symbol c :: ts)) :
    ¬(c = '-' ∧ (render ts).head? = some '-') := by
  rintro ⟨rfl, hhead⟩
  cases ts with
  | nil => simp at hhead
  | cons u us =>
      have hfits := (List.isChain_cons_cons.mp h.fits).1
      have hu := h.ok u (by simp)
      cases u with
      | symbol d =>
          obtain rfl : d = '-' := by simpa [Token.text] using hhead
          exact hfits ⟨rfl, rfl⟩
      | number w =>
          obtain ⟨d, v, rfl⟩ := IsNumeral.cons hu
          obtain rfl : d = '-' := by simpa [Token.text] using hhead
          exact absurd (not_symbol_of_begins hu.begins) (by decide)
      | name w =>
          obtain ⟨d, v, rfl, hstart⟩ := IsName.cons hu
          obtain rfl : d = '-' := by simpa [Token.text] using hhead
          exact absurd hstart (by decide)

theorem span_name (hname : ∀ c ∈ w, isNameChar c = true)
    (hrest : rest.head?.all isSymbol = true) :
    (w ++ rest).takeWhile isNameChar = w ∧ (w ++ rest).dropWhile isNameChar = rest := by
  rw [List.takeWhile_append_of_pos hname, List.dropWhile_append_of_pos hname]
  cases rest with
  | nil => simp
  | cons c rest =>
      have hc : isNameChar c = false := not_nameChar_of_symbol (by simpa using hrest)
      simp [hc]

theorem begins_append {v : List Char} (h : beginsNumber w = true) :
    beginsNumber (w ++ v) = true := by
  cases w with
  | nil => simp [beginsNumber] at h
  | cons c w =>
      cases w with
      | nil => exact begins_digit h v
      | cons d w => exact h

/-- **Well formed tokens are read back.** -/
theorem lex_render (h : WellFormed ts) (hn : ts.length ≤ n) : lex n (render ts) = some ts := by
  induction ts generalizing n with
  | nil => cases n <;> rfl
  | cons t ts ih =>
      obtain ⟨n, rfl⟩ := Nat.exists_eq_succ_of_ne_zero (Nat.ne_of_gt (Nat.zero_lt_of_lt hn))
      have hlex := ih h.tail (Nat.le_of_succ_le_succ hn)
      have hok := h.ok t List.mem_cons_self
      cases t with
      | number w =>
          have hrest := h.behind rfl
          have hrun := IsNumeral.run hok hrest
          have hbegins := begins_append (v := render ts) hok.begins
          obtain ⟨c, v, rfl⟩ := IsNumeral.cons hok
          show lex (n + 1) (c :: (v ++ render ts)) = _
          rw [List.cons_append] at hrun hbegins
          rw [lex, if_pos hbegins, hrun]
          dsimp only
          rw [if_pos ⟨hrest, hok.number⟩, hlex]
          rfl
      | name w =>
          have hrest := h.behind rfl
          obtain ⟨htake, hdrop⟩ := span_name hok.chars hrest
          obtain ⟨c, v, rfl, hstart⟩ := IsName.cons hok
          show lex (n + 1) (c :: (v ++ render ts)) = _
          rw [List.cons_append] at htake hdrop
          rw [lex, if_neg (by simp [not_begins_of_start hstart]), if_pos hstart, htake, hdrop]
          dsimp only
          rw [if_pos hrest, hlex]
          rfl
      | symbol c =>
          show lex (n + 1) (c :: render ts) = _
          have hno : beginsNumber (c :: render ts) = false := by
            cases hb : beginsNumber (c :: render ts) with
            | false => rfl
            | true =>
                have hc : isSymbol c = true := hok
                rw [not_symbol_of_begins hb] at hc
                simp at hc
          have hstart : isNameStart c = false := by
            cases hs : isNameStart c with
            | false => rfl
            | true =>
                have hchar := isNameChar_of_start hs
                rw [not_nameChar_of_symbol hok] at hchar
                simp at hchar
          rw [lex, if_neg (by simp [hno]), if_neg (by simp [hstart]),
            if_pos ⟨hok, h.not_comment⟩, hlex]
          rfl

theorem length_le_render (hok : ∀ t ∈ ts, t.Ok) : ts.length ≤ (render ts).length := by
  induction ts with
  | nil => exact Nat.le_refl 0
  | cons t ts ih =>
      obtain ⟨ht, hts⟩ := List.forall_mem_cons.mp hok
      have hpos : 0 < t.text.length := by
        cases t with
        | number w =>
            obtain ⟨c, v, rfl⟩ := IsNumeral.cons ht
            exact Nat.succ_pos _
        | name w =>
            obtain ⟨c, v, rfl, -⟩ := IsName.cons ht
            exact Nat.succ_pos _
        | symbol c => exact Nat.one_pos
      have := ih hts
      rw [render_cons, List.length_append, List.length_cons]
      omega

theorem tokens?_render (h : WellFormed ts) : tokens? (render ts) = some ts :=
  lex_render h (length_le_render h.ok)

end Lex

/-! ## Replacing a name -/

/-- Replace a text wherever it stands, from left to right. The counter tells how many characters of
the last match are still to come. -/
def replaceFrom (x v : List Char) : ℕ → List Char → List Char
  | _, [] => []
  | k + 1, _ :: s => replaceFrom x v k s
  | 0, c :: s =>
      if x <+: c :: s then v ++ replaceFrom x v (x.length - 1) s else c :: replaceFrom x v 0 s

def replaceAll (x v s : List Char) : List Char := replaceFrom x v 0 s

section Replace

variable {x v a s : List Char} {c : Char} {k : ℕ}

theorem prefix_append_cons (hc : c ∉ x) : x <+: a ++ c :: s ↔ x <+: a := by
  constructor
  · intro h
    by_contra hno
    have hlen : a.length < x.length := by
      rcases Nat.lt_or_ge a.length x.length with hlt | hge
      · exact hlt
      · exact absurd (List.prefix_of_prefix_length_le h (List.prefix_append a _) hge) hno
    have hpre : a ++ [c] <+: x := by
      refine List.prefix_of_prefix_length_le ⟨s, by simp⟩ h ?_
      rw [List.length_append, List.length_singleton]
      exact hlen
    exact hc (hpre.subset (by simp))
  · exact fun h => h.trans (List.prefix_append a _)

/-- A character that the text to be replaced does not have cuts the work in two. -/
theorem replaceFrom_append (hc : c ∉ x) (hk : k ≤ a.length) :
    replaceFrom x v k (a ++ c :: s) = replaceFrom x v k a ++ replaceFrom x v 0 (c :: s) := by
  induction a generalizing k with
  | nil =>
      obtain rfl : k = 0 := Nat.le_zero.mp hk
      rfl
  | cons d a ih =>
      cases k with
      | succ k => exact ih (Nat.le_of_succ_le_succ hk)
      | zero =>
          rw [List.cons_append, replaceFrom, replaceFrom]
          have hiff : x <+: d :: (a ++ c :: s) ↔ x <+: d :: a :=
            prefix_append_cons (a := d :: a) hc
          by_cases hpre : x <+: d :: a
          · rw [if_pos (hiff.mpr hpre), if_pos hpre,
              ih (by have := hpre.length_le; simp at this; omega), List.append_assoc]
          · rw [if_neg fun h => hpre (hiff.mp h), if_neg hpre, ih (Nat.zero_le _), List.cons_append]

theorem replaceFrom_skip (hk : s.length ≤ k) : replaceFrom x v k s = [] := by
  induction s generalizing k with
  | nil => cases k <;> rfl
  | cons c s ih =>
      cases k with
      | zero => simp at hk
      | succ k => exact ih (Nat.le_of_succ_le_succ hk)

theorem replaceAll_self (hx : x ≠ []) : replaceAll x v x = v := by
  cases x with
  | nil => exact absurd rfl hx
  | cons c x =>
      rw [replaceAll, replaceFrom, if_pos (List.prefix_refl _), replaceFrom_skip (by simp),
        List.append_nil]

theorem replaceAll_of_absent (h : ¬x <:+: s) : replaceAll x v s = s := by
  induction s with
  | nil => rfl
  | cons c s ih =>
      rw [replaceAll, replaceFrom, if_neg fun hpre => h hpre.isInfix]
      exact congrArg (c :: ·) (ih fun hin => h (hin.trans (List.suffix_cons c s).isInfix))

end Replace

/-- Replace the operand `x` by the number `v`. -/
def Token.put (x v : List Char) : Token → Token
  | .name y => if y = x then .number v else .name y
  | t => t

section Put

variable {x v : List Char} {t : Token} {ts : List Token}

theorem IsName.not_symbol (hx : IsName x) {c : Char} (hc : isSymbol c = true) : c ∉ x := by
  intro hmem
  have hname := hx.chars c hmem
  rw [not_nameChar_of_symbol hc] at hname
  simp at hname

theorem IsName.ne_nil (hx : IsName x) : x ≠ [] := by
  obtain ⟨c, w, rfl, -⟩ := hx.cons
  exact List.cons_ne_nil _ _

theorem put_name (y : List Char) :
    (Token.name y).put x v = if y = x then .number v else .name y := rfl

theorem put_isSymbol (t : Token) : (t.put x v).isSymbol = t.isSymbol := by
  cases t with
  | name y =>
      rw [put_name]
      split <;> rfl
  | _ => rfl

theorem put_eq_minus (h : t.put x v = .symbol '-') : t = .symbol '-' := by
  cases t with
  | name y =>
      rw [put_name] at h
      split at h <;> simp at h
  | number w => simp [Token.put] at h
  | symbol c => exact h

theorem WellFormed.put (h : WellFormed ts) (hv : IsNumeral v) :
    WellFormed (ts.map (Token.put x v)) := by
  constructor
  · intro t ht
    obtain ⟨u, hu, rfl⟩ := List.mem_map.mp ht
    have hok := h.ok u hu
    cases u with
    | name y =>
        rw [put_name]
        split
        · exact hv
        · exact hok
    | number w => exact hok
    | symbol c => exact hok
  · refine (List.isChain_map _).mpr (h.fits.imp fun t u hfits => ?_)
    cases t with
    | symbol c => exact fun hc => hfits ⟨hc.1, put_eq_minus hc.2⟩
    | number w => exact (put_isSymbol u).trans hfits
    | name y =>
        have hu : (u.put x v).isSymbol = true := (put_isSymbol u).trans hfits
        rw [put_name]
        split
        · exact hu
        · exact hu

/-- The name stands nowhere in an operand but alone. -/
def Token.Clear (x : List Char) (t : Token) : Prop :=
  t.isSymbol = true ∨ t = .name x ∨ ¬x <:+: t.text

theorem Token.Clear.replaceAll (hx : IsName x) (hop : t.isSymbol = false) (h : t.Clear x) :
    Formula.replaceAll x v t.text = (t.put x v).text := by
  rcases h with hsym | rfl | hno
  · rw [hop] at hsym
    simp at hsym
  · rw [put_name, if_pos rfl]
    exact replaceAll_self hx.ne_nil
  · rw [replaceAll_of_absent hno]
    cases t with
    | name y =>
        have hne : y ≠ x := fun h => hno (h ▸ List.infix_refl _)
        rw [put_name, if_neg hne]
    | number w => rfl
    | symbol c => rfl

/-- **In clear text a name is replaced as a whole.** -/
theorem replaceAll_render (hx : IsName x) (h : WellFormed ts) (hclear : ∀ t ∈ ts, t.Clear x) :
    replaceAll x v (render ts) = render (ts.map (Token.put x v)) := by
  induction ts with
  | nil => rfl
  | cons t ts ih =>
      have hrest := ih h.tail fun u hu => hclear u (List.mem_cons_of_mem _ hu)
      cases hop : t.isSymbol with
      | true =>
          cases t with
          | symbol c =>
              have hc : isSymbol c = true := h.ok (.symbol c) List.mem_cons_self
              have hno : ¬x <+: c :: render ts := by
                intro hpre
                obtain ⟨d, w, rfl, -⟩ := hx.cons
                obtain rfl : d = c := (List.cons_prefix_cons.mp hpre).1
                exact hx.not_symbol hc List.mem_cons_self
              show replaceFrom x v 0 (c :: render ts) = c :: render (ts.map (Token.put x v))
              rw [replaceFrom, if_neg hno]
              exact congrArg (c :: ·) hrest
          | number w => simp [Token.isSymbol] at hop
          | name w => simp [Token.isSymbol] at hop
      | false =>
          have hself := (hclear t List.mem_cons_self).replaceAll (v := v) hx hop
          have hbehind := h.behind hop
          rw [List.map_cons, render_cons, render_cons, ← hrest, ← hself]
          cases hr : render ts with
          | nil => simp [replaceAll, replaceFrom]
          | cons c s =>
              have hc : c ∉ x := hx.not_symbol (by simpa [hr] using hbehind)
              exact replaceFrom_append hc (Nat.zero_le _)

end Put

end Formula
