import Likwid.Lib.Text

/-!
# Formatted input, line by line

`fgetsLines` cuts a text into what `fgets` reads one call after the other, and `scan` reads
words, numbers and literals from a line, as `sscanf` does: it ends at the first directive
that does not match, and returns the conversions made until then.
-/

namespace Scan

def isSpace (c : Char) : Bool :=
  c = ' ' || c = '\t' || c = '\n' || c = '\x0b' || c = '\x0c' || c = '\r'

/-- `%s`, `%d`, a character and blanks in a format -/
inductive Directive where
  | word
  | number
  | lit (c : Char)
  | blanks
deriving DecidableEq, Repr

inductive Conversion where
  | word (w : List Char)
  | number (z : Int)
deriving DecidableEq, Repr

/-- The sign and the digits of a number, and what is behind it. -/
def readInt (s : List Char) : Option (Int × List Char) :=
  let (neg, s) := match s with
    | '-' :: s => (true, s)
    | '+' :: s => (false, s)
    | s => (false, s)
  let ds := s.takeWhile Char.isDigit
  if ds = [] then none
  else
    some (if neg then -(Nat.ofDigitChars 10 ds 0 : Int) else Nat.ofDigitChars 10 ds 0,
      s.dropWhile Char.isDigit)

/-- `sscanf` -/
def scan : List Directive → List Char → List Conversion
  | [], _ => []
  | .blanks :: ds, s => scan ds (s.dropWhile isSpace)
  | .lit c :: ds, s =>
      match s with
      | c' :: s => if c' = c then scan ds s else []
      | [] => []
  | .word :: ds, s =>
      let s := s.dropWhile isSpace
      let w := s.takeWhile (!isSpace ·)
      if w = [] then [] else .word w :: scan ds (s.dropWhile (!isSpace ·))
  | .number :: ds, s =>
      match readInt (s.dropWhile isSpace) with
      | some (z, s) => .number z :: scan ds s
      | none => []

/-- What becomes of a number that is read as a `long` and stored in an `int`. -/
def storeInt (z : Int) : Int :=
  (BitVec.ofInt 32 (max (-2 ^ 63) (min (2 ^ 63 - 1) z))).toInt

/-- `atoi` -/
def atoi (s : List Char) : Int :=
  match readInt (s.dropWhile isSpace) with
  | some (z, _) => storeInt z
  | none => 0

/-- The lines that `fgets(line, size, fp)` reads, when `line` is read so far -/
def fgetsFrom (size : ℕ) : List Char → List Char → List (List Char)
  | line, [] => if line = [] then [] else [line]
  | line, c :: s =>
      if c = '\n' ∨ size ≤ line.length + 2 then (line ++ [c]) :: fgetsFrom size [] s
      else fgetsFrom size (line ++ [c]) s

/-- The lines that `fgets(line, size, fp)` reads until the end of the file -/
def fgetsLines (size : ℕ) (s : List Char) : List (List Char) := fgetsFrom size [] s

/-! ## Numbers that were printed -/

theorem readInt_digit {c : Char} {s : List Char} (hc : c.isDigit = true) :
    readInt (c :: s) =
      some ((Nat.ofDigitChars 10 ((c :: s).takeWhile Char.isDigit) 0 : Int),
        (c :: s).dropWhile Char.isDigit) := by
  have hne : (c :: s).takeWhile Char.isDigit ≠ [] := by
    rw [List.takeWhile_cons_of_pos hc]
    exact List.cons_ne_nil _ _
  rw [readInt]
  · show (if _ then none else _) = _
    rw [if_neg hne]
    rfl
  · intro s' h
    rw [(List.cons.inj h).1] at hc
    exact absurd hc (by decide)
  · intro s' h
    rw [(List.cons.inj h).1] at hc
    exact absurd hc (by decide)

theorem readInt_decimal_append (n : ℕ) {rest : List Char}
    (hrest : rest.head?.all (!·.isDigit) = true) :
    readInt (Text.decimal n ++ rest) = some ((n : Int), rest) := by
  have hdigits : ∀ c ∈ Text.decimal n, c.isDigit = true := fun c => Text.isDigit_of_mem_decimal
  have hvalue : Nat.ofDigitChars 10 ((Text.decimal n ++ rest).takeWhile Char.isDigit) 0 = n :=
    Text.readNat_decimal_append hrest
  have hdrop : (Text.decimal n ++ rest).dropWhile Char.isDigit = rest := by
    rw [List.dropWhile_append_of_pos hdigits]
    cases rest with
    | nil => rfl
    | cons c rest =>
        have hc : c.isDigit = false := by simpa using hrest
        rw [List.dropWhile_cons_of_neg (by simp [hc])]
  obtain ⟨c, cs, hcs⟩ := List.exists_cons_of_ne_nil (Text.decimal_ne_nil n)
  have hc := hdigits c (hcs ▸ List.mem_cons_self)
  rw [hcs] at hvalue hdrop ⊢
  rw [List.cons_append] at hvalue hdrop ⊢
  rw [readInt_digit hc, hvalue, hdrop]

/-- `%d` is read back. -/
theorem readInt_integer (z : Int) : readInt (Text.integer z) = some (z, []) := by
  have hread : readInt (Text.decimal z.natAbs ++ []) = some ((z.natAbs : Int), []) :=
    readInt_decimal_append z.natAbs rfl
  rw [List.append_nil] at hread
  rw [Text.integer]
  split
  · next hz =>
      have hdigits : ∀ c ∈ Text.decimal z.natAbs, c.isDigit = true :=
        fun c => Text.isDigit_of_mem_decimal
      obtain ⟨c, cs, hcs⟩ := List.exists_cons_of_ne_nil (Text.decimal_ne_nil z.natAbs)
      have hc := hdigits c (hcs ▸ List.mem_cons_self)
      have hne : (c :: cs).takeWhile Char.isDigit ≠ [] := by
        rw [List.takeWhile_cons_of_pos hc]
        exact List.cons_ne_nil _ _
      rw [hcs, readInt_digit hc] at hread
      obtain ⟨hvalue, hdrop⟩ := Prod.mk.inj (Option.some.inj hread)
      rw [hcs, readInt]
      show (if _ then none else _) = _
      rw [if_neg hne]
      show some (-(Nat.ofDigitChars 10 ((c :: cs).takeWhile Char.isDigit) 0 : Int),
        (c :: cs).dropWhile Char.isDigit) = _
      rw [hvalue, hdrop]
      congr 2
      omega
  · next hz =>
      rw [hread]
      congr 2
      omega

theorem isSpace_of_isDigit {c : Char} (hc : c.isDigit = true) : isSpace c = false := by
  rw [Bool.eq_false_iff]
  intro hspace
  simp only [isSpace, Bool.or_eq_true, decide_eq_true_eq] at hspace
  rcases hspace with ((((rfl | rfl) | rfl) | rfl) | rfl) | rfl
  all_goals exact absurd hc (by decide)

theorem dropWhile_isSpace_integer (z : Int) :
    (Text.integer z).dropWhile isSpace = Text.integer z := by
  rw [Text.integer]
  split
  · rw [List.dropWhile_cons_of_neg (by decide)]
  · obtain ⟨c, cs, hcs⟩ := List.exists_cons_of_ne_nil (Text.decimal_ne_nil z.natAbs)
    have hc : c.isDigit = true := Text.isDigit_of_mem_decimal (hcs ▸ List.mem_cons_self)
    rw [hcs, List.dropWhile_cons_of_neg (by simp [isSpace_of_isDigit hc])]

theorem atoi_lt (s : List Char) : atoi s < 2 ^ 31 := by
  unfold atoi
  split
  · exact BitVec.toInt_lt
  · decide

theorem atoi_integer (z : Int) : atoi (Text.integer z) = storeInt z := by
  rw [atoi, dropWhile_isSpace_integer, readInt_integer]

theorem storeInt_of_lt {k : ℕ} (h : k < 2 ^ 31) : storeInt k = k := by
  have hmin : max (-2 ^ 63) (min (2 ^ 63 - 1) (k : Int)) = k := by omega
  rw [storeInt, hmin, BitVec.toInt_ofInt, Int.bmod_eq_of_le]
  · omega
  · omega

theorem atoi_decimal {k : ℕ} (h : k < 2 ^ 31) : atoi (Text.decimal k) = k := by
  have htext : Text.integer (k : Int) = Text.decimal k := by
    rw [Text.integer, if_neg (by omega), Int.natAbs_natCast]
  rw [← htext, atoi_integer, storeInt_of_lt h]

end Scan
