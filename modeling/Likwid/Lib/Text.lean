import Mathlib.Data.List.Basic
import Mathlib.Algebra.Group.Nat.Defs
import Mathlib.Algebra.Group.Int.Defs

/-!
# Words and numbers in text

Text is a list of characters. `tokens` are its maximal runs of characters that are
no separators, as `strtok` finds them; `decimal` prints a number and `readNat`
reads the digits text begins with.
-/

namespace Text

/-! ## Words -/

variable {sep : Char → Bool} {w rest : List Char} {c : Char}

def tokens (sep : Char → Bool) : List Char → List (List Char)
  | [] => []
  | c :: cs =>
      if sep c then tokens sep cs
      else if cs.head?.all sep then [c] :: tokens sep cs
      else
        match tokens sep cs with
        | [] => [[c]]
        | w :: ws => (c :: w) :: ws

/-- No character of the word is a separator. -/
def Solid (sep : Char → Bool) (w : List Char) : Prop := ∀ c ∈ w, sep c = false

theorem Solid.of_cons (h : Solid sep (c :: w)) : sep c = false ∧ Solid sep w :=
  List.forall_mem_cons.mp h

theorem tokens_cons_sep (hc : sep c = true) : tokens sep (c :: rest) = tokens sep rest := by
  rw [tokens, if_pos hc]

theorem tokens_word_append (hw : Solid sep w) (hne : w ≠ []) (hrest : rest.head?.all sep = true) :
    tokens sep (w ++ rest) = w :: tokens sep rest := by
  induction w with
  | nil => exact absurd rfl hne
  | cons c w ih =>
      obtain ⟨hc, hw⟩ := hw.of_cons
      cases w with
      | nil => simp [tokens, hc, hrest]
      | cons c' w =>
          have hc' : sep c' = false := hw.of_cons.1
          rw [List.cons_append, tokens, if_neg (by simp [hc]), if_neg (by simp [hc']),
            ih hw (List.cons_ne_nil _ _)]

theorem tokens_word (hw : Solid sep w) (hne : w ≠ []) : tokens sep w = [w] := by
  have h : tokens sep (w ++ []) = w :: tokens sep [] := tokens_word_append hw hne rfl
  rwa [List.append_nil] at h

theorem tokens_word_sep (hw : Solid sep w) (hne : w ≠ []) (hc : sep c = true) :
    tokens sep (w ++ c :: rest) = w :: tokens sep rest := by
  rw [tokens_word_append hw hne (by simp [hc]), tokens_cons_sep hc]

/-- Words with one separator between two of them. -/
def join (c : Char) : List (List Char) → List Char
  | [] => []
  | [w] => w
  | w :: w' :: ws => w ++ c :: join c (w' :: ws)

theorem tokens_join {ws : List (List Char)} (hws : ∀ w ∈ ws, Solid sep w ∧ w ≠ [])
    (hc : sep c = true) : tokens sep (join c ws) = ws := by
  induction ws with
  | nil => rfl
  | cons w ws ih =>
      obtain ⟨hw, hne⟩ := hws w List.mem_cons_self
      cases ws with
      | nil => exact tokens_word hw hne
      | cons w' ws =>
          rw [join, tokens_word_sep hw hne hc, ih fun v hv => hws v (List.mem_cons_of_mem _ hv)]

/-! ## Numbers -/

/-- `%d` and `%u` of a number that is not negative. -/
def decimal (n : ℕ) : List Char := Nat.toDigits 10 n

/-- `%d` -/
def integer (z : Int) : List Char :=
  if z < 0 then '-' :: decimal z.natAbs else decimal z.natAbs

/-- The number that the text begins with. -/
def readNat (text : List Char) : ℕ := Nat.ofDigitChars 10 (text.takeWhile Char.isDigit) 0

theorem isDigit_of_mem_decimal {n : ℕ} (hc : c ∈ decimal n) : c.isDigit = true :=
  Nat.isDigit_of_mem_toDigits (by decide) (by decide) hc

theorem decimal_ne_nil (n : ℕ) : decimal n ≠ [] := Nat.toDigits_ne_nil

theorem not_mem_decimal {c : Char} (hc : c.isDigit = false) (n : ℕ) : c ∉ decimal n := fun hmem =>
  absurd (isDigit_of_mem_decimal hmem) (by simp [hc])

theorem not_mem_integer {c : Char} (hc : c.isDigit = false) (hne : c ≠ '-') (z : Int) :
    c ∉ integer z := by
  unfold integer
  split
  · intro hmem
    rcases List.mem_cons.mp hmem with rfl | hmem
    · exact hne rfl
    · exact not_mem_decimal hc _ hmem
  · exact not_mem_decimal hc _

theorem readNat_decimal_append {n : ℕ} (hrest : rest.head?.all (!·.isDigit) = true) :
    readNat (decimal n ++ rest) = n := by
  have htake : (decimal n ++ rest).takeWhile Char.isDigit = decimal n := by
    rw [List.takeWhile_append_of_pos fun c hc => isDigit_of_mem_decimal hc]
    cases rest with
    | nil => simp
    | cons c rest =>
        have hc : c.isDigit = false := by simpa using hrest
        rw [List.takeWhile_cons_of_neg (by simp [hc]), List.append_nil]
  rw [readNat, htake]
  exact Nat.ofDigitChars_ten_toDigits

@[simp] theorem readNat_decimal (n : ℕ) : readNat (decimal n) = n := by
  have h : readNat (decimal n ++ []) = n := readNat_decimal_append rfl
  rwa [List.append_nil] at h

theorem decimal_inj {m n : ℕ} (h : decimal m = decimal n) : m = n := by
  rw [← readNat_decimal m, h, readNat_decimal]

end Text
