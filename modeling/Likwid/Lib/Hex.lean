import Likwid.Lib.Scan

/-!
# Hexadecimal numbers

`strtoul` with base 16, on a 64-bit `unsigned long`: blanks, a sign, `0x` and the digits.
-/

namespace Hex

def digit (c : Char) : Option ℕ :=
  if '0' ≤ c ∧ c ≤ '9' then some (c.toNat - '0'.toNat)
  else if 'a' ≤ c ∧ c ≤ 'f' then some (c.toNat - 'a'.toNat + 10)
  else if 'A' ≤ c ∧ c ≤ 'F' then some (c.toNat - 'A'.toNat + 10)
  else none

def isDigit (c : Char) : Bool := (digit c).isSome

/-- The number the digits `ds` spell behind the number `n` -/
def number (n : ℕ) (ds : List Char) : ℕ := ds.foldl (fun n c => 16 * n + (digit c).getD 0) n

/-- Without the `0x` in front of a digit -/
def dropMark : List Char → List Char
  | '0' :: x :: c :: s => if (x = 'x' ∨ x = 'X') ∧ isDigit c then c :: s else '0' :: x :: c :: s
  | s => s

/-- Whether there is a minus sign, and what is behind the sign -/
def readSign : List Char → Bool × List Char
  | '-' :: s => (true, s)
  | '+' :: s => (false, s)
  | s => (false, s)

/-- The sign and the digits, if there is one at least -/
def readSigned (s : List Char) : Option (Bool × ℕ) :=
  let sign := readSign (s.dropWhile Scan.isSpace)
  let ds := (dropMark sign.2).takeWhile isDigit
  if ds = [] then none else some (sign.1, number 0 ds)

structure Strtoul where
  val : BitVec 64
  errno : ℕ
  /-- `endptr` is behind the start. -/
  converted : Bool
deriving DecidableEq, Repr

/-- `strtoul(s, &endptr, 16)`. A number that is too large sets `errno` to `erange`; nothing sets
it back. -/
def strtoul (erange errno : ℕ) (s : List Char) : Strtoul :=
  match readSigned s with
  | none => ⟨0, errno, false⟩
  | some (neg, n) =>
      if n < 2 ^ 64 then ⟨if neg then -(BitVec.ofNat 64 n) else BitVec.ofNat 64 n, errno, true⟩
      else ⟨BitVec.allOnes 64, erange, true⟩

/-! ## Words of digits -/

/-- A word of hexadecimal digits -/
def Word (w : List Char) : Prop := w ≠ [] ∧ ∀ c ∈ w, isDigit c = true

variable {w rest : List Char} {c : Char}

theorem isSpace_of_isDigit (hc : isDigit c = true) : Scan.isSpace c = false := by
  rw [Bool.eq_false_iff]
  intro hspace
  simp only [Scan.isSpace, Bool.or_eq_true, decide_eq_true_eq] at hspace
  rcases hspace with ((((rfl | rfl) | rfl) | rfl) | rfl) | rfl
  all_goals exact absurd hc (by decide)

theorem not_isDigit_of_isSpace (hc : Scan.isSpace c = true) : isDigit c = false := by
  cases hd : isDigit c with
  | false => rfl
  | true => rw [isSpace_of_isDigit hd] at hc; cases hc

theorem dropMark_eq {s : List Char} (hx : 'x' ∉ s) (hX : 'X' ∉ s) : dropMark s = s := by
  unfold dropMark
  split
  · next x c s =>
      have hmem : x ∈ '0' :: x :: c :: s := by simp
      rw [if_neg]
      rintro ⟨rfl | rfl, _⟩
      · exact hx hmem
      · exact hX hmem
  · rfl

theorem readSign_eq {s : List Char} (hminus : '-' ∉ s) (hplus : '+' ∉ s) :
    readSign s = (false, s) := by
  unfold readSign
  split
  · exact absurd List.mem_cons_self hminus
  · exact absurd List.mem_cons_self hplus
  · rfl

/-- A word of digits is read up to the blanks behind it. -/
theorem readSigned_word (hw : Word w) (hrest : ∀ c ∈ rest, Scan.isSpace c = true) :
    readSigned (w ++ rest) = some (false, number 0 w) := by
  obtain ⟨hne, hdigits⟩ := hw
  have hchars : ∀ c ∈ w ++ rest, isDigit c = true ∨ Scan.isSpace c = true := by
    intro c hc
    rcases List.mem_append.mp hc with hc | hc
    · exact Or.inl (hdigits c hc)
    · exact Or.inr (hrest c hc)
  have hnot : ∀ c, isDigit c = false → Scan.isSpace c = false → c ∉ w ++ rest := by
    intro c hd hs hc
    rcases hchars c hc with h | h
    · rw [hd] at h
      cases h
    · rw [hs] at h
      cases h
  have hmark : dropMark (w ++ rest) = w ++ rest :=
    dropMark_eq (hnot 'x' (by decide) (by decide)) (hnot 'X' (by decide) (by decide))
  have htake : (w ++ rest).takeWhile isDigit = w := by
    rw [List.takeWhile_append_of_pos hdigits]
    cases rest with
    | nil => rw [List.takeWhile_nil, List.append_nil]
    | cons c rest =>
        have hc := not_isDigit_of_isSpace (hrest c List.mem_cons_self)
        rw [List.takeWhile_cons_of_neg (by simp [hc]), List.append_nil]
  have hdrop : (w ++ rest).dropWhile Scan.isSpace = w ++ rest := by
    obtain ⟨c, cs, rfl⟩ := List.exists_cons_of_ne_nil hne
    have hc := isSpace_of_isDigit (hdigits c List.mem_cons_self)
    rw [List.cons_append, List.dropWhile_cons_of_neg (by simp [hc])]
  have hsign : readSign (w ++ rest) = (false, w ++ rest) :=
    readSign_eq (hnot '-' (by decide) (by decide)) (hnot '+' (by decide) (by decide))
  rw [readSigned, hdrop, hsign]
  show (if (dropMark (w ++ rest)).takeWhile isDigit = [] then none else _) = _
  rw [hmark, htake, if_neg hne]

theorem strtoul_word {erange errno : ℕ} (hw : Word w) (hrest : ∀ c ∈ rest, Scan.isSpace c = true)
    (hlt : number 0 w < 2 ^ 64) :
    strtoul erange errno (w ++ rest) = ⟨BitVec.ofNat 64 (number 0 w), errno, true⟩ := by
  rw [strtoul, readSigned_word hw hrest]
  show (if _ then _ else _) = _
  rw [if_pos hlt]
  rfl

end Hex
