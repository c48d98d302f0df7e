import Likwid.Lib.Scan

/-!
# Lists of numbers and ranges

A text such as `0,4-7,3-1`: numbers and ranges with commas between them. `Ranges.expand` is the
list of numbers it stands for; a range `a-b` runs upwards if `a ≤ b` and downwards otherwise.
-/

namespace Ranges

inductive Entry where
  | single (k : ℕ)
  | range (a b : ℕ)
deriving DecidableEq, Repr

namespace Entry

def text : Entry → List Char
  | single k => Text.decimal k
  | range a b => Text.decimal a ++ '-' :: Text.decimal b

def expand : Entry → List ℕ
  | single k => [k]
  | range a b => if a ≤ b then List.range' a (b - a + 1) else (List.range' b (a - b + 1)).reverse

/-- The numbers in the text are less than `m`. -/
def Below (m : ℕ) : Entry → Prop
  | single k => k < m
  | range a b => a < m ∧ b < m

end Entry

def text (es : List Entry) : List Char := [','].intercalate (es.map Entry.text)

def expand (es : List Entry) : List ℕ := es.flatMap Entry.expand

variable {e : Entry} {es es' : List Entry} {c : Char} {k m : ℕ}

/-! ## What an entry stands for -/

theorem Entry.expand_up {a b : ℕ} (h : a ≤ b) :
    (range a b).expand = List.range' a (b - a + 1) := if_pos h

theorem Entry.expand_down {a b : ℕ} (h : b < a) :
    (range a b).expand = (List.range' b (a - b + 1)).reverse := if_neg (Nat.not_le_of_lt h)

theorem Entry.expand_ne_nil (e : Entry) : e.expand ≠ [] := by
  cases e with
  | single k => exact List.cons_ne_nil _ _
  | range a b =>
      rcases Nat.lt_or_ge b a with h | h
      · simp [expand_down h]
      · simp [expand_up h]

@[simp] theorem expand_nil : expand [] = [] := rfl

@[simp] theorem expand_cons : expand (e :: es) = e.expand ++ expand es := List.flatMap_cons

@[simp] theorem expand_append : expand (es ++ es') = expand es ++ expand es' :=
  List.flatMap_append

theorem expand_ne_nil (h : es ≠ []) : expand es ≠ [] := by
  obtain ⟨e, es, rfl⟩ := List.exists_cons_of_ne_nil h
  exact List.append_ne_nil_of_left_ne_nil e.expand_ne_nil _

theorem expand_single (ks : List ℕ) : expand (ks.map .single) = ks := by
  induction ks with
  | nil => rfl
  | cons k ks ih => rw [List.map_cons, expand_cons, ih]; rfl

theorem exists_numbers (h : ∀ e ∈ es, ∃ k, e = .single k) : ∃ ks : List ℕ, es = ks.map .single := by
  induction es with
  | nil => exact ⟨[], rfl⟩
  | cons e es ih =>
      obtain ⟨k, rfl⟩ := h e List.mem_cons_self
      obtain ⟨ks, rfl⟩ := ih fun e' he => h e' (List.mem_cons_of_mem _ he)
      exact ⟨k :: ks, rfl⟩

/-! ## Characters -/

theorem Entry.char_of_mem_text (h : c ∈ e.text) : c.isDigit = true ∨ c = '-' := by
  cases e with
  | single k => exact Or.inl (Text.isDigit_of_mem_decimal h)
  | range a b =>
      rcases List.mem_append.mp h with ha | hb
      · exact Or.inl (Text.isDigit_of_mem_decimal ha)
      · rcases List.mem_cons.mp hb with hdash | hb
        · exact Or.inr hdash
        · exact Or.inl (Text.isDigit_of_mem_decimal hb)

/-- Only a number has the text of one. -/
theorem Entry.text_eq_decimal : e.text = Text.decimal k ↔ e = .single k := by
  cases e with
  | single a =>
      constructor
      · intro h
        rw [Text.decimal_inj h]
      · intro h
        rw [h]
        rfl
  | range a b =>
      refine iff_of_false (fun h => ?_) nofun
      have hdash : '-' ∈ Text.decimal k := h ▸ List.mem_append_right _ List.mem_cons_self
      exact Text.not_mem_decimal (by decide) k hdash

theorem Entry.not_mem_text (hdigit : c.isDigit = false) (hdash : c ≠ '-') : c ∉ e.text := by
  intro h
  rcases char_of_mem_text h with hc | rfl
  · rw [hdigit] at hc
    cases hc
  · exact hdash rfl

theorem text_cons_cons (e e' : Entry) (es : List Entry) :
    text (e :: e' :: es) = e.text ++ ',' :: text (e' :: es) := by
  unfold text
  rw [List.map_cons, List.map_cons, List.intercalate_cons_cons]
  simp

theorem text_singleton (e : Entry) : text [e] = e.text := by
  unfold text
  rw [List.map_singleton, List.intercalate_singleton]

theorem not_mem_text (hdigit : c.isDigit = false) (hdash : c ≠ '-') (hcomma : c ≠ ',') :
    c ∉ text es := by
  induction es with
  | nil => exact List.not_mem_nil
  | cons e es ih =>
      cases es with
      | nil =>
          rw [text_singleton]
          exact Entry.not_mem_text hdigit hdash
      | cons e' es =>
          rw [text_cons_cons]
          intro h
          rcases List.mem_append.mp h with he | hrest
          · exact Entry.not_mem_text hdigit hdash he
          · rcases List.mem_cons.mp hrest with rfl | hrest
            · exact hcomma rfl
            · exact ih hrest

/-- The first character of a list is a digit. -/
theorem head?_text (hes : es ≠ []) : ∃ c, (text es).head? = some c ∧ c.isDigit = true := by
  have hentry : ∀ e : Entry, ∃ c rest, e.text = c :: rest ∧ c.isDigit = true := by
    intro e
    have hdecimal : ∀ k, ∃ c rest, Text.decimal k = c :: rest ∧ c.isDigit = true := by
      intro k
      obtain ⟨c, rest, hrest⟩ := List.exists_cons_of_ne_nil (Text.decimal_ne_nil k)
      exact ⟨c, rest, hrest, Text.isDigit_of_mem_decimal (hrest ▸ List.mem_cons_self)⟩
    cases e with
    | single k => exact hdecimal k
    | range a b =>
        obtain ⟨c, rest, hrest, hc⟩ := hdecimal a
        exact ⟨c, rest ++ '-' :: Text.decimal b, by rw [Entry.text, hrest, List.cons_append], hc⟩
  obtain ⟨e, es, rfl⟩ := List.exists_cons_of_ne_nil hes
  obtain ⟨c, rest, hrest, hc⟩ := hentry e
  refine ⟨c, ?_, hc⟩
  cases es with
  | nil => rw [text_singleton, hrest, List.head?_cons]
  | cons e' es => rw [text_cons_cons, hrest, List.cons_append, List.head?_cons]

/-! ## Fields -/

theorem splitOn_text (hes : es ≠ []) : (text es).splitOn ',' = es.map Entry.text := by
  refine List.splitOn_intercalate _ (fun l hl => ?_) ?_
  · obtain ⟨e, -, rfl⟩ := List.mem_map.mp hl
    exact Entry.not_mem_text (by decide) (by decide)
  · exact fun h => hes (List.map_eq_nil_iff.mp h)

theorem not_mem_decimal_dash (k : ℕ) : '-' ∉ Text.decimal k := Text.not_mem_decimal (by decide) k

theorem splitOn_range (a b : ℕ) :
    (Entry.range a b).text.splitOn '-' = [Text.decimal a, Text.decimal b] := by
  rw [Entry.text, List.splitOn_append_cons_self_of_not_mem (not_mem_decimal_dash a),
    List.splitOn_eq_singleton (not_mem_decimal_dash b)]

theorem dash_not_mem_single (k : ℕ) : '-' ∉ (Entry.single k).text := not_mem_decimal_dash k

theorem dash_mem_range (a b : ℕ) : '-' ∈ (Entry.range a b).text :=
  List.mem_append_right _ List.mem_cons_self

end Ranges
