import Likwid.Lib.Text
import Mathlib.Data.List.DropRight
import Mathlib.Data.List.TakeWhile

/-!
# Fields between runs of separators

`split` cuts text at every maximal run of separators. A run at the begin or at the end of the text
leaves an empty field there, as Lua's `find` with a pattern `s+` does. `trim` takes the runs at both
ends away.
-/

namespace Fields

variable {sep : Char → Bool} {w v blanks rest s : List Char} {run : Bool}

/-- The fields of a text, behind a separator or not -/
def splitFrom (sep : Char → Bool) : Bool → List Char → List (List Char)
  | _, [] => [[]]
  | run, c :: s =>
      if sep c then
        if run then splitFrom sep true s else [] :: splitFrom sep true s
      else (splitFrom sep false s).modifyHead (c :: ·)

def split (sep : Char → Bool) (s : List Char) : List (List Char) := splitFrom sep false s

def trim (sep : Char → Bool) (s : List Char) : List Char := (s.dropWhile sep).rdropWhile sep

/-! ## Fields -/

theorem splitFrom_word (hw : Text.Solid sep w) :
    splitFrom sep false (w ++ rest) = (splitFrom sep false rest).modifyHead (w ++ ·) := by
  induction w with
  | nil => cases h : splitFrom sep false rest <;> simp [h]
  | cons c w ih =>
      obtain ⟨hc, hw⟩ := hw.of_cons
      rw [List.cons_append, splitFrom, if_neg (by simp [hc]), ih hw, List.modifyHead_modifyHead]
      rfl

theorem splitFrom_run (hblanks : ∀ c ∈ blanks, sep c = true) :
    splitFrom sep true (blanks ++ rest) = splitFrom sep true rest := by
  induction blanks with
  | nil => rfl
  | cons c blanks ih =>
      obtain ⟨hc, hblanks⟩ := List.forall_mem_cons.mp hblanks
      rw [List.cons_append, splitFrom, if_pos hc, if_pos rfl, ih hblanks]

/-- The separator before a field does not matter. -/
theorem splitFrom_solid (h : rest.head?.all (!sep ·) = true) :
    splitFrom sep true rest = splitFrom sep false rest := by
  cases rest with
  | nil => rfl
  | cons c rest =>
      have hc : sep c = false := by simpa using h
      rw [splitFrom, splitFrom, if_neg (by simp [hc]), if_neg (by simp [hc])]

theorem split_word (hw : Text.Solid sep w) : split sep w = [w] := by
  have h : splitFrom sep false (w ++ []) = _ := splitFrom_word hw
  rw [List.append_nil] at h
  rw [split, h]
  simp [splitFrom]

/-- A field in front of a run of separators -/
theorem split_append (hw : Text.Solid sep w) (hblanks : ∀ c ∈ blanks, sep c = true)
    (hne : blanks ≠ []) (hrest : rest.head?.all (!sep ·) = true) :
    split sep (w ++ (blanks ++ rest)) = w :: split sep rest := by
  have hbehind : splitFrom sep false (blanks ++ rest) = [] :: splitFrom sep false rest := by
    obtain ⟨c, blanks, rfl⟩ := List.exists_cons_of_ne_nil hne
    obtain ⟨hc, hblanks⟩ := List.forall_mem_cons.mp hblanks
    rw [List.cons_append, splitFrom, if_pos hc, if_neg (by decide), splitFrom_run hblanks,
      splitFrom_solid hrest]
  rw [split, splitFrom_word hw, hbehind]
  simp [split]

/-! ## Trimming -/

theorem solid_head (hw : Text.Solid sep w) : w.head?.all (!sep ·) = true := by
  cases w with
  | nil => rfl
  | cons c w => simp [hw.of_cons.1]

theorem rdropWhile_append_of_pos (hblanks : ∀ c ∈ blanks, sep c = true) :
    (s ++ blanks).rdropWhile sep = s.rdropWhile sep := by
  unfold List.rdropWhile
  rw [List.reverse_append,
    List.dropWhile_append_of_pos fun c hc => hblanks c (List.mem_reverse.mp hc)]

/-- Between the runs the text begins and ends with something else. -/
theorem trim_append {before behind : List Char} (hbefore : ∀ c ∈ before, sep c = true)
    (hbehind : ∀ c ∈ behind, sep c = true) (hhead : s.head?.all (!sep ·) = true)
    (hlast : s.getLast?.all (!sep ·) = true) : trim sep (before ++ (s ++ behind)) = s := by
  unfold trim
  rw [List.dropWhile_append_of_pos hbefore]
  cases hs : s with
  | nil =>
      have hnone : behind.dropWhile sep = [] :=
        List.dropWhile_eq_nil_iff.mpr hbehind
      rw [List.nil_append, hnone]
      rfl
  | cons c t =>
      subst hs
      have hc : sep c = false := by simpa using hhead
      rw [List.cons_append, List.dropWhile_cons_of_neg (by simp [hc]), ← List.cons_append,
        rdropWhile_append_of_pos hbehind, List.rdropWhile_eq_self_iff]
      intro hne
      rw [List.getLast?_eq_some_getLast hne] at hlast
      simpa using hlast

theorem trim_word (hw : Text.Solid sep w) : trim sep w = w := by
  have hlast : w.getLast?.all (!sep ·) = true := by
    cases h : w.getLast? with
    | none => rfl
    | some c => simp [hw c (List.mem_of_getLast? h)]
  have h : trim sep ([] ++ (w ++ [])) = w :=
    trim_append (fun _ h => nomatch h) (fun _ h => nomatch h) (solid_head hw) hlast
  rwa [List.nil_append, List.append_nil] at h

end Fields
