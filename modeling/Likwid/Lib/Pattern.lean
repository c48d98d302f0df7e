import Mathlib.Data.List.Forall2

/-!
# Greedy patterns

A pattern is a list of character classes, each matched once, at least once or any
number of times. As in Lua's `string.match`, a repeated class takes as many characters
as it can and gives them back one by one until the rest matches, and the first position
of the text with a match is taken (`find`). A match is the list of the texts of its
items.
-/

namespace Pattern

/-- `x`, `x+` and `x*` -/
inductive Repeat where
  | one
  | plus
  | star
deriving DecidableEq, Repr

structure Item where
  cls : Char → Bool
  rep : Repeat := .one

/-- The longest run of characters of a class behind which the rest matches. -/
def maxExpand {α : Type} (cls : Char → Bool) (rest : List Char → Option α) :
    List Char → Option (List Char × α)
  | [] => (rest []).map ([], ·)
  | c :: s =>
      match if cls c then maxExpand cls rest s else none with
      | some (w, a) => some (c :: w, a)
      | none => (rest (c :: s)).map ([], ·)

/-- The match that begins at the first character. -/
def matchHere : List Item → List Char → Option (List (List Char))
  | [], _ => some []
  | ⟨cls, .star⟩ :: p, s => (maxExpand cls (matchHere p) s).map fun r => r.1 :: r.2
  | ⟨_, .plus⟩ :: _, [] => none
  | ⟨cls, .plus⟩ :: p, c :: s =>
      if cls c then (maxExpand cls (matchHere p) s).map fun r => (c :: r.1) :: r.2 else none
  | ⟨_, .one⟩ :: _, [] => none
  | ⟨cls, .one⟩ :: p, c :: s => if cls c then (matchHere p s).map ([c] :: ·) else none

def find (p : List Item) : List Char → Option (List (List Char))
  | [] => matchHere p []
  | c :: s =>
      match matchHere p (c :: s) with
      | some ws => some ws
      | none => find p s

variable {α : Type} {cls : Char → Bool} {rest : List Char → Option α} {p : List Item}
  {s w : List Char} {ws : List (List Char)} {a : α}

/-! ## What matches -/

/-- The text of an item consists of characters of its class, in the right number. -/
def Item.Fits (i : Item) (w : List Char) : Prop :=
  (∀ c ∈ w, i.cls c = true) ∧
    match i.rep with
    | .one => w.length = 1
    | .plus => w ≠ []
    | .star => True

theorem maxExpand_sound (h : maxExpand cls rest s = some (w, a)) :
    ∃ t, s = w ++ t ∧ (∀ c ∈ w, cls c = true) ∧ rest t = some a := by
  induction s generalizing w with
  | nil =>
      obtain ⟨b, hb, hpair⟩ := Option.map_eq_some_iff.mp h
      obtain ⟨rfl, rfl⟩ := Prod.mk.inj hpair
      exact ⟨[], rfl, by simp, hb⟩
  | cons c s ih =>
      rw [maxExpand] at h
      split at h
      · next w' a' hmore =>
          obtain ⟨rfl, rfl⟩ := Prod.mk.inj (Option.some.inj h)
          obtain ⟨hc, hmore⟩ := Option.ite_none_right_eq_some.mp hmore
          obtain ⟨t, rfl, hw, ht⟩ := ih hmore
          exact ⟨t, rfl, List.forall_mem_cons.mpr ⟨hc, hw⟩, ht⟩
      · obtain ⟨b, hb, hpair⟩ := Option.map_eq_some_iff.mp h
        obtain ⟨rfl, rfl⟩ := Prod.mk.inj hpair
        exact ⟨c :: s, rfl, by simp, hb⟩

/-- A match splits off the texts of the items. -/
theorem matchHere_sound (h : matchHere p s = some ws) :
    ∃ t, s = ws.flatten ++ t ∧ List.Forall₂ Item.Fits p ws := by
  induction p generalizing s ws with
  | nil =>
      obtain rfl := Option.some.inj h
      exact ⟨s, rfl, .nil⟩
  | cons i p ih =>
      obtain ⟨cls, rep⟩ := i
      cases rep with
      | star =>
          obtain ⟨⟨w, ws'⟩, hmax, rfl⟩ := Option.map_eq_some_iff.mp h
          obtain ⟨t, rfl, hw, ht⟩ := maxExpand_sound hmax
          obtain ⟨t', rfl, hws⟩ := ih ht
          exact ⟨t', by simp, .cons ⟨hw, trivial⟩ hws⟩
      | plus =>
          cases s with
          | nil => cases h
          | cons c s =>
              obtain ⟨hc, h⟩ := Option.ite_none_right_eq_some.mp h
              obtain ⟨⟨w, ws'⟩, hmax, rfl⟩ := Option.map_eq_some_iff.mp h
              obtain ⟨t, rfl, hw, ht⟩ := maxExpand_sound hmax
              obtain ⟨t', rfl, hws⟩ := ih ht
              exact ⟨t', by simp, .cons ⟨List.forall_mem_cons.mpr ⟨hc, hw⟩,
                List.cons_ne_nil _ _⟩ hws⟩
      | one =>
          cases s with
          | nil => cases h
          | cons c s =>
              obtain ⟨hc, h⟩ := Option.ite_none_right_eq_some.mp h
              obtain ⟨ws', hws', rfl⟩ := Option.map_eq_some_iff.mp h
              obtain ⟨t, rfl, hws⟩ := ih hws'
              exact ⟨t, by simp, .cons ⟨by simpa using hc, rfl⟩ hws⟩

theorem find_sound (h : find p s = some ws) :
    ∃ pre t, s = pre ++ ws.flatten ++ t ∧ List.Forall₂ Item.Fits p ws := by
  induction s with
  | nil =>
      obtain ⟨t, ht, hws⟩ := matchHere_sound h
      exact ⟨[], t, by simpa using ht, hws⟩
  | cons c s ih =>
      rw [find] at h
      split at h
      · next ws' hhere =>
          obtain rfl := Option.some.inj h
          obtain ⟨t, ht, hws⟩ := matchHere_sound hhere
          exact ⟨[], t, by simpa using ht, hws⟩
      · obtain ⟨pre, t, rfl, hws⟩ := ih h
        exact ⟨c :: pre, t, by simp, hws⟩

theorem fits_of_matchHere {i : Item} (h : matchHere (i :: p) s = some ws) :
    ∃ w, ws[0]? = some w ∧ i.Fits w := by
  obtain ⟨t, -, hfits⟩ := matchHere_sound h
  cases hfits with
  | cons hfirst hrest => exact ⟨_, rfl, hfirst⟩

/-- What a pattern asks for stands in the text. -/
theorem mem_of_matchHere {c : Char} (h : matchHere p s = some ws)
    (hc : (⟨(· == c), .one⟩ : Item) ∈ p) : c ∈ s := by
  obtain ⟨t, rfl, hfits⟩ := matchHere_sound h
  refine List.mem_append_left _ ?_
  clear h
  induction hfits with
  | nil => cases hc
  | @cons i w p ws hfit hrest ih =>
      rw [List.flatten_cons]
      rcases List.mem_cons.mp hc with rfl | hc
      · obtain ⟨hcls, hlen⟩ := hfit
        obtain ⟨d, rfl⟩ := List.length_eq_one_iff.mp hlen
        have hd : d = c := by simpa using hcls d (by simp)
        simp [hd]
      · exact List.mem_append_right _ (ih hc)

/-! ## Finding a match -/

theorem find_of_matchHere (h : matchHere p s = some ws) : find p s = some ws := by
  cases s with
  | nil => exact h
  | cons c s => rw [find, h]

theorem maxExpand_append (hw : ∀ c ∈ w, cls c = true) {u : List Char}
    (h : maxExpand cls rest s = some (u, a)) :
    maxExpand cls rest (w ++ s) = some (w ++ u, a) := by
  induction w with
  | nil => exact h
  | cons c w ih =>
      obtain ⟨hc, hw⟩ := List.forall_mem_cons.mp hw
      rw [List.cons_append, maxExpand, if_pos hc, ih hw]
      rfl

theorem maxExpand_stop (hs : s.head?.all (!cls ·) = true) (h : rest s = some a) :
    maxExpand cls rest s = some ([], a) := by
  cases s with
  | nil => rw [maxExpand, h, Option.map_some]
  | cons c s =>
      have hc : cls c = false := by simpa using hs
      rw [maxExpand, if_neg (by simp [hc]), h, Option.map_some]

/-- A run gives characters back if nothing behind them matches the rest. -/
theorem maxExpand_back (hs : ∀ t, t <:+ s → rest t = none) {c : Char}
    (h : rest (c :: s) = some a) : maxExpand cls rest (c :: s) = some ([], a) := by
  have hnone : maxExpand cls rest s = none := by
    by_contra hne
    obtain ⟨⟨w, b⟩, hmax⟩ := Option.ne_none_iff_exists'.mp hne
    obtain ⟨t, rfl, -, ht⟩ := maxExpand_sound hmax
    rw [hs t (List.suffix_append w t)] at ht
    cases ht
  rw [maxExpand, hnone, ite_self, h, Option.map_some]

theorem matchHere_one {c : Char} (hc : cls c = true) (h : matchHere p s = some ws) :
    matchHere (⟨cls, .one⟩ :: p) (c :: s) = some ([c] :: ws) := by
  rw [matchHere, if_pos hc, h, Option.map_some]

/-- A whole word of the class, up to a character of another class. -/
theorem matchHere_plus (hw : ∀ c ∈ w, cls c = true) (hne : w ≠ [])
    (hs : s.head?.all (!cls ·) = true) (h : matchHere p s = some ws) :
    matchHere (⟨cls, .plus⟩ :: p) (w ++ s) = some (w :: ws) := by
  cases w with
  | nil => exact absurd rfl hne
  | cons c w =>
      obtain ⟨hc, hw⟩ := List.forall_mem_cons.mp hw
      have hmax := maxExpand_append hw (maxExpand_stop hs h)
      rw [List.append_nil] at hmax
      rw [List.cons_append, matchHere, if_pos hc, hmax, Option.map_some]

theorem matchHere_star {u : List Char} (h : maxExpand cls (matchHere p) s = some (u, ws)) :
    matchHere (⟨cls, .star⟩ :: p) s = some (u :: ws) := by
  rw [matchHere, h, Option.map_some]

theorem matchHere_run (hw : ∀ c ∈ w, cls c = true) (hs : s.head?.all (!cls ·) = true)
    (h : matchHere p s = some ws) : matchHere (⟨cls, .star⟩ :: p) (w ++ s) = some (w :: ws) := by
  have hmax := maxExpand_append hw (maxExpand_stop hs h)
  rw [List.append_nil] at hmax
  exact matchHere_star hmax

theorem matchHere_last (hw : ∀ c ∈ w, cls c = true) (hs : s.head?.all (!cls ·) = true) :
    matchHere [⟨cls, .star⟩] (w ++ s) = some [w] := matchHere_run hw hs rfl

/-- The items of a text -/
def literal (w : List Char) : List Item := w.map fun c => ⟨(· == c), .one⟩

theorem mem_literal {c : Char} (hc : c ∈ w) : (⟨(· == c), .one⟩ : Item) ∈ literal w :=
  List.mem_map_of_mem hc

theorem matchHere_literal (h : matchHere p s = some ws) :
    matchHere (literal w ++ p) (w ++ s) = some (w.map ([·]) ++ ws) := by
  induction w with
  | nil => exact h
  | cons c w ih => exact matchHere_one (beq_self_eq_true c) ih

theorem fits_cons {i : Item} (h : List.Forall₂ Item.Fits (i :: p) ws) :
    ∃ u ws', ws.flatten = u ++ ws'.flatten ∧ i.Fits u ∧ List.Forall₂ Item.Fits p ws' := by
  cases h with
  | cons hfit hrest => exact ⟨_, _, List.flatten_cons, hfit, hrest⟩

/-- A text in the pattern stands in the match. -/
theorem fits_literal (h : List.Forall₂ Item.Fits (literal w ++ p) ws) :
    ∃ ws', ws.flatten = w ++ ws'.flatten ∧ List.Forall₂ Item.Fits p ws' := by
  induction w generalizing ws with
  | nil => exact ⟨ws, rfl, h⟩
  | cons c w ih =>
      cases h with
      | cons hfit hrest =>
          obtain ⟨ws', hws', hfits⟩ := ih hrest
          obtain ⟨hcls, hlen⟩ := hfit
          obtain ⟨d, rfl⟩ := List.length_eq_one_iff.mp hlen
          have hd : d = c := by simpa using hcls d List.mem_cons_self
          exact ⟨ws', by rw [List.flatten_cons, hws', hd]; rfl, hfits⟩

theorem find_isSome_append (u : List Char) (h : (find p s).isSome = true) :
    (find p (u ++ s)).isSome = true := by
  induction u with
  | nil => exact h
  | cons c u ih =>
      rw [List.cons_append, find]
      split
      · rfl
      · exact ih

end Pattern
