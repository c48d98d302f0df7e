import Likwid.Lib.Expression

/-!
# Derived metrics (`likwid.lua`)

`calculate_metric` replaces the names of a counter map in the text of a formula, the longest name
first, and lets Lua evaluate what has come out. A name is replaced wherever its letters stand: in a
longer identifier that is not in the map too, in a constant, and in a value that has been put in. A
formula where this does not happen (`Undisturbed`) gets the value of its expression, read back from
the 14 digits that `tostring` prints (`metricRight_iff`).
-/

namespace Likwid

open Formula

variable {N : Type}

/-- The numbers of Lua -/
structure LuaNumbers (N : Type) extends Arithmetic N where
  /-- The number nearest to what a numeral says -/
  ofRat : ℚ → N
  /-- `"%.14g"` -/
  tostring : N → List Char
  zero : N
  finite : N → Bool
  /-- Without a sign -/
  Nonneg : N → Prop
  tostring_numeral (v : N) : finite v = true → Nonneg v → IsNumeral (tostring v)

/-- The value of a numeral -/
def LuaNumbers.read (L : LuaNumbers N) (w : List Char) : N := L.ofRat ((Text.number w).getD 0)

/-- `counters_to_values`: its keys, in some order, and what it has for them -/
structure CounterValues (L : LuaNumbers N) where
  counters : List (List Char)
  value : List Char → N
  isName : ∀ x ∈ counters, IsName x
  nodup : counters.Nodup
  finite : ∀ x ∈ counters, L.finite (value x) = true
  nonneg : ∀ x ∈ counters, L.Nonneg (value x)

/-- `clist` after `table.sort`: `cmp` leaves the order of names of one length open. -/
structure Sorted (clist counters : List (List Char)) : Prop where
  perm : clist.Perm counters
  longest : clist.Pairwise fun a b => b.length ≤ a.length

/-- What `calculate_metric` returns: a number, the text `"Nan"`, or not at all -/
inductive Metric (N : Type) where
  | number (v : N)
  | nan
  | failed
deriving DecidableEq, Repr

/-- The characters that need no `tonumber` -/
def isFormulaChar (c : Char) : Bool :=
  ['+', '-', '*', '/', '(', ')', '.', 'e', 'E'].contains c

section Calculate

variable (L : LuaNumbers N)

/-- `loadstring("return (" .. formula .. ")")()`; a name has no value there and ends in an error. -/
def loadstring (formula : List Char) : Option N := do
  let ts ← tokens? ('(' :: (formula ++ [')']))
  if ts.any Token.isName then none
  else evaluate L.toArithmetic (ts.map (Token.item L.read fun _ => L.zero))

def calculateMetric (value : List Char → N) (clist : List (List Char)) (formula : List Char) :
    Metric N :=
  let formula := clist.foldl (fun formula counter =>
    replaceAll counter (L.tostring (value counter)) formula) formula
  if formula.all fun c => isFormulaChar c || c.isDigit then
    match loadstring L formula with
    | some result => .number (if L.finite result then result else L.zero)
    | none => .failed
  else .nan

end Calculate

/-! ## What a metric should be -/

/-- The text of an expression over `+ - * / ( )`, constants and identifiers -/
structure IsFormula (formula : List Char) (ts : List Token) (e : Expr) : Prop where
  tokens : tokens? formula = some ts
  spells : Spells 6 e ts

section Right

variable (L : LuaNumbers N) (m : CounterValues L)

def Bound (ts : List Token) : Prop := ∀ y, .name y ∈ ts → y ∈ m.counters

/-- There is a number only if every identifier is bound, and then it is the value of the formula,
in whatever order the table is gone through. -/
def MetricRight (formula : List Char) (ts : List Token) (e : Expr) : Prop :=
  ∀ clist, Sorted clist m.counters →
    (∀ v, calculateMetric L m.value clist formula = .number v → Bound L m ts) ∧
      (Bound L m ts → calculateMetric L m.value clist formula =
        .number (e.value L.toArithmetic L.read m.value))

/-- No name of the map stands where it is not meant: in a constant, in an identifier without a value
or in the text of a value that has been put in before. -/
structure Undisturbed (ts : List Token) : Prop where
  constants : ∀ x ∈ m.counters, ∀ w, .number w ∈ ts → ¬x <:+: w
  unbound : ∀ x ∈ m.counters, ∀ y, .name y ∈ ts → y ∉ m.counters → ¬x <:+: y
  values : ∀ x ∈ m.counters, ∀ y, .name y ∈ ts → y ∈ m.counters → x ≠ y →
    x.length ≤ y.length → ¬x <:+: L.tostring (m.value y)

/-- The value of the formula if every value is read from what `tostring` prints; 0 where it is not
finite. -/
def printedValue (e : Expr) : N :=
  let v := e.value L.toArithmetic L.read fun y => L.read (L.tostring (m.value y))
  if L.finite v then v else L.zero

end Right

/-! ## The loop -/

section Loop

variable {L : LuaNumbers N} {m : CounterValues L} {ts : List Token} {e : Expr}
  {clist done todo : List (List Char)} {x y : List Char}

/-- A token after the names of `done` have been replaced -/
def settle (L : LuaNumbers N) (value : List Char → N) (done : List (List Char)) : Token → Token
  | .name y => if y ∈ done then .number (L.tostring (value y)) else .name y
  | t => t

@[simp] theorem settle_name (value : List Char → N) :
    settle L value done (.name y) =
      if y ∈ done then .number (L.tostring (value y)) else .name y := rfl

theorem settle_nil (value : List Char → N) (t : Token) : settle L value [] t = t := by
  cases t <;> rfl

theorem put_settle (value : List Char → N) (t : Token) :
    (settle L value done t).put x (L.tostring (value x)) = settle L value (done ++ [x]) t := by
  cases t with
  | number w => rfl
  | symbol c => rfl
  | name y =>
      rw [settle_name, settle_name]
      by_cases hy : y ∈ done
      · rw [if_pos hy, if_pos (by simp [hy])]
        rfl
      · rw [if_neg hy, put_name]
        by_cases hx : y = x
        · rw [if_pos hx, if_pos (by simp [hx]), hx]
        · rw [if_neg hx, if_neg (by simp [hx, hy])]

theorem map_put_settle (value : List Char → N) :
    (ts.map (settle L value done)).map (Token.put x (L.tostring (value x))) =
      ts.map (settle L value (done ++ [x])) := by
  rw [List.map_map]
  exact List.map_congr_left fun t _ => put_settle value t

/-- A name is a whole operand, or nowhere, when its turn comes. -/
theorem Undisturbed.clear (h : Undisturbed L m ts) (hsorted : Sorted (done ++ x :: todo) m.counters)
    {t : Token} (ht : t ∈ ts) : (settle L m.value done t).Clear x := by
  have hmem : ∀ {z}, z ∈ m.counters ↔ z ∈ done ++ x :: todo := fun {z} => hsorted.perm.mem_iff.symm
  have hx : x ∈ m.counters := hmem.mpr (by simp)
  have hnodup : (done ++ x :: todo).Nodup := hsorted.perm.nodup_iff.mpr m.nodup
  cases t with
  | symbol c => exact Or.inl rfl
  | number w => exact Or.inr (Or.inr (h.constants x hx w ht))
  | name y =>
      rw [settle_name]
      split
      · next hy =>
          have hlen : x.length ≤ y.length :=
            (List.pairwise_append.mp hsorted.longest).2.2 y hy x List.mem_cons_self
          have hne : x ≠ y := by
            rintro rfl
            exact (List.nodup_append.mp hnodup).2.2 x hy x List.mem_cons_self rfl
          exact Or.inr (Or.inr (h.values x hx y ht (hmem.mpr (by simp [hy])) hne hlen))
      · next hy =>
          by_cases heq : y = x
          · exact Or.inr (Or.inl (by rw [heq]))
          by_cases hbound : y ∈ m.counters
          · -- a name that is still to come is no longer than `x`
            have htodo : y ∈ todo := by simpa [hy, heq] using hmem.mp hbound
            have hlen : y.length ≤ x.length :=
              (List.pairwise_cons.mp (List.pairwise_append.mp hsorted.longest).2.1).1 y htodo
            refine Or.inr (Or.inr fun hin => heq ?_)
            exact (hin.eq_of_length (Nat.le_antisymm hin.length_le hlen)).symm
          · exact Or.inr (Or.inr (h.unbound x hx y ht hbound))

theorem settle_wellFormed (hts : WellFormed ts) (hdone : ∀ x ∈ done, x ∈ m.counters) :
    WellFormed (ts.map (settle L m.value done)) := by
  induction done using List.reverseRecOn with
  | nil =>
      rw [List.map_congr_left fun t _ => settle_nil m.value t]
      simpa using hts
  | append_singleton done x ih =>
      have hx := hdone x (by simp)
      have hnumeral := L.tostring_numeral _ (m.finite x hx) (m.nonneg x hx)
      rw [← map_put_settle]
      exact (ih fun z hz => hdone z (by simp [hz])).put hnumeral

/-- **One name after the other is replaced in the whole.** -/
theorem substituted (h : Undisturbed L m ts) (hts : WellFormed ts)
    (hsorted : Sorted (done ++ todo) m.counters) :
    todo.foldl (fun formula counter => replaceAll counter (L.tostring (m.value counter)) formula)
        (render (ts.map (settle L m.value done))) =
      render (ts.map (settle L m.value (done ++ todo))) := by
  induction todo generalizing done with
  | nil => rw [List.append_nil, List.foldl_nil]
  | cons x todo ih =>
      have hmem : ∀ z ∈ done ++ x :: todo, z ∈ m.counters :=
        fun z hz => hsorted.perm.mem_iff.mp hz
      have hsplit : done ++ x :: todo = done ++ [x] ++ todo := by simp
      have hstep : replaceAll x (L.tostring (m.value x)) (render (ts.map (settle L m.value done))) =
          render (ts.map (settle L m.value (done ++ [x]))) := by
        rw [replaceAll_render (m.isName x (hmem x (by simp)))
          (settle_wellFormed hts fun z hz => hmem z (by simp [hz])), map_put_settle]
        intro t ht
        obtain ⟨u, hu, rfl⟩ := List.mem_map.mp ht
        exact h.clear hsorted hu
      rw [List.foldl_cons, hstep, hsplit]
      exact ih (hsplit ▸ hsorted)

theorem IsFormula.substituted {formula : List Char} (hf : IsFormula formula ts e)
    (h : Undisturbed L m ts) (hsorted : Sorted clist m.counters) :
    clist.foldl (fun formula counter => replaceAll counter (L.tostring (m.value counter)) formula)
        formula =
      render (ts.map (settle L m.value clist)) ∧ WellFormed (ts.map (settle L m.value clist)) := by
  obtain ⟨hrender, hwell⟩ := render_of_lex hf.tokens
  constructor
  · have hloop : clist.foldl _ (render (ts.map (settle L m.value []))) = _ :=
      Likwid.substituted h hwell hsorted
    rw [List.map_congr_left fun t _ => settle_nil m.value t, List.map_id', hrender] at hloop
    exact hloop
  · exact settle_wellFormed hwell fun x hx => hsorted.perm.mem_iff.mp hx

end Loop

/-! ## The evaluation -/

section Evaluation

variable {L : LuaNumbers N} {m : CounterValues L} {ts : List Token} {e : Expr}
  {clist : List (List Char)} {formula : List Char}

theorem formulaChars (hts : WellFormed ts) (hnames : ∀ y, .name y ∉ ts) :
    (render ts).all (fun c => isFormulaChar c || c.isDigit) = true := by
  rw [List.all_eq_true]
  intro c hc
  obtain ⟨t, ht, hct⟩ := List.mem_flatMap.mp hc
  have hok := hts.ok t ht
  cases t with
  | name y => exact absurd ht (hnames y)
  | number w =>
      rcases IsNumeral.chars hok c hct with hdigit | hother
      · rw [hdigit, Bool.or_true]
      · have hmem : isFormulaChar c = true := by
          simp only [List.mem_cons, List.not_mem_nil, or_false] at hother
          rcases hother with rfl | rfl | rfl | rfl | rfl <;> decide
        rw [hmem, Bool.true_or]
  | symbol d =>
      obtain rfl : c = d := List.mem_singleton.mp hct
      have hmem : isFormulaChar c = true := by
        rcases mem_symbols hok with rfl | rfl | rfl | rfl | rfl | rfl <;> decide
      rw [hmem, Bool.true_or]

/-- The text in parentheses -/
theorem tokens?_parens (hts : WellFormed ts) :
    tokens? ('(' :: (render ts ++ [')'])) = some (.symbol '(' :: ts ++ [.symbol ')']) := by
  have hwell : WellFormed (.symbol '(' :: ts ++ [.symbol ')']) := by
    constructor
    · intro t ht
      rcases List.mem_append.mp ht with ht | ht
      · rcases List.mem_cons.mp ht with rfl | ht
        · rfl
        · exact hts.ok t ht
      · obtain rfl := List.mem_singleton.mp ht
        rfl
    · have hopen : (Token.symbol '(' :: ts).IsChain Token.Fits :=
        List.isChain_cons.mpr ⟨fun t _ => fun hminus => absurd hminus.1 (by decide), hts.fits⟩
      refine List.isChain_append.mpr ⟨hopen, by simp, fun t _ u hu => ?_⟩
      obtain rfl : Token.symbol ')' = u := by simpa using hu
      cases t with
      | symbol c => exact fun hminus => absurd hminus.2 (by decide)
      | number w => rfl
      | name w => rfl
  have htext : render (.symbol '(' :: ts ++ [.symbol ')']) = '(' :: (render ts ++ [')']) := by
    simp [render, Token.text]
  rw [← htext]
  exact tokens?_render hwell

/-- Where all identifiers are replaced -/
theorem loadstring_settled (hspells : Spells 6 e ts) (hbound : ∀ y, .name y ∈ ts → y ∈ clist)
    (hwell : WellFormed (ts.map (settle L m.value clist))) :
    loadstring L (render (ts.map (settle L m.value clist))) =
      some (e.value L.toArithmetic L.read fun y => L.read (L.tostring (m.value y))) := by
  have hnames : (Token.symbol '(' :: ts.map (settle L m.value clist) ++ [Token.symbol ')']).any
      Token.isName = false := by
    rw [List.any_eq_false]
    intro t ht
    rcases List.mem_append.mp ht with ht | ht
    · rcases List.mem_cons.mp ht with rfl | ht
      · simp [Token.isName]
      · obtain ⟨u, hu, rfl⟩ := List.mem_map.mp ht
        cases u with
        | name y => simp [hbound y hu, Token.isName]
        | number w => simp [settle, Token.isName]
        | symbol c => simp [settle, Token.isName]
    · obtain rfl := List.mem_singleton.mp ht
      simp [Token.isName]
  have hitems : (ts.map (settle L m.value clist)).map (Token.item L.read fun _ => L.zero) =
      ts.map (Token.item L.read fun y => L.read (L.tostring (m.value y))) := by
    rw [List.map_map]
    refine List.map_congr_left fun t ht => ?_
    cases t with
    | name y =>
        show Token.item _ _ (settle L m.value clist (.name y)) = _
        rw [settle_name, if_pos (hbound y ht)]
        rfl
    | number w => rfl
    | symbol c => rfl
  have hparen := Spells.evaluate (A := L.toArithmetic) L.read
    (fun y => L.read (L.tostring (m.value y))) ((hspells.paren).looser.looser.looser)
  unfold loadstring
  rw [tokens?_parens hwell]
  show (if _ then none else evaluate _ _) = _
  rw [hnames, if_neg (by decide), List.map_append, List.map_cons, hitems]
  rw [List.map_append, List.map_cons] at hparen
  exact hparen

/-- Where an identifier is left -/
theorem loadstring_unbound {y : List Char} (hwell : WellFormed ts) (hy : .name y ∈ ts) :
    loadstring L (render ts) = none := by
  unfold loadstring
  rw [tokens?_parens hwell]
  show (if _ then none else evaluate _ _) = _
  rw [if_pos]
  exact List.any_eq_true.mpr ⟨.name y, by simp [hy], rfl⟩

/-- **What is returned for a formula in which nothing is disturbed** -/
theorem calculateMetric_undisturbed (hf : IsFormula formula ts e) (h : Undisturbed L m ts)
    (hsorted : Sorted clist m.counters) :
    (Bound L m ts → calculateMetric L m.value clist formula = .number (printedValue L m e)) ∧
      (¬Bound L m ts → ∀ v, calculateMetric L m.value clist formula ≠ .number v) := by
  obtain ⟨htext, hwell⟩ := hf.substituted h hsorted
  have hmem : ∀ {y}, y ∈ clist ↔ y ∈ m.counters := fun {y} => hsorted.perm.mem_iff
  unfold calculateMetric
  rw [htext]
  constructor
  · intro hbound
    have hin : ∀ y, .name y ∈ ts → y ∈ clist := fun y hy => hmem.mpr (hbound y hy)
    have hnames : ∀ y, .name y ∉ ts.map (settle L m.value clist) := by
      intro y hy
      obtain ⟨t, ht, heq⟩ := List.mem_map.mp hy
      cases t with
      | name z => simp [hin z ht] at heq
      | number w => simp [settle] at heq
      | symbol c => simp [settle] at heq
    dsimp only
    rw [loadstring_settled hf.spells hin hwell, formulaChars hwell hnames]
    rfl
  · intro hunbound v
    obtain ⟨y, hy, hno⟩ : ∃ y, .name y ∈ ts ∧ y ∉ m.counters := by
      by_contra hall
      push Not at hall
      exact hunbound hall
    have hleft : .name y ∈ ts.map (settle L m.value clist) := by
      refine List.mem_map.mpr ⟨.name y, hy, ?_⟩
      rw [settle_name, if_neg fun h => hno (hmem.mp h)]
    dsimp only
    rw [loadstring_unbound hwell hleft]
    split
    · simp
    · simp

/-- The names of the map by their length -/
theorem exists_sorted (counters : List (List Char)) : ∃ clist, Sorted clist counters := by
  have htotal : ∀ a b : List Char,
      (decide (b.length ≤ a.length) || decide (a.length ≤ b.length)) = true := by
    intro a b
    rcases Nat.le_total b.length a.length with hle | hle
    · simp [hle]
    · simp [hle]
  have hsort := @List.pairwise_mergeSort _ (fun a b : List Char => decide (b.length ≤ a.length))
    (fun a b c hab hbc => by simpa using Nat.le_trans (by simpa using hbc) (by simpa using hab))
    htotal counters
  exact ⟨_, List.mergeSort_perm counters _, hsort.imp fun h => by simpa using h⟩

/-- **The metric is right just if printing its values loses nothing**, where nothing is
disturbed. -/
theorem metricRight_iff (hf : IsFormula formula ts e) (h : Undisturbed L m ts) :
    MetricRight L m formula ts e ↔
      (Bound L m ts → printedValue L m e = e.value L.toArithmetic L.read m.value) := by
  constructor
  · intro hright hbound
    obtain ⟨clist, hsorted⟩ := exists_sorted m.counters
    have hresult := (calculateMetric_undisturbed hf h hsorted).1 hbound
    exact Metric.number.inj (hresult.symm.trans ((hright clist hsorted).2 hbound))
  · intro hprinted clist hsorted
    obtain ⟨hyes, hno⟩ := calculateMetric_undisturbed hf h hsorted
    refine ⟨fun v hv => ?_, fun hbound => ?_⟩
    · by_contra hunbound
      exact hno hunbound v hv
    · rw [hyes hbound, hprinted hbound]

end Evaluation

/-! ## Examples -/

/-- Rational numbers, `none` for what is not finite. What has no sign here is a natural number of at
most 14 digits. -/
def plainNumbers : LuaNumbers (Option ℚ) where
  add a b := do return (← a) + (← b)
  sub a b := do return (← a) - (← b)
  mul a b := do return (← a) * (← b)
  div a b := do if (← b) = 0 then none else return (← a) / (← b)
  neg a := do return -(← a)
  ofRat := some
  tostring v := Text.decimal ((v.getD 0).num.natAbs)
  zero := some 0
  finite := Option.isSome
  Nonneg v := ∃ n : ℕ, n < 10 ^ 14 ∧ v = some n
  tostring_numeral v _ _ := by
    have hdigits : ∀ c ∈ Text.decimal (v.getD 0).num.natAbs, c.isDigit = true :=
      fun _ => Text.isDigit_of_mem_decimal
    refine ⟨?_, by rw [Text.number_decimal]; rfl⟩
    cases hd : Text.decimal (v.getD 0).num.natAbs with
    | nil => exact absurd hd (Text.decimal_ne_nil _)
    | cons c ds => exact begins_digit (hdigits c (by simp [hd])) ds

/-- `{ PMC0 = 6, PMC1 = 5 }` -/
def twoCounters : CounterValues plainNumbers where
  counters := ["PMC1".toList, "PMC0".toList]
  value x := if x = "PMC1".toList then some 5 else some 6
  isName x hx := by
    rcases List.mem_pair.mp hx with rfl | rfl
    · exact ⟨by decide +kernel, List.all_eq_true.mp (by decide +kernel)⟩
    · exact ⟨by decide +kernel, List.all_eq_true.mp (by decide +kernel)⟩
  nodup := by decide +kernel
  finite x _ := by
    split
    · rfl
    · rfl
  nonneg x _ := by
    split
    · exact ⟨5, by decide, rfl⟩
    · exact ⟨6, by decide, rfl⟩

/-- `PMC0/(PMC1-2)` -/
theorem metricRight_quotient :
    let ts : List Token := [.name "PMC0".toList, .symbol '/', .symbol '(', .name "PMC1".toList,
      .symbol '-', .number ['2'], .symbol ')']
    let e : Expr := .binary .div (.name "PMC0".toList)
      (.binary .sub (.name "PMC1".toList) (.number ['2']))
    MetricRight plainNumbers twoCounters "PMC0/(PMC1-2)".toList ts e ↔
      (Bound plainNumbers twoCounters ts → printedValue plainNumbers twoCounters e =
        e.value plainNumbers.toArithmetic plainNumbers.read twoCounters.value) := by
  refine metricRight_iff ⟨by decide +kernel, ?_⟩ ⟨?_, ?_, ?_⟩
  · exact .looser (.binary .div (.looser (.looser (.name _)))
      (.looser (.paren (.binary .sub (.looser (.looser (.looser (.name _))))
        (.looser (.looser (.number _)))))))
  · intro x hx w hw
    obtain rfl : w = ['2'] := by simpa using hw
    rcases List.mem_pair.mp hx with rfl | rfl <;> decide +kernel
  · intro x _ y hy hno
    have hin : y = "PMC0".toList ∨ y = "PMC1".toList := by simpa using hy
    rcases hin with rfl | rfl <;> exact absurd hno (by decide +kernel)
  · intro x hx y hy _ _ _
    have hin : y = "PMC0".toList ∨ y = "PMC1".toList := by simpa using hy
    rcases hin with rfl | rfl <;> rcases List.mem_pair.mp hx with rfl | rfl <;> decide +kernel

/-- **A counter that has no value gets one from a shorter name.** -/
theorem not_metricRight_longer :
    let formula := "PMC10".toList
    let ts : List Token := [.name formula]
    IsFormula formula ts (.name formula) ∧
      ¬MetricRight plainNumbers twoCounters formula ts (.name formula) := by
  refine ⟨⟨by decide +kernel, .looser (.looser (.looser (.name _)))⟩, fun h => ?_⟩
  have hclist : Sorted twoCounters.counters twoCounters.counters :=
    ⟨.refl _, by decide +kernel⟩
  have hresult : calculateMetric plainNumbers twoCounters.value twoCounters.counters
      "PMC10".toList = .number (some 50) := by decide +kernel
  have hbound := (h _ hclist).1 _ hresult "PMC10".toList (by simp)
  exact absurd hbound (by decide +kernel)

end Likwid
