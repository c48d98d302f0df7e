import Likwid.Lib.Formula

/-!
# The value of arithmetic text

Expressions, the tokens that spell one by the usual priorities (`Spells`), and Lua's expression
parser on tokens that carry the values of their operands (`subexpr`, `operators`). What the parser
finds is the value of the expression (`Spells.evaluate`).
-/

namespace Formula

/-! ## Expressions -/

inductive Op where
  | add
  | sub
  | mul
  | div
deriving DecidableEq, Repr

def Op.symbol : Op → Char
  | .add => '+'
  | .sub => '-'
  | .mul => '*'
  | .div => '/'

def Op.priority : Op → ℕ
  | .add | .sub => 6
  | .mul | .div => 7

inductive Expr where
  | number (w : List Char)
  | name (x : List Char)
  | neg (a : Expr)
  | binary (op : Op) (a b : Expr)

/-- The tokens of an expression, by the priority of what stands outermost: sums, products, signs and
what needs no parentheses -/
inductive Spells : ℕ → Expr → List Token → Prop
  | number (w : List Char) : Spells 9 (.number w) [.number w]
  | name (x : List Char) : Spells 9 (.name x) [.name x]
  | paren {e : Expr} {ts : List Token} :
      Spells 6 e ts → Spells 9 e (.symbol '(' :: ts ++ [.symbol ')'])
  | neg {a : Expr} {ts : List Token} : Spells 8 a ts → Spells 8 (.neg a) (.symbol '-' :: ts)
  | binary (op : Op) {a b : Expr} {ts us : List Token} :
      Spells op.priority a ts → Spells (op.priority + 1) b us →
      Spells op.priority (.binary op a b) (ts ++ .symbol op.symbol :: us)
  | looser {p : ℕ} {e : Expr} {ts : List Token} : Spells (p + 1) e ts → Spells p e ts

/-- The operations of a kind of number -/
structure Arithmetic (N : Type) where
  add : N → N → N
  sub : N → N → N
  mul : N → N → N
  div : N → N → N
  neg : N → N

section Value

variable {N : Type} (A : Arithmetic N)

def Op.apply : Op → N → N → N
  | .add => A.add
  | .sub => A.sub
  | .mul => A.mul
  | .div => A.div

def Expr.value (number name : List Char → N) : Expr → N
  | .number w => number w
  | .name x => name x
  | .neg a => A.neg (a.value number name)
  | .binary op a b => op.apply A (a.value number name) (b.value number name)

/-! ## Evaluation -/

/-- A token with the value of its operand -/
inductive Item (N : Type) where
  | operand (v : N)
  | symbol (c : Char)

def Token.item (number name : List Char → N) : Token → Item N
  | .number w => .operand (number w)
  | .name x => .operand (name x)
  | .symbol c => .symbol c

def binary? : Char → Option Op
  | '+' => some .add
  | '-' => some .sub
  | '*' => some .mul
  | '/' => some .div
  | _ => none

mutual

/-- An expression of operators that bind more tightly than `limit`: its value and what is behind
it -/
def subexpr : ℕ → ℕ → List (Item N) → Option (N × List (Item N))
  | 0, _, _ => none
  | _ + 1, _, [] => none
  | n + 1, limit, .operand v :: ts => operators n limit v ts
  | n + 1, limit, .symbol c :: ts =>
      if c = '-' then
        match subexpr n 8 ts with
        | some (v, rest) => operators n limit (A.neg v) rest
        | none => none
      else if c = '(' then
        match subexpr n 0 ts with
        | some (v, .symbol d :: rest) => if d = ')' then operators n limit v rest else none
        | _ => none
      else none

/-- The operators behind a first operand -/
def operators : ℕ → ℕ → N → List (Item N) → Option (N × List (Item N))
  | 0, _, _, _ => none
  | _ + 1, _, v, [] => some (v, [])
  | _ + 1, _, v, .operand w :: ts => some (v, .operand w :: ts)
  | n + 1, limit, v, .symbol c :: ts =>
      match binary? c with
      | none => some (v, .symbol c :: ts)
      | some op =>
          if limit < op.priority then
            match subexpr n op.priority ts with
            | some (w, rest) => operators n limit (op.apply A v w) rest
            | none => none
          else some (v, .symbol c :: ts)

end

/-- The value of an expression that takes all tokens -/
def evaluate (ts : List (Item N)) : Option N :=
  match subexpr A (2 * ts.length) 0 ts with
  | some (v, []) => some v
  | _ => none

variable {A} {n m limit p : ℕ} {v w : N} {ts rest : List (Item N)} {r : N × List (Item N)}

/-! ### Steps -/

theorem subexpr_neg (h : subexpr A n 8 ts = some (v, rest)) :
    subexpr A (n + 1) limit (.symbol '-' :: ts) = operators A n limit (A.neg v) rest := by
  rw [subexpr, if_pos rfl, h]

theorem subexpr_paren (h : subexpr A n 0 ts = some (v, .symbol ')' :: rest)) :
    subexpr A (n + 1) limit (.symbol '(' :: ts) = operators A n limit v rest := by
  rw [subexpr, if_neg (by decide), if_pos rfl, h]
  exact if_pos rfl

theorem operators_op {op : Op} (hlimit : limit < op.priority)
    (h : subexpr A n op.priority ts = some (w, rest)) :
    operators A (n + 1) limit v (.symbol op.symbol :: ts) =
      operators A n limit (op.apply A v w) rest := by
  have hop : binary? op.symbol = some op := by cases op <;> rfl
  rw [operators, hop]
  dsimp only
  rw [if_pos hlimit, h]

/-- What a successful run of `subexpr` has done -/
inductive Ran (A : Arithmetic N) (n limit : ℕ) : List (Item N) → N × List (Item N) → Prop
  | operand {v : N} {ts : List (Item N)} {r : N × List (Item N)} :
      operators A n limit v ts = some r → Ran A n limit (.operand v :: ts) r
  | neg {v : N} {ts rest : List (Item N)} {r : N × List (Item N)} :
      subexpr A n 8 ts = some (v, rest) → operators A n limit (A.neg v) rest = some r →
      Ran A n limit (.symbol '-' :: ts) r
  | paren {v : N} {ts rest : List (Item N)} {r : N × List (Item N)} :
      subexpr A n 0 ts = some (v, .symbol ')' :: rest) → operators A n limit v rest = some r →
      Ran A n limit (.symbol '(' :: ts) r

theorem ran_of_subexpr (h : subexpr A (n + 1) limit ts = some r) : Ran A n limit ts r := by
  cases ts with
  | nil => simp [subexpr] at h
  | cons t ts =>
      cases t with
      | operand v => exact .operand h
      | symbol c =>
          rw [subexpr] at h
          split at h
          · next hc =>
              subst hc
              split at h
              · next v rest hsub => exact .neg hsub h
              · simp at h
          split at h
          · next hc =>
              subst hc
              split at h
              · next v d rest hsub =>
                  split at h
                  · next hd =>
                      subst hd
                      exact .paren hsub h
                  · simp at h
              · simp at h
          · simp at h

/-- What a successful run of `operators` has done -/
inductive RanBehind (A : Arithmetic N) (n limit : ℕ) (v : N) :
    List (Item N) → N × List (Item N) → Prop
  | stop {ts : List (Item N)} : (∀ k, operators A (k + 1) limit v ts = some (v, ts)) →
      RanBehind A n limit v ts (v, ts)
  | op {op : Op} {w : N} {ts rest : List (Item N)} {r : N × List (Item N)} :
      limit < op.priority → subexpr A n op.priority ts = some (w, rest) →
      operators A n limit (op.apply A v w) rest = some r →
      RanBehind A n limit v (.symbol op.symbol :: ts) r

theorem symbol_of_binary? {c : Char} {op : Op} (h : binary? c = some op) : c = op.symbol := by
  unfold binary? at h
  split at h <;> simp at h <;> subst h <;> rfl

theorem ran_of_operators (h : operators A (n + 1) limit v ts = some r) :
    RanBehind A n limit v ts r := by
  cases ts with
  | nil =>
      obtain rfl : (v, []) = r := Option.some.inj h
      exact .stop fun _ => rfl
  | cons t ts =>
      cases t with
      | operand w =>
          obtain rfl : (v, .operand w :: ts) = r := Option.some.inj h
          exact .stop fun _ => rfl
      | symbol c =>
          rw [operators] at h
          split at h
          · next hc =>
              obtain rfl := Option.some.inj h
              exact .stop fun _ => by rw [operators, hc]
          · next op hc =>
              split at h
              · next hlimit =>
                  split at h
                  · next w rest hsub =>
                      rw [symbol_of_binary? hc]
                      exact .op hlimit hsub h
                  · simp at h
              · next hlimit =>
                  obtain rfl := Option.some.inj h
                  refine .stop fun _ => ?_
                  rw [operators, hc]
                  exact if_neg hlimit

/-! ### Fuel -/

theorem more_fuel (hnm : n ≤ m) :
    (∀ limit ts r, subexpr A n limit ts = some r → subexpr A m limit ts = some r) ∧
      ∀ limit v ts r, operators A n limit v ts = some r → operators A m limit v ts = some r := by
  induction n generalizing m with
  | zero => exact ⟨fun _ _ _ h => by simp [subexpr] at h, fun _ _ _ _ h => by simp [operators] at h⟩
  | succ n ih =>
      obtain ⟨m, rfl⟩ := Nat.exists_eq_succ_of_ne_zero (Nat.ne_of_gt (Nat.zero_lt_of_lt hnm))
      obtain ⟨hsub, hops⟩ := ih (Nat.le_of_succ_le_succ hnm)
      constructor
      · intro limit ts r hrun
        cases ran_of_subexpr hrun with
        | operand h => exact hops _ _ _ _ h
        | neg h h' => exact (subexpr_neg (hsub _ _ _ h)).trans (hops _ _ _ _ h')
        | paren h h' => exact (subexpr_paren (hsub _ _ _ h)).trans (hops _ _ _ _ h')
      · intro limit v ts r hrun
        cases ran_of_operators hrun with
        | stop h => exact h m
        | op hlimit h h' => exact (operators_op hlimit (hsub _ _ _ h)).trans (hops _ _ _ _ h')

/-- Two units of fuel for each token are enough. -/
theorem enough_fuel (n : ℕ) :
    (∀ limit ts v rest, subexpr A n limit ts = some (v, rest) →
      rest.length < ts.length ∧ subexpr A (2 * ts.length) limit ts = some (v, rest)) ∧
    ∀ limit v ts w rest, operators A n limit v ts = some (w, rest) →
      rest.length ≤ ts.length ∧ operators A (2 * ts.length + 1) limit v ts = some (w, rest) := by
  induction n with
  | zero =>
      exact ⟨fun _ _ _ _ h => by simp [subexpr] at h, fun _ _ _ _ _ h => by simp [operators] at h⟩
  | succ n ih =>
      obtain ⟨hsub, hops⟩ := ih
      constructor
      · intro limit ts v rest hrun
        generalize hr : (v, rest) = r at hrun
        cases ran_of_subexpr hrun with
        | @operand v' ts r h =>
            subst hr
            obtain ⟨hlen, henough⟩ := hops _ _ _ _ _ h
            exact ⟨Nat.lt_succ_of_le hlen, henough⟩
        | @neg v' ts rest' r h h' =>
            subst hr
            obtain ⟨hlen, henough⟩ := hsub _ _ _ _ h
            obtain ⟨hlen', henough'⟩ := hops _ _ _ _ _ h'
            refine ⟨by rw [List.length_cons]; omega, ?_⟩
            show subexpr A (2 * ts.length + 1 + 1) limit _ = _
            rw [subexpr_neg ((more_fuel (Nat.le_succ _)).1 _ _ _ henough)]
            exact (more_fuel (by omega)).2 _ _ _ _ henough'
        | @paren v' ts rest' r h h' =>
            subst hr
            obtain ⟨hlen, henough⟩ := hsub _ _ _ _ h
            obtain ⟨hlen', henough'⟩ := hops _ _ _ _ _ h'
            rw [List.length_cons] at hlen
            refine ⟨by rw [List.length_cons]; omega, ?_⟩
            show subexpr A (2 * ts.length + 1 + 1) limit _ = _
            rw [subexpr_paren ((more_fuel (Nat.le_succ _)).1 _ _ _ henough)]
            exact (more_fuel (by omega)).2 _ _ _ _ henough'
      · intro limit v ts w rest hrun
        generalize hr : (w, rest) = r at hrun
        cases ran_of_operators hrun with
        | stop h =>
            obtain ⟨rfl, rfl⟩ := Prod.mk.inj hr
            exact ⟨Nat.le_refl _, h _⟩
        | @op op w' ts rest' r hlimit h h' =>
            subst hr
            obtain ⟨hlen, henough⟩ := hsub _ _ _ _ h
            obtain ⟨hlen', henough'⟩ := hops _ _ _ _ _ h'
            refine ⟨by rw [List.length_cons]; omega, ?_⟩
            show operators A (2 * ts.length + 2 + 1) limit v _ = _
            rw [operators_op hlimit ((more_fuel (Nat.le_add_right _ 2)).1 _ _ _ henough)]
            exact (more_fuel (by omega)).2 _ _ _ _ henough'

/-! ### Expressions -/

/-- No operator that binds more tightly than `p` comes first. -/
def Calm (p : ℕ) : List (Item N) → Prop
  | .symbol c :: _ => ∀ op, binary? c = some op → op.priority ≤ p
  | _ => True

theorem Calm.mono {q : ℕ} (hpq : p ≤ q) (h : Calm p ts) : Calm q ts := by
  cases ts with
  | nil => exact trivial
  | cons t ts =>
      cases t with
      | operand v => exact trivial
      | symbol c => exact fun op hop => (h op hop).trans hpq

theorem calm_of_le (hp : 7 ≤ p) (ts : List (Item N)) : Calm p ts := by
  cases ts with
  | nil => exact trivial
  | cons t ts =>
      cases t with
      | operand v => exact trivial
      | symbol c =>
          intro op _
          cases op with
          | add | sub => exact (by decide : 6 ≤ 7).trans hp
          | mul | div => exact hp

/-- In front of a looser operator the operand is complete. -/
theorem operators_calm (h : Calm limit ts) : operators A 1 limit v ts = some (v, ts) := by
  cases ts with
  | nil => rfl
  | cons t ts =>
      cases t with
      | operand w => rfl
      | symbol c =>
          rw [operators]
          cases hc : binary? c with
          | none => rfl
          | some op => exact if_neg (Nat.not_lt.mpr (h op hc))

variable (number name : List Char → N)

/-- Evaluation reads the tokens of an expression and goes on behind them. -/
theorem Spells.subexpr {e : Expr} {us : List Token} (h : Spells p e us) (hlimit : limit < p ∨ 8 ≤ p)
    (hcalm : Calm p rest) (hrest : operators A n limit (e.value A number name) rest = some r) :
    ∃ m, Formula.subexpr A m limit (us.map (Token.item number name) ++ rest) = some r := by
  induction h generalizing limit rest n r with
  | number w => exact ⟨n + 1, hrest⟩
  | name x => exact ⟨n + 1, hrest⟩
  | @paren e us h ih =>
      have hclose : operators A 1 0 (e.value A number name) (.symbol ')' :: rest) =
          some (e.value A number name, .symbol ')' :: rest) := rfl
      obtain ⟨m, hm⟩ := @ih 1 0 (.symbol ')' :: rest) _ (Or.inl (by decide))
        (fun op hop => by simp [binary?] at hop) hclose
      refine ⟨max m n + 1, ?_⟩
      rw [List.map_append, List.map_cons, List.append_assoc]
      show Formula.subexpr A _ limit (.symbol '(' :: (_ ++ .symbol ')' :: rest)) = _
      rw [subexpr_paren ((more_fuel (le_max_left m n)).1 _ _ _ hm)]
      exact (more_fuel (le_max_right m n)).2 _ _ _ _ hrest
  | @neg a us h ih =>
      obtain ⟨m, hm⟩ := @ih _ 8 _ _ (Or.inr (Nat.le_refl 8)) hcalm
        (operators_calm (calm_of_le (by decide) rest))
      refine ⟨max m n + 1, ?_⟩
      show Formula.subexpr A _ limit (.symbol '-' :: (_ ++ rest)) = _
      rw [subexpr_neg ((more_fuel (le_max_left m n)).1 _ _ _ hm)]
      exact (more_fuel (le_max_right m n)).2 _ _ _ _ hrest
  | @binary op a b us vs ha hb iha ihb =>
      have hop : limit < op.priority := by
        rcases hlimit with hlt | hge
        · exact hlt
        · cases op <;> simp [Op.priority] at hge
      obtain ⟨m, hm⟩ := @ihb _ op.priority _ _ (Or.inl (Nat.lt_succ_self _))
        (hcalm.mono (Nat.le_succ _)) (operators_calm hcalm)
      have hstep : operators A (max m n + 1) limit (a.value A number name)
          (.symbol op.symbol :: (vs.map (Token.item number name) ++ rest)) = some r := by
        rw [operators_op hop ((more_fuel (le_max_left m n)).1 _ _ _ hm)]
        exact (more_fuel (le_max_right m n)).2 _ _ _ _ hrest
      have hself : Calm op.priority
          (.symbol op.symbol :: (vs.map (Token.item number name) ++ rest)) := by
        intro op' hop'
        obtain rfl : op = op' := by
          have hsame : binary? op.symbol = some op := by cases op <;> rfl
          exact Option.some.inj (hsame.symm.trans hop')
        exact Nat.le_refl _
      rw [List.map_append, List.map_cons, List.append_assoc]
      exact iha hlimit hself hstep
  | looser h ih =>
      refine ih ?_ (hcalm.mono (Nat.le_succ _)) hrest
      rcases hlimit with hlt | hge
      · exact Or.inl (Nat.lt_succ_of_lt hlt)
      · exact Or.inr (Nat.le_succ_of_le hge)

/-- **The value of the tokens of an expression is the value of the expression.** -/
theorem Spells.evaluate {e : Expr} {us : List Token} (h : Spells 6 e us) :
    Formula.evaluate A (us.map (Token.item number name)) = some (e.value A number name) := by
  have hend : operators A 1 0 (e.value A number name) [] = some (e.value A number name, []) := rfl
  have hcalm : Calm 6 ([] : List (Item N)) := trivial
  obtain ⟨m, hm⟩ := h.subexpr number name (Or.inl (by decide)) hcalm hend
  rw [List.append_nil] at hm
  have henough := ((enough_fuel m).1 _ _ _ _ hm).2
  unfold Formula.evaluate
  rw [henough]

end Value

end Formula
