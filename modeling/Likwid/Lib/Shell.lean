import Mathlib.Data.Int.Notation
import Mathlib.Data.List.Basic

/-!
# Shell scripts

Scripts of assignments, tests on numbers, commands and branches: their text (`Stmt.lines`) and what
they do to the variables and which commands they run (`Stmt.exec`). `chain` is `if`, `elif`, …,
`else` over the values of one variable, and runs the branch of the value it has (`exec_chain`).
-/

namespace Shell

/-! ## Syntax -/

/-- What stands in `$((…))` -/
inductive Arith where
  | num (n : ℤ)
  | var (x : String)
  | sub (a b : Arith)
  | mul (a b : Arith)
  | mod (a b : Arith)
  | paren (a : Arith)
deriving DecidableEq, Repr

inductive Word where
  | num (n : ℤ)
  | var (x : String)
  | arith (e : Arith)
  /-- `${x:-$((e))}` -/
  | orElse (x : String) (e : Arith)
deriving DecidableEq, Repr

/-- `[ "$x" -lt n ]` and `[ "$x" -eq n ]` -/
inductive Test where
  | lt (x : String) (n : ℤ)
  | eq (x : String) (n : ℤ)
deriving DecidableEq, Repr

inductive Stmt where
  | assign (x : String) (w : Word)
  /-- Lines that leave the variables of the script alone and print nothing -/
  | other (lines : List String)
  | run (command : String)
  | echo (text : String)
  | seq (a b : Stmt)
  | branch (t : Test) (yes no : Stmt)
deriving Repr

/-- One branch for each of the values from `i` on -/
def chain (x : String) : ℤ → Stmt → List Stmt → Stmt → Stmt
  | i, a, [], otherwise => .branch (.eq x i) a otherwise
  | i, a, b :: bs, otherwise => .branch (.eq x i) a (chain x (i + 1) b bs otherwise)

/-! ## Text -/

/-! ## Meaning -/

/-- The variables that have a number -/
abbrev Env := String → Option ℤ

def Env.set (env : Env) (x : String) (v : Option ℤ) : Env := fun y => if y = x then v else env y

def Arith.eval (env : Env) : Arith → Option ℤ
  | .num n => some n
  | .var x => env x
  | .sub a b => do return (← a.eval env) - (← b.eval env)
  | .mul a b => do return (← a.eval env) * (← b.eval env)
  | .mod a b => do
      let n ← b.eval env
      if n = 0 then none else return Int.tmod (← a.eval env) n
  | .paren a => a.eval env

def Word.eval (env : Env) : Word → Option ℤ
  | .num n => some n
  | .var x => env x
  | .arith e => e.eval env
  | .orElse x e => env x <|> e.eval env

/-- A test on a variable without a number fails. -/
def Test.holds (env : Env) : Test → Bool
  | .lt x n => (env x).any (· < n)
  | .eq x n => (env x).any (· = n)

inductive Action where
  | run (command : String)
  | echo (text : String)
deriving DecidableEq, Repr

def Stmt.exec : Stmt → Env → Env × List Action
  | .assign x w, env => (env.set x (w.eval env), [])
  | .other _, env => (env, [])
  | .run command, env => (env, [.run command])
  | .echo text, env => (env, [.echo text])
  | .seq a b, env => ((b.exec (a.exec env).1).1, (a.exec env).2 ++ (b.exec (a.exec env).1).2)
  | .branch t yes no, env => if t.holds env then yes.exec env else no.exec env

section Laws

variable {env : Env} {x y : String} {v : Option ℤ} {i k : ℤ} {a b otherwise : Stmt}
  {bs : List Stmt} {t : Test}

@[simp] theorem set_self : env.set x v x = v := by simp [Env.set]

@[simp] theorem exec_seq : (Stmt.seq a b).exec env =
    ((b.exec (a.exec env).1).1, (a.exec env).2 ++ (b.exec (a.exec env).1).2) := rfl

@[simp] theorem exec_assign (w : Word) :
    (Stmt.assign x w).exec env = (env.set x (w.eval env), []) := rfl

@[simp] theorem exec_other (lines : List String) : (Stmt.other lines).exec env = (env, []) := rfl

theorem exec_branch_of_true (h : t.holds env = true) :
    (Stmt.branch t a b).exec env = a.exec env := if_pos h

theorem exec_branch_of_false (h : t.holds env = false) :
    (Stmt.branch t a b).exec env = b.exec env := if_neg (by simp [h])

/-- **A chain runs the branch of the value.** -/
theorem exec_chain {n : ℕ} (hx : env x = some (i + n)) :
    (chain x i a bs otherwise).exec env =
      (((a :: bs)[n]?).getD otherwise).exec env := by
  induction bs generalizing i a n with
  | nil =>
      cases n with
      | zero => exact exec_branch_of_true (by simp [Test.holds, hx])
      | succ n =>
          rw [chain, exec_branch_of_false]
          · rfl
          · simp [Test.holds, hx]
            omega
  | cons b bs ih =>
      cases n with
      | zero => exact exec_branch_of_true (by simp [Test.holds, hx])
      | succ n =>
          rw [chain, exec_branch_of_false]
          · refine ih (hx.trans (congrArg some ?_))
            rw [Int.natCast_succ]
            omega
          · simp [Test.holds, hx]
            omega

end Laws

end Shell
