import Mathlib.Logic.Relation
import Mathlib.Data.List.Basic

/-!
# Programs with early return

A shallow embedding of imperative routines, independent of any particular
program: a `Prog ρ σ α` runs on a state `σ` and either completes with a
value, leaves its routine early with a code of type `ρ` (the state written
so far stays written), or halts (the process exits, an array is indexed beyond
its bounds, or the next step has no defined meaning).

Two judgements are used. `Prog.wp` is the weakest precondition, computed by
the simp set below. `Prog.Respects` is the frame judgement: a `Flow` is a
preorder between the states before and after a completed routine together
with the relation that an early return establishes, and the two compose, so
that a routine respects a flow as soon as its steps do.

`Prog.forCells` is the loop over the first `n` cells of an array, some of
which may never have been initialised.
-/

namespace Prog

/-- Why a program has no further state. -/
inductive Halt where
  | exited
  | undefined
  | outOfBounds
deriving DecidableEq, Repr

inductive Outcome (ρ σ α : Type) where
  | done (a : α) (s : σ)
  | ret (r : ρ) (s : σ)
  | halt (h : Halt)

/-- Map the state of an outcome. -/
def Outcome.onState {ρ σ τ α : Type} (f : σ → τ) : Outcome ρ σ α → Outcome ρ τ α
  | .done a s => .done a (f s)
  | .ret r s => .ret r (f s)
  | .halt h => .halt h

end Prog

/-- A routine on a state `σ` with value `α` and early-return code `ρ`. -/
def Prog (ρ σ α : Type) : Type := σ → Prog.Outcome ρ σ α

namespace Prog

variable {ρ σ τ ε α β : Type}

/-! ## Constructs -/

instance : Monad (Prog ρ σ) where
  pure a := fun s => .done a s
  bind m f := fun s =>
    match m s with
    | .done a s' => f a s'
    | .ret r s' => .ret r s'
    | .halt h => .halt h

/-- Leave the routine with code `r`. -/
def ret (r : ρ) : Prog ρ σ α := fun s => .ret r s

def halt (h : Halt) : Prog ρ σ α := fun _ => .halt h

def get : Prog ρ σ σ := fun s => .done s s

def modify (f : σ → σ) : Prog ρ σ Unit := fun s => .done () (f s)

def when (c : Prop) [Decidable c] (m : Prog ρ σ Unit) : Prog ρ σ Unit :=
  if c then m else pure ()

/-- A value that must exist for the next step to have a meaning. -/
def orUndefined : Option α → Prog ρ σ α
  | some a => pure a
  | none => halt .undefined

/-- An element of an array that must have one there. -/
def orOutOfBounds : Option α → Prog ρ σ α
  | some a => pure a
  | none => halt .outOfBounds

/-- Call a routine: its early return ends the callee, not the caller. A callee
that runs to its end returns `zero`. -/
def call {ρ' : Type} (zero : ρ') (m : Prog ρ' σ Unit) : Prog ρ σ ρ' := fun s =>
  match m s with
  | .done _ s' => .done zero s'
  | .ret r s' => .done r s'
  | .halt h => .halt h

/-- Run a routine on a part of the state. -/
def zoom (view : σ → τ) (put : τ → σ → σ) (m : Prog ρ τ α) : Prog ρ σ α := fun s =>
  (m (view s)).onState fun t => put t s

abbrev onFst (m : Prog ρ σ α) : Prog ρ (σ × τ) α :=
  zoom Prod.fst (fun s p => (s, p.2)) m

abbrev onSnd (m : Prog ρ τ α) : Prog ρ (σ × τ) α :=
  zoom Prod.snd (fun t p => (p.1, t)) m

/-- Run a routine on the first cell of an array. A cell that was never
initialised holds no array that could be indexed. -/
def head (m : Prog ρ (σ × ε) α) : Prog ρ (σ × List (Option ε)) α
  | (s, some e :: cells) => (m (s, e)).onState fun p => (p.1, some p.2 :: cells)
  | _ => .halt .outOfBounds

/-- Run a routine on the array beyond its first cell. -/
def tail (m : Prog ρ (σ × List (Option ε)) α) : Prog ρ (σ × List (Option ε)) α
  | (s, c :: cells) => (m (s, cells)).onState fun p => (p.1, c :: p.2)
  | (_, []) => .halt .outOfBounds

/-- `for (i = 0; i < n; i++) body(cells[i])`, with a loop variable `β`. -/
def forCells (body : β → Prog ρ (σ × ε) β) : Nat → β → Prog ρ (σ × List (Option ε)) β
  | 0, b => pure b
  | n + 1, b => do
      let b' ← head (body b)
      tail (forCells body n b')

/-- The value of a run that completes. -/
def result (m : Prog ρ σ α) (s : σ) : Option α :=
  match m s with
  | .done a _ => some a
  | _ => none

/-! ## Runs on a given state -/

section Apply

variable {s s' : σ} {m : Prog ρ σ β} {f : β → Prog ρ σ α}

theorem bind_of_done {b : β} (h : m s = .done b s') : (m >>= f) s = f b s' := by
  simp only [Bind.bind, h]

theorem bind_of_ret {r : ρ} (h : m s = .ret r s') : (m >>= f) s = .ret r s' := by
  simp only [Bind.bind, h]

theorem bind_of_halt {k : Halt} (h : m s = .halt k) : (m >>= f) s = .halt k := by
  simp only [Bind.bind, h]

theorem bind_eq_done {a : α} :
    (m >>= f) s = .done a s' ↔ ∃ b s1, m s = .done b s1 ∧ f b s1 = .done a s' := by
  cases hm : m s with
  | done b s1 => simp [bind_of_done hm]
  | ret r s1 => simp [bind_of_ret hm]
  | halt k => simp [bind_of_halt hm]

theorem bind_assoc {γ : Type} (m : Prog ρ σ β) (f : β → Prog ρ σ α) (g : α → Prog ρ σ γ) :
    (m >>= f) >>= g = m >>= fun b => f b >>= g := by
  funext s
  simp only [Bind.bind]
  cases m s <;> rfl

theorem bind_pure_right (m : Prog ρ σ β) : (m >>= fun b => pure b) = m := by
  funext s
  simp only [Bind.bind]
  cases m s <;> rfl

theorem bind_pure_left (b : β) (f : β → Prog ρ σ α) : (pure b >>= f) = f b := rfl

theorem foldlM_concat_eq (f : β → ε → Prog ρ σ β) (l : List ε) (e : ε) (b : β) :
    (l ++ [e]).foldlM f b = l.foldlM f b >>= fun b' => f b' e := by
  induction l generalizing b with
  | nil => exact bind_pure_right (f b e)
  | cons a l ih =>
      rw [List.cons_append, List.foldlM_cons, List.foldlM_cons, bind_assoc]
      exact congrArg (f b a >>= ·) (funext ih)

theorem foldlM_concat {f : β → ε → Prog ρ σ β} {l : List ε} {b b' : β} (e : ε)
    (h : l.foldlM f b s = .done b' s') : (l ++ [e]).foldlM f b s = f b' e s' := by
  rw [foldlM_concat_eq, bind_of_done h]

theorem when_of_pos {c : Prop} [Decidable c] (h : c) {m : Prog ρ σ Unit} : when c m = m :=
  if_pos h

theorem when_of_neg {c : Prop} [Decidable c] (h : ¬c) {m : Prog ρ σ Unit} :
    when c m = pure () :=
  if_neg h

theorem call_of_done {ρ' : Type} {zero : ρ'} {m : Prog ρ' σ Unit} (h : m s = .done () s') :
    (call zero m : Prog ρ σ ρ') s = .done zero s' := by
  simp only [call, h]

theorem call_of_ret {ρ' : Type} {z r : ρ'} {m : Prog ρ' σ Unit} (h : m s = .ret r s') :
    (call z m : Prog ρ σ ρ') s = .done r s' := by
  simp only [call, h]

theorem call_of_halt {ρ' : Type} {zero : ρ'} {k : Halt} {m : Prog ρ' σ Unit}
    (h : m s = .halt k) : (call zero m : Prog ρ σ ρ') s = .halt k := by
  simp only [call, h]

theorem zoom_of_done {view : σ → τ} {put : τ → σ → σ} {m : Prog ρ τ α} {a : α} {t : τ}
    (h : m (view s) = .done a t) : zoom view put m s = .done a (put t s) := by
  simp only [zoom, h, Outcome.onState]

theorem zoom_eq_done {view : σ → τ} {put : τ → σ → σ} {m : Prog ρ τ α} {a : α} :
    zoom view put m s = .done a s' ↔ ∃ t, m (view s) = .done a t ∧ s' = put t s := by
  unfold zoom
  constructor
  · intro h
    cases hm : m (view s) with
    | done b t =>
        rw [hm] at h
        cases h
        exact ⟨t, rfl, rfl⟩
    | ret r t =>
        rw [hm] at h
        cases h
    | halt k =>
        rw [hm] at h
        cases h
  · rintro ⟨t, hm, rfl⟩
    rw [hm]
    rfl

theorem zoom_of_halt {view : σ → τ} {put : τ → σ → σ} {m : Prog ρ τ α} {k : Halt}
    (h : m (view s) = .halt k) : zoom view put m s = .halt k := by
  simp only [zoom, h, Outcome.onState]

theorem zoom_eq_halt {view : σ → τ} {put : τ → σ → σ} {m : Prog ρ τ α} {s : σ} {k : Halt} :
    zoom view put m s = .halt k ↔ m (view s) = .halt k := by
  unfold zoom
  cases m (view s) <;> simp [Outcome.onState]

theorem bind_apply (m : Prog ρ σ β) (f : β → Prog ρ σ α) (s : σ) :
    (m >>= f) s = match m s with
      | .done a s' => f a s'
      | .ret r s' => .ret r s'
      | .halt h => .halt h := rfl

theorem when_apply (c : Prop) [Decidable c] (m : Prog ρ σ Unit) (s : σ) :
    when c m s = if c then m s else .done () s := by
  unfold when
  split <;> rfl

theorem pure_apply (a : α) (s : σ) : (pure a : Prog ρ σ α) s = .done a s := rfl

theorem get_apply (s : σ) : (get : Prog ρ σ σ) s = .done s s := rfl

theorem modify_apply (f : σ → σ) (s : σ) : (modify f : Prog ρ σ Unit) s = .done () (f s) := rfl

theorem ret_apply (r : ρ) (s : σ) : (ret r : Prog ρ σ α) s = .ret r s := rfl

theorem call_apply {ρ' : Type} (zero : ρ') (m : Prog ρ' σ Unit) (s : σ) :
    (call zero m : Prog ρ σ ρ') s = match m s with
      | .done _ s' => .done zero s'
      | .ret r s' => .done r s'
      | .halt h => .halt h := rfl

end Apply

/-! ## The same routine on a larger state -/

/-- `m` does on `φ q` what `m'` does on `q`. -/
def Carries (φ : σ → τ) (m : Prog ρ τ α) (m' : Prog ρ σ α) : Prop :=
  ∀ q, m (φ q) = (m' q).onState φ

namespace Carries

variable {φ : σ → τ}

theorem pure (a : α) : Carries φ (Pure.pure a : Prog ρ τ α) (Pure.pure a) := fun _ => rfl

theorem ret (r : ρ) : Carries φ (Prog.ret r : Prog ρ τ α) (Prog.ret r) := fun _ => rfl

theorem bind {m : Prog ρ τ β} {m' : Prog ρ σ β} {f : β → Prog ρ τ α} {f' : β → Prog ρ σ α}
    (hm : Carries φ m m') (hf : ∀ b, Carries φ (f b) (f' b)) :
    Carries φ (m >>= f) (m' >>= f') := by
  intro q
  rw [bind_apply, bind_apply, hm q]
  cases m' q with
  | done b q' => exact hf b q'
  | ret r q' => rfl
  | halt k => rfl

theorem when {c : Prop} [Decidable c] {m : Prog ρ τ Unit} {m' : Prog ρ σ Unit}
    (hm : Carries φ m m') : Carries φ (Prog.when c m) (Prog.when c m') := by
  intro q
  rw [when_apply, when_apply]
  split
  · exact hm q
  · rfl

theorem foldlM {f : β → ε → Prog ρ τ β} {f' : β → ε → Prog ρ σ β} {l : List ε}
    (h : ∀ b, ∀ e ∈ l, Carries φ (f b e) (f' b e)) (b : β) :
    Carries φ (l.foldlM f b) (l.foldlM f' b) := by
  induction l generalizing b with
  | nil => exact pure b
  | cons e l ih =>
      rw [List.foldlM_cons, List.foldlM_cons]
      exact bind (h b e List.mem_cons_self) fun b' =>
        ih (fun b e he => h b e (List.mem_cons_of_mem _ he)) b'

end Carries

/-- The value and the state of a completed run. -/
def result? (m : Prog ρ σ α) (s : σ) : Option (α × σ) :=
  match m s with
  | .done a s' => some (a, s')
  | _ => none

theorem result?_eq_some {m : Prog ρ σ α} {s s' : σ} {a : α} :
    m.result? s = some (a, s') ↔ m s = .done a s' := by
  unfold result?
  cases m s <;> simp

/-! ## Weakest preconditions -/

/-- Every completed run ends in `Q`, every early return in `R`. Nothing is
said of a run that halts. -/
def wp (m : Prog ρ σ α) (Q : α → σ → Prop) (R : ρ → σ → Prop) (s : σ) : Prop :=
  match m s with
  | .done a s' => Q a s'
  | .ret r s' => R r s'
  | .halt _ => True

section WP

variable {Q : α → σ → Prop} {R : ρ → σ → Prop} {s : σ}

@[simp] theorem wp_pure (a : α) : (pure a : Prog ρ σ α).wp Q R s ↔ Q a s := Iff.rfl

@[simp] theorem wp_bind {m : Prog ρ σ β} {f : β → Prog ρ σ α} :
    (m >>= f).wp Q R s ↔ m.wp (fun b s' => (f b).wp Q R s') R s := by
  simp only [Bind.bind, wp]
  cases m s <;> rfl

@[simp] theorem wp_ret (r : ρ) : (ret r : Prog ρ σ α).wp Q R s ↔ R r s := Iff.rfl

@[simp] theorem wp_halt (h : Halt) : (halt h : Prog ρ σ α).wp Q R s ↔ True := Iff.rfl

@[simp] theorem wp_get {Q : σ → σ → Prop} : (get : Prog ρ σ σ).wp Q R s ↔ Q s s := Iff.rfl

@[simp] theorem wp_modify {Q : Unit → σ → Prop} (f : σ → σ) :
    (modify f : Prog ρ σ Unit).wp Q R s ↔ Q () (f s) := Iff.rfl

@[simp] theorem wp_when {Q : Unit → σ → Prop} {c : Prop} [Decidable c]
    {m : Prog ρ σ Unit} :
    (when c m).wp Q R s ↔ (c → m.wp Q R s) ∧ (¬c → Q () s) := by
  unfold when
  split <;> simp_all

@[simp] theorem wp_orUndefined {o : Option α} :
    (orUndefined o : Prog ρ σ α).wp Q R s ↔ ∀ a, o = some a → Q a s := by
  cases o <;> simp [orUndefined]

@[simp] theorem wp_orOutOfBounds {o : Option α} :
    (orOutOfBounds o : Prog ρ σ α).wp Q R s ↔ ∀ a, o = some a → Q a s := by
  cases o <;> simp [orOutOfBounds]

@[simp] theorem wp_call {ρ' : Type} {zero : ρ'} {m : Prog ρ' σ Unit} {Q : ρ' → σ → Prop} :
    (call zero m : Prog ρ σ ρ').wp Q R s ↔ m.wp (fun _ s' => Q zero s') Q s := by
  simp only [call, wp]
  cases m s <;> rfl

@[simp] theorem wp_zoom {view : σ → τ} {put : τ → σ → σ} {m : Prog ρ τ α} :
    (zoom view put m).wp Q R s ↔
      m.wp (fun a t => Q a (put t s)) (fun r t => R r (put t s)) (view s) := by
  simp only [zoom, wp]
  cases m (view s) <;> rfl

theorem wp_mono {m : Prog ρ σ α} {Q' : α → σ → Prop} {R' : ρ → σ → Prop}
    (h : m.wp Q R s) (hQ : ∀ a s', Q a s' → Q' a s') (hR : ∀ r s', R r s' → R' r s') :
    m.wp Q' R' s := by
  unfold wp at *
  cases hm : m s with
  | done a s' => rw [hm] at h; exact hQ _ _ h
  | ret r s' => rw [hm] at h; exact hR _ _ h
  | halt k => trivial

theorem wp_congr {m : Prog ρ σ α} {Q' : α → σ → Prop}
    (h : ∀ a s', m s = .done a s' → (Q a s' ↔ Q' a s')) : m.wp Q R s ↔ m.wp Q' R s := by
  unfold wp
  cases hm : m s with
  | done a s' => exact h a s' hm
  | ret r s' => exact Iff.rfl
  | halt k => exact Iff.rfl

theorem wp_trivial (m : Prog ρ σ α) : m.wp (fun _ _ => True) (fun _ _ => True) s := by
  unfold wp
  split <;> trivial

theorem wp_outcome (m : Prog ρ σ α) :
    m.wp (fun a t => m s = .done a t) (fun r t => m s = .ret r t) s := by
  unfold wp
  split
  · next h => exact h
  · next h => exact h
  · trivial

theorem wp_and {m : Prog ρ σ α} {Q' : α → σ → Prop} {R' : ρ → σ → Prop}
    (h : m.wp Q R s) (h' : m.wp Q' R' s) :
    m.wp (fun a t => Q a t ∧ Q' a t) (fun r t => R r t ∧ R' r t) s := by
  unfold wp at *
  cases hm : m s with
  | done a s' => rw [hm] at h h'; exact ⟨h, h'⟩
  | ret r s' => rw [hm] at h h'; exact ⟨h, h'⟩
  | halt k => trivial

theorem wp_done {m : Prog ρ σ α} {a : α} {s' : σ} (h : m.wp Q R s) (hm : m s = .done a s') :
    Q a s' := by
  unfold wp at h
  rwa [hm] at h

theorem wp_returned {m : Prog ρ σ α} {r : ρ} {s' : σ} (h : m.wp Q R s)
    (hm : m s = .ret r s') : R r s' := by
  unfold wp at h
  rwa [hm] at h

theorem wp_called {ρ' : Type} {zero r : ρ'} {m : Prog ρ' σ Unit} {P : σ → Prop} {s' : σ}
    (h : m.wp (fun _ t => P t) (fun _ t => P t) s)
    (hdone : (call zero m : Prog ρ σ ρ') s = .done r s') : P s' := by
  have hcall : (call zero m : Prog ρ σ ρ').wp (fun _ t => P t) (fun _ _ => True) s :=
    wp_call.mpr h
  exact wp_done hcall hdone

theorem wp_foldlM {f : Unit → ε → Prog ρ σ Unit} {I : List ε → σ → Prop} {l : List ε}
    (h : ∀ seen e rest s, l = seen ++ e :: rest → I seen s →
      (f () e).wp (fun _ s' => I (seen ++ [e]) s') R s) (h0 : I [] s) :
    (l.foldlM f ()).wp (fun _ s' => I l s') R s := by
  suffices hgen : ∀ rest seen s, l = seen ++ rest → I seen s →
      (rest.foldlM f ()).wp (fun _ s' => I l s') R s from hgen l [] s rfl h0
  intro rest
  induction rest with
  | nil =>
      intro seen s hl hs
      rw [List.append_nil] at hl
      exact hl ▸ hs
  | cons e rest ih =>
      intro seen s hl hs
      rw [List.foldlM_cons, wp_bind]
      refine wp_mono (h seen e rest s hl hs) (fun _ s' hs' => ?_) (fun _ _ hr => hr)
      exact ih (seen ++ [e]) s' (by simp [hl]) hs'

end WP

/-! ## Runs that go wrong -/

/-- The run does not go wrong: it ends, or the process exits. -/
def safe (m : Prog ρ σ α) (s : σ) : Prop := ∀ k, m s = .halt k → k = .exited

section Safe

variable {s : σ}

@[simp] theorem safe_pure (a : α) : (pure a : Prog ρ σ α).safe s := nofun

@[simp] theorem safe_ret (r : ρ) : (ret r : Prog ρ σ α).safe s := nofun

@[simp] theorem safe_get : (get : Prog ρ σ σ).safe s := nofun

@[simp] theorem safe_modify (f : σ → σ) : (modify f : Prog ρ σ Unit).safe s := nofun

@[simp] theorem safe_halt (k : Halt) : (halt k : Prog ρ σ α).safe s ↔ k = .exited := by
  simp [safe, halt]

@[simp] theorem safe_bind {m : Prog ρ σ β} {f : β → Prog ρ σ α} :
    (m >>= f).safe s ↔
      m.safe s ∧ m.wp (fun b s' => (f b).safe s') (fun _ _ => True) s := by
  unfold safe wp
  rw [bind_apply]
  cases m s with
  | done b s' => simp
  | ret r s' => simp
  | halt k => simp

@[simp] theorem safe_when {c : Prop} [Decidable c] {m : Prog ρ σ Unit} :
    (when c m).safe s ↔ (c → m.safe s) := by
  unfold when
  split <;> simp_all

@[simp] theorem safe_orUndefined {o : Option α} :
    (orUndefined o : Prog ρ σ α).safe s ↔ ∃ a, o = some a := by
  cases o <;> simp [orUndefined]

@[simp] theorem safe_call {ρ' : Type} {zero : ρ'} {m : Prog ρ' σ Unit} :
    (call zero m : Prog ρ σ ρ').safe s ↔ m.safe s := by
  unfold safe
  rw [call_apply]
  cases m s with
  | done u s' => simp
  | ret r s' => simp
  | halt k => simp

end Safe

/-! ## Runs that end -/

/-- No run halts. -/
def Ends (m : Prog ρ σ α) : Prop := ∀ s k, m s ≠ .halt k

namespace Ends

theorem pure (a : α) : Ends (Pure.pure a : Prog ρ σ α) := nofun

theorem get : Ends (Prog.get : Prog ρ σ σ) := nofun

theorem ret (r : ρ) : Ends (Prog.ret r : Prog ρ σ α) := nofun

theorem bind {m : Prog ρ σ β} {f : β → Prog ρ σ α} (hm : Ends m) (hf : ∀ b, Ends (f b)) :
    Ends (m >>= f) := by
  intro s k
  rw [bind_apply]
  cases h : m s with
  | done b s' => exact hf b s' k
  | ret r s' => exact nofun
  | halt k' => exact absurd h (hm s k')

theorem when {c : Prop} [Decidable c] {m : Prog ρ σ Unit} (h : Ends m) : Ends (Prog.when c m) := by
  unfold Prog.when
  split
  · exact h
  · exact pure ()

end Ends

/-! ## Flows

A flow says what a routine may do to the state: `done` relates the states
before and after a completed run, `exit` those before and after an early
return. Completed steps compose, and an early return may follow any number of
completed steps. -/

structure Flow (σ : Type) where
  done : σ → σ → Prop
  exit : σ → σ → Prop
  refl : ∀ s, done s s
  trans : ∀ {a b c}, done a b → done b c → done a c
  absorb : ∀ {a b c}, done a b → exit b c → exit a c

/-- The flow of a preorder that early returns keep as well. -/
def Flow.of (R : σ → σ → Prop) (refl : ∀ s, R s s)
    (trans : ∀ a b c, R a b → R b c → R a c) : Flow σ where
  done := R
  exit := R
  refl := refl
  trans := trans _ _ _
  absorb := trans _ _ _

/-- The flow of a routine that keeps an invariant. -/
def Flow.inv (I : σ → Prop) : Flow σ :=
  Flow.of (fun s s' => I s → I s') (fun _ h => h) fun _ _ _ h h' hs => h' (h hs)

def Respects (F : Flow σ) (m : Prog ρ σ α) : Prop :=
  ∀ s, m.wp (fun _ s' => F.done s s') (fun _ s' => F.exit s s') s

namespace Respects

variable {F : Flow σ}

theorem pure (a : α) : Respects F (Pure.pure a : Prog ρ σ α) := fun s => F.refl s

theorem halt (h : Halt) : Respects F (Prog.halt h : Prog ρ σ α) := fun _ => trivial

theorem get : Respects F (Prog.get : Prog ρ σ σ) := fun s => F.refl s

theorem modify {f : σ → σ} (h : ∀ s, F.done s (f s)) :
    Respects F (Prog.modify f : Prog ρ σ Unit) := h

theorem ret {r : ρ} (h : ∀ s, F.exit s s) : Respects F (Prog.ret r : Prog ρ σ α) := h

theorem bind {m : Prog ρ σ β} {f : β → Prog ρ σ α} (hm : Respects F m)
    (hf : ∀ b, Respects F (f b)) : Respects F (m >>= f) := by
  intro s
  rw [wp_bind]
  refine wp_mono (hm s) (fun b s' hs' => ?_) (fun _ _ h => h)
  exact wp_mono (hf b s') (fun _ _ h => F.trans hs' h) (fun _ _ h => F.absorb hs' h)

theorem when {c : Prop} [Decidable c] {m : Prog ρ σ Unit} (h : c → Respects F m) :
    Respects F (Prog.when c m) := by
  intro s
  rw [wp_when]
  exact ⟨fun hc => h hc s, fun _ => F.refl s⟩

theorem of_inv {I : σ → Prop} {m : Prog ρ σ α}
    (h : ∀ s, I s → m.wp (fun _ s' => I s') (fun _ s' => I s') s) : Respects (Flow.inv I) m := by
  intro s
  by_cases hs : I s
  · exact wp_mono (h s hs) (fun _ _ hs' _ => hs') fun _ _ hs' _ => hs'
  · exact wp_mono (wp_trivial m) (fun _ _ _ h => absurd h hs) fun _ _ _ h => absurd h hs

theorem inv {I : σ → Prop} {m : Prog ρ σ α} (h : Respects (Flow.inv I) m) {s : σ} (hs : I s) :
    m.wp (fun _ s' => I s') (fun _ s' => I s') s :=
  wp_mono (h s) (fun _ _ hk => hk hs) fun _ _ hk => hk hs

theorem ite {c : Prop} [Decidable c] {m m' : Prog ρ σ α} (h : c → Respects F m)
    (h' : ¬c → Respects F m') : Respects F (if c then m else m') := by
  split
  · exact h ‹_›
  · exact h' ‹_›

theorem orUndefined (o : Option α) : Respects F (Prog.orUndefined o : Prog ρ σ α) := by
  intro s
  rw [wp_orUndefined]
  exact fun _ _ => F.refl s

theorem orOutOfBounds (o : Option α) : Respects F (Prog.orOutOfBounds o : Prog ρ σ α) := by
  intro s
  rw [wp_orOutOfBounds]
  exact fun _ _ => F.refl s

theorem foldlM {f : β → ε → Prog ρ σ β} {l : List ε} (h : ∀ b, ∀ e ∈ l, Respects F (f b e)) :
    ∀ b, Respects F (l.foldlM f b) := by
  induction l with
  | nil => exact fun b => pure b
  | cons e l ih =>
      intro b
      rw [List.foldlM_cons]
      exact bind (h b e (List.mem_cons_self ..))
        (ih fun b' e' he' => h b' e' (List.mem_cons_of_mem _ he'))

/-- A callee hands its early return to the caller as a value, so both ends of
it must be completed steps of the caller. -/
theorem call {ρ' : Type} {zero : ρ'} {m : Prog ρ' σ Unit}
    (h : ∀ s, m.wp (fun _ s' => F.done s s') (fun _ s' => F.done s s') s) :
    Respects F (Prog.call zero m : Prog ρ σ ρ') := by
  intro s
  rw [wp_call]
  exact h s

theorem zoom {view : σ → τ} {put : τ → σ → σ} {m : Prog ρ τ α}
    (h : ∀ s, m.wp (fun _ t => F.done s (put t s)) (fun _ t => F.exit s (put t s)) (view s)) :
    Respects F (Prog.zoom view put m : Prog ρ σ α) := by
  intro s
  rw [wp_zoom]
  exact h s

end Respects

/-- A flow on the first component, which says nothing of the second. -/
def Flow.fst (F : Flow σ) : Flow (σ × τ) where
  done p q := F.done p.1 q.1
  exit p q := F.exit p.1 q.1
  refl p := F.refl p.1
  trans h h' := F.trans h h'
  absorb h h' := F.absorb h h'

/-- A preorder on the second component, which says nothing of the first. -/
def Flow.snd (F : Flow τ) : Flow (σ × τ) where
  done p q := F.done p.2 q.2
  exit p q := F.exit p.2 q.2
  refl p := F.refl p.2
  trans h h' := F.trans h h'
  absorb h h' := F.absorb h h'

theorem Respects.onFst {F : Flow σ} {m : Prog ρ σ α} (h : Respects F m) :
    Respects (F.fst : Flow (σ × τ)) (Prog.onFst m) :=
  Respects.zoom fun p => h p.1

theorem Respects.onFst_snd {R : τ → τ → Prop} {hr : ∀ s, R s s}
    {ht : ∀ a b c, R a b → R b c → R a c} (m : Prog ρ σ α) :
    Respects ((Flow.of R hr ht).snd : Flow (σ × τ)) (Prog.onFst m) := by
  refine Respects.zoom fun p => ?_
  unfold wp
  split
  · exact hr p.2
  · exact hr p.2
  · trivial

theorem Respects.onSnd_modify {R : τ → τ → Prop} {hr : ∀ s, R s s}
    {ht : ∀ a b c, R a b → R b c → R a c} {f : τ → τ} (h : ∀ t, R t (f t)) :
    Respects ((Flow.of R hr ht).snd : Flow (σ × τ)) (Prog.onSnd (Prog.modify f) : Prog ρ _ Unit) :=
  Respects.zoom fun p => h p.2

/-! ## Judgements closed under the constructs

A judgement relates two programs of one shape. A routine that is built from
related steps is related to its counterpart, whatever the judgement: one proof
along the routine serves them all. `Respects F` is such a judgement, with the
second program ignored. -/

structure Closed (J : (α : Type) → Prog ρ σ α → Prog ρ σ α → Prop) : Prop where
  pure : ∀ {α : Type} (a : α), J α (Pure.pure a) (Pure.pure a)
  bind : ∀ {α β : Type} {m m' : Prog ρ σ β} {f f' : β → Prog ρ σ α},
    J β m m' → (∀ b, J α (f b) (f' b)) → J α (m >>= f) (m' >>= f')
  get : J σ Prog.get Prog.get
  ret : ∀ {α : Type} (r : ρ), J α (Prog.ret r) (Prog.ret r)
  undefined : ∀ {α : Type}, J α (Prog.halt .undefined) (Prog.halt .undefined)
  call : ∀ (zero : ρ) {m m' : Prog ρ σ Unit},
    J Unit m m' → J ρ (Prog.call zero m) (Prog.call zero m')

namespace Closed

variable {J : (α : Type) → Prog ρ σ α → Prog ρ σ α → Prop}

theorem ite {c : Prop} [Decidable c] {m m' k k' : Prog ρ σ α} (h : c → J α m m')
    (h' : ¬c → J α k k') : J α (if c then m else k) (if c then m' else k') := by
  split
  · exact h ‹_›
  · exact h' ‹_›

theorem when (C : Closed J) {c : Prop} [Decidable c] {m m' : Prog ρ σ Unit}
    (h : c → J Unit m m') : J Unit (Prog.when c m) (Prog.when c m') :=
  ite h fun _ => C.pure ()

theorem orUndefined (C : Closed J) (o : Option α) :
    J α (Prog.orUndefined o) (Prog.orUndefined o) := by
  cases o with
  | none => exact C.undefined
  | some a => exact C.pure a

theorem foldlM (C : Closed J) {f f' : β → ε → Prog ρ σ β} {l : List ε}
    (h : ∀ b, ∀ e ∈ l, J β (f b e) (f' b e)) :
    ∀ b, J β (l.foldlM f b) (l.foldlM f' b) := by
  induction l with
  | nil => exact fun b => C.pure b
  | cons e l ih =>
      intro b
      rw [List.foldlM_cons, List.foldlM_cons]
      exact C.bind (h b e (List.mem_cons_self ..))
        fun b' => ih (fun b'' e' he' => h b'' e' (List.mem_cons_of_mem _ he')) b'

end Closed

theorem Respects.closed {R : σ → σ → Prop} {hr : ∀ s, R s s}
    {ht : ∀ a b c, R a b → R b c → R a c} :
    Closed (fun (α : Type) (m _ : Prog ρ σ α) => Respects (Flow.of R hr ht) m) where
  pure := Respects.pure
  bind := Respects.bind
  get := Respects.get
  ret := fun _ => Respects.ret hr
  undefined := Respects.halt _
  call := fun _ {_ _} h => Respects.call fun s => h s

/-! ## The cell loop -/

section Cells

variable {body : β → Prog ρ (σ × ε) β} {Q : α → σ × List (Option ε) → Prop}
  {R : ρ → σ × List (Option ε) → Prop} {s : σ} {cells : List (Option ε)}

theorem wp_head_some {m : Prog ρ (σ × ε) α} {e : ε} :
    (head m).wp Q R (s, some e :: cells) ↔
      m.wp (fun a p => Q a (p.1, some p.2 :: cells))
        (fun r p => R r (p.1, some p.2 :: cells)) (s, e) := by
  simp only [head, wp]
  cases m (s, e) <;> rfl

theorem wp_tail_cons {m : Prog ρ (σ × List (Option ε)) α} {c : Option ε} :
    (tail m).wp Q R (s, c :: cells) ↔
      m.wp (fun a p => Q a (p.1, c :: p.2)) (fun r p => R r (p.1, c :: p.2)) (s, cells) := by
  simp only [tail, wp]
  cases m (s, cells) <;> rfl

/-- Every early return is with a value in `P`. -/
def ReturnsIn (P : ρ → Prop) (m : Prog ρ σ α) : Prop :=
  ∀ s, m.wp (fun _ _ => True) (fun r _ => P r) s

namespace ReturnsIn

variable {P : ρ → Prop}

theorem pure (a : α) : ReturnsIn P (Pure.pure a : Prog ρ σ α) := fun _ => trivial

theorem get : ReturnsIn P (Prog.get : Prog ρ σ σ) := fun _ => trivial

theorem halt (h : Halt) : ReturnsIn P (Prog.halt h : Prog ρ σ α) := fun _ => trivial

theorem bind {m : Prog ρ σ β} {f : β → Prog ρ σ α} (hm : ReturnsIn P m)
    (hf : ∀ b, ReturnsIn P (f b)) : ReturnsIn P (m >>= f) := by
  intro s
  rw [wp_bind]
  exact wp_mono (hm s) (fun b s' _ => hf b s') fun _ _ h => h

theorem when {c : Prop} [Decidable c] {m : Prog ρ σ Unit} (h : c → ReturnsIn P m) :
    ReturnsIn P (Prog.when c m) := by
  intro s
  rw [wp_when]
  exact ⟨fun hc => h hc s, fun _ => trivial⟩

theorem call {ρ' : Type} {zero : ρ'} {m : Prog ρ' σ Unit} :
    ReturnsIn P (Prog.call zero m : Prog ρ σ ρ') := by
  intro s
  rw [wp_call]
  exact wp_trivial m

theorem onFst {m : Prog ρ σ α} (h : ReturnsIn P m) :
    ReturnsIn P (Prog.onFst m : Prog ρ (σ × τ) α) := by
  intro p
  rw [wp_zoom]
  exact h p.1

theorem forCells (h : ∀ b, ReturnsIn P (body b)) :
    ∀ (n : ℕ) (b : β), ReturnsIn P (Prog.forCells body n b) := by
  intro n
  induction n with
  | zero => exact fun b => pure b
  | succ n ih =>
      intro b
      refine bind ?_ fun b' => ?_
      · rintro ⟨s, _ | ⟨_ | e, cells⟩⟩
        · trivial
        · trivial
        · rw [wp_head_some]
          exact h b (s, e)
      · rintro ⟨s, _ | ⟨c, cells⟩⟩
        · trivial
        · rw [wp_tail_cons]
          exact ih b' (s, cells)

end ReturnsIn

/-- A loop respects a flow on the outer state when its body does. -/
theorem Respects.forCells_fst {F : Flow σ} (h : ∀ b, Respects F.fst (body b)) :
    ∀ (n : Nat) (b : β), Respects (F.fst : Flow (σ × List (Option ε))) (forCells body n b) := by
  intro n
  induction n with
  | zero => exact fun b => Respects.pure b
  | succ n ih =>
      intro b
      refine Respects.bind ?_ fun b' => ?_
      · rintro ⟨s, _ | ⟨_ | e, cells⟩⟩
        · trivial
        · trivial
        · rw [wp_head_some]
          exact h b (s, e)
      · rintro ⟨s, _ | ⟨c, cells⟩⟩
        · trivial
        · rw [wp_tail_cons]
          exact ih b' (s, cells)

/-- What a body keeps of the outer state and of its cell, the loop keeps of the
outer state and of every cell. -/
theorem Respects.forCells_inv {I : σ → Prop} {P : ε → Prop}
    (h : ∀ b, Respects (Flow.inv fun p : σ × ε => I p.1 ∧ P p.2) (body b)) :
    ∀ (n : ℕ) (b : β), Respects (Flow.inv fun p : σ × List (Option ε) =>
      I p.1 ∧ ∀ e, some e ∈ p.2 → P e) (forCells body n b) := by
  intro n
  induction n with
  | zero => exact fun b => Respects.pure b
  | succ n ih =>
      rintro b ⟨s, _ | ⟨_ | e, cells⟩⟩
      · trivial
      · trivial
      have hcons : ∀ {e' : ε} {cells' : List (Option ε)}, P e' →
          (∀ e, some e ∈ cells' → P e) → ∀ e, some e ∈ some e' :: cells' → P e := by
        intro e' cells' he' hcells' e he
        rcases List.mem_cons.mp he with heq | hmem
        · exact Option.some.inj heq ▸ he'
        · exact hcells' e hmem
      rw [forCells, wp_bind, wp_head_some]
      refine wp_mono (h b (s, e)) (fun b' p hp => ?_) fun r p hp hs => ?_
      · rw [wp_tail_cons]
        refine wp_mono (ih b' (p.1, cells)) (fun b'' q hq hs => ?_) fun r q hq hs => ?_
        · have hp' := hp ⟨hs.1, hs.2 e (List.mem_cons_self ..)⟩
          have hq' := hq ⟨hp'.1, fun e' he' => hs.2 e' (List.mem_cons_of_mem _ he')⟩
          exact ⟨hq'.1, hcons hp'.2 hq'.2⟩
        · have hp' := hp ⟨hs.1, hs.2 e (List.mem_cons_self ..)⟩
          have hq' := hq ⟨hp'.1, fun e' he' => hs.2 e' (List.mem_cons_of_mem _ he')⟩
          exact ⟨hq'.1, hcons hp'.2 hq'.2⟩
      · have hp' := hp ⟨hs.1, hs.2 e (List.mem_cons_self ..)⟩
        exact ⟨hp'.1, hcons hp'.2 fun e' he' => hs.2 e' (List.mem_cons_of_mem _ he')⟩

/-- The cells before and after a completed loop over the first `n` of them. -/
inductive CellsDone (S : ε → ε → Prop) : ℕ → List (Option ε) → List (Option ε) → Prop
  | nil (cells : List (Option ε)) : CellsDone S 0 cells cells
  | cons {n : ℕ} {e e' : ε} {cells cells' : List (Option ε)} :
      S e e' → CellsDone S n cells cells' →
      CellsDone S (n + 1) (some e :: cells) (some e' :: cells')

/-- The cells before and after a loop that was left early: some completed
steps, the step that returned, and the rest untouched. -/
inductive CellsExit (S T : ε → ε → Prop) : ℕ → List (Option ε) → List (Option ε) → Prop
  | here {n : ℕ} {e e' : ε} {cells : List (Option ε)} :
      T e e' → CellsExit S T (n + 1) (some e :: cells) (some e' :: cells)
  | there {n : ℕ} {e e' : ε} {cells cells' : List (Option ε)} :
      S e e' → CellsExit S T n cells cells' →
      CellsExit S T (n + 1) (some e :: cells) (some e' :: cells')

/-- What a loop over cells folds up, if its body does -/
theorem forCells_fold {f : β → ε → β}
    (h : ∀ b s e, (body b).wp (fun b' _ => b' = f b e) (fun _ _ => True) (s, e)) :
    ∀ (n : ℕ) (b : β) (s : σ) (cells : List (Option ε)),
      (forCells body n b).wp (fun b' _ => b' = ((cells.take n).filterMap id).foldl f b)
        (fun _ _ => True) (s, cells) := by
  intro n
  induction n with
  | zero => exact fun b s cells => rfl
  | succ n ih =>
      rintro b s (_ | ⟨_ | e, cells⟩)
      · trivial
      · trivial
      rw [forCells, wp_bind, wp_head_some]
      refine wp_mono (h b s e) (fun b' p hb' => ?_) fun _ _ _ => trivial
      rw [wp_tail_cons, hb']
      exact ih _ _ _

/-- An invariant over the cells already visited, for what the loop carries and the outer state,
and what each body does to its cell -/
theorem forCells_steps {I : List ε → β → σ → Prop} {P : ε → Prop} {S : ε → ε → Prop}
    (h : ∀ b seen s e, P e → I seen b s →
      (body b).wp (fun b' p => I (seen ++ [e]) b' p.1 ∧ S e p.2) (fun _ _ => True) (s, e)) :
    ∀ (n : ℕ) (b : β) (seen : List ε) (s : σ) (cells : List (Option ε)),
      (∀ e, some e ∈ cells → P e) → I seen b s →
      (forCells body n b).wp
        (fun b' p => I (seen ++ (cells.take n).filterMap id) b' p.1 ∧ CellsDone S n cells p.2)
        (fun _ _ => True) (s, cells) := by
  intro n
  induction n with
  | zero =>
      intro b seen s cells _ hI
      rw [List.take_zero, List.filterMap_nil, List.append_nil]
      exact ⟨hI, CellsDone.nil cells⟩
  | succ n ih =>
      rintro b seen s (_ | ⟨_ | e, cells⟩) hP hI
      · trivial
      · trivial
      rw [forCells, wp_bind, wp_head_some]
      refine wp_mono (h b seen s e (hP e List.mem_cons_self) hI) (fun b' p hp => ?_)
        fun _ _ _ => trivial
      rw [wp_tail_cons]
      refine wp_mono (ih b' (seen ++ [e]) p.1 cells
        (fun e' he' => hP e' (List.mem_cons_of_mem _ he')) hp.1) (fun _ q hq => ?_)
        fun _ _ _ => trivial
      rw [List.append_assoc] at hq
      exact ⟨hq.1, CellsDone.cons hp.2 hq.2⟩

/-- An invariant over the cells already visited, for the outer state -/
theorem wp_forCells {I : List ε → σ → Prop} {P : ε → Prop}
    (h : ∀ b seen s e, P e → I seen s →
      (body b).wp (fun _ p => I (seen ++ [e]) p.1) (fun _ _ => True) (s, e)) (n : ℕ) (b : β)
    (seen : List ε) (s : σ) (cells : List (Option ε)) (hP : ∀ e, some e ∈ cells → P e)
    (hI : I seen s) :
    (forCells body n b).wp (fun _ p => I (seen ++ (cells.take n).filterMap id) p.1)
      (fun _ _ => True) (s, cells) := by
  have hstep : ∀ b seen s e, P e → I seen s →
      (body b).wp (fun _ p => I (seen ++ [e]) p.1 ∧ True) (fun _ _ => True) (s, e) :=
    fun b seen s e he hI' =>
      wp_mono (h b seen s e he hI') (fun _ _ hp => ⟨hp, trivial⟩) fun _ _ hr => hr
  have hsteps := forCells_steps (I := fun seen _ s => I seen s) (S := fun _ _ => True) hstep
    n b seen s cells hP hI
  exact wp_mono hsteps (fun _ _ hp => hp.1) fun _ _ hr => hr

/-- What each body does to its cell, the loop does to the cells. -/
theorem forCells_cells {S T : ε → ε → Prop}
    (h : ∀ b s e, (body b).wp (fun _ p => S e p.2) (fun _ p => T e p.2) (s, e)) :
    ∀ (n : ℕ) (b : β) (s : σ) (cells : List (Option ε)),
      (forCells body n b).wp (fun _ p => CellsDone S n cells p.2)
        (fun _ p => CellsExit S T n cells p.2) (s, cells) := by
  intro n
  induction n with
  | zero => exact fun b s cells => CellsDone.nil cells
  | succ n ih =>
      rintro b s (_ | ⟨_ | e, cells⟩)
      · trivial
      · trivial
      rw [forCells, wp_bind, wp_head_some]
      refine wp_mono (h b s e) (fun b' p hS => ?_) (fun r p hT => CellsExit.here hT)
      rw [wp_tail_cons]
      exact wp_mono (ih b' p.1 cells) (fun _ _ hd => CellsDone.cons hS hd)
        (fun _ _ he => CellsExit.there hS he)

/-- A loop over cells with a property that its body asks for: the outer state follows a flow, and
the cells change as the body says. -/
theorem forCells_typed {F : Flow σ} {I : ε → Prop} {S : ε → ε → Prop}
    (h : ∀ b s e, I e →
      (body b).wp (fun _ p => F.done s p.1 ∧ S e p.2) (fun _ p => F.exit s p.1) (s, e)) :
    ∀ (n : ℕ) (b : β) (s : σ) (cells : List (Option ε)), (∀ e, some e ∈ cells → I e) →
      (forCells body n b).wp (fun _ p => F.done s p.1 ∧ CellsDone S n cells p.2)
        (fun _ p => F.exit s p.1) (s, cells) := by
  intro n
  induction n with
  | zero => exact fun b s cells _ => ⟨F.refl s, CellsDone.nil cells⟩
  | succ n ih =>
      rintro b s (_ | ⟨_ | e, cells⟩) hI
      · trivial
      · trivial
      rw [forCells, wp_bind, wp_head_some]
      refine wp_mono (h b s e (hI e List.mem_cons_self)) (fun b' p hp => ?_) fun _ _ hexit => hexit
      rw [wp_tail_cons]
      exact wp_mono (ih b' p.1 cells fun e' he' => hI e' (List.mem_cons_of_mem _ he'))
        (fun _ _ hq => ⟨F.trans hp.1 hq.1, CellsDone.cons hp.2 hq.2⟩)
        fun _ _ hexit => F.absorb hp.1 hexit

theorem CellsDone.get_lt {S : ε → ε → Prop} {n : ℕ} {cells cells' : List (Option ε)}
    (h : CellsDone S n cells cells') {i : ℕ} (hi : i < n) :
    ∃ e e', cells[i]? = some (some e) ∧ cells'[i]? = some (some e') ∧ S e e' := by
  induction h generalizing i with
  | nil => omega
  | @cons n e e' cells cells' hS _ ih =>
      cases i with
      | zero => exact ⟨e, e', rfl, rfl, hS⟩
      | succ i => simpa using ih (by omega)

theorem CellsDone.get_ge {S : ε → ε → Prop} {n : ℕ} {cells cells' : List (Option ε)}
    (h : CellsDone S n cells cells') {i : ℕ} (hi : n ≤ i) : cells'[i]? = cells[i]? := by
  induction h generalizing i with
  | nil => rfl
  | @cons n e e' cells cells' _ _ ih =>
      cases i with
      | zero => omega
      | succ i => simpa using ih (by omega)

/-- What every cell has, and `S` keeps, every cell has afterwards. -/
theorem CellsDone.forall {S : ε → ε → Prop} {P : ε → Prop} {n : ℕ} {cells cells' : List (Option ε)}
    (h : CellsDone S n cells cells') (hS : ∀ e e', S e e' → P e → P e')
    (hP : ∀ e, some e ∈ cells → P e) : ∀ e, some e ∈ cells' → P e := by
  induction h with
  | nil => exact hP
  | @cons n e e' cells cells' hstep _ ih =>
      intro e₁ he₁
      rcases List.mem_cons.mp he₁ with heq | hmem
      · rw [Option.some.inj heq]
        exact hS e e' hstep (hP e List.mem_cons_self)
      · exact ih (fun e₂ he₂ => hP e₂ (List.mem_cons_of_mem _ he₂)) e₁ hmem

theorem CellsExit.elim {S T : ε → ε → Prop} {n : ℕ} {cells cells' : List (Option ε)}
    (h : CellsExit S T n cells cells') (hT : ∀ e e', ¬T e e') : False := by
  induction h with
  | here hT' => exact hT _ _ hT'
  | there _ _ ih => exact ih

/-- The cells before and after, one by one: the same ones exist and are
initialised, and those that are stand in `R`. -/
def CellsRel (R : ε → ε → Prop) (cells cells' : List (Option ε)) : Prop :=
  ∀ i : ℕ, Option.Rel (Option.Rel R) cells[i]? cells'[i]?

theorem rel_refl {R : ε → ε → Prop} (hr : ∀ e, R e e) : ∀ o : Option ε, Option.Rel R o o
  | none => Option.Rel.none
  | some e => Option.Rel.some (hr e)

theorem rel_trans {R : ε → ε → Prop} (ht : ∀ a b c, R a b → R b c → R a c) :
    ∀ o p q : Option ε, Option.Rel R o p → Option.Rel R p q → Option.Rel R o q
  | _, _, _, Option.Rel.none, Option.Rel.none => Option.Rel.none
  | _, _, _, Option.Rel.some h, Option.Rel.some h' => Option.Rel.some (ht _ _ _ h h')

theorem CellsRel.refl {R : ε → ε → Prop} (hr : ∀ e, R e e) (cells : List (Option ε)) :
    CellsRel R cells cells :=
  fun _ => rel_refl (rel_refl hr) _

theorem CellsRel.trans {R : ε → ε → Prop} (ht : ∀ a b c, R a b → R b c → R a c)
    (a b c : List (Option ε)) (h : CellsRel R a b) (h' : CellsRel R b c) : CellsRel R a c :=
  fun i => rel_trans (rel_trans ht) _ _ _ (h i) (h' i)

theorem rel_mono {R R' : ε → ε → Prop} (hR : ∀ e e', R e e' → R' e e') :
    ∀ o p : Option ε, Option.Rel R o p → Option.Rel R' o p
  | _, _, Option.Rel.none => Option.Rel.none
  | _, _, Option.Rel.some h => Option.Rel.some (hR _ _ h)

theorem CellsRel.mono {R R' : ε → ε → Prop} (hR : ∀ e e', R e e' → R' e e')
    {cells cells' : List (Option ε)} (h : CellsRel R cells cells') : CellsRel R' cells cells' :=
  fun i => rel_mono (rel_mono hR) _ _ (h i)

theorem CellsRel.cons {R : ε → ε → Prop} {o o' : Option ε} {cells cells' : List (Option ε)}
    (h : Option.Rel R o o') (hc : CellsRel R cells cells') :
    CellsRel R (o :: cells) (o' :: cells')
  | 0 => Option.Rel.some h
  | i + 1 => hc i

theorem CellsRel.of_done {R : ε → ε → Prop} (hr : ∀ e, R e e) {n : ℕ}
    {cells cells' : List (Option ε)} (h : CellsDone R n cells cells') :
    CellsRel R cells cells' := by
  induction h with
  | nil cells => exact CellsRel.refl hr cells
  | cons hS _ ih => exact CellsRel.cons (Option.Rel.some hS) ih

theorem CellsRel.of_exit {R : ε → ε → Prop} (hr : ∀ e, R e e) {n : ℕ}
    {cells cells' : List (Option ε)} (h : CellsExit R R n cells cells') :
    CellsRel R cells cells' := by
  induction h with
  | here hT => exact CellsRel.cons (Option.Rel.some hT) (CellsRel.refl hr _)
  | there hS _ ih => exact CellsRel.cons (Option.Rel.some hS) ih

/-- An initialised cell afterwards was one before. -/
theorem CellsRel.get {R : ε → ε → Prop} {cells cells' : List (Option ε)}
    (h : CellsRel R cells cells') {i : ℕ} {e' : ε} (he : cells'[i]? = some (some e')) :
    ∃ e, cells[i]? = some (some e) ∧ R e e' := by
  have hi := h i
  rw [he] at hi
  cases hc : cells[i]? with
  | none => rw [hc] at hi; cases hi
  | some o =>
      rw [hc] at hi
      cases hi with
      | some ho =>
          cases ho with
          | some hR => exact ⟨_, rfl, hR⟩

theorem CellsRel.get_left {R : ε → ε → Prop} {cells cells' : List (Option ε)}
    (h : CellsRel R cells cells') {i : ℕ} {e : ε} (he : cells[i]? = some (some e)) :
    ∃ e', cells'[i]? = some (some e') ∧ R e e' := by
  have hi := h i
  rw [he] at hi
  cases hc : cells'[i]? with
  | none => rw [hc] at hi; cases hi
  | some o =>
      rw [hc] at hi
      cases hi with
      | some ho =>
          cases ho with
          | some hR => exact ⟨_, rfl, hR⟩

theorem Respects.forCells_snd {R : ε → ε → Prop} (hr : ∀ e, R e e)
    (ht : ∀ a b c, R a b → R b c → R a c)
    (h : ∀ b, Respects (Flow.of R hr ht).snd (body b)) (n : ℕ) (b : β) :
    Respects ((Flow.of (CellsRel R) (CellsRel.refl hr) (CellsRel.trans ht)).snd :
      Flow (σ × List (Option ε))) (forCells body n b) := by
  rintro ⟨s, cells⟩
  refine wp_mono (forCells_cells (fun b s e => h b (s, e)) n b s cells) ?_ ?_
  · exact fun _ _ hd => CellsRel.of_done hr hd
  · exact fun _ _ he => CellsRel.of_exit hr he

/-- The state in which a loop reaches its `i`-th cell, if it gets there. -/
def reaches (body : β → Prog ρ (σ × ε) β) :
    ℕ → β → σ × List (Option ε) → Option (β × σ × ε)
  | 0, b, (s, some e :: _) => some (b, s, e)
  | i + 1, b, (s, some e :: cells) =>
      match body b (s, e) with
      | .done b' p => reaches body i b' (p.1, cells)
      | _ => none
  | _, _, _ => none

/-- A completed loop has run its body on every cell it visits, each in the
state in which it was reached. -/
theorem forCells_reaches {n i : ℕ} (hi : i < n) {b b' : β} {s s' : σ}
    {cells cells' : List (Option ε)}
    (h : forCells body n b (s, cells) = .done b' (s', cells')) :
    ∃ bi si e bi' si' e', reaches body i b (s, cells) = some (bi, si, e) ∧
      cells[i]? = some (some e) ∧ body bi (si, e) = .done bi' (si', e') ∧
      cells'[i]? = some (some e') := by
  induction n generalizing i b s cells cells' with
  | zero => omega
  | succ n ih =>
      rcases cells with _ | ⟨_ | e, cells⟩
      · simp [forCells, Bind.bind, head] at h
      · simp [forCells, Bind.bind, head] at h
      cases hb : body b (s, e) with
      | halt k => simp [forCells, Bind.bind, head, hb, Outcome.onState] at h
      | ret r p => simp [forCells, Bind.bind, head, hb, Outcome.onState] at h
      | done b1 p =>
          simp only [forCells, Bind.bind, head, hb, Outcome.onState, tail] at h
          cases hrest : forCells body n b1 (p.1, cells) with
          | halt k => simp [hrest] at h
          | ret r q => simp [hrest] at h
          | done b2 q =>
              simp only [hrest, Outcome.done.injEq, Prod.mk.injEq] at h
              obtain ⟨rfl, rfl, rfl⟩ := h
              cases i with
              | zero => exact ⟨b, s, e, b1, p.1, p.2, rfl, rfl, hb, rfl⟩
              | succ i =>
                  obtain ⟨bi, si, ei, bi', si', ei', hr, hc, hbody, hc'⟩ :=
                    ih (Nat.lt_of_succ_lt_succ hi) hrest
                  exact ⟨bi, si, ei, bi', si', ei', by simp [reaches, hb, hr], by simpa using hc,
                    hbody, by simpa using hc'⟩

/-- A loop reaches a cell as it is before the loop. -/
theorem reaches_cell {i : ℕ} {b bi : β} {s si : σ} {cells : List (Option ε)} {e : ε}
    (h : reaches body i b (s, cells) = some (bi, si, e)) : cells[i]? = some (some e) := by
  induction i generalizing b s cells with
  | zero =>
      rcases cells with _ | ⟨_ | e', cells⟩
      · simp [reaches] at h
      · simp [reaches] at h
      · simp only [reaches, Option.some.injEq, Prod.mk.injEq] at h
        simp [h.2.2]
  | succ i ih =>
      rcases cells with _ | ⟨_ | e', cells⟩
      · simp [reaches] at h
      · simp [reaches] at h
      cases hb : body b (s, e') with
      | done b' p =>
          simp only [reaches, hb] at h
          simpa using ih h
      | ret r p => simp [reaches, hb] at h
      | halt k => simp [reaches, hb] at h

/-- What every round does to the outer state, the rounds before a cell have done when it is
reached. -/
theorem reaches_flow {F : Flow σ} (hbody : ∀ b, Respects F.fst (body b)) {i : ℕ} {b bi : β}
    {s si : σ} {cells : List (Option ε)} {e : ε}
    (h : reaches body i b (s, cells) = some (bi, si, e)) : F.done s si := by
  induction i generalizing b s cells with
  | zero =>
      rcases cells with _ | ⟨_ | e', cells⟩
      · simp [reaches] at h
      · simp [reaches] at h
      · simp only [reaches, Option.some.injEq, Prod.mk.injEq] at h
        exact h.2.1 ▸ F.refl s
  | succ i ih =>
      rcases cells with _ | ⟨_ | e', cells⟩
      · simp [reaches] at h
      · simp [reaches] at h
      cases hb : body b (s, e') with
      | done b' p =>
          simp only [reaches, hb] at h
          have hround : F.done s p.1 := wp_done (Q := fun _ q => F.done s q.1) (hbody b (s, e')) hb
          exact F.trans hround (ih h)
      | ret r p => simp [reaches, hb] at h
      | halt k => simp [reaches, hb] at h

/-- A round that completes leaves its cell, however the loop ends. -/
theorem forCells_left {n i : ℕ} (hi : i < n) {b bi bi' : β} {s si si' : σ}
    {cells : List (Option ε)} {e e' : ε}
    (hreach : reaches body i b (s, cells) = some (bi, si, e))
    (hbody : body bi (si, e) = .done bi' (si', e')) :
    (forCells body n b).wp (fun _ p => p.2[i]? = some (some e'))
      (fun _ p => p.2[i]? = some (some e')) (s, cells) := by
  induction i generalizing n b s cells with
  | zero =>
      obtain ⟨n, rfl⟩ := Nat.exists_eq_succ_of_ne_zero (Nat.ne_of_gt hi)
      rcases cells with _ | ⟨_ | e₀, cells⟩
      · simp [reaches] at hreach
      · simp [reaches] at hreach
      simp only [reaches, Option.some.injEq, Prod.mk.injEq] at hreach
      obtain ⟨rfl, rfl, rfl⟩ := hreach
      rw [forCells, wp_bind, wp_head_some]
      unfold wp
      rw [hbody]
      show (tail (forCells body n bi')).wp _ _ (si', some e' :: cells)
      rw [wp_tail_cons]
      exact wp_mono (wp_trivial _) (fun _ _ _ => rfl) fun _ _ _ => rfl
  | succ i ih =>
      obtain ⟨n, rfl⟩ := Nat.exists_eq_succ_of_ne_zero (Nat.ne_of_gt (Nat.zero_lt_of_lt hi))
      rcases cells with _ | ⟨_ | e₀, cells⟩
      · simp [reaches] at hreach
      · simp [reaches] at hreach
      rw [forCells, wp_bind, wp_head_some]
      unfold wp
      cases hb : body b (s, e₀) with
      | ret r p => simp [reaches, hb] at hreach
      | halt k => simp [reaches, hb] at hreach
      | done b' p =>
          simp only [reaches, hb] at hreach
          show (tail (forCells body n b')).wp _ _ (p.1, some p.2 :: cells)
          rw [wp_tail_cons]
          exact ih (Nat.lt_of_succ_lt_succ hi) hreach

end Cells

/-! ## Following

`Follows m m'`: wherever `m` does not halt, `m'` does the same. A routine that
checks what it relies on, and halts, is followed by the one that does not. -/

def Follows (m m' : Prog ρ σ α) : Prop := ∀ s, m' s = m s ∨ ∃ k, m s = .halt k

namespace Follows

theorem refl (m : Prog ρ σ α) : Follows m m := fun _ => Or.inl rfl

theorem bind {m m' : Prog ρ σ β} {f f' : β → Prog ρ σ α} (hm : Follows m m')
    (hf : ∀ b, Follows (f b) (f' b)) : Follows (m >>= f) (m' >>= f') := by
  intro s
  rcases hm s with heq | ⟨k, hk⟩
  · simp only [Bind.bind, heq]
    cases m s with
    | done b s' => exact hf b s'
    | ret r s' => exact Or.inl rfl
    | halt k => exact Or.inl rfl
  · exact Or.inr ⟨k, bind_of_halt hk⟩

theorem call {zero : ρ} {m m' : Prog ρ σ Unit} (h : Follows m m') :
    Follows (Prog.call zero m : Prog ρ σ ρ) (Prog.call zero m') := by
  intro s
  rcases h s with heq | ⟨k, hk⟩
  · exact Or.inl (by simp only [Prog.call, heq])
  · exact Or.inr ⟨k, call_of_halt hk⟩

theorem zoom {view : σ → τ} {put : τ → σ → σ} {m m' : Prog ρ τ α} (h : Follows m m') :
    Follows (Prog.zoom view put m) (Prog.zoom view put m') := by
  intro s
  rcases h (view s) with heq | ⟨k, hk⟩
  · exact Or.inl (by simp only [Prog.zoom, heq])
  · exact Or.inr ⟨k, zoom_of_halt hk⟩

theorem closed : Closed (fun (α : Type) (m m' : Prog ρ σ α) => Follows m m') where
  pure _ := refl _
  bind := bind
  get := refl _
  ret _ := refl _
  undefined := refl _
  call _ := call

theorem forCells {body body' : β → Prog ρ (σ × ε) β} (h : ∀ b, Follows (body b) (body' b)) :
    ∀ (n : ℕ) (b : β), Follows (Prog.forCells body n b) (Prog.forCells body' n b) := by
  intro n
  induction n with
  | zero => exact fun b => refl _
  | succ n ih =>
      refine fun b => bind ?_ fun b' => ?_
      · rintro ⟨s, _ | ⟨_ | e, cells⟩⟩
        · exact Or.inl rfl
        · exact Or.inl rfl
        · rcases h b (s, e) with heq | ⟨k, hk⟩
          · exact Or.inl (by simp only [head, heq])
          · exact Or.inr ⟨k, by simp only [head, hk, Outcome.onState]⟩
      · rintro ⟨s, _ | ⟨c, cells⟩⟩
        · exact Or.inl rfl
        · rcases ih b' (s, cells) with heq | ⟨k, hk⟩
          · exact Or.inl (by simp only [tail, heq])
          · exact Or.inr ⟨k, by simp only [tail, hk, Outcome.onState]⟩

/-- A loop that only checks is followed by nothing at all. -/
theorem forCells_check {body : Unit → Prog ρ (σ × ε) Unit}
    (h : Follows (body ()) (Pure.pure ())) :
    ∀ n : ℕ, Follows (Prog.forCells body n ()) (Pure.pure ()) := by
  intro n
  induction n with
  | zero => exact refl _
  | succ n ih =>
      have hhead : Follows (head (body ())) (Pure.pure ()) := by
        rintro ⟨s, _ | ⟨_ | e, cells⟩⟩
        · exact Or.inr ⟨_, rfl⟩
        · exact Or.inr ⟨_, rfl⟩
        · rcases h (s, e) with heq | ⟨k, hk⟩
          · exact Or.inl (by simp only [head, ← heq]; rfl)
          · exact Or.inr ⟨k, by simp only [head, hk, Outcome.onState]⟩
      have htail : Follows (tail (Prog.forCells body n ())) (Pure.pure ()) := by
        rintro ⟨s, _ | ⟨c, cells⟩⟩
        · exact Or.inr ⟨_, rfl⟩
        · rcases ih (s, cells) with heq | ⟨k, hk⟩
          · exact Or.inl (by simp only [tail, ← heq]; rfl)
          · exact Or.inr ⟨k, by simp only [tail, hk, Outcome.onState]⟩
      exact bind hhead fun _ => htail

end Follows

end Prog
