import Likwid.Lib.Prog

/-!
# Runs that end

`Prog.twp` is the weakest precondition of the runs that do not halt: the run completes in `Q` or
returns early in `R`. It is computed like `Prog.wp`, and loops over lists and cells have an
invariant over what they have visited.
-/

namespace Prog

variable {ρ σ τ ε α β : Type}

/-- The run completes in `Q`, or returns early in `R`. -/
def twp (m : Prog ρ σ α) (Q : α → σ → Prop) (R : ρ → σ → Prop) (s : σ) : Prop :=
  match m s with
  | .done a s' => Q a s'
  | .ret r s' => R r s'
  | .halt _ => False

section Total

variable {Q : α → σ → Prop} {R : ρ → σ → Prop} {s : σ}

@[simp] theorem twp_pure (a : α) : (pure a : Prog ρ σ α).twp Q R s ↔ Q a s := Iff.rfl

@[simp] theorem twp_bind {m : Prog ρ σ β} {f : β → Prog ρ σ α} :
    (m >>= f).twp Q R s ↔ m.twp (fun b s' => (f b).twp Q R s') R s := by
  simp only [Bind.bind, twp]
  cases m s <;> rfl

@[simp] theorem twp_ret (r : ρ) : (ret r : Prog ρ σ α).twp Q R s ↔ R r s := Iff.rfl

@[simp] theorem twp_halt (k : Halt) : (halt k : Prog ρ σ α).twp Q R s ↔ False := Iff.rfl

@[simp] theorem twp_get {Q : σ → σ → Prop} : (get : Prog ρ σ σ).twp Q R s ↔ Q s s := Iff.rfl

@[simp] theorem twp_modify {Q : Unit → σ → Prop} (f : σ → σ) :
    (modify f : Prog ρ σ Unit).twp Q R s ↔ Q () (f s) := Iff.rfl

@[simp] theorem twp_when {Q : Unit → σ → Prop} {c : Prop} [Decidable c] {m : Prog ρ σ Unit} :
    (when c m).twp Q R s ↔ (c → m.twp Q R s) ∧ (¬c → Q () s) := by
  unfold when
  split <;> simp_all

@[simp] theorem twp_orUndefined {o : Option α} :
    (orUndefined o : Prog ρ σ α).twp Q R s ↔ ∃ a, o = some a ∧ Q a s := by
  cases o with
  | none => simp [orUndefined, twp, halt]
  | some a => simp [orUndefined]

@[simp] theorem twp_call {ρ' : Type} {zero : ρ'} {m : Prog ρ' σ Unit} {Q : ρ' → σ → Prop} :
    (call zero m : Prog ρ σ ρ').twp Q R s ↔ m.twp (fun _ s' => Q zero s') Q s := by
  simp only [call, twp]
  cases m s <;> rfl

@[simp] theorem twp_zoom {view : σ → τ} {put : τ → σ → σ} {m : Prog ρ τ α} :
    (zoom view put m).twp Q R s ↔
      m.twp (fun a t => Q a (put t s)) (fun r t => R r (put t s)) (view s) := by
  simp only [zoom, twp]
  cases m (view s) <;> rfl

theorem twp_mono {m : Prog ρ σ α} {Q' : α → σ → Prop} {R' : ρ → σ → Prop} (h : m.twp Q R s)
    (hQ : ∀ a s', Q a s' → Q' a s') (hR : ∀ r s', R r s' → R' r s') : m.twp Q' R' s := by
  unfold twp at *
  cases hm : m s with
  | done a s' => rw [hm] at h; exact hQ _ _ h
  | ret r s' => rw [hm] at h; exact hR _ _ h
  | halt k => rw [hm] at h; exact h

theorem twp_and {m : Prog ρ σ α} {Q' : α → σ → Prop} {R' : ρ → σ → Prop} (h : m.twp Q R s)
    (h' : m.wp Q' R' s) : m.twp (fun a t => Q a t ∧ Q' a t) (fun r t => R r t ∧ R' r t) s := by
  unfold twp wp at *
  cases hm : m s with
  | done a s' => rw [hm] at h h'; exact ⟨h, h'⟩
  | ret r s' => rw [hm] at h h'; exact ⟨h, h'⟩
  | halt k => rw [hm] at h; exact h

theorem twp_congr {m : Prog ρ σ α} {Q' : α → σ → Prop}
    (h : ∀ a s', m s = .done a s' → (Q a s' ↔ Q' a s')) : m.twp Q R s ↔ m.twp Q' R s := by
  unfold twp
  cases hm : m s with
  | done a s' => exact h a s' hm
  | ret r s' => exact Iff.rfl
  | halt k => exact Iff.rfl

/-- The run does not halt, and `wp` says the rest. -/
theorem twp_iff {m : Prog ρ σ α} :
    m.twp Q R s ↔ m.twp (fun _ _ => True) (fun _ _ => True) s ∧ m.wp Q R s := by
  unfold twp wp
  cases m s with
  | done a s' => simp
  | ret r s' => simp
  | halt k => simp

theorem twp_of_done {m : Prog ρ σ α} {a : α} {s' : σ} (hm : m s = .done a s') (hQ : Q a s') :
    m.twp Q R s := by
  unfold twp
  rw [hm]
  exact hQ

theorem exists_result_iff {m : Prog ρ σ α} {P : α → Prop} :
    (∃ a, m.result s = some a ∧ P a) ↔ m.twp (fun a _ => P a) (fun _ _ => False) s := by
  unfold result twp
  cases m s with
  | done a s' => simp
  | ret r s' => simp
  | halt k => simp

theorem exists_done {m : Prog ρ σ α} (h : m.twp Q (fun _ _ => False) s) :
    ∃ a s', m s = .done a s' ∧ Q a s' := by
  unfold twp at h
  cases hm : m s with
  | done a s' => rw [hm] at h; exact ⟨a, s', rfl, h⟩
  | ret r s' => rw [hm] at h; exact h.elim
  | halt k => rw [hm] at h; exact h.elim

end Total

/-! ## Loops over cells -/

theorem twp_head_some {m : Prog ρ (σ × ε) α} {e : ε} {cells : List (Option ε)}
    {Q : α → σ × List (Option ε) → Prop} {R : ρ → σ × List (Option ε) → Prop} {s : σ} :
    (head m).twp Q R (s, some e :: cells) ↔
      m.twp (fun a p => Q a (p.1, some p.2 :: cells)) (fun r p => R r (p.1, some p.2 :: cells))
        (s, e) := by
  simp only [head, twp]
  cases m (s, e) <;> rfl

theorem twp_tail_cons {m : Prog ρ (σ × List (Option ε)) α} {c : Option ε}
    {cells : List (Option ε)} {Q : α → σ × List (Option ε) → Prop}
    {R : ρ → σ × List (Option ε) → Prop} {s : σ} :
    (tail m).twp Q R (s, c :: cells) ↔
      m.twp (fun a p => Q a (p.1, c :: p.2)) (fun r p => R r (p.1, c :: p.2)) (s, cells) := by
  simp only [tail, twp]
  cases m (s, cells) <;> rfl

/-- A loop over initialised cells whose body never returns early: an invariant over the cells
already visited, and what each body does to its cell -/
theorem twp_forCells (body : β → Prog ρ (σ × ε) β) (I : List ε → β → σ → Prop)
    (S : ε → ε → Prop) (es : List ε)
    (h : ∀ seen e rest b s, es = seen ++ e :: rest → I seen b s →
      (body b).twp (fun b' p => I (seen ++ [e]) b' p.1 ∧ S e p.2) (fun _ _ => False) (s, e))
    {b : β} {s : σ} (cells : List (Option ε)) (h0 : I [] b s) :
    (forCells body es.length b).twp
      (fun b' p => I es b' p.1 ∧ CellsDone S es.length (es.map some ++ cells) p.2)
      (fun _ _ => False) (s, es.map some ++ cells) := by
  suffices hgen : ∀ rest seen b s, es = seen ++ rest → I seen b s →
      (forCells body rest.length b).twp
        (fun b' p => I es b' p.1 ∧ CellsDone S rest.length (rest.map some ++ cells) p.2)
        (fun _ _ => False) (s, rest.map some ++ cells) from hgen es [] b s rfl h0
  intro rest
  induction rest with
  | nil =>
      intro seen b s hes hs
      rw [List.append_nil] at hes
      exact ⟨hes ▸ hs, CellsDone.nil cells⟩
  | cons e rest ih =>
      intro seen b s hes hs
      show (forCells body (rest.length + 1) b).twp _ _ (s, some e :: (rest.map some ++ cells))
      rw [forCells, twp_bind, twp_head_some]
      refine twp_mono (h seen e rest b s hes hs) (fun b' p hp => ?_) fun _ _ hno => hno
      rw [twp_tail_cons]
      refine twp_mono (ih (seen ++ [e]) b' p.1 (by simp [hes]) hp.1) (fun b'' q hq => ?_)
        fun _ _ hno => hno
      exact ⟨hq.1, CellsDone.cons hp.2 hq.2⟩

end Prog
