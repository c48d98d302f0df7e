import Likwid.Lib.Prog

/-!
# Runs within bounds

A safety judgement for the programs of `Prog`: a run that starts in a state of
an invariant indexes no array beyond its bounds, and ends, if it ends, in a
state of the invariant again. A run may still halt for another reason.
-/

namespace Prog

variable {ρ σ τ ε α β : Type}

/-- The run from `s` stays within bounds and ends in `I`. -/
def WithinAt (I : σ → Prop) (m : Prog ρ σ α) (s : σ) : Prop :=
  match m s with
  | .done _ s' => I s'
  | .ret _ s' => I s'
  | .halt k => k ≠ .outOfBounds

def Within (I : σ → Prop) (m : Prog ρ σ α) : Prop := ∀ s, I s → m.WithinAt I s

variable {I : σ → Prop}

theorem WithinAt.ne_outOfBounds {m : Prog ρ σ α} {s : σ} (h : m.WithinAt I s) :
    m s ≠ .halt .outOfBounds := by
  intro heq
  unfold WithinAt at h
  rw [heq] at h
  exact h rfl

theorem WithinAt.bind {m : Prog ρ σ β} {f : β → Prog ρ σ α} {s : σ} (hm : m.WithinAt I s)
    (hf : ∀ b s', m s = .done b s' → I s' → (f b).WithinAt I s') : (m >>= f).WithinAt I s := by
  unfold WithinAt at hm ⊢
  simp only [Bind.bind]
  cases hrun : m s with
  | done b s' =>
      rw [hrun] at hm
      exact hf b s' hrun hm
  | ret r s' =>
      rw [hrun] at hm
      exact hm
  | halt k =>
      rw [hrun] at hm
      exact hm

theorem WithinAt.bind_done {m : Prog ρ σ β} {f : β → Prog ρ σ α} {s s' : σ} {b : β}
    (hm : m s = .done b s') (hf : (f b).WithinAt I s') : (m >>= f).WithinAt I s := by
  unfold WithinAt at hf ⊢
  rw [bind_of_done hm]
  exact hf

theorem WithinAt.bind_ret {m : Prog ρ σ β} {f : β → Prog ρ σ α} {s s' : σ} {r : ρ}
    (hm : m s = .ret r s') (hs' : I s') : (m >>= f).WithinAt I s := by
  unfold WithinAt
  rw [bind_of_ret hm]
  exact hs'

/-- A callee's early return is its value. -/
theorem WithinAt.call {ρ' : Type} {zero : ρ'} {m : Prog ρ' σ Unit} {s : σ} (h : m.WithinAt I s) :
    (Prog.call zero m : Prog ρ σ ρ').WithinAt I s := by
  unfold WithinAt at h ⊢
  cases hrun : m s with
  | done b s' =>
      rw [hrun] at h
      rw [call_of_done hrun]
      exact h
  | ret r s' =>
      rw [hrun] at h
      rw [call_of_ret hrun]
      exact h
  | halt k =>
      rw [hrun] at h
      rw [call_of_halt hrun]
      exact h

namespace Within

theorem pure (a : α) : Within I (Pure.pure a : Prog ρ σ α) := fun _ hs => hs

theorem get : Within I (Prog.get : Prog ρ σ σ) := fun _ hs => hs

theorem ret (r : ρ) : Within I (Prog.ret r : Prog ρ σ α) := fun _ hs => hs

theorem halt {k : Halt} (h : k ≠ .outOfBounds) : Within I (Prog.halt k : Prog ρ σ α) :=
  fun _ _ => h

theorem modify {f : σ → σ} (h : ∀ s, I s → I (f s)) :
    Within I (Prog.modify f : Prog ρ σ Unit) := h

theorem bind {m : Prog ρ σ β} {f : β → Prog ρ σ α} (hm : Within I m)
    (hf : ∀ b, Within I (f b)) : Within I (m >>= f) :=
  fun s hs => (hm s hs).bind fun b s' _ hs' => hf b s' hs'

theorem bind_of {m : Prog ρ σ β} {f : β → Prog ρ σ α} {P : β → Prop} (hm : Within I m)
    (hP : ∀ s b s', m s = .done b s' → P b) (hf : ∀ b, P b → Within I (f b)) :
    Within I (m >>= f) :=
  fun s hs => (hm s hs).bind fun b s' hrun hs' => hf b (hP s b s' hrun) s' hs'

theorem ite {c : Prop} [Decidable c] {m m' : Prog ρ σ α} (h : c → Within I m)
    (h' : ¬c → Within I m') : Within I (if c then m else m') := by
  split
  · exact h ‹_›
  · exact h' ‹_›

theorem when {c : Prop} [Decidable c] {m : Prog ρ σ Unit} (h : c → Within I m) :
    Within I (Prog.when c m) :=
  ite h fun _ => pure ()

theorem orUndefined (o : Option α) : Within I (Prog.orUndefined o : Prog ρ σ α) := by
  cases o with
  | none => exact halt (by decide)
  | some a => exact pure a

theorem foldlM {f : β → ε → Prog ρ σ β} {l : List ε} (h : ∀ b, ∀ e ∈ l, Within I (f b e)) :
    ∀ b, Within I (l.foldlM f b) := by
  induction l with
  | nil => exact fun b => pure b
  | cons e l ih =>
      intro b
      rw [List.foldlM_cons]
      exact bind (h b e (List.mem_cons_self ..))
        (ih fun b' e' he' => h b' e' (List.mem_cons_of_mem _ he'))

theorem call {ρ' : Type} {zero : ρ'} {m : Prog ρ' σ Unit} (h : Within I m) :
    Within I (Prog.call zero m : Prog ρ σ ρ') :=
  fun s hs => (h s hs).call

theorem zoom {view : σ → τ} {put : τ → σ → σ} {m : Prog ρ τ α} {J : τ → Prop} (hm : Within J m)
    (hview : ∀ s, I s → J (view s)) (hput : ∀ s t, I s → J t → I (put t s)) :
    Within I (Prog.zoom view put m : Prog ρ σ α) := by
  intro s hs
  have hrun := hm (view s) (hview s hs)
  unfold WithinAt at hrun ⊢
  unfold Prog.zoom
  cases hm : m (view s) with
  | done a t =>
      rw [hm] at hrun
      exact hput s t hs hrun
  | ret r t =>
      rw [hm] at hrun
      exact hput s t hs hrun
  | halt k =>
      rw [hm] at hrun
      exact hrun

/-- The judgement is closed under the constructs. -/
theorem closed : Closed (fun (α : Type) (m _ : Prog ρ σ α) => Within I m) where
  pure := pure
  bind := bind
  get := get
  ret := ret
  undefined := halt (by decide)
  call := fun _ {_ _} h => call h

theorem onFst {m : Prog ρ σ α} {J : τ → Prop} (h : Within (fun _ => True) m) :
    Within (fun p : σ × τ => J p.2) (Prog.onFst m) :=
  zoom h (fun _ _ => trivial) fun _ _ hp _ => hp

theorem onSnd_modify {f : τ → τ} :
    Within (fun _ => True) (Prog.onSnd (Prog.modify f) : Prog ρ (σ × τ) Unit) :=
  fun _ _ => trivial

end Within

/-- A loop whose rounds need more than the invariant, and leave it if they
complete. -/
theorem WithinAt.foldlM {f : Unit → ε → Prog ρ σ Unit} {J : σ → Prop} {l : List ε} {s : σ}
    (h : ∀ e ∈ l, ∀ s, I s → J s →
      (f () e).WithinAt I s ∧ ∀ b s', f () e s = .done b s' → J s')
    (hI : I s) (hJ : J s) : (l.foldlM f ()).WithinAt I s := by
  induction l generalizing s with
  | nil => exact hI
  | cons e l ih =>
      rw [List.foldlM_cons]
      obtain ⟨hround, hnext⟩ := h e (List.mem_cons_self ..) s hI hJ
      refine hround.bind fun b s' hrun hI' => ?_
      exact ih (fun e' he' => h e' (List.mem_cons_of_mem _ he')) hI' (hnext b s' hrun)

/-! ## The cell loop -/

/-- The first `n` cells exist and are initialised. -/
def Filled (n : ℕ) (cells : List (Option ε)) : Prop := ∀ i < n, ∃ e, cells[i]? = some (some e)

theorem Filled.of_cons {n : ℕ} {c : Option ε} {cells : List (Option ε)}
    (h : Filled (n + 1) (c :: cells)) : Filled n cells :=
  fun i hi => by simpa using h (i + 1) (by omega)

theorem Filled.cons {n : ℕ} {e : ε} {cells : List (Option ε)} (h : Filled n cells) :
    Filled (n + 1) (some e :: cells)
  | 0, _ => ⟨e, rfl⟩
  | i + 1, hi => by simpa using h i (by omega)

theorem Filled.rel {R : ε → ε → Prop} {n : ℕ} {cells cells' : List (Option ε)}
    (h : Filled n cells) (hrel : CellsRel R cells cells') : Filled n cells' := by
  intro i hi
  obtain ⟨e, he⟩ := h i hi
  obtain ⟨e', he', -⟩ := hrel.get_left he
  exact ⟨e', he'⟩

/-- A loop over cells that are there stays within bounds when its body does. -/
theorem Within.forCells {body : β → Prog ρ (σ × ε) β}
    (h : ∀ b, Within (fun _ => True) (body b)) :
    ∀ (n : ℕ) (b : β) (k : ℕ), n ≤ k → Within (fun p => Filled k p.2) (Prog.forCells body n b) := by
  intro n
  induction n with
  | zero => exact fun b k _ => pure b
  | succ n ih =>
      rintro b (_ | k) hk ⟨s, cells⟩ hfilled
      · omega
      obtain ⟨e, he⟩ := hfilled 0 (by omega)
      rcases cells with _ | ⟨c, cells⟩
      · cases he
      obtain rfl : c = some e := by simpa using he
      have hrest : Filled k cells := hfilled.of_cons
      unfold Prog.forCells
      refine WithinAt.bind ?_ fun b' p hrun hp => ?_
      · have hbody := h b (s, e) trivial
        unfold WithinAt at hbody ⊢
        simp only [head]
        cases hrun : body b (s, e) with
        | done b' p => exact hrest.cons
        | ret r p => exact hrest.cons
        | halt j =>
            rw [hrun] at hbody
            exact hbody
      · obtain ⟨s', cells'⟩ := p
        obtain ⟨e', he'⟩ := hp 0 (by omega)
        rcases cells' with _ | ⟨c', cells'⟩
        · cases he'
        obtain rfl : c' = some e' := by simpa using he'
        have hloop := ih b' k (by omega) (s', cells') hp.of_cons
        unfold WithinAt at hloop ⊢
        simp only [tail]
        cases hrun : Prog.forCells body n b' (s', cells') with
        | done b'' p =>
            rw [hrun] at hloop
            exact Filled.cons hloop
        | ret r p =>
            rw [hrun] at hloop
            exact Filled.cons hloop
        | halt j =>
            rw [hrun] at hloop
            exact hloop

end Prog
