import Likwid.Lib.Prog

/-!
# Programs that agree on good runs

The steps of a run may be good or not, as the environment has answered them.
`Agrees G m m'` says that every run of `m` makes steps of `G`, and that `m'`
ends as `m` does wherever they are all good. The judgement is closed under the
constructs of a program, so that two routines built in the same way agree as
soon as their steps do.
-/

namespace Prog

variable {ρ σ τ ε α β : Type}

/-- A preorder of steps, some of them good. Both parts of a good step are good. -/
structure Steps (σ : Type) where
  step : σ → σ → Prop
  good : σ → σ → Prop
  refl : ∀ s, step s s
  trans : ∀ {a b c}, step a b → step b c → step a c
  split : ∀ {a b c}, step a b → step b c → good a c → good a b ∧ good b c

/-- The steps of a part of the state. -/
def Steps.comap (view : σ → τ) (G : Steps τ) : Steps σ where
  step s t := G.step (view s) (view t)
  good s t := G.good (view s) (view t)
  refl _ := G.refl _
  trans := G.trans
  split := G.split

def Agrees (G : Steps σ) (m m' : Prog ρ σ α) : Prop :=
  ∀ s, m.wp (fun a t => G.step s t ∧ (G.good s t → m' s = .done a t))
    (fun r t => G.step s t ∧ (G.good s t → m' s = .ret r t)) s

namespace Agrees

variable {G : Steps σ}

theorem self {m : Prog ρ σ α}
    (h : ∀ s, m.wp (fun _ t => G.step s t) (fun _ t => G.step s t) s) : Agrees G m m :=
  fun s => wp_mono (wp_and (h s) (wp_outcome m)) (fun _ _ ha => ⟨ha.1, fun _ => ha.2⟩)
    fun _ _ hr => ⟨hr.1, fun _ => hr.2⟩

theorem bind {m m' : Prog ρ σ β} {f f' : β → Prog ρ σ α} (hm : Agrees G m m')
    (hf : ∀ b, Agrees G (f b) (f' b)) : Agrees G (m >>= f) (m' >>= f') := by
  intro s
  rw [wp_bind]
  refine wp_mono (hm s) ?_ ?_
  · rintro b t ⟨hst, hb⟩
    refine wp_mono (hf b t) ?_ ?_
    · rintro a u ⟨htu, ha⟩
      refine ⟨G.trans hst htu, fun hgood => ?_⟩
      obtain ⟨hfirst, hsecond⟩ := G.split hst htu hgood
      rw [bind_of_done (hb hfirst), ha hsecond]
    · rintro r u ⟨htu, hr⟩
      refine ⟨G.trans hst htu, fun hgood => ?_⟩
      obtain ⟨hfirst, hsecond⟩ := G.split hst htu hgood
      rw [bind_of_done (hb hfirst), hr hsecond]
  · rintro r t ⟨hst, hr⟩
    exact ⟨hst, fun hgood => bind_of_ret (hr hgood)⟩

theorem call (zero : ρ) {m m' : Prog ρ σ Unit} (h : Agrees G m m') :
    Agrees G (Prog.call zero m : Prog ρ σ ρ) (Prog.call zero m') := by
  intro s
  rw [wp_call]
  refine wp_mono (h s) ?_ ?_
  · rintro ⟨⟩ t ⟨hst, ha⟩
    exact ⟨hst, fun hgood => call_of_done (ha hgood)⟩
  · rintro r t ⟨hst, hr⟩
    exact ⟨hst, fun hgood => call_of_ret (hr hgood)⟩

theorem closed : Closed (fun (α : Type) (m m' : Prog ρ σ α) => Agrees G m m') where
  pure _ := self fun s => G.refl s
  bind := bind
  get := self fun s => G.refl s
  ret _ := self fun s => G.refl s
  undefined := fun _ => trivial
  call := call

theorem ite {c : Prop} [Decidable c] {m m' k k' : Prog ρ σ α} (h : c → Agrees G m m')
    (h' : ¬c → Agrees G k k') : Agrees G (if c then m else k) (if c then m' else k') :=
  Closed.ite (J := fun _ m m' => Agrees G m m') h h'

theorem orOutOfBounds (o : Option α) :
    Agrees G (Prog.orOutOfBounds o : Prog ρ σ α) (Prog.orOutOfBounds o) :=
  self fun s => by
    rw [wp_orOutOfBounds]
    exact fun _ _ => G.refl s

theorem modify {f : σ → σ} (h : ∀ s, G.step s (f s)) :
    Agrees G (Prog.modify f : Prog ρ σ Unit) (Prog.modify f) :=
  self h

theorem zoom {H : Steps τ} {view : σ → τ} {put : τ → σ → σ} {m m' : Prog ρ τ α}
    (hstep : ∀ s t, H.step (view s) t → G.step s (put t s))
    (hgood : ∀ s t, G.good s (put t s) → H.good (view s) t) (h : Agrees H m m') :
    Agrees G (Prog.zoom view put m) (Prog.zoom view put m') := by
  intro s
  rw [wp_zoom]
  refine wp_mono (h (view s)) ?_ ?_
  · rintro a t ⟨hst, ha⟩
    refine ⟨hstep s t hst, fun hg => ?_⟩
    simp only [Prog.zoom, ha (hgood s t hg), Outcome.onState]
  · rintro r t ⟨hst, hr⟩
    refine ⟨hstep s t hst, fun hg => ?_⟩
    simp only [Prog.zoom, hr (hgood s t hg), Outcome.onState]

theorem onFst {m m' : Prog ρ σ α} (h : Agrees G m m') :
    Agrees (G.comap Prod.fst) (Prog.onFst m : Prog ρ (σ × τ) α) (Prog.onFst m') :=
  zoom (fun _ _ hs => hs) (fun _ _ hg => hg) h

theorem onSnd (f : τ → τ) :
    Agrees (G.comap Prod.fst) (Prog.onSnd (Prog.modify f) : Prog ρ (σ × τ) Unit)
      (Prog.onSnd (Prog.modify f)) :=
  self fun s => G.refl s.1

/-! ## Loops over cells -/

theorem head {m m' : Prog ρ (σ × ε) α} (h : Agrees (G.comap Prod.fst) m m') :
    Agrees (G.comap Prod.fst) (Prog.head m) (Prog.head m') := by
  rintro ⟨s, _ | ⟨_ | e, cells⟩⟩
  · trivial
  · trivial
  rw [wp_head_some]
  refine wp_mono (h (s, e)) ?_ ?_
  · rintro a p ⟨hst, ha⟩
    refine ⟨hst, fun hg => ?_⟩
    simp only [Prog.head, ha hg, Outcome.onState]
  · rintro r p ⟨hst, hr⟩
    refine ⟨hst, fun hg => ?_⟩
    simp only [Prog.head, hr hg, Outcome.onState]

theorem tail {m m' : Prog ρ (σ × List (Option ε)) α} (h : Agrees (G.comap Prod.fst) m m') :
    Agrees (G.comap Prod.fst) (Prog.tail m) (Prog.tail m') := by
  rintro ⟨s, _ | ⟨c, cells⟩⟩
  · trivial
  rw [wp_tail_cons]
  refine wp_mono (h (s, cells)) ?_ ?_
  · rintro a p ⟨hst, ha⟩
    refine ⟨hst, fun hg => ?_⟩
    simp only [Prog.tail, ha hg, Outcome.onState]
  · rintro r p ⟨hst, hr⟩
    refine ⟨hst, fun hg => ?_⟩
    simp only [Prog.tail, hr hg, Outcome.onState]

theorem forCells {body body' : β → Prog ρ (σ × ε) β}
    (h : ∀ b, Agrees (G.comap Prod.fst) (body b) (body' b)) :
    ∀ (n : ℕ) (b : β),
      Agrees (G.comap Prod.fst) (Prog.forCells body n b) (Prog.forCells body' n b) := by
  intro n
  induction n with
  | zero => exact fun b => closed.pure b
  | succ n ih => exact fun b => bind (head (h b)) fun b' => tail (ih b')

end Agrees

end Prog
