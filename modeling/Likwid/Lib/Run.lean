import Mathlib.Logic.Relation

/-!
# Guarded runs

A labelled transition system with a guard on its steps, independent of any
particular program. `Run step guard s t` is a run from `s` to `t` each of whose
steps meets the guard in the state it is taken in.
-/

variable {σ ι : Type}

inductive Run (step : σ → ι → σ → Prop) (guard : σ → ι → Prop) (s : σ) : σ → Prop
  | nil : Run step guard s s
  | snoc {t u : σ} {i : ι} : Run step guard s t → guard t i → step t i u → Run step guard s u

namespace Run

variable {step : σ → ι → σ → Prop} {guard guard' : σ → ι → Prop} {s t u : σ}

/-- **The invariant rule**: what holds at the start and is kept by every guarded
step holds in every state reached. -/
theorem invariant {Inv : σ → Prop} (h0 : Inv s)
    (hstep : ∀ t i u, Inv t → guard t i → step t i u → Inv u) (h : Run step guard s t) :
    Inv t := by
  induction h with
  | nil => exact h0
  | snoc _ hg hs ih => exact hstep _ _ _ ih hg hs

theorem single {i : ι} (hg : guard s i) (hs : step s i t) : Run step guard s t :=
  snoc nil hg hs

/-- A run under a guard is one under every guard that the guard implies. -/
theorem weaken (h : Run step guard s t) (hguard : ∀ s i, guard s i → guard' s i) :
    Run step guard' s t := by
  induction h with
  | nil => exact nil
  | snoc _ hg hs ih => exact ih.snoc (hguard _ _ hg) hs

theorem trans (h : Run step guard s t) (h' : Run step guard t u) : Run step guard s u := by
  induction h' with
  | nil => exact h
  | snoc _ hg hs ih => exact snoc ih hg hs

/-- The state after a sequence of actions, if each meets the guard and has a
successor. -/
def exec (next : σ → ι → Option σ) (guard : σ → ι → Prop) [∀ s i, Decidable (guard s i)] :
    List ι → σ → Option σ
  | [], s => some s
  | i :: is, s => if guard s i then (next s i).bind (exec next guard is) else none

theorem of_exec {next : σ → ι → Option σ} [∀ s i, Decidable (guard s i)]
    (hnext : ∀ s i t, next s i = some t → step s i t) {is : List ι}
    (h : exec next guard is s = some t) : Run step guard s t := by
  induction is generalizing s with
  | nil =>
      obtain rfl : s = t := Option.some.inj h
      exact nil
  | cons i is ih =>
      simp only [exec, Option.ite_none_right_eq_some, Option.bind_eq_some_iff] at h
      obtain ⟨hg, v, hv, hrest⟩ := h
      exact (single hg (hnext s i v hv)).trans (ih hrest)

end Run

/-- The steps from `s` to a state, with their labels in order. -/
inductive Trace (step : σ → ι → σ → Prop) (s : σ) : List ι → σ → Prop
  | nil : Trace step s [] s
  | snoc {is : List ι} {i : ι} {t u : σ} :
      Trace step s is t → step t i u → Trace step s (is ++ [i]) u

/-- The invariant rule, for what is said of a state and the labels that led to
it. -/
theorem Trace.invariant {step : σ → ι → σ → Prop} {s t : σ} {is : List ι}
    {P : List ι → σ → Prop} (h0 : P [] s)
    (hstep : ∀ is t i u, P is t → step t i u → P (is ++ [i]) u) (h : Trace step s is t) :
    P is t := by
  induction h with
  | nil => exact h0
  | snoc _ hs ih => exact hstep _ _ _ _ ih hs

theorem Trace.cons {step : σ → ι → σ → Prop} {s t u : σ} {i : ι} {is : List ι}
    (hs : step s i t) (h : Trace step t is u) : Trace step s (i :: is) u := by
  induction h with
  | nil => exact (Trace.nil : Trace step s [] s).snoc hs
  | snoc _ hs' ih => exact ih.snoc hs'

theorem Trace.mono {step step' : σ → ι → σ → Prop} {s t : σ} {is : List ι}
    (hstep : ∀ s i t, step s i t → step' s i t) (h : Trace step s is t) : Trace step' s is t := by
  induction h with
  | nil => exact .nil
  | snoc _ hs ih => exact ih.snoc (hstep _ _ _ hs)
