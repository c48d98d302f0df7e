import Likwid.Lib.Prog

/-!
# Routines in pieces

Routines that share a part `σ` of their state, each with a part `τ` of its own. A routine is cut
into pieces, and its run leaves a step for every piece it got to. What the runs do to the shared
part is then said step by step, with a record of the steps so far (`Monitored`).
-/

namespace Prog

variable {π κ ρ σ τ : Type}

/-- The run of one piece: the code it returned early, if it did, and the state it ended in -/
structure Step (π ρ σ τ : Type) where
  piece : π
  code : Option ρ
  state : σ × τ

variable (prog : π → Prog ρ (σ × τ) Unit)

/-- The pieces as one routine -/
def inSequence : List π → Prog ρ (σ × τ) Unit
  | [] => pure ()
  | piece :: pieces => do
      prog piece
      inSequence pieces

/-- The pieces are run one after the other, up to one that returns early. -/
inductive RunsThrough : σ × τ → List π → List (Step π ρ σ τ) → σ × τ → Prop
  | nil (p : σ × τ) : RunsThrough p [] [] p
  | done {p q r : σ × τ} {piece : π} {pieces : List π} {steps : List (Step π ρ σ τ)} :
      prog piece p = .done () q → RunsThrough q pieces steps r →
      RunsThrough p (piece :: pieces) (⟨piece, none, q⟩ :: steps) r
  | ret {p q : σ × τ} {piece : π} {pieces : List π} {code : ρ} :
      prog piece p = .ret code q →
      RunsThrough p (piece :: pieces) [⟨piece, some code, q⟩] q

/-- The step is a run of its piece, with a part of its own that meets what the piece asks of it. -/
def Step.From (Ok : π → τ → Prop) (s : σ) (step : Step π ρ σ τ) : Prop :=
  ∃ t, Ok step.piece t ∧
    match step.code with
    | none => prog step.piece (s, t) = .done () step.state
    | some code => prog step.piece (s, t) = .ret code step.state

/-- Every step goes on from the shared state that the one before has left. -/
def StepsOf (Ok : π → τ → Prop) : σ → List (Step π ρ σ τ) → Prop
  | _, [] => True
  | s, step :: steps => step.From prog Ok s ∧ StepsOf Ok step.state.1 steps

/-- However they run, the pieces are given what they ask for. -/
def Served (Ok : π → τ → Prop) : List π → τ → Prop
  | [], _ => True
  | piece :: pieces, t =>
      Ok piece t ∧ ∀ s s' t', prog piece (s, t) = .done () (s', t') → Served Ok pieces t'

/-- `C` holds of each step and of the shared state before it. -/
def Along (C : σ → Step π ρ σ τ → Prop) : σ → List (Step π ρ σ τ) → Prop
  | _, [] => True
  | s, step :: steps => C s step ∧ Along C step.state.1 steps

/-- `P` holds of each step, of the shared state before it, and of the record after it. -/
def Monitored (after : κ → Step π ρ σ τ → κ) (P : κ → σ → Step π ρ σ τ → Prop) :
    κ → σ → List (Step π ρ σ τ) → Prop
  | _, _, [] => True
  | k, s, step :: steps =>
      P (after k step) s step ∧ Monitored after P (after k step) step.state.1 steps

variable {prog} {Ok : π → τ → Prop} {p q : σ × τ} {pieces pieces' : List π}
  {steps rest : List (Step π ρ σ τ)} {s : σ}

/-! ## Routines and pieces -/

theorem runsThrough_of_done (h : inSequence prog pieces p = .done () q) :
    ∃ steps, RunsThrough prog p pieces steps q := by
  induction pieces generalizing p with
  | nil =>
      cases h
      exact ⟨[], .nil _⟩
  | cons piece pieces ih =>
      obtain ⟨_, p1, hpiece, h⟩ := bind_eq_done.mp h
      obtain ⟨steps, hsteps⟩ := ih h
      exact ⟨_, .done hpiece hsteps⟩

theorem runsThrough_of_ret {code : ρ} (h : inSequence prog pieces p = .ret code q) :
    ∃ steps, RunsThrough prog p pieces steps q := by
  induction pieces generalizing p with
  | nil => cases h
  | cons piece pieces ih =>
      rw [inSequence, bind_apply] at h
      cases hpiece : prog piece p with
      | done _ p1 =>
          rw [hpiece] at h
          obtain ⟨steps, hsteps⟩ := ih h
          exact ⟨_, .done hpiece hsteps⟩
      | ret _ p1 =>
          rw [hpiece] at h
          cases h
          exact ⟨_, .ret hpiece⟩
      | halt _ =>
          rw [hpiece] at h
          cases h

/-- Every step is one of the pieces. -/
theorem RunsThrough.piece_mem (h : RunsThrough prog p pieces steps q) {step : Step π ρ σ τ}
    (hstep : step ∈ steps) : step.piece ∈ pieces := by
  induction h with
  | nil => cases hstep
  | done _ _ ih =>
      rcases List.mem_cons.mp hstep with rfl | hmem
      · exact List.mem_cons_self
      · exact List.mem_cons_of_mem _ (ih hmem)
  | ret _ =>
      rw [List.mem_singleton.mp hstep]
      exact List.mem_cons_self

/-- Pieces that ask for nothing are served. -/
theorem served_of_forall (h : ∀ piece ∈ pieces, ∀ t, Ok piece t) (t : τ) :
    Served prog Ok pieces t := by
  induction pieces generalizing t with
  | nil => trivial
  | cons piece pieces ih =>
      exact ⟨h piece List.mem_cons_self t, fun _ _ t' _ =>
        ih (fun piece' hpiece' => h piece' (List.mem_cons_of_mem _ hpiece')) t'⟩

theorem RunsThrough.stepsFrom (h : RunsThrough prog p pieces steps q)
    (hserved : Served prog Ok pieces p.2) (hrest : StepsOf prog Ok q.1 rest) :
    StepsOf prog Ok p.1 (steps ++ rest) := by
  induction h with
  | nil p => exact hrest
  | @done p q _ _ _ _ hpiece _ ih =>
      exact ⟨⟨p.2, hserved.1, hpiece⟩, ih (hserved.2 p.1 q.1 q.2 hpiece) hrest⟩
  | @ret p _ _ _ _ hpiece => exact ⟨⟨p.2, hserved.1, hpiece⟩, hrest⟩

/-! ## Step by step -/

theorem Step.From.elim {step : Step π ρ σ τ} {Q R : σ → Prop} (h : step.From prog Ok s)
    (hpiece : ∀ t, Ok step.piece t →
      (prog step.piece).wp (fun _ p => Q p.1) (fun _ p => R p.1) (s, t)) :
    (step.code = none → Q step.state.1) ∧ (step.code ≠ none → R step.state.1) := by
  obtain ⟨t, hok, hrun⟩ := h
  cases hcode : step.code with
  | none =>
      rw [hcode] at hrun
      have hQ := wp_done (hpiece t hok) hrun
      exact ⟨fun _ => hQ, fun hne => absurd rfl hne⟩
  | some code =>
      rw [hcode] at hrun
      have hR := wp_returned (hpiece t hok) hrun
      exact ⟨fun hnone => (Option.some_ne_none _ hnone).elim, fun _ => hR⟩

theorem along_of_forall {C : σ → Step π ρ σ τ → Prop} (h : ∀ step ∈ steps, ∀ s, C s step) :
    Along C s steps := by
  induction steps generalizing s with
  | nil => trivial
  | cons step steps ih =>
      exact ⟨h step List.mem_cons_self s,
        ih fun step' hstep' => h step' (List.mem_cons_of_mem _ hstep')⟩

/-- **The rule of a monitored run**: where the record describes the state, and a step keeps to it
exactly if it meets a condition, the run does exactly if every step does. -/
theorem monitored_iff {after : κ → Step π ρ σ τ → κ} {P : κ → σ → Step π ρ σ τ → Prop}
    {C : σ → Step π ρ σ τ → Prop} {I : κ → σ → Prop} {k : κ}
    (hstep : ∀ k s step, step.From prog Ok s → I k s → (P (after k step) s step ↔ C s step))
    (hinv : ∀ k s step, P k s step → I k step.state.1) (hsteps : StepsOf prog Ok s steps)
    (hk : I k s) : Monitored after P k s steps ↔ Along C s steps := by
  induction steps generalizing k s with
  | nil => exact Iff.rfl
  | cons step steps ih =>
      have hone := hstep k s step hsteps.1 hk
      constructor
      · rintro ⟨hfirst, hrest⟩
        exact ⟨hone.mp hfirst, (ih hsteps.2 (hinv _ _ _ hfirst)).mp hrest⟩
      · rintro ⟨hfirst, hrest⟩
        have hP := hone.mpr hfirst
        exact ⟨hP, (ih hsteps.2 (hinv _ _ _ hP)).mpr hrest⟩

end Prog
