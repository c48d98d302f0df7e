import Likwid.CounterFlow
import Likwid.EventArrays

/-!
# What the calls do to the shared state

The threads of the group set stay the same from one `perfmon_init` to the next finalization, and the
shared state changes only as the thread routines and the test of a counter change it. A preorder of
shared states that these respect (`CoreFlow`) is respected by every call but `perfmon_init`
(`CoreFlow.call_respects`, `CoreFlow.finalize_respects`).
-/

namespace Likwid

variable {M : Machine} {B : Backend} {s s' : Perfmon} {g : ℕ}

/-- The threads of the group set, if there is one -/
def Perfmon.threads? (s : Perfmon) : Option (List PerfmonThread) :=
  s.groupSet.map PerfmonGroupSet.threads

theorem threads?_modifyGroupSet {f : PerfmonGroupSet → PerfmonGroupSet}
    (hf : ∀ gs, (f gs).threads = gs.threads) (s : Perfmon) :
    (s.modifyGroupSet f).threads? = s.threads? := by
  unfold Perfmon.threads? Perfmon.modifyGroupSet
  cases s.groupSet with
  | none => rfl
  | some gs => exact congrArg some (hf gs)

theorem threads?_modifyGroup (f : PerfmonEventSet → PerfmonEventSet) (s : Perfmon) :
    (s.modifyGroup g f).threads? = s.threads? :=
  threads?_modifyGroupSet (f := fun gs => { gs with groups := gs.groups.modify g f })
    (fun _ => rfl) s

theorem threads?_allocate (s : Perfmon) :
    (s.modifyGroupSet (PerfmonGroupSet.allocate M)).threads? = s.threads? := by
  refine threads?_modifyGroupSet (fun gs => ?_) s
  unfold PerfmonGroupSet.allocate
  dsimp only
  split_ifs <;> rfl

/-- The same threads, and related shared states -/
structure CoreRel (R : Core → Core → Prop) (s s' : Perfmon) : Prop where
  core : R s.core s'.core
  threads : s'.threads? = s.threads?

/-- A preorder of shared states that the thread routines and the test of a counter respect -/
structure CoreFlow (M : Machine) (B : Backend) (R : Core → Core → Prop) : Prop where
  refl : ∀ c, R c c
  trans : ∀ a b c, R a b → R b c → R a c
  setup : ∀ thread cpu mask n, Prog.Respects (Prog.Flow.of R refl trans).fst
    (B.setupCountersThread thread cpu mask n)
  start : ∀ thread cpu mask n, Prog.Respects (Prog.Flow.of R refl trans).fst
    (B.startCountersThread thread cpu mask n)
  read : ∀ thread cpu mask n, Prog.Respects (Prog.Flow.of R refl trans).fst
    (B.readCountersThread thread cpu mask n)
  stop : ∀ thread cpu mask n, Prog.Respects (Prog.Flow.of R refl trans).fst
    (B.stopCountersThread thread cpu mask n)
  finalize : ∀ thread cpu mask n, Prog.Respects (Prog.Flow.of R refl trans).fst
    (B.finalizeCountersThread thread cpu mask n)
  hpmRead : ∀ cpu dev reg, Prog.Respects (Prog.Flow.of R refl trans)
    (hpmRead M cpu dev reg : Prog Int Core _)
  hpmWrite : ∀ cpu dev reg data, Prog.Respects (Prog.Flow.of R refl trans)
    (hpmWrite M cpu dev reg data : Prog Int Core _)
  cleared : ∀ c : Core, R c
    { c with currentConfig := fun _ _ => 0, registeredCpuList := fun _ => false }

namespace CoreFlow

variable {R : Core → Core → Prop} (h : CoreFlow M B R)

abbrev flow : Prog.Flow Perfmon :=
  Prog.Flow.of (CoreRel R) (fun s => ⟨h.refl s.core, rfl⟩)
    fun _ _ _ h1 h2 => ⟨h.trans _ _ _ h1.core h2.core, h2.threads.trans h1.threads⟩

/-- The flow of a routine on the shared state and the slots of a group -/
abbrev slots : Prog.Flow (Core × List Slot) := (Prog.Flow.of R h.refl h.trans).fst

theorem modify {ρ : Type} {f : Perfmon → Perfmon} (hcore : ∀ s, (f s).core = s.core)
    (hthreads : ∀ s, (f s).threads? = s.threads?) :
    Prog.Respects h.flow (Prog.modify f : Prog ρ Perfmon Unit) :=
  .modify fun s => ⟨by rw [hcore]; exact h.refl _, hthreads s⟩

theorem modifyGroup (g : ℕ) (f : PerfmonEventSet → PerfmonEventSet) :
    Prog.Respects h.flow (Prog.modify (·.modifyGroup g f) : PerfmonProg Unit) :=
  h.modify (fun _ => rfl) fun _ => threads?_modifyGroup f _

theorem onCore {α : Type} {m : Prog Int Core α}
    (hm : Prog.Respects (Prog.Flow.of R h.refl h.trans) m) :
    Prog.Respects h.flow
      (Prog.zoom Perfmon.core (fun c s => { s with core := c }) m : PerfmonProg α) :=
  .zoom fun s => Prog.wp_mono (hm s.core) (fun _ _ hc => ⟨hc, rfl⟩) fun _ _ hc => ⟨hc, rfl⟩

theorem onSlots {α : Type} {m : Prog Int (Core × List Slot) α} (hm : Prog.Respects h.slots m)
    (g : ℕ) : Prog.Respects h.flow (onSlots g m : PerfmonProg α) :=
  .zoom fun _ => Prog.wp_mono (hm _) (fun _ _ hp => ⟨hp, threads?_modifyGroup _ _⟩)
    fun _ _ hp => ⟨hp, threads?_modifyGroup _ _⟩

theorem calls : CallFlow h.flow h.slots where
  ret s := ⟨h.refl s.core, rfl⟩
  call _ _ hs := hs
  slotsCall _ _ hp := hp
  stamp s := ⟨h.refl s.core, rfl⟩
  intervals s _ := ⟨h.refl s.core, rfl⟩
  activeGroup s groupId := ⟨h.refl s.core, threads?_modifyGroupSet
    (f := fun gs => { gs with activeGroup := groupId }) (fun _ => rfl) s⟩
  bookkeeping _ _ s := ⟨h.refl s.core, threads?_modifyGroup _ s⟩
  onSlots := h.onSlots

theorem slotFlow : SlotFlow M B h.slots where
  setup := h.setup
  start := h.start
  read := h.read
  stop := h.stop
  accumulate _ n := .forCells_fst
    (fun _ => .bind .get fun _ => .bind (.orUndefined _) fun _ => counting_record _) n ()
  clear _ n := .forCells_fst (fun _ => counting_record _) n ()

/-! ## Adding and finalizing -/

theorem testCounter (cpu : ℕ) (row : RegisterMap) (force : Int) :
    Prog.Respects (Prog.Flow.of R h.refl h.trans)
      (testCounter M cpu row force : Prog Int Core Bool) := by
  have hclear : ∀ dev reg type, Prog.Respects (Prog.Flow.of R h.refl h.trans)
      (overwriteSettings M cpu dev reg type force : Prog Int Core Unit) :=
    fun _ _ _ => .ite (fun _ => .bind (h.hpmWrite _ _ _ _) fun _ => .pure _) fun _ =>
      .when fun _ => .halt _
  refine .bind (h.hpmRead _ _ _) fun _ => .ite (fun _ => ?_) fun _ => .ite (fun _ => ?_) fun _ => ?_
  · exact .bind (.when fun _ => hclear _ _ _) fun _ => .pure _
  · exact .bind (h.hpmWrite _ _ _ _) fun _ => .pure _
  · exact .bind (.when fun _ => hclear _ _ _) fun _ => .pure _

theorem perfmonAddEventSet (eventString : List Char) (force : Int) :
    Prog.Respects h.flow (perfmonAddEventSet M eventString force) := by
  refine .bind h.calls.requireInit fun gs => .bind (.when fun _ => h.calls.returned _) fun _ =>
    .bind (h.modify (fun _ => rfl) threads?_allocate) fun _ => .bind (.orUndefined _) fun cpu =>
      .bind (h.onCore ?_) fun parsed => .bind (h.modifyGroup _ _) fun _ =>
        .ite (fun _ => .bind (h.calls.setState _ _) fun _ =>
          .bind ?_ fun _ => h.calls.returned _) fun _ => h.calls.returned _
  · refine addEvents_respects (h.hpmRead cpu) (fun row _ _ => ?_) _ _ _
    exact h.testCounter cpu row force
  · exact h.modify (fun _ => rfl) fun s => threads?_modifyGroupSet
      (f := fun gs => { gs with numberOfActiveGroups := gs.numberOfActiveGroups + 1 })
      (fun _ => rfl) s

/-- **Every call but those that init and finalize** -/
theorem call_respects {call : Call} (hinit : ∀ cpus, call ≠ .init cpus)
    (hfinalize : call ≠ .finalize) : Prog.Respects h.flow (call.prog M B) := by
  by_cases hadd : ∀ eventString force, call ≠ .addEventSet eventString force
  · exact h.calls.call_respects h.slotFlow ⟨hinit, hfinalize, hadd⟩
  · push Not at hadd
    obtain ⟨eventString, force, rfl⟩ := hadd
    exact h.perfmonAddEventSet eventString force

include h in
/-- A finalization takes the threads away. -/
theorem finalize_respects (s : Perfmon) : (perfmonFinalize B).wp
    (fun _ s' => R s.core s'.core ∧ s'.threads? = none)
    (fun _ s' => R s.core s'.core ∧ s'.threads? = none) s := by
  unfold perfmonFinalize
  rw [Prog.wp_bind, Prog.wp_get]
  cases hgs : s.groupSet with
  | none => exact ⟨h.refl s.core, by simp [Perfmon.threads?, hgs]⟩
  | some gs =>
      have hloop : ((List.range gs.numberOfActiveGroups).foldlM (fun _ g =>
          gs.threads.foldlM (fun _ th => do
            let _ ← Likwid.callThread B.finalizeCountersThread th.threadId g
            pure ()) ()) () : PerfmonProg Unit).wp (fun _ s' => CoreRel R s s')
              (fun _ _ => False) s := by
        refine Prog.wp_foldlM (I := fun _ s' => CoreRel R s s') (fun _ g _ s1 _ h1 => ?_)
          ⟨h.refl s.core, rfl⟩
        refine Prog.wp_foldlM (I := fun _ s' => CoreRel R s s') (fun _ th _ s2 _ h2 => ?_) h1
        rw [Prog.wp_bind]
        have hthread := Prog.wp_and (h.calls.callThread h.finalize th.threadId g s2)
          (callThread_control B.finalizeCountersThread th.threadId g s2)
        exact Prog.wp_mono hthread
          (fun _ _ hk => h.flow.trans h2 hk.1) fun _ _ hk => hk.2
      rw [Prog.wp_bind]
      exact Prog.wp_mono hloop
        (fun _ s' hk => ⟨h.trans _ _ _ hk.core (h.cleared s'.core), rfl⟩) fun _ _ hk => hk.elim

end CoreFlow

end Likwid
