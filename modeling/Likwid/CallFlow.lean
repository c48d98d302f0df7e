import Likwid.Calls

/-!
# Flows along the calls

Outside the thread routines a call touches time stamps, the active group, the list of completed
intervals and what a group records besides its events. If a flow allows these changes, and a routine
on the slots of a group is in it as soon as the routine is in a flow on the slots (`CallFlow`), then
a call is in it as soon as its thread routines and its loops over the events are
(`CallFlow.call_respects`).
-/

namespace Likwid

variable {M : Machine} {B : Backend} {F : Prog.Flow Perfmon} {S : Prog.Flow (Core × List Slot)}

/-- A flow on the library's state over a flow on the slots of a group -/
structure CallFlow (F : Prog.Flow Perfmon) (S : Prog.Flow (Core × List Slot)) : Prop where
  ret : ∀ s, F.exit s s
  call : ∀ s s', F.exit s s' → F.done s s'
  slotsCall : ∀ p q, S.exit p q → S.done p q
  stamp : ∀ s : Perfmon, F.done s { s with stamps := s.stamps + 1 }
  intervals : ∀ (s : Perfmon) intervals, F.done s { s with intervals }
  activeGroup : ∀ (s : Perfmon) groupId,
    F.done s (s.modifyGroupSet fun gs => { gs with activeGroup := groupId })
  bookkeeping : ∀ {f : PerfmonEventSet → PerfmonEventSet},
    (∀ es, (f es).numberOfEvents = es.numberOfEvents ∧ (f es).regTypeMask = es.regTypeMask ∧
      (f es).events = es.events) → ∀ g (s : Perfmon), F.done s (s.modifyGroup g f)
  onSlots : ∀ {α : Type} {m : Prog Int (Core × List Slot) α}, Prog.Respects S m →
    ∀ g, Prog.Respects F (onSlots g m : PerfmonProg α)

/-- The thread routines, and the loops of a stop and of a switch -/
structure SlotFlow (M : Machine) (B : Backend) (S : Prog.Flow (Core × List Slot)) : Prop where
  setup : ∀ thread cpu mask n, Prog.Respects S (B.setupCountersThread thread cpu mask n)
  start : ∀ thread cpu mask n, Prog.Respects S (B.startCountersThread thread cpu mask n)
  read : ∀ thread cpu mask n, Prog.Respects S (B.readCountersThread thread cpu mask n)
  stop : ∀ thread cpu mask n, Prog.Respects S (B.stopCountersThread thread cpu mask n)
  accumulate : ∀ threads n,
    Prog.Respects S (Prog.forCells (accumulateEvent M threads) n () : Prog Int _ _)
  clear : ∀ thread n, Prog.Respects S (Prog.forCells (clearInit thread) n () : Prog Int _ _)

namespace CallFlow

variable (h : CallFlow F S)

include h

theorem returned {α : Type} (r : Int) : Prog.Respects F (Prog.ret r : PerfmonProg α) :=
  .ret h.ret

theorem requireInit : Prog.Respects F requireInit := by
  refine .bind .get fun s => ?_
  cases s.groupSet with
  | none => exact h.returned _
  | some gs => exact .pure _

omit h in
theorem theGroupSet : Prog.Respects F (theGroupSet : PerfmonProg PerfmonGroupSet) :=
  .bind .get fun _ => .orUndefined _

omit h in
theorem groupAt (groupId : Int) :
    Prog.Respects F (groupAt groupId : PerfmonProg (ℕ × PerfmonEventSet)) :=
  .bind .get fun _ => .ite (fun _ => .bind (.orOutOfBounds _) fun _ => .pure _) fun _ => .halt _

theorem setState (g : ℕ) (state : GroupState) :
    Prog.Respects F (setState g state : PerfmonProg Unit) :=
  .modify fun s => h.bookkeeping (f := fun es => { es with state := state })
    (fun _ => ⟨rfl, rfl, rfl⟩) g s

theorem addRunTime (g : ℕ) : Prog.Respects F
    (Prog.modify (·.modifyGroup g (PerfmonEventSet.addRunTime M)) : PerfmonProg Unit) :=
  .modify fun s => h.bookkeeping (f := PerfmonEventSet.addRunTime M) (fun _ => ⟨rfl, rfl, rfl⟩) g s

theorem timerStart (g : ℕ) : Prog.Respects F (timerStart M g : PerfmonProg Unit) :=
  .bind (fun s => h.stamp s) fun tsc => .modify fun s => h.bookkeeping
    (f := fun es => { es with timer := { es.timer with start := tsc } })
    (fun _ => ⟨rfl, rfl, rfl⟩) g s

theorem timerStop (g : ℕ) : Prog.Respects F (timerStop M g : PerfmonProg Unit) :=
  .bind (fun s => h.stamp s) fun tsc => .modify fun s => h.bookkeeping
    (f := fun es => { es with timer := { es.timer with stop := tsc } })
    (fun _ => ⟨rfl, rfl, rfl⟩) g s

theorem callThread {r : ThreadRoutine}
    (hr : ∀ thread cpu mask n, Prog.Respects S (r thread cpu mask n)) (threadId g : ℕ) :
    Prog.Respects F (callThread r threadId g) :=
  .bind theGroupSet fun _ => .bind (.orOutOfBounds _) fun _ => .bind (groupAt _) fun _ =>
    h.onSlots (.call fun p =>
      Prog.wp_mono (hr _ _ _ _ p) (fun _ _ hp => hp) fun _ _ => h.slotsCall _ _) g

theorem threads {ι : Type} {r : ThreadRoutine}
    (hr : ∀ thread cpu mask n, Prog.Respects S (r thread cpu mask n)) (threads : List ι)
    (f : ι → ℕ) (code : ι → Int) (g : ℕ) :
    Prog.Respects F (threads.foldlM (fun _ th => do
      let ret ← Likwid.callThread r (f th) g
      Prog.when (ret ≠ 0) (Prog.ret (code th))) () : PerfmonProg Unit) :=
  .foldlM (fun _ th _ => .bind (h.callThread hr (f th) g) fun _ => .when fun _ => h.returned _) ()

theorem called {m : PerfmonProg Unit} (hm : Prog.Respects F m) :
    Prog.Respects F (Prog.call (0 : Int) m : PerfmonProg Int) :=
  .call fun s => Prog.wp_mono (hm s) (fun _ _ hs => hs) fun _ _ => h.call _ _

theorem groupArgument (gs : PerfmonGroupSet) (groupId : Int) :
    Prog.Respects F (groupArgument gs groupId) :=
  .ite (fun _ => .pure _) fun _ => h.returned _

/-! ## Set-up, start and read -/

section Setup

variable (hsetup : ∀ thread cpu mask n, Prog.Respects S (B.setupCountersThread thread cpu mask n))

include hsetup

theorem perfmonSetupCountersThread (threadId : ℕ) (groupId : Int) :
    Prog.Respects F (perfmonSetupCountersThread M B threadId groupId) :=
  .bind theGroupSet fun _ => .bind (.when fun _ => h.returned _) fun _ =>
    .bind (groupAt _) fun _ => .bind (h.callThread hsetup _ _) fun _ => .bind .get fun _ =>
      .bind (.when fun _ => h.returned _) fun _ => .modify fun s => h.activeGroup s groupId

theorem perfmonSetupCounters (groupId : Int) :
    Prog.Respects F (perfmonSetupCounters M B groupId) := by
  refine .bind h.requireInit fun gs => .bind (.when fun _ => h.returned _) fun _ =>
    .bind (.foldlM (fun _ th _ => ?_) ()) fun _ => .bind (groupAt _) fun _ => h.setState _ _
  exact .bind (h.called (h.perfmonSetupCountersThread hsetup _ _)) fun _ =>
    .when fun _ => h.returned _

end Setup

section Start

variable (hstart : ∀ thread cpu mask n, Prog.Respects S (B.startCountersThread thread cpu mask n))

include hstart

theorem perfmonStartCountersOf (groupId : Int) :
    Prog.Respects F (perfmonStartCountersOf M B groupId) :=
  .bind theGroupSet fun _ => .bind (groupAt _) fun _ => .bind (.when fun _ => h.returned _)
    fun _ => .bind (h.threads hstart _ _ _ _) fun _ => .bind (h.setState _ _) fun _ =>
      h.timerStart _

theorem perfmonStartCounters : Prog.Respects F (perfmonStartCounters M B) :=
  .bind h.requireInit fun _ => .bind (.when fun _ => h.returned _) fun _ =>
    h.perfmonStartCountersOf hstart _

end Start

theorem perfmonReadCountersOf
    (hread : ∀ thread cpu mask n, Prog.Respects S (B.readCountersThread thread cpu mask n))
    (groupId threadId : Int) : Prog.Respects F (perfmonReadCountersOf B groupId threadId) :=
  .bind h.requireInit fun _ => .bind (groupAt _) fun _ => .bind (.when fun _ => h.returned _)
    fun _ => .ite (fun _ => h.threads hread _ id _ _) fun _ => .when fun _ =>
      .bind (h.callThread hread _ _) fun _ => .when fun _ => h.returned _

/-! ## Stop and switch -/

variable (hB : SlotFlow M B S)

include hB

theorem perfmonStopCountersOf (groupId : Int) :
    Prog.Respects F (perfmonStopCountersOf M B groupId) :=
  .bind theGroupSet fun _ => .bind (groupAt _) fun _ => .bind (h.timerStop _) fun _ =>
    .bind (h.threads hB.stop _ _ _ _) fun _ => .bind (groupAt _) fun _ =>
      .bind (h.onSlots (hB.accumulate _ _) _) fun _ => .bind (h.setState _ _) fun _ =>
        .bind (h.addRunTime _) fun _ => .modify fun s => h.intervals s _

theorem stopRunning (groupId : Int) : Prog.Respects F (do
    let (_, es) ← Likwid.groupAt groupId
    Prog.when (es.state ≠ .start) (Prog.ret (-einval))
    Likwid.perfmonStopCountersOf M B groupId : PerfmonProg Unit) :=
  .bind (groupAt _) fun _ => .bind (.when fun _ => h.returned _) fun _ =>
    h.perfmonStopCountersOf hB _

theorem perfmonStopCounters : Prog.Respects F (perfmonStopCounters M B) :=
  .bind h.requireInit fun _ => .bind (.when fun _ => h.returned _) fun _ => h.stopRunning hB _

theorem perfmonSwitchActiveGroup (newGroup : Int) :
    Prog.Respects F (perfmonSwitchActiveGroup M B newGroup) := by
  refine .bind theGroupSet fun gs => .foldlM (fun _ th _ => ?_) ()
  refine .bind (h.called ?_) fun _ => .when fun _ => h.returned _
  exact .bind h.requireInit fun gs => .bind (groupAt _) fun p =>
    .bind (h.timerStop _) fun _ => .bind (h.addRunTime _) fun _ =>
      .bind (.when fun _ => .bind (h.called (h.perfmonStopCounters hB)) fun _ => .pure _) fun _ =>
        .bind (.when fun _ => h.onSlots (hB.clear _ _) _) fun _ =>
          .bind (h.called (h.perfmonSetupCounters hB.setup _)) fun _ =>
            .bind (.when fun _ => h.returned _) fun _ => .when fun _ =>
              .bind (h.called (h.perfmonStartCounters hB.start)) fun _ =>
                .when fun _ => h.returned _

/-- **Every call but those that add, init and finalize** -/
theorem call_respects {call : Call} (hcall : (∀ cpus, call ≠ .init cpus) ∧ call ≠ .finalize ∧
    ∀ eventString force, call ≠ .addEventSet eventString force) :
    Prog.Respects F (call.prog M B) := by
  obtain ⟨hinit, hfinalize, hadd⟩ := hcall
  cases call with
  | init cpus => exact absurd rfl (hinit cpus)
  | finalize => exact absurd rfl hfinalize
  | addEventSet eventString force => exact absurd rfl (hadd eventString force)
  | setupCounters groupId => exact h.perfmonSetupCounters hB.setup groupId
  | startCounters => exact h.perfmonStartCounters hB.start
  | startGroupCounters groupId =>
      exact .bind h.requireInit fun _ => .bind (h.groupArgument _ _) fun _ =>
        h.perfmonStartCountersOf hB.start _
  | readCounters => exact h.perfmonReadCountersOf hB.read _ _
  | readGroupCounters groupId => exact h.perfmonReadCountersOf hB.read _ _
  | readGroupThreadCounters groupId threadId => exact h.perfmonReadCountersOf hB.read _ _
  | readCountersCpu cpu =>
      exact .bind h.requireInit fun _ => .bind (groupAt _) fun _ =>
        .bind (h.callThread hB.read _ _) fun _ => h.returned _
  | stopCounters => exact h.perfmonStopCounters hB
  | stopGroupCounters groupId =>
      exact .bind h.requireInit fun _ => .bind (h.groupArgument _ _) fun _ => h.stopRunning hB _
  | switchActiveGroup newGroup => exact h.perfmonSwitchActiveGroup hB newGroup

end CallFlow

end Likwid
