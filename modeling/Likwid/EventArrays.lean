import Likwid.CallFlow
import Likwid.EventSets

/-!
# What the calls do to the event arrays

Between two calls that add, init or finalize, the groups keep their numbers of
events and their type masks, and an entry changes only as the thread routines,
the stop loop and the switch change one. If all of these respect a preorder of
entries (`EntryFlow`), every call does (`EntryFlow.call_respects`), and what a preorder
preserves holds of every added group as long as it holds of each new one
(`eachGroup_step`).
-/

namespace Likwid

variable {M : Machine} {B : Backend} {s s' t : Perfmon} {g : ℕ}

/-! ## Related groups -/

/-- The same number of events of the same types, and related entries. -/
structure PerfmonEventSet.EventsRel (R : PerfmonEventSetEntry → PerfmonEventSetEntry → Prop)
    (es es' : PerfmonEventSet) : Prop where
  numberOfEvents : es'.numberOfEvents = es.numberOfEvents
  regTypeMask : es'.regTypeMask = es.regTypeMask
  events : Prog.CellsRel R es.events es'.events

/-- The groups and threads are the same, and the groups are related. -/
structure EventsKept (R : PerfmonEventSetEntry → PerfmonEventSetEntry → Prop)
    (s s' : Perfmon) : Prop where
  frame : s'.control.frame = s.control.frame
  groups : ∀ g, Option.Rel (PerfmonEventSet.EventsRel R) (s.group? g) (s'.group? g)

/-- A preorder of entries that the thread routines, the stop loop and the switch
respect. -/
structure EntryFlow (M : Machine) (B : Backend)
    (R : PerfmonEventSetEntry → PerfmonEventSetEntry → Prop) : Prop where
  refl : ∀ e, R e e
  trans : ∀ a b c, R a b → R b c → R a c
  setInit : ∀ e thread, R e (e.setInit thread false)
  addResult : ∀ e type thread, R e (e.addResult M type thread)
  setup : ∀ thread cpu mask n, Prog.Respects (Prog.Flow.of (Prog.CellsRel R)
    (Prog.CellsRel.refl refl) (Prog.CellsRel.trans trans)).snd
      (B.setupCountersThread thread cpu mask n)
  start : ∀ thread cpu mask n, Prog.Respects (Prog.Flow.of (Prog.CellsRel R)
    (Prog.CellsRel.refl refl) (Prog.CellsRel.trans trans)).snd
      (B.startCountersThread thread cpu mask n)
  read : ∀ thread cpu mask n, Prog.Respects (Prog.Flow.of (Prog.CellsRel R)
    (Prog.CellsRel.refl refl) (Prog.CellsRel.trans trans)).snd
      (B.readCountersThread thread cpu mask n)
  stop : ∀ thread cpu mask n, Prog.Respects (Prog.Flow.of (Prog.CellsRel R)
    (Prog.CellsRel.refl refl) (Prog.CellsRel.trans trans)).snd
      (B.stopCountersThread thread cpu mask n)

variable {R : PerfmonEventSetEntry → PerfmonEventSetEntry → Prop}

namespace PerfmonEventSet.EventsRel

theorem refl (hr : ∀ e, R e e) (es : PerfmonEventSet) : es.EventsRel R es :=
  ⟨rfl, rfl, Prog.CellsRel.refl hr _⟩

theorem trans (ht : ∀ a b c, R a b → R b c → R a c) {a b c : PerfmonEventSet}
    (h : a.EventsRel R b) (h' : b.EventsRel R c) : a.EventsRel R c :=
  ⟨h'.numberOfEvents.trans h.numberOfEvents, h'.regTypeMask.trans h.regTypeMask,
    Prog.CellsRel.trans ht _ _ _ h.events h'.events⟩

end PerfmonEventSet.EventsRel

namespace EventsKept

theorem refl (hr : ∀ e, R e e) (s : Perfmon) : EventsKept R s s := by
  refine ⟨rfl, fun g => ?_⟩
  cases s.group? g with
  | none => exact .none
  | some es => exact .some (.refl hr es)

theorem trans (ht : ∀ a b c, R a b → R b c → R a c) (s1 s2 s3 : Perfmon)
    (h : EventsKept R s1 s2) (h' : EventsKept R s2 s3) : EventsKept R s1 s3 := by
  refine ⟨h'.frame.trans h.frame, fun g => ?_⟩
  have h1 := h.groups g
  have h2 := h'.groups g
  generalize s1.group? g = o1 at *
  generalize s2.group? g = o2 at *
  generalize s3.group? g = o3 at *
  cases h1 with
  | none => cases h2; exact .none
  | some h12 =>
      cases h2 with
      | some h23 => exact .some (h12.trans ht h23)

theorem old (h : EventsKept R s s') {es' : PerfmonEventSet} (hes' : s'.group? g = some es') :
    ∃ es, s.group? g = some es ∧ es.EventsRel R es' := by
  have hrel := h.groups g
  rw [hes'] at hrel
  cases hes : s.group? g with
  | none =>
      rw [hes] at hrel
      cases hrel
  | some es =>
      rw [hes] at hrel
      cases hrel with
      | some hrel => exact ⟨es, rfl, hrel⟩

theorem modifyGroupSet (hr : ∀ e, R e e) {f : PerfmonGroupSet → PerfmonGroupSet}
    (hgroups : ∀ gs, (f gs).groups = gs.groups) (hthreads : ∀ gs, (f gs).threads = gs.threads)
    (hcount : ∀ gs, (f gs).numberOfActiveGroups = gs.numberOfActiveGroups) (s : Perfmon) :
    EventsKept R s (s.modifyGroupSet f) := by
  refine ⟨?_, fun g => ?_⟩
  · simp only [Control.frame, Perfmon.control, Perfmon.modifyGroupSet]
    cases s.groupSet with
    | none => rfl
    | some gs => simp [PerfmonGroupSet.control, hthreads, hcount]
  · have hsame : (s.modifyGroupSet f).group? g = s.group? g := by
      unfold Perfmon.group? Perfmon.modifyGroupSet
      cases s.groupSet <;> simp [hgroups]
    rw [hsame]
    exact (refl hr s).groups g

theorem frame_modifyGroup (f : PerfmonEventSet → PerfmonEventSet) (s : Perfmon) :
    (s.modifyGroup g f).control.frame = s.control.frame := by
  simp only [Control.frame, Perfmon.control, Perfmon.modifyGroup, Perfmon.modifyGroupSet]
  cases s.groupSet <;> rfl

theorem group?_modifyGroup (f : PerfmonEventSet → PerfmonEventSet) (s : Perfmon) (i : ℕ) :
    (s.modifyGroup g f).group? i = (s.group? i).map fun es => if g = i then f es else es := by
  simp only [Perfmon.group?, Perfmon.modifyGroup, Perfmon.modifyGroupSet]
  cases s.groupSet with
  | none => rfl
  | some gs =>
      simp only [Option.map_some, Option.bind_some, List.getElem?_modify]
      cases gs.groups[i]? with
      | none => rfl
      | some es => by_cases hi : g = i <;> simp [hi]

theorem modifyGroup (hr : ∀ e, R e e) {f : PerfmonEventSet → PerfmonEventSet}
    (hf : ∀ es : PerfmonEventSet, es.EventsRel R (f es)) (g : ℕ) (s : Perfmon) :
    EventsKept R s (s.modifyGroup g f) := by
  refine ⟨frame_modifyGroup f s, fun i => ?_⟩
  rw [group?_modifyGroup]
  cases s.group? i with
  | none => exact .none
  | some es =>
      refine .some ?_
      dsimp only
      split
      · exact hf es
      · exact .refl hr es

theorem of_putSlots (hr : ∀ e, R e e) {es : PerfmonEventSet} {p : Core × List Slot}
    (hes : s.group? g = some es) (h : Prog.CellsRel R es.events p.2) :
    EventsKept R s (s.putSlots g p) := by
  refine ⟨by rw [control_putSlots], fun i => ?_⟩
  have hput : (s.putSlots g p).group? i =
      (s.group? i).map fun es => if g = i then { es with events := p.2 } else es :=
    group?_modifyGroup _ { s with core := p.1 } i
  rw [hput]
  cases hi : s.group? i with
  | none => exact .none
  | some ei =>
      refine .some ?_
      dsimp only
      split
      · next hgi =>
          subst hgi
          obtain rfl : es = ei := Option.some.inj (hes.symm.trans hi)
          exact ⟨rfl, rfl, h⟩
      · exact .refl hr ei

end EventsKept

/-! ## The flow of an order of entries -/

structure EntryOrder (R : PerfmonEventSetEntry → PerfmonEventSetEntry → Prop) : Prop where
  refl : ∀ e, R e e
  trans : ∀ a b c, R a b → R b c → R a c

namespace EntryOrder

variable (h : EntryOrder R)

abbrev flow : Prog.Flow Perfmon :=
  Prog.Flow.of (EventsKept R) (EventsKept.refl h.refl) (EventsKept.trans h.trans)

include h in
theorem bookkeeping {f : PerfmonEventSet → PerfmonEventSet}
    (hf : ∀ es, (f es).numberOfEvents = es.numberOfEvents ∧
      (f es).regTypeMask = es.regTypeMask ∧ (f es).events = es.events) (g : ℕ) (s : Perfmon) :
    EventsKept R s (s.modifyGroup g f) := by
  refine EventsKept.modifyGroup h.refl (fun es => ?_) g s
  obtain ⟨hn, hmask, hevents⟩ := hf es
  exact ⟨hn, hmask, hevents ▸ Prog.CellsRel.refl h.refl es.events⟩

/-- The flow on the slots of one group. -/
abbrev slots : Prog.Flow (Core × List Slot) :=
  (Prog.Flow.of (Prog.CellsRel R) (Prog.CellsRel.refl h.refl) (Prog.CellsRel.trans h.trans)).snd

theorem onSlots {α : Type} {m : Prog Int (Core × List Slot) α} (hm : Prog.Respects h.slots m)
    (g : ℕ) : Prog.Respects h.flow (onSlots g m : PerfmonProg α) := by
  intro s
  unfold Likwid.onSlots
  rw [Prog.wp_zoom]
  have hput : ∀ p : Core × List Slot,
      Prog.CellsRel R (((s.group? g).map PerfmonEventSet.events).getD []) p.2 →
      EventsKept R s (s.putSlots g p) := by
    intro p hp
    cases hes : s.group? g with
    | some es =>
        rw [hes] at hp
        exact .of_putSlots h.refl hes hp
    | none =>
        refine ⟨by rw [control_putSlots], fun i => ?_⟩
        have hsame : (s.putSlots g p).group? i =
            (s.group? i).map fun es => if g = i then { es with events := p.2 } else es :=
          EventsKept.group?_modifyGroup _ { s with core := p.1 } i
        rw [hsame]
        cases hi : s.group? i with
        | none => exact .none
        | some ei =>
            have hne : g ≠ i := fun he => by simp [← he, hes] at hi
            simpa [hne] using Option.Rel.some (PerfmonEventSet.EventsRel.refl h.refl ei)
  exact Prog.wp_mono (hm _) (fun _ p hp => hput p hp) fun _ p hp => hput p hp

theorem calls : CallFlow h.flow h.slots where
  ret := EventsKept.refl h.refl
  call _ _ hs := hs
  slotsCall _ _ hp := hp
  stamp s := ⟨rfl, (EventsKept.refl h.refl s).groups⟩
  intervals s _ := ⟨rfl, (EventsKept.refl h.refl s).groups⟩
  activeGroup s groupId := .modifyGroupSet (f := fun gs => { gs with activeGroup := groupId })
    h.refl (fun _ => rfl) (fun _ => rfl) (fun _ => rfl) s
  bookkeeping := h.bookkeeping
  onSlots := h.onSlots

end EntryOrder

/-! ## The exported functions -/

namespace EntryFlow

variable (h : EntryFlow M B R)

include h in
theorem order : EntryOrder R := ⟨h.refl, h.trans⟩

abbrev flow : Prog.Flow Perfmon := h.order.flow

abbrev slots : Prog.Flow (Core × List Slot) := h.order.slots

theorem accumulateEvent (numberOfThreads : ℕ) (u : Unit) :
    Prog.Respects (Prog.Flow.of R h.refl h.trans).snd (accumulateEvent M numberOfThreads u) := by
  refine .bind .get fun p => .bind (.orUndefined _) fun row => .onSnd_modify fun e => ?_
  induction List.range numberOfThreads generalizing e with
  | nil => exact h.refl e
  | cons j js ih => exact h.trans _ _ _ (h.addResult e row.type j) (ih _)

theorem slotFlow : SlotFlow M B h.slots where
  setup := h.setup
  start := h.start
  read := h.read
  stop := h.stop
  accumulate threads n := .forCells_snd h.refl h.trans (h.accumulateEvent threads) n ()
  clear thread n := .forCells_snd h.refl h.trans
    (fun _ => .onSnd_modify fun e => h.setInit e thread) n ()

/-- **Every call but those that add, init and finalize keeps the events.** -/
theorem call_respects {call : Call} (hcall : (∀ cpus, call ≠ .init cpus) ∧ call ≠ .finalize ∧
    ∀ eventString force, call ≠ .addEventSet eventString force) :
    Prog.Respects h.flow (call.prog M B) :=
  h.order.calls.call_respects h.slotFlow hcall

end EntryFlow

theorem entryFlow_any (M : Machine) (B : Backend) : EntryFlow M B (fun _ _ => True) where
  refl _ := trivial
  trans _ _ _ _ _ := trivial
  setInit _ _ := trivial
  addResult _ _ _ := trivial
  setup thread cpu mask n p := Prog.wp_mono (B.setup_fullData thread cpu mask n p)
    (fun _ _ h => h.mono fun _ _ _ => trivial) fun _ _ h => h.mono fun _ _ _ => trivial
  start thread cpu mask n p := Prog.wp_mono (B.start_fullData thread cpu mask n p)
    (fun _ _ h => h.mono fun _ _ _ => trivial) fun _ _ h => h.mono fun _ _ _ => trivial
  read thread cpu mask n p := Prog.wp_mono (B.read_fullData thread cpu mask n p)
    (fun _ _ h => h.mono fun _ _ _ => trivial) fun _ _ h => h.mono fun _ _ _ => trivial
  stop thread cpu mask n p := Prog.wp_mono (B.stop_fullData thread cpu mask n p)
    (fun _ _ h => h.mono fun _ _ _ => trivial) fun _ _ h => h.mono fun _ _ _ => trivial

/-! ## What every added group has -/

def Perfmon.EachGroup (P : PerfmonEventSet → Prop) (s : Perfmon) : Prop :=
  ∀ gs, s.groupSet = some gs → ∀ g < gs.numberOfActiveGroups, ∀ es, gs.groups[g]? = some es →
    P es

theorem Perfmon.EachGroup.kept {P : PerfmonEventSet → Prop}
    (hP : ∀ es es' : PerfmonEventSet, P es → es.EventsRel R es' → P es') (h : s.EachGroup P)
    (hkept : EventsKept R s s') : s'.EachGroup P := by
  intro gs' hgs' g hg es' hes'
  have hgroup' : s'.group? g = some es' := by simp [Perfmon.group?, hgs', hes']
  have hrel := hkept.groups g
  rw [hgroup'] at hrel
  cases hgs : s.groupSet with
  | none =>
      have hframe := hkept.frame
      rw [control_frame hgs'] at hframe
      simp [Control.frame, Perfmon.control, hgs] at hframe
  | some gs =>
      have hframe := hkept.frame
      rw [control_frame hgs', control_frame hgs] at hframe
      simp only [Option.some.injEq, Prod.mk.injEq] at hframe
      cases hgroup : s.group? g with
      | none =>
          rw [hgroup] at hrel
          cases hrel
      | some es =>
          rw [hgroup] at hrel
          cases hrel with
          | some hR =>
              refine hP es es' (h gs hgs g (hframe.1 ▸ hg) es ?_) hR
              simpa [Perfmon.group?, hgs] using hgroup

/-- What a new group is made of. -/
structure AddedGroup (M : Machine) (s : Perfmon) (eventString : List Char) (force : Int)
    (es : PerfmonEventSet) : Prop where
  parsed : ∃ gs cpu c parsed, Parsed M s eventString force gs cpu c parsed ∧ parsed.Usable ∧
    es.events = parsed.slots ∧ es.numberOfEvents = parsed.numberOfEvents ∧
      es.regTypeMask = parsed.regTypeMask

theorem Perfmon.EachGroup.addEventSet {P : PerfmonEventSet → Prop} (h : s.EachGroup P)
    (hc : s.control.Consistent) {eventString : List Char} {force r : Int}
    (hnew : ∀ es, AddedGroup M s eventString force es → P es)
    (hs : AddOutcome M s eventString force r s') : s'.EachGroup P := by
  rcases hs with ⟨-, rfl⟩ | ⟨gs, cpu, c, parsed, hread, hend⟩
  · exact h
  have hgs := consistent_of_control (hc _ (control_groupSet hread.groupSet))
  obtain ⟨-, hcount, -, -⟩ := Control.allocate_consistent (M := M) hgs
  rcases hend with ⟨-, -, rfl⟩ | ⟨husable, -, rfl⟩
  · intro gs' hgs' g hg es' hes'
    obtain rfl : gs.filled M parsed = gs' := Option.some.inj hgs'
    have hlt : g < gs.numberOfActiveGroups := hcount ▸ hg
    rw [filled_of_lt hgs hlt] at hes'
    exact h gs hread.groupSet g hlt es' hes'
  · intro gs' hgs' g hg es' hes'
    obtain rfl : (gs.filled M parsed).committed gs.numberOfActiveGroups = gs' :=
      Option.some.inj hgs'
    have hle : g < gs.numberOfActiveGroups + 1 := hcount ▸ hg
    rcases Nat.lt_or_ge g gs.numberOfActiveGroups with hlt | hge
    · rw [committed_of_ne (by omega), filled_of_lt hgs hlt] at hes'
      exact h gs hread.groupSet g hlt es' hes'
    · obtain rfl : gs.numberOfActiveGroups = g := by omega
      obtain ⟨es, hes, hevents, hnumber, hmask⟩ := filled_self (M := M) parsed hgs
      rw [committed_self hes] at hes'
      obtain rfl := Option.some.inj hes'
      exact hnew _ ⟨gs, cpu, c, parsed, hread, husable, hevents, hnumber, hmask⟩

theorem Perfmon.EachGroup.of_none {P : PerfmonEventSet → Prop} (h : s.groupSet = none) :
    s.EachGroup P :=
  fun gs hgs => by simp [h] at hgs

theorem perfmonInit_eachGroup {P : PerfmonEventSet → Prop} (h : s.EachGroup P) (cpus : List ℕ) :
    (perfmonInit M B cpus).wp (fun _ s' => s'.EachGroup P) (fun _ s' => s'.EachGroup P) s := by
  cases hgs : s.groupSet with
  | some gs =>
      unfold perfmonInit
      rw [Prog.wp_bind, Prog.wp_get, hgs]
      exact h
  | none =>
      refine Prog.wp_mono (perfmonInit_control cpus s) (fun _ s1 h1 => ?_) fun _ s1 h1 => ?_
      · obtain ⟨-, gs, hk, -, hn, -⟩ := h1
        intro gs' hgs' g hg
        have hsame := congrArg Control.groupSet hk
        rw [control_groupSet hgs'] at hsame
        have hcount : gs'.control.numberOfActiveGroups = gs.numberOfActiveGroups := by
          rw [Option.some.inj hsame]
        have hlt : g < gs'.control.numberOfActiveGroups := hg
        omega
      · have hnone : s.control.groupSet = none := by simp [Perfmon.control, hgs]
        exact .of_none (groupSet_of_control_none (by rw [h1, hnone]))

theorem eachGroup_step {P : PerfmonEventSet → Prop} (hflow : EntryFlow M B R)
    (hP : ∀ es es' : PerfmonEventSet, P es → es.EventsRel R es' → P es') (h : s.EachGroup P)
    (hc : s.control.Consistent) {call : Call}
    (hnew : ∀ eventString force, call = .addEventSet eventString force →
      ∀ es, AddedGroup M s eventString force es → P es)
    (hs : Step M B s call s') : s'.EachGroup P := by
  by_cases hcall : (∀ cpus, call ≠ .init cpus) ∧ call ≠ .finalize ∧
      ∀ eventString force, call ≠ .addEventSet eventString force
  · exact h.kept hP (hs.wp (P := fun s' => EventsKept R s s') (hflow.call_respects hcall s))
  · cases call with
    | init cpus =>
        exact hs.wp (P := fun s' => s'.EachGroup P) (perfmonInit_eachGroup h cpus)
    | finalize =>
        refine hs.wp (P := fun s' => s'.EachGroup P) ?_
        refine Prog.wp_mono (perfmonFinalize_control s) (fun _ s1 hk => ?_) fun _ s1 hk => ?_
        · exact .of_none (groupSet_of_control_none (by rw [hk]))
        · exact .of_none (groupSet_of_control_none (by rw [hk.2, hk.1]))
    | addEventSet eventString force =>
        obtain ⟨r, hr⟩ := hs
        exact h.addEventSet hc (hnew eventString force rfl) (perfmonAddEventSet_returns hr)
    | _ => exact absurd ⟨by simp, by simp, by simp⟩ hcall

end Likwid
