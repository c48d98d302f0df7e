import Likwid.EventArrays

/-!
# Asking for results

The getters of `perfmon.c`, and with the calls that measure all a program can do
to the module (`Op`). A getter leaves groups and registers alone but for one
thing: `perfmon_getResult` computes a result from the live counter record, whose
overflow count it lowers.
-/

namespace Likwid

section Getters

variable (M : Machine) (B : Backend)

/-- `events[eventId]` -/
def eventAt {ρ σ : Type} (slots : List Slot) (eventId : Int) : Prog ρ σ PerfmonEventSetEntry :=
  if 0 ≤ eventId then Prog.orOutOfBounds slots[eventId.toNat]?.join else Prog.halt .outOfBounds

/-- `threadCounter[threadId]`; that the number is not too large has been
checked. -/
def recordAt {ρ σ : Type} (e : PerfmonEventSetEntry) (threadId : Int) : Prog ρ σ PerfmonCounter :=
  if 0 ≤ threadId then pure (e.threadCounter threadId.toNat) else Prog.halt .outOfBounds

/-- Change one record of one event of a group. -/
def Perfmon.modifyRecord (s : Perfmon) (g e t : ℕ) (f : PerfmonCounter → PerfmonCounter) :
    Perfmon :=
  s.modifyGroup g fun es =>
    { es with events := es.events.modify e (Option.map fun entry => entry.onCounter t f) }

def perfmonGetResult (groupId eventId threadId : Int) : Prog ℚ Perfmon Unit := do
  let s ← Prog.get
  match s.groupSet with
  | none => Prog.ret 0
  | some gs => do
      Prog.when (gs.numberOfActiveGroups = 0) (Prog.ret 0)
      let (g, es) ← groupAt
        (if groupId < 0 ∧ 0 ≤ gs.activeGroup then gs.activeGroup else groupId)
      Prog.when (es.numberOfEvents ≤ eventId) (Prog.ret 0)
      Prog.when (gs.numberOfThreads ≤ threadId) (Prog.ret 0)
      let e ← eventAt es.events eventId
      let r ← recordAt e threadId
      Prog.when (r.fullData ≠ 0) (Prog.ret r.fullData)
      let row ← counterMap M e.index
      Prog.modify (·.modifyRecord g eventId.toNat threadId.toNat fun r =>
        (calculateResult M e.index row.type r).2)
      Prog.ret (calculateResult M e.index row.type r).1

def perfmonGetNumberOfEvents (groupId : Int) : PerfmonProg Unit := do
  let gs ← requireInit
  let (_, es) ← groupAt (if groupId < 0 then gs.activeGroup else groupId)
  Prog.ret es.numberOfEvents

def perfmonGetTimeOfGroup (groupId : Int) : Prog ℚ Perfmon Unit := do
  let s ← Prog.get
  match s.groupSet with
  | none => Prog.ret (-einval : Int)
  | some gs => do
      let (_, es) ← groupAt (if groupId < 0 then gs.activeGroup else groupId)
      Prog.ret es.runTime

inductive Query where
  | getResult (groupId eventId threadId : Int)
  | getNumberOfEvents (groupId : Int)
  | getTimeOfGroup (groupId : Int)
deriving DecidableEq, Repr

def Query.prog : Query → Prog ℚ Perfmon Unit
  | .getResult groupId eventId threadId => perfmonGetResult M groupId eventId threadId
  | .getNumberOfEvents groupId => do
      let n ← Prog.call (0 : Int) (perfmonGetNumberOfEvents groupId)
      Prog.ret n
  | .getTimeOfGroup groupId => perfmonGetTimeOfGroup groupId

/-- A call or a query. -/
inductive Op where
  | call (c : Call)
  | query (q : Query)
deriving DecidableEq, Repr

def Op.prog : Op → Prog ℚ Perfmon Unit
  | .call c => do
      let r ← Prog.call (0 : Int) (c.prog M B)
      Prog.ret r
  | .query q => q.prog M

/-- What the operation answers and the state it leaves, or why it does neither. -/
def Perfmon.answer (s : Perfmon) (op : Op) :
    Except Prog.Halt (ℚ × Perfmon) :=
  match op.prog M B s with
  | .done _ s' => .ok (0, s')
  | .ret r s' => .ok (r, s')
  | .halt k => .error k

/-- The operation returns and leaves `s'`. -/
def OpStep (s : Perfmon) (op : Op) (s' : Perfmon) : Prop := ∃ r, s.answer M B op = .ok (r, s')

end Getters

variable {M : Machine} {B : Backend} {s s' t : Perfmon}

/-! ## What an operation does -/

section Accessors

variable {ρ σ : Type} {e : PerfmonEventSetEntry} {c : σ}

@[simp] theorem wp_eventAt {slots : List Slot} {i : Int}
    {Q : PerfmonEventSetEntry → σ → Prop} {R : ρ → σ → Prop} :
    (eventAt slots i : Prog ρ σ PerfmonEventSetEntry).wp Q R c ↔
      0 ≤ i → ∀ e, slots[i.toNat]?.join = some e → Q e c := by
  unfold eventAt
  by_cases h : 0 ≤ i <;> simp [h]

@[simp] theorem wp_recordAt {t : Int} {Q : PerfmonCounter → σ → Prop} {R : ρ → σ → Prop} :
    (recordAt e t : Prog ρ σ PerfmonCounter).wp Q R c ↔
      0 ≤ t → Q (e.threadCounter t.toNat) c := by
  unfold recordAt
  by_cases h : 0 ≤ t <;> simp [h]

end Accessors

/-- What holds of both ends of an operation holds of its answer. -/
theorem answer_of_wp {op : Op} {P : ℚ → Perfmon → Prop} {r : ℚ}
    (h : (op.prog M B).wp (fun _ => P 0) P s) (hr : s.answer M B op = .ok (r, s')) : P r s' := by
  unfold Perfmon.answer at hr
  unfold Prog.wp at h
  cases hrun : op.prog M B s with
  | done a t =>
      rw [hrun] at hr h
      obtain ⟨rfl, rfl⟩ := Prod.mk.inj (Except.ok.inj hr)
      exact h
  | ret q t =>
      rw [hrun] at hr h
      obtain ⟨rfl, rfl⟩ := Prod.mk.inj (Except.ok.inj hr)
      exact h
  | halt k =>
      rw [hrun] at hr
      cases hr

theorem answer_call (call : Call) : s.answer M B (.call call) =
    match call.prog M B s with
    | .done _ s' => .ok (0, s')
    | .ret r s' => .ok ((r : ℚ), s')
    | .halt k => .error k := by
  simp only [Perfmon.answer, Op.prog, Bind.bind, Prog.call]
  cases call.prog M B s <;> simp [Prog.ret]

theorem opStep_call {call : Call} : OpStep M B s (.call call) s' ↔ Step M B s call s' := by
  simp only [OpStep, Step, returns, answer_call]
  cases call.prog M B s <;> simp

/-- A getter changes one record at most, and that as `calculateResult` does. -/
theorem query_modifies (q : Query) (s : Perfmon) : (q.prog M).wp (fun _ _ => False)
    (fun _ s' => s' = s ∨ ∃ g i t entry row, s' = s.modifyRecord g i t fun r =>
      (calculateResult M entry row r).2) s := by
  cases q with
  | getResult groupId eventId threadId =>
      simp only [Query.prog, perfmonGetResult, Prog.wp_bind, Prog.wp_get]
      cases s.groupSet with
      | none => exact Or.inl rfl
      | some gs =>
          simp only [Prog.wp_bind, Prog.wp_when, Prog.wp_ret, wp_groupAt, wp_eventAt, wp_recordAt,
            counterMap, Prog.wp_orUndefined, Prog.wp_modify]
          refine ⟨fun _ => Or.inl trivial, fun _ _ es _ => ⟨fun _ => Or.inl trivial, fun _ =>
            ⟨fun _ => Or.inl trivial, fun _ _ e _ _ => ⟨fun _ => Or.inl trivial, fun _ row _ =>
              Or.inr ⟨_, _, _, _, _, rfl⟩⟩⟩⟩⟩
  | getNumberOfEvents groupId =>
      simp only [Query.prog, perfmonGetNumberOfEvents, Prog.wp_bind, Prog.wp_call, wp_requireInit,
        wp_groupAt, Prog.wp_ret]
      exact ⟨fun _ _ _ _ _ => Or.inl trivial, fun _ => Or.inl trivial⟩
  | getTimeOfGroup groupId =>
      simp only [Query.prog, perfmonGetTimeOfGroup, Prog.wp_bind, Prog.wp_get]
      cases s.groupSet with
      | none => exact Or.inl rfl
      | some gs =>
          simp only [Prog.wp_bind, wp_groupAt, Prog.wp_ret]
          exact fun _ _ _ => Or.inl trivial

/-! ## Groups and events -/

theorem control_modifyRecord (g i t : ℕ) (f : PerfmonCounter → PerfmonCounter) :
    (s.modifyRecord g i t f).control = s.control := by
  have h : (s.modifyRecord g i t f).control = s.control.modifyGroup g id :=
    control_modifyGroup (f := fun es => { es with
      events := es.events.modify i (Option.map fun entry => entry.onCounter t f) })
      (fun _ => rfl) g s
  refine h.trans ?_
  simp only [Control.modifyGroup, Control.modifyGroupSet, List.modify_id]
  cases s.control with
  | mk groupSet stamps intervals => cases groupSet <;> rfl

theorem opStep_query_control {q : Query} (hs : OpStep M B s (.query q) s') :
    s'.control = s.control := by
  obtain ⟨r, hr⟩ := hs
  refine answer_of_wp (P := fun _ s' => s'.control = s.control) ?_ hr
  refine Prog.wp_mono (query_modifies q s) (fun _ _ h => h.elim) fun _ s1 h => ?_
  rcases h with rfl | ⟨g, i, t, entry, row, rfl⟩
  · rfl
  · exact control_modifyRecord g i t _

theorem opStep_query_kept {R : PerfmonEventSetEntry → PerfmonEventSetEntry → Prop}
    (hr : ∀ e, R e e) (hlower : ∀ (e : PerfmonEventSetEntry) (t : ℕ) index type,
      R e (e.onCounter t fun r => (calculateResult M index type r).2))
    {q : Query} (hs : OpStep M B s (.query q) s') : EventsKept R s s' := by
  obtain ⟨r, hr'⟩ := hs
  refine answer_of_wp (P := fun _ s' => EventsKept R s s') ?_ hr'
  refine Prog.wp_mono (query_modifies q s) (fun _ _ h => h.elim) fun _ s1 h => ?_
  rcases h with rfl | ⟨g, i, t, entry, row, rfl⟩
  · exact .refl hr _
  · refine EventsKept.modifyGroup (f := fun es => { es with
      events := es.events.modify i (Option.map fun e =>
        e.onCounter t fun r => (calculateResult M entry row r).2) })
      hr (fun es => ⟨rfl, rfl, fun j => ?_⟩) g s
    dsimp only
    rw [List.getElem?_modify]
    rcases es.events[j]? with _ | _ | e
    · exact .none
    · by_cases hij : i = j <;> simp [hij]
    · by_cases hij : i = j
      · simpa [hij] using Option.Rel.some (Option.Rel.some (hlower e t entry row))
      · simpa [hij] using Option.Rel.some (Option.Rel.some (hr e))

/-! ## Runs -/

theorem consistent_of_ops {guard : Perfmon → Op → Prop} (h0 : Booted s)
    (h : Run (OpStep M B) guard s t) : t.control.Consistent := by
  have hstep : ∀ (u : Perfmon) (op : Op) (v : Perfmon), u.control.Consistent → guard u op →
      OpStep M B u op v → v.control.Consistent := by
    intro u op v hu _ hs
    cases op with
    | call c =>
        exact (opStep_call.mp hs).moves.invariant (fun _ _ hk hm => hm.consistent hk) hu
    | query q => exact opStep_query_control hs ▸ hu
  exact Run.invariant (t := t) h0.consistent hstep h

/-- **What an entry keeps, every added group has in every state a run reaches**,
if each new group has it. -/
theorem eachGroup_of_ops {R : PerfmonEventSetEntry → PerfmonEventSetEntry → Prop}
    {P : PerfmonEventSet → Prop} {guard : Perfmon → Op → Prop} (hflow : EntryFlow M B R)
    (hlower : ∀ (e : PerfmonEventSetEntry) (t : ℕ) index type,
      R e (e.onCounter t fun r => (calculateResult M index type r).2))
    (hP : ∀ es es' : PerfmonEventSet, P es → es.EventsRel R es' → P es')
    (hnew : ∀ u eventString force, guard u (.call (.addEventSet eventString force)) →
      ∀ es, AddedGroup M u eventString force es → P es)
    (h0 : Booted s) (h : Run (OpStep M B) guard s t) : t.EachGroup P := by
  have hstep : ∀ (u : Perfmon) (op : Op) (v : Perfmon),
      u.control.Consistent ∧ u.EachGroup P → guard u op → OpStep M B u op v →
        v.control.Consistent ∧ v.EachGroup P := by
    rintro u op v ⟨hc, hu⟩ hg hs
    cases op with
    | call c =>
        have hcall := opStep_call.mp hs
        refine ⟨hcall.moves.invariant (fun _ _ hk hm => hm.consistent hk) hc,
          eachGroup_step hflow hP hu hc (fun eventString force heq => ?_) hcall⟩
        exact hnew u eventString force (heq ▸ hg)
    | query q =>
        exact ⟨opStep_query_control hs ▸ hc,
          hu.kept hP (opStep_query_kept hflow.refl hlower hs)⟩
  exact (Run.invariant (t := t) ⟨h0.consistent, .of_none h0.groupSet⟩ hstep h).2

end Likwid
