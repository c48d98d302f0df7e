import Likwid.IndexBounds

/-!
# Asking twice, and overflows of the last interval

`calculateResult` lowers the overflow count of the record it computes from. So
`perfmon_getResult` answers the same again exactly if the record it looks at has
an accumulated result or no overflow (`repeatable_iff`), and since a start does
not reset the count, what one interval leaves is counted in the next. The code
measures as one does whose starts forget the counts, as long as every start
finds them at zero (`results_of_run`).
-/

namespace Likwid

open Prog (Follows)

variable {M : Machine} {B : Backend} {s s' : Perfmon} {gs : PerfmonGroupSet} {g e t : Int}

/-! ## Asking twice -/

/-- An operation with its answer. -/
def AnswerStep (M : Machine) (B : Backend) (s : Perfmon) (a : Op × ℚ) (s' : Perfmon) : Prop :=
  s.answer M B a.1 = .ok (a.2, s')

/-- **Results**: however often `perfmon_getResult` is asked, it
answers the same, and nothing changes. -/
def Repeatable (M : Machine) (B : Backend) (s : Perfmon) (g e t : Int) : Prop :=
  ∀ rs s', Trace (fun u r u' => AnswerStep M B u (.query (.getResult g e t), r) u') s rs s' →
    s' = s ∧ ∀ r ∈ rs, ∀ r' ∈ rs, r = r'

/-- The query computes the result of a record with overflows. -/
def Perfmon.Lowers (M : Machine) (s : Perfmon) (g e t : Int) : Prop :=
  ∃ gs es entry row, s.groupSet = some gs ∧ gs.numberOfActiveGroups ≠ 0 ∧ 0 ≤ gs.orActive g ∧
    s.group? (gs.orActive g).toNat = some es ∧ e < es.numberOfEvents ∧ t < gs.numberOfThreads ∧
    0 ≤ e ∧ 0 ≤ t ∧ es.events[e.toNat]?.join = some entry ∧
    M.counterMap[entry.index]? = some row ∧ (entry.threadCounter t.toNat).fullData = 0 ∧
    0 < (entry.threadCounter t.toNat).overflows

instance : Decidable (s.Lowers M g e t) :=
  decidable_of_iff (∃ gs ∈ s.groupSet, gs.numberOfActiveGroups ≠ 0 ∧ 0 ≤ gs.orActive g ∧
    t < gs.numberOfThreads ∧ ∃ es ∈ s.group? (gs.orActive g).toNat, e < es.numberOfEvents ∧
      0 ≤ e ∧ 0 ≤ t ∧ ∃ entry ∈ es.events[e.toNat]?.join,
        (M.counterMap[entry.index]?).isSome ∧ (entry.threadCounter t.toNat).fullData = 0 ∧
          0 < (entry.threadCounter t.toNat).overflows) (by
    constructor
    · rintro ⟨gs, hgs, hn, h0, ht, es, hes, he, h0e, h0t, entry, hentry, hsome, hfull, hpos⟩
      obtain ⟨row, hrow⟩ := Option.isSome_iff_exists.mp hsome
      exact ⟨gs, es, entry, row, hgs, hn, h0, hes, he, ht, h0e, h0t, hentry, hrow, hfull, hpos⟩
    · rintro ⟨gs, es, entry, row, hgs, hn, h0, hes, he, ht, h0e, h0t, hentry, hrow, hfull, hpos⟩
      exact ⟨gs, hgs, hn, h0, ht, es, hes, he, h0e, h0t, entry, hentry,
        Option.isSome_iff_exists.mpr ⟨row, hrow⟩, hfull, hpos⟩)

/-- Only a positive overflow count is lowered, and that by one. -/
theorem calculateResult_record (index : RegisterIndex) (type : RegisterType)
    (r : PerfmonCounter) : (calculateResult M index type r).2 =
      if 0 < r.overflows then { r with overflows := r.overflows - 1 } else r := by
  have hparts : (calculateResult M index type r).2 =
      (if r.overflows = 0 then (toDouble M (r.counterData - r.startData), r)
        else if 0 < r.overflows then
          (M.fl (0 + toDouble M ((perfmonGetMaxCounterValue M type - r.startData) +
            r.counterData)), { r with overflows := r.overflows - 1 })
        else (0, r) : ℚ × PerfmonCounter).2 := by
    unfold calculateResult
    dsimp only
    split
    · rfl
    · split <;> rfl
  rw [hparts]
  by_cases h0 : r.overflows = 0
  · simp [h0]
  · rw [if_neg h0]
    split <;> rfl

theorem onCounter_of_eq {entry : PerfmonEventSetEntry} {i : ℕ}
    {f : PerfmonCounter → PerfmonCounter} (h : f (entry.threadCounter i) = entry.threadCounter i) :
    entry.onCounter i f = entry := by
  have hsame : (fun t => if t = i then f (entry.threadCounter t) else entry.threadCounter t) =
      entry.threadCounter := by
    funext t
    by_cases ht : t = i
    · simp [ht, h]
    · simp [ht]
  unfold PerfmonEventSetEntry.onCounter
  rw [hsame]

/-- Changing a record to itself changes nothing. -/
theorem modifyRecord_of_eq {i n m : ℕ} {f : PerfmonCounter → PerfmonCounter}
    (h : ∀ es entry, s.group? i = some es → es.events[n]?.join = some entry →
      f (entry.threadCounter m) = entry.threadCounter m) : s.modifyRecord i n m f = s := by
  unfold Perfmon.modifyRecord Perfmon.modifyGroup Perfmon.modifyGroupSet
  cases hgs : s.groupSet with
  | none =>
      cases s
      simp_all
  | some gs =>
      have hgroups : (gs.groups.modify i fun es => { es with
          events := es.events.modify n (Option.map fun entry => entry.onCounter m f) }) =
          gs.groups := by
        refine List.ext_getElem? fun j => ?_
        rw [List.getElem?_modify]
        by_cases hj : i = j
        · subst hj
          cases hes : gs.groups[i]? with
          | none => simp
          | some es =>
              have hevents : (es.events.modify n (Option.map fun entry => entry.onCounter m f)) =
                  es.events := by
                refine List.ext_getElem? fun k => ?_
                rw [List.getElem?_modify]
                by_cases hk : n = k
                · subst hk
                  rcases hslot : es.events[n]? with _ | _ | entry
                  · rfl
                  · simp
                  · have hsame := h es entry (by simp [Perfmon.group?, hgs, hes]) (by simp [hslot])
                    simp [onCounter_of_eq hsame]
                · simp [hk]
              simp [hevents]
        · simp [hj]
      cases s
      simp_all

theorem modifyRecord_ne {i n m : ℕ} {f : PerfmonCounter → PerfmonCounter} {es : PerfmonEventSet}
    {entry : PerfmonEventSetEntry} (hes : s.group? i = some es)
    (hslot : es.events[n]? = some (some entry))
    (hf : f (entry.threadCounter m) ≠ entry.threadCounter m) : s.modifyRecord i n m f ≠ s := by
  intro heq
  have hgroup := EventsKept.group?_modifyGroup (g := i) (fun es : PerfmonEventSet => { es with
    events := es.events.modify n (Option.map fun entry => entry.onCounter m f) }) s i
  rw [hes] at hgroup
  have hsame : s.group? i = _ := (congrArg (Perfmon.group? · i) heq).symm.trans hgroup
  rw [hes] at hsame
  have hevents := congrArg (fun o => o.bind fun es : PerfmonEventSet => es.events[n]?) hsame
  simp only [Option.map_some, if_true, Option.bind_some, List.getElem?_modify_eq, hslot,
    Option.map_eq_map, Option.some.injEq] at hevents
  refine hf ?_
  have hrecord := congrArg (fun entry => PerfmonEventSetEntry.threadCounter entry m) hevents
  simpa using hrecord.symm

/-- What an answer of `perfmon_getResult` says of the state. -/
theorem getResult_answer (hl : ¬s.Lowers M g e t) :
    (perfmonGetResult M g e t).wp (fun _ _ => False) (fun _ s' => s' = s) s := by
  unfold perfmonGetResult
  rw [Prog.wp_bind, Prog.wp_get]
  cases hgs : s.groupSet with
  | none => exact rfl
  | some gs =>
      simp only [Prog.wp_bind, Prog.wp_when, Prog.wp_ret, wp_groupAt, wp_eventAt, wp_recordAt,
        counterMap, Prog.wp_orUndefined, Prog.wp_modify]
      refine ⟨fun _ => trivial, fun hn h0 es hes => ⟨fun _ => trivial, fun he =>
        ⟨fun _ => trivial, fun ht h0e entry hentry h0t => ⟨fun _ => trivial, fun hfull row hrow =>
          modifyRecord_of_eq fun es' entry' hes' hentry' => ?_⟩⟩⟩⟩
      obtain rfl : es = es' := Option.some.inj (hes.symm.trans hes')
      obtain rfl : entry = entry' := Option.some.inj (hentry.symm.trans hentry')
      rw [calculateResult_record, if_neg]
      intro hpos
      exact hl ⟨gs, es, entry, row, hgs, hn, h0, hes, Int.not_le.mp he, Int.not_le.mp ht, h0e, h0t,
        hentry, hrow, not_not.mp hfull, hpos⟩

/-- The query that lowers a count leaves another state. -/
theorem answer_of_lowers (hl : s.Lowers M g e t) :
    ∃ r s', s' ≠ s ∧ s.answer M B (.query (.getResult g e t)) = .ok (r, s') := by
  obtain ⟨gs, es, entry, row, hgs, hn, h0, hes, he, ht, h0e, h0t, hentry, hrow, hfull, hpos⟩ := hl
  let s1 := s.modifyRecord (gs.orActive g).toNat e.toNat t.toNat fun r =>
    (calculateResult M entry.index row.type r).2
  have hat : (eventAt es.events e : Prog ℚ Perfmon _) s = .done entry s := by
    unfold eventAt
    rw [if_pos h0e, hentry]
    rfl
  have hrec : (recordAt entry t : Prog ℚ Perfmon _) s =
      .done (entry.threadCounter t.toNat) s := by
    unfold recordAt
    rw [if_pos h0t]
    rfl
  have hmap : (counterMap M entry.index : Prog ℚ Perfmon _) s = .done row s := by
    unfold counterMap
    rw [hrow]
    rfl
  have hrun : perfmonGetResult M g e t s =
      .ret (calculateResult M entry.index row.type (entry.threadCounter t.toNat)).1 s1 := by
    rw [getResult_group hgs hn h0 hes, Prog.when_of_neg (by omega), Prog.bind_pure_left,
      Prog.when_of_neg (by omega), Prog.bind_pure_left, Prog.bind_of_done hat,
      Prog.bind_of_done hrec, Prog.when_of_neg (by simp [hfull]), Prog.bind_pure_left,
      Prog.bind_of_done hmap]
    rfl
  have hanswer : s.answer M B (.query (.getResult g e t)) =
      .ok ((calculateResult M entry.index row.type (entry.threadCounter t.toNat)).1, s1) := by
    simp only [Perfmon.answer, Op.prog, Query.prog, hrun]
  refine ⟨_, s1, ?_, hanswer⟩
  have hslot : es.events[e.toNat]? = some (some entry) := by
    rcases h : es.events[e.toNat]? with _ | _ | entry'
    · simp [h] at hentry
    · simp [h] at hentry
    · simpa [h] using hentry
  refine modifyRecord_ne hes hslot fun heq => ?_
  have hover := congrArg PerfmonCounter.overflows heq
  rw [calculateResult_record, if_pos hpos] at hover
  simp only at hover
  omega

/-- **A result can be asked for again** exactly if it was accumulated or has no
overflows. -/
theorem repeatable_iff_not_lowers : Repeatable M B s g e t ↔ ¬s.Lowers M g e t := by
  constructor
  · intro h hl
    obtain ⟨r, s1, hne, hr⟩ := answer_of_lowers (B := B) hl
    exact hne (h [r] s1 (Trace.snoc .nil hr)).1
  · intro hl rs s' htrace
    have hkeep : ∀ r u', AnswerStep M B s (.query (.getResult g e t), r) u' → u' = s := by
      intro r u' hr
      exact answer_of_wp (P := fun _ u' => u' = s) (show ((Op.query (.getResult g e t)).prog M B).wp
        _ _ s from Prog.wp_mono (getResult_answer hl) (fun _ _ h => h.elim) fun _ _ h => h) hr
    have hinv : s' = s ∧ ∀ r ∈ rs, AnswerStep M B s (.query (.getResult g e t), r) s := by
      refine Trace.invariant (P := fun rs u => u = s ∧ ∀ r ∈ rs,
        AnswerStep M B s (.query (.getResult g e t), r) s) ?_ ?_ htrace
      · exact ⟨rfl, by simp⟩
      · rintro rs u r u' ⟨rfl, hrs⟩ hr
        obtain rfl := hkeep r u' hr
        refine ⟨rfl, fun r' hr' => ?_⟩
        rcases List.mem_append.mp hr' with h | h
        · exact hrs r' h
        · obtain rfl := List.mem_singleton.mp h
          exact hr
    refine ⟨hinv.1, fun r hr r' hr' => ?_⟩
    have heq := (hinv.2 r hr).symm.trans (hinv.2 r' hr')
    exact congrArg Prod.fst (Except.ok.inj heq)

/-! ## Overflows of the last interval -/

/-- `overflows = 0` -/
def PerfmonEventSetEntry.clearOverflows (e : PerfmonEventSetEntry) (thread : ℕ) :
    PerfmonEventSetEntry :=
  e.onCounter thread fun r => { r with overflows := 0 }

/-- Clear the overflow counts of a thread in the first `n` events. -/
def forgetOverflows (thread n : ℕ) : Prog Int (Core × List Slot) Unit :=
  Prog.forCells (fun _ : Unit =>
    (Prog.onSnd (Prog.modify (·.clearOverflows thread)) : EventProg Unit)) n ()

/-- Go on only if these counts are zero. -/
def requireNoOverflows (thread n : ℕ) : Prog Int (Core × List Slot) Unit :=
  Prog.forCells (fun _ : Unit => (do
    let p ← Prog.get
    Prog.when ((p.2.threadCounter thread).overflows ≠ 0) (Prog.halt .exited) : EventProg Unit)) n ()

theorem forgetOverflows_fullData (thread n : ℕ) :
    Prog.Respects (startsFullData thread) (forgetOverflows thread n) :=
  .forCells_snd FullDataStarted.refl FullDataStarted.trans (fun _ => .onSnd_modify fun e t => by
    unfold PerfmonEventSetEntry.clearOverflows PerfmonEventSetEntry.onCounter
    dsimp only
    split
    · exact ⟨rfl, Or.inl rfl⟩
    · exact ⟨rfl, Or.inl rfl⟩) n ()

theorem requireNoOverflows_fullData (thread n : ℕ) :
    Prog.Respects (startsFullData thread) (requireNoOverflows thread n) :=
  .forCells_snd FullDataStarted.refl FullDataStarted.trans (fun _ => .bind .get fun _ =>
    .when fun _ => .halt _) n ()

/-- The backend with another start routine. -/
def Backend.withStart (B : Backend) (start : ThreadRoutine)
    (h : ∀ thread cpu mask n, Prog.Respects (startsFullData thread) (start thread cpu mask n)) :
    Backend :=
  { B with startCountersThread := start, start_fullData := h }

/-- **What is asked of the code**: a start forgets the overflows recorded before
it, so that every interval counts its own. -/
def Backend.forgetting (B : Backend) : Backend :=
  B.withStart
    (fun thread cpu mask n => do
      forgetOverflows thread n
      B.startCountersThread thread cpu mask n)
    fun thread cpu mask n =>
      .bind (forgetOverflows_fullData thread n) fun _ => B.start_fullData thread cpu mask n

/-- The code, but a start that finds an overflow recorded before it exits. -/
def Backend.fromZero (B : Backend) : Backend :=
  B.withStart
    (fun thread cpu mask n => do
      requireNoOverflows thread n
      B.startCountersThread thread cpu mask n)
    fun thread cpu mask n =>
      .bind (requireNoOverflows_fullData thread n) fun _ => B.start_fullData thread cpu mask n

/-- Every start that the operation makes, in a switch as well, finds the overflow
counts at zero. -/
def StartsAtZero (M : Machine) (B : Backend) (s : Perfmon) (a : Op × ℚ) : Prop :=
  ∀ s', AnswerStep M B s a s' → AnswerStep M B.fromZero s a s'

theorem requireNoOverflows_forget (thread n : ℕ) :
    Follows (requireNoOverflows thread n) (forgetOverflows thread n) := by
  refine Follows.forCells (fun _ => ?_) n ()
  rintro ⟨c, e⟩
  by_cases h : (e.threadCounter thread).overflows = 0
  · refine Or.inl ?_
    have hsame : e.clearOverflows thread = e := onCounter_of_eq (by
      cases hr : e.threadCounter thread
      simp_all)
    have hcheck : (do
        let p ← Prog.get
        Prog.when ((p.2.threadCounter thread).overflows ≠ 0) (Prog.halt .exited) :
          EventProg Unit) (c, e) = .done () (c, e) := by
      refine (Prog.bind_of_done rfl).trans ?_
      dsimp only
      rw [Prog.when_of_neg (by simp [h])]
      rfl
    rw [hcheck]
    show Prog.Outcome.done () (c, e.clearOverflows thread) = _
    rw [hsame]
  · refine Or.inr ⟨.exited, (Prog.bind_of_done rfl).trans ?_⟩
    dsimp only
    rw [Prog.when_of_pos h]
    rfl

theorem requireNoOverflows_pure (thread n : ℕ) :
    Follows (requireNoOverflows thread n) (pure ()) := by
  refine .forCells_check (fun p => ?_) n
  by_cases h0 : (p.2.threadCounter thread).overflows = 0
  · refine Or.inl ((Prog.bind_of_done rfl).trans ?_).symm
    rw [Prog.when_of_neg (by simp [h0])]
  · refine Or.inr ⟨.exited, (Prog.bind_of_done rfl).trans ?_⟩
    rw [Prog.when_of_pos h0]
    rfl

section Starts

variable {start start' : ThreadRoutine}
  {h : ∀ thread cpu mask n, Prog.Respects (startsFullData thread) (start thread cpu mask n)}
  {h' : ∀ thread cpu mask n, Prog.Respects (startsFullData thread) (start' thread cpu mask n)}
  (hstart : ∀ thread cpu mask n, Follows (start thread cpu mask n) (start' thread cpu mask n))

include hstart

theorem callThread_follows (threadId g : ℕ) :
    Follows (callThread start threadId g) (callThread start' threadId g) :=
  .bind (.refl _) fun _ => .bind (.refl _) fun _ => .bind (.refl _) fun _ =>
    .zoom (.call (hstart _ _ _ _))

theorem startCountersOf_follows (groupId : Int) :
    Follows (perfmonStartCountersOf M (B.withStart start h) groupId)
      (perfmonStartCountersOf M (B.withStart start' h') groupId) :=
  .bind (.refl _) fun _ => .bind (.refl _) fun _ => .bind (.refl _) fun _ => .bind
    (Follows.closed.foldlM (fun _ _ _ => .bind (callThread_follows hstart _ _) fun _ => .refl _) ())
      fun _ => .refl _

theorem startCounters_follows :
    Follows (perfmonStartCounters M (B.withStart start h))
      (perfmonStartCounters M (B.withStart start' h')) :=
  .bind (.refl _) fun _ => .bind (.refl _) fun _ => startCountersOf_follows hstart _

theorem switchThread_follows (threadId : ℕ) (newGroup : Int) :
    Follows (perfmonSwitchActiveGroupThread M (B.withStart start h) threadId newGroup)
      (perfmonSwitchActiveGroupThread M (B.withStart start' h') threadId newGroup) :=
  .bind (.refl _) fun _ => .bind (.refl _) fun _ => .bind (.refl _) fun _ => .bind (.refl _)
    fun _ => .bind (.refl _) fun _ => .bind (.refl _) fun _ => .bind (.refl _) fun _ =>
      .bind (.refl _) fun _ => Follows.closed.when fun _ =>
        .bind (.call (startCounters_follows hstart)) fun _ => .refl _

variable (h h')

/-- Each call of one is followed by that of the other. -/
theorem call_follows (c : Call) :
    Follows (c.prog M (B.withStart start h)) (c.prog M (B.withStart start' h')) := by
  cases c with
  | startCounters => exact startCounters_follows hstart
  | startGroupCounters groupId =>
      exact .bind (.refl _) fun _ => .bind (.refl _) fun _ => startCountersOf_follows hstart _
  | switchActiveGroup newGroup =>
      exact .bind (.refl _) fun _ => Follows.closed.foldlM (fun _ th _ =>
        .bind (.call (switchThread_follows hstart th.threadId newGroup)) fun _ => .refl _) ()
  | _ => exact .refl _

theorem answer_follows {a : Op × ℚ} (hs : AnswerStep M (B.withStart start h) s a s') :
    AnswerStep M (B.withStart start' h') s a s' := by
  obtain ⟨op, r⟩ := a
  cases op with
  | query q => exact hs
  | call c =>
      unfold AnswerStep at hs ⊢
      rw [answer_call] at hs ⊢
      rcases call_follows h h' hstart c s with heq | ⟨k, hk⟩
      · rw [heq]
        exact hs
      · rw [hk] at hs
        cases hs

end Starts

theorem forgetting_of_fromZero {a : Op × ℚ} (h : AnswerStep M B.fromZero s a s') :
    AnswerStep M B.forgetting s a s' :=
  answer_follows _ _ (fun _ _ _ _ => .bind (requireNoOverflows_forget _ _) fun _ => .refl _) h

/-! ## Runs -/

/-- **Results in every state reached**: asking again is harmless exactly where
nothing is lowered, and a run whose starts find the overflow counts at zero is,
answer by answer, one of the code that forgets them. -/
theorem results_of_run {s0 : Perfmon} {log : List (Op × ℚ)}
    (h : Trace (fun s a s' => StartsAtZero M B s a ∧ AnswerStep M B s a s') s0 log s) :
    (∀ g e t, Repeatable M B s g e t ↔ ¬s.Lowers M g e t) ∧
      Trace (AnswerStep M B.forgetting) s0 log s := by
  refine ⟨fun g e t => repeatable_iff_not_lowers, h.mono fun u a v hstep => ?_⟩
  exact forgetting_of_fromZero (hstep.1 v hstep.2)

theorem step_of_fromZero {a : Op × ℚ} (h : AnswerStep M B.fromZero s a s') :
    StartsAtZero M B s a ∧ AnswerStep M B s a s' := by
  have hs : AnswerStep M B s a s' :=
    answer_follows _ B.start_fullData (fun thread cpu mask n =>
      show Follows
          (requireNoOverflows thread n >>= fun _ => B.startCountersThread thread cpu mask n)
          ((pure () : Prog Int (Core × List Slot) Unit) >>= fun _ =>
            B.startCountersThread thread cpu mask n) from
        .bind (requireNoOverflows_pure thread n) fun _ => .refl _) h
  refine ⟨fun t ht => ?_, hs⟩
  have heq : s' = t := by
    unfold AnswerStep at hs ht
    exact congrArg Prod.snd (Except.ok.inj (hs.symm.trans ht))
  exact heq ▸ h

/-- The answers to a sequence of operations and the state after them. -/
def Perfmon.answers (M : Machine) (B : Backend) :
    List Op → Perfmon → Option (List (Op × ℚ) × Perfmon)
  | [], s => some ([], s)
  | op :: ops, s =>
      match s.answer M B op with
      | .ok (r, s') => (Perfmon.answers M B ops s').map fun p => ((op, r) :: p.1, p.2)
      | .error _ => none

theorem trace_of_answers {ops : List Op} {p : List (Op × ℚ) × Perfmon}
    (h : Perfmon.answers M B ops s = some p) : Trace (AnswerStep M B) s p.1 p.2 := by
  induction ops generalizing s p with
  | nil =>
      obtain rfl := Option.some.inj h
      exact .nil
  | cons op ops ih =>
      unfold Perfmon.answers at h
      cases hr : s.answer M B op with
      | error k =>
          rw [hr] at h
          cases h
      | ok a =>
          obtain ⟨r, s1⟩ := a
          rw [hr] at h
          obtain ⟨q, hrest, rfl⟩ := Option.map_eq_some_iff.mp h
          exact .cons hr (ih hrest)

/-- A machine on which the first fixed counter runs backwards and reports an
overflow whenever it is asked. -/
def wrappingMachine : Machine :=
  { haswellMachine with
    accessData := fun n _ _ reg value =>
      if reg = 0x309 then BitVec.ofNat 64 (1000 - n)
      else if reg = msrPerfGlobalStatus then BitVec.allOnes 64
      else value }

/-- One event measured, with two reads. -/
def twoReads : List Op :=
  [.call (.init [0]), .call (.addEventSet "INSTR_RETIRED_ANY:FIXC0".toList 0),
    .call (.setupCounters 0), .call .startCounters, .call .readCounters, .call .readCounters]

theorem results_of_run_twoReads :
    let p := (Perfmon.boot.answers wrappingMachine (haswell wrappingMachine).fromZero twoReads).get
      (by decide +kernel)
    (∀ g e t, Repeatable wrappingMachine (haswell wrappingMachine) p.2 g e t ↔
        ¬p.2.Lowers wrappingMachine g e t) ∧
      Trace (AnswerStep wrappingMachine (haswell wrappingMachine).forgetting) Perfmon.boot
        p.1 p.2 :=
  results_of_run ((trace_of_answers (Option.some_get _).symm).mono fun _ _ _ => step_of_fromZero)

/-- The second read records an overflow, and a result asked for then lowers it. -/
theorem not_repeatable_twoReads : ∃ log s,
    Trace (AnswerStep wrappingMachine (haswell wrappingMachine)) Perfmon.boot log s ∧
      ¬∀ g e t, Repeatable wrappingMachine (haswell wrappingMachine) s g e t := by
  let p := (Perfmon.boot.answers wrappingMachine (haswell wrappingMachine) twoReads).get
    (by decide +kernel)
  refine ⟨p.1, p.2, trace_of_answers (Option.some_get _).symm, fun h => ?_⟩
  have hl : p.2.Lowers wrappingMachine 0 0 0 := by decide +kernel
  exact repeatable_iff_not_lowers.mp (h 0 0 0) hl

end Likwid
