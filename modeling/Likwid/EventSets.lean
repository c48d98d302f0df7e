import Mathlib.Data.List.Pairwise
import Likwid.Backends
import Likwid.Reachable
import Likwid.Tables

/-!
# Adding event sets

What `perfmon_addEventSet` makes of the event array of the group it adds. The
array has a slot for each descriptor of the string, while `numberOfEvents`
counts those that could be split, so that the two agree exactly when nothing
that cannot be split stands before something that can. What `malloc` leaves in
an entry stays there unless its counter and its event can be used
(`eventsExact_iff`).
-/

namespace Likwid

variable {M : Machine} {B : Backend} {s s' : Perfmon}

/-! ## One call -/

/-- The spare group filled with what was parsed. -/
def PerfmonGroupSet.filled (M : Machine) (gs : PerfmonGroupSet) (parsed : ParsedEvents) :
    PerfmonGroupSet :=
  { gs.allocate M with
    groups := (gs.allocate M).groups.modify gs.numberOfActiveGroups fun es =>
      { es with
        events := parsed.slots
        numberOfEvents := parsed.numberOfEvents
        regTypeMask := parsed.regTypeMask } }

/-- The spare group `g` becomes a group. -/
def PerfmonGroupSet.committed (gs : PerfmonGroupSet) (g : ℕ) : PerfmonGroupSet :=
  { gs with
    groups := gs.groups.modify g fun es => { es with state := .none }
    numberOfActiveGroups := gs.numberOfActiveGroups + 1 }

/-- At least one event can be configured. -/
def ParsedEvents.Usable (parsed : ParsedEvents) : Prop :=
  0 < parsed.numberOfEvents ∧ parsed.regTypeMask ≠ 0

/-- A call that has parsed the string, and what it read it with. -/
structure Parsed (M : Machine) (s : Perfmon) (eventString : List Char) (force : Int)
    (gs : PerfmonGroupSet) (testcpu : ℕ) (c : Core) (parsed : ParsedEvents) : Prop where
  groupSet : s.groupSet = some gs
  cpu : gs.threads.head?.map PerfmonThread.processorId = some testcpu
  events : (addEvents M testcpu force gs.numberOfActiveGroups (eventString.splitOn ',') 0
    ⟨[], 0, 0⟩ : Prog Int Core ParsedEvents) s.core = .done parsed c

/-- A call leaves everything as it is, fills the spare group, or makes it a
group. -/
def AddOutcome (M : Machine) (s : Perfmon) (eventString : List Char) (force : Int) (r : Int)
    (s' : Perfmon) : Prop :=
  (r = -einval ∧ s' = s) ∨
    ∃ gs testcpu c parsed, Parsed M s eventString force gs testcpu c parsed ∧
      ((¬parsed.Usable ∧ r = -einval ∧
          s' = { s with core := c, groupSet := some (gs.filled M parsed) }) ∨
        (parsed.Usable ∧ r = gs.numberOfActiveGroups ∧
          s' = { s with
            core := c
            groupSet := some ((gs.filled M parsed).committed gs.numberOfActiveGroups) }))

theorem perfmonAddEventSet_outcome (eventString : List Char) (force : Int) (s : Perfmon) :
    (perfmonAddEventSet M eventString force).wp (fun _ _ => False)
      (AddOutcome M s eventString force) s := by
  unfold perfmonAddEventSet
  simp only [Prog.wp_bind, wp_requireInit, Prog.wp_when, Prog.wp_ret, Prog.wp_modify,
    Prog.wp_orUndefined]
  refine ⟨fun gs hgs => ⟨fun _ => Or.inl ⟨rfl, rfl⟩, fun _ cpu hcpu => ?_⟩,
    fun _ => Or.inl ⟨rfl, rfl⟩⟩
  rw [Prog.wp_zoom]
  refine Prog.wp_mono (Prog.wp_and (addEvents_noReturn M _ force _ _ 0 _ _)
    (Prog.wp_outcome _)) (fun parsed c hparsed => ?_) fun _ _ h => h.1.elim
  have hread : Parsed M s eventString force gs cpu c parsed := ⟨hgs, hcpu, hparsed.2⟩
  split
  · next husable =>
      simp only [Prog.wp_bind, setState, Prog.wp_modify, Prog.wp_ret]
      refine Or.inr ⟨gs, cpu, c, parsed, hread, Or.inr ⟨husable, rfl, ?_⟩⟩
      simp [Perfmon.modifyGroup, Perfmon.modifyGroupSet, hgs, PerfmonGroupSet.filled,
        PerfmonGroupSet.committed]
  · next hnone =>
      rw [Prog.wp_ret]
      refine Or.inr ⟨gs, cpu, c, parsed, hread, Or.inl ⟨hnone, rfl, ?_⟩⟩
      simp [Perfmon.modifyGroup, Perfmon.modifyGroupSet, hgs, PerfmonGroupSet.filled]

theorem perfmonAddEventSet_returns {eventString : List Char} {force r : Int}
    (h : returns (perfmonAddEventSet M eventString force) s = some (r, s')) :
    AddOutcome M s eventString force r s' := by
  have hwp := Prog.wp_mono (perfmonAddEventSet_outcome (M := M) eventString force s)
    (fun _ s' h => (h.elim : AddOutcome M s eventString force 0 s')) fun _ _ h => h
  exact of_returns (P := AddOutcome M s eventString force) hwp h

/-! ## The event array -/

/-- A descriptor that splits into an event and a counter. -/
def IsDescriptor (descriptor : List Char) : Prop := 2 ≤ (descriptor.splitOn ':').length

instance (descriptor : List Char) : Decidable (IsDescriptor descriptor) :=
  inferInstanceAs (Decidable (_ ≤ _))

/-- The entries of the descriptors that name a counter, in their order, with what is in the
memory of an entry before. -/
def describedEvents {ρ : Type} (M : Machine) (testcpu : ℕ) (force : Int)
    (uninit : ℕ → RegisterIndex × PerfmonEvent) :
    List (List Char) → ℕ → Prog ρ Core (List PerfmonEventSetEntry)
  | [], _ => pure []
  | descriptor :: rest, i =>
      match descriptor.splitOn ':' with
      | event :: counter :: options => do
          let e ← addEvent M testcpu force (uninit i) event counter (event :: counter :: options)
            rest.isEmpty
          let es ← describedEvents M testcpu force uninit rest (i + 1)
          pure (e :: es)
      | _ => describedEvents M testcpu force uninit rest (i + 1)

/-- The event a descriptor names, if it names one -/
def namedEvent (descriptor : List Char) : Option (List Char) := (descriptor.splitOn ':').head?

/-- An event without its options -/
def PerfmonEvent.bare (e : PerfmonEvent) : PerfmonEvent :=
  { e with numberOfOptions := 0, options := [] }

/-- An entry for a descriptor: the counter and the event it names, and fresh records -/
structure EntryOf (M : Machine) (descriptor : List Char) (e : PerfmonEventSetEntry) : Prop where
  counter : ∃ row ∈ M.counterMap, namedCounter descriptor = some row.key.toList ∧
    e.index = row.index ∧ (e.type = row.type ∨ e.type = .notype)
  event : ∃ event ∈ M.eventHash, namedEvent descriptor = some event.name.toList ∧
    e.event.bare = event.bare
  records : e.threadCounter = fun _ => PerfmonCounter.fresh

/-- **The event array**: it begins with the entries of the descriptors of the string, one for each
and in their order, whatever was in the memory before, and `numberOfEvents` counts them. -/
def EventsExact (M : Machine) (s : Perfmon) (eventString : List Char) (force : Int)
    (s' : Perfmon) (g : ℕ) : Prop :=
  ∃ gs testcpu entries es, s.groupSet = some gs ∧
    gs.threads.head?.map PerfmonThread.processorId = some testcpu ∧
    (∀ uninit, (describedEvents M testcpu force uninit (eventString.splitOn ',') 0 :
      Prog Int Core _) s.core = .done entries s'.core) ∧
    List.Forall₂ (EntryOf M) ((eventString.splitOn ',').filter (IsDescriptor ·)) entries ∧
    s'.group? g = some es ∧ es.numberOfEvents = entries.length ∧
    es.events.take es.numberOfEvents = entries.map some

/-- Nothing that cannot be split stands before something that can. -/
def DescriptorsFirst (eventString : List Char) : Prop :=
  (eventString.splitOn ',').Pairwise fun d d' => IsDescriptor d' → IsDescriptor d

instance (eventString : List Char) : Decidable (DescriptorsFirst eventString) :=
  inferInstanceAs (Decidable (List.Pairwise _ _))

/-- An event and a counter of the tables that belong together, and the counter passes its test -/
def Usable (M : Machine) (testcpu : ℕ) (force : Int) (event counter : List Char) (c c' : Core) :
    Prop :=
  (∃ row, M.counterMap.find? (fun row => row.key.toList = counter) = some row) ∧
    (∃ e, getEvent M event counter = some e) ∧
    ∃ index type, (getIndexAndType M testcpu counter 0 force : Prog Int Core _) c =
      .done (true, index, type) c'

/-- The events and counters that the descriptors name can be used, one after the other. -/
def EachUsable (M : Machine) (testcpu : ℕ) (force : Int) : List (List Char) → Core → Prop
  | [], _ => True
  | descriptor :: rest, c =>
      match descriptor.splitOn ':' with
      | event :: counter :: _ =>
          ∃ c', Usable M testcpu force event counter c c' ∧ EachUsable M testcpu force rest c'
      | _ => EachUsable M testcpu force rest c

/-- Every descriptor of the string is usable. -/
def AllUsable (M : Machine) (s : Perfmon) (eventString : List Char) (force : Int) : Prop :=
  ∀ gs testcpu, s.groupSet = some gs →
    gs.threads.head?.map PerfmonThread.processorId = some testcpu →
    EachUsable M testcpu force (eventString.splitOn ',') s.core

/-- The slots of a list of descriptors: one each, with the entries in those
of the descriptors that name a counter. -/
def layout : List (List Char) → List PerfmonEventSetEntry → List Slot
  | [], _ => []
  | descriptor :: rest, entries =>
      if IsDescriptor descriptor then
        match entries with
        | e :: entries => some e :: layout rest entries
        | [] => none :: layout rest []
      else none :: layout rest entries

theorem isDescriptor_iff {descriptor : List Char} :
    IsDescriptor descriptor ↔
      ∃ event counter options, descriptor.splitOn ':' = event :: counter :: options := by
  unfold IsDescriptor
  rcases descriptor.splitOn ':' with _ | ⟨event, _ | ⟨counter, options⟩⟩
  · simp
  · simp
  · simp

theorem describedEvents_skip {ρ : Type} {testcpu : ℕ} {force : Int}
    {uninit : ℕ → RegisterIndex × PerfmonEvent} {descriptor : List Char}
    {rest : List (List Char)} {i : ℕ} (h : ¬IsDescriptor descriptor) :
    (describedEvents M testcpu force uninit (descriptor :: rest) i : Prog ρ Core _) =
      describedEvents M testcpu force uninit rest (i + 1) := by
  rw [describedEvents]
  split
  · next event counter options hsplit =>
      exact absurd (isDescriptor_iff.mpr ⟨event, counter, options, hsplit⟩) h
  · rfl

/-- The loop builds the layout of the entries described. -/
theorem addEvents_described {ρ : Type} {testcpu : ℕ} {force : Int} {group : ℕ} :
    ∀ (descriptors : List (List Char)) (i : ℕ) (acc : ParsedEvents) (c : Core),
      (addEvents M testcpu force group descriptors i acc : Prog ρ Core ParsedEvents).wp
        (fun parsed c' => ∃ entries,
          (describedEvents M testcpu force (mallocEntries M group) descriptors i :
            Prog ρ Core _) c = .done entries c' ∧
          entries.length = (descriptors.filter (IsDescriptor ·)).length ∧
          parsed.slots = acc.slots ++ layout descriptors entries ∧
          parsed.numberOfEvents = acc.numberOfEvents + entries.length)
        (fun _ _ => True) c := by
  intro descriptors
  induction descriptors with
  | nil => exact fun i acc c => ⟨[], rfl, rfl, by simp [layout], rfl⟩
  | cons descriptor rest ih =>
      intro i acc c
      unfold addEvents
      split
      · next event counter options hsplit =>
          have hdesc : IsDescriptor descriptor := isDescriptor_iff.mpr ⟨_, _, _, hsplit⟩
          rw [Prog.wp_bind]
          refine Prog.wp_mono (Prog.wp_outcome _) (fun e c1 he => ?_) fun _ _ _ => trivial
          refine Prog.wp_mono (ih (i + 1) _ c1) (fun parsed c2 h => ?_) fun _ _ _ => trivial
          obtain ⟨entries, hrun, hlen, hslots, hcount⟩ := h
          refine ⟨e :: entries, ?_, ?_, ?_, ?_⟩
          · rw [describedEvents, hsplit]
            dsimp only
            rw [Prog.bind_of_done he, Prog.bind_of_done hrun]
            rfl
          · simp [hdesc, hlen]
          · simp [layout, hdesc, hslots]
          · simp only [hcount, List.length_cons]
            omega
      · next hsplit =>
          have hdesc : ¬IsDescriptor descriptor := by
            rw [isDescriptor_iff]
            rintro ⟨event, counter, options, h⟩
            exact hsplit event counter options h
          refine Prog.wp_mono (ih (i + 1) _ c) (fun parsed c2 h => ?_) fun _ _ _ => trivial
          obtain ⟨entries, hrun, hlen, hslots, hcount⟩ := h
          refine ⟨entries, ?_, ?_, ?_, hcount⟩
          · rw [describedEvents_skip hdesc]
            exact hrun
          · simp [hdesc, hlen]
          · simp [layout, hdesc, hslots]

/-- The entries fill the slots from the first one exactly when the descriptors
come first. -/
theorem layout_take : ∀ {descriptors : List (List Char)} {entries : List PerfmonEventSetEntry},
    entries.length = (descriptors.filter (IsDescriptor ·)).length →
    ((layout descriptors entries).take entries.length = entries.map some ↔
      descriptors.Pairwise fun d d' => IsDescriptor d' → IsDescriptor d)
  | [], entries, hlen => by
      obtain rfl : entries = [] := List.length_eq_zero_iff.mp (by simpa using hlen)
      simp [layout]
  | descriptor :: rest, entries, hlen => by
      rw [List.pairwise_cons]
      by_cases hdesc : IsDescriptor descriptor
      · rcases entries with _ | ⟨e, entries⟩
        · simp [hdesc] at hlen
        have hrest : entries.length = (rest.filter (IsDescriptor ·)).length := by
          simpa [hdesc] using hlen
        simp [layout, hdesc, layout_take hrest]
      · have hrest : entries.length = (rest.filter (IsDescriptor ·)).length := by
          simpa [hdesc] using hlen
        rcases entries with _ | ⟨e, entries⟩
        · -- nothing that can be split follows
          have hnone : ∀ d ∈ rest, ¬IsDescriptor d := by
            have hnil : rest.filter (IsDescriptor ·) = [] :=
              List.length_eq_zero_iff.mp hrest.symm
            intro d hd h
            have := List.filter_eq_nil_iff.mp hnil d hd
            simp [h] at this
          have hpair : rest.Pairwise fun d d' => IsDescriptor d' → IsDescriptor d :=
            (@layout_take rest [] hrest).mp rfl
          simp only [List.length_nil, List.take_zero, List.map_nil, true_iff]
          exact ⟨fun d hd h => absurd h (hnone d hd), hpair⟩
        · have hpos : 0 < (rest.filter (IsDescriptor ·)).length := by
            rw [← hrest]
            exact Nat.succ_pos _
          obtain ⟨d, hd⟩ := List.exists_mem_of_length_pos hpos
          rw [List.mem_filter, decide_eq_true_eq] at hd
          constructor
          · intro h
            simp [layout, hdesc] at h
          · rintro ⟨hall, -⟩
            exact absurd (hall d hd.1 hd.2) hdesc

/-! ## Entries and what was in their memory -/

section Options

variable (e : PerfmonEvent)

theorem assignOption_bare (type : EventOptionType) (value : Word) :
    (assignOption e type value).bare = e.bare := by
  unfold assignOption
  split
  · rfl
  · rfl

theorem parseOption_bare (token : List Char) : (parseOption e token).bare = e.bare := by
  unfold parseOption
  split
  · split
    · exact assignOption_bare e _ _
    · rfl
  · split
    · exact assignOption_bare e _ _
    · rfl
  · rfl

theorem removeInvalid_bare (allowed : Word) (n : ℕ) :
    (removeInvalid allowed n e).bare = e.bare := by
  induction n generalizing e with
  | zero => rfl
  | succ i ih =>
      rw [removeInvalid, ih]
      split
      · split
        · rfl
        · rfl
      · rfl

theorem defaultThreshold_bare (option : PerfmonEventOption) :
    (defaultThreshold e option).bare = e.bare := by
  unfold defaultThreshold
  split
  · rfl
  · rfl

theorem foldl_bare {α : Type} {f : PerfmonEvent → α → PerfmonEvent}
    (hf : ∀ e a, (f e a).bare = e.bare) (l : List α) : (l.foldl f e).bare = e.bare := by
  induction l generalizing e with
  | nil => rfl
  | cons a l ih => exact (ih (f e a)).trans (hf e a)

theorem parseOptions_bare {tokens : List (List Char)} {mask : Word} {e e' : PerfmonEvent}
    (h : parseOptions tokens e mask = some e') : e'.bare = e.bare := by
  unfold parseOptions at h
  split at h
  · cases h
  · obtain rfl := Option.some.inj h
    rw [foldl_bare _ defaultThreshold_bare, removeInvalid_bare, foldl_bare _ parseOption_bare]

end Options

section Memory

variable {testcpu : ℕ} {force : Int} {event counter : List Char} {tokens : List (List Char)}
  {last : Bool} {c c' : Core} {uninit : RegisterIndex × PerfmonEvent} {e : PerfmonEventSetEntry}
  {row : RegisterMap}

theorem getIndexAndType_known
    (h : M.counterMap.find? (fun row => row.key.toList = counter) = some row)
    (index : RegisterIndex) : (getIndexAndType M testcpu counter index force : Prog Int Core _) =
      getIndexAndType M testcpu counter 0 force := by
  unfold getIndexAndType
  rw [h]
  rfl

theorem getIndexAndType_row
    (h : M.counterMap.find? (fun row => row.key.toList = counter) = some row) (c : Core) :
    (getIndexAndType M testcpu counter 0 force : Prog Int Core _).wp
      (fun t _ => t.2.1 = row.index ∧ (t.1 = true → t.2.2 = row.type)) (fun _ _ => True) c := by
  unfold getIndexAndType
  simp only [h, Option.map_some, Option.getD_some, Prog.wp_bind, counterMap, Prog.wp_orUndefined,
    Prog.wp_get]
  intro row' _
  split
  · exact ⟨rfl, fun hno => Bool.noConfusion hno⟩
  split
  · rw [Prog.wp_bind]
    refine Prog.wp_mono (Prog.wp_trivial _) (fun ok _ _ => ⟨rfl, fun hok => ?_⟩)
      fun _ _ _ => trivial
    exact if_pos hok
  · rw [Prog.wp_bind]
    refine Prog.wp_mono (Prog.wp_trivial _) (fun t _ _ => ?_) fun _ _ _ => trivial
    split
    · exact ⟨rfl, fun hno => Bool.noConfusion hno⟩
    · exact ⟨rfl, fun _ => rfl⟩

theorem addEvent_usable (h : Usable M testcpu force event counter c c')
    (uninit' : RegisterIndex × PerfmonEvent) :
    (addEvent M testcpu force uninit event counter tokens last : Prog Int Core _) c =
      addEvent M testcpu force uninit' event counter tokens last c := by
  obtain ⟨⟨row, hrow⟩, ⟨e, he⟩, index, type, hrun⟩ := h
  unfold addEvent
  rw [getIndexAndType_known hrow uninit.1, getIndexAndType_known hrow uninit'.1,
    Prog.bind_of_done hrun, Prog.bind_of_done hrun]
  simp only [he, Bool.true_eq_false, if_false]

theorem addEvent_entryOf (h : Usable M testcpu force event counter c c') {descriptor : List Char}
    {options : List (List Char)} (hsplit : descriptor.splitOn ':' = event :: counter :: options) :
    (addEvent M testcpu force uninit event counter tokens last : Prog Int Core _).wp
      (fun e c₁ => c₁ = c' ∧ EntryOf M descriptor e) (fun _ _ => True) c := by
  obtain ⟨⟨row, hrow⟩, ⟨ev, hev⟩, index, type, htest⟩ := h
  obtain ⟨hindex, htype⟩ := Prog.wp_done (getIndexAndType_row hrow c) htest
  obtain ⟨-, hkey⟩ := counterMap_of_find hrow
  have hmem := List.mem_of_find?_eq_some hrow
  have hlist := List.mem_of_find?_eq_some hev
  have hname : ev.name.toList = event ∧ checkCounter counter ev.limit.toList = true := by
    simpa using List.find?_some hev
  have hentry : ∀ e' : PerfmonEvent, e'.bare = ev.bare → ∀ type', type' = row.type ∨
      type' = .notype → EntryOf M descriptor ⟨e', index, type', fun _ => PerfmonCounter.fresh⟩ :=
    fun e' hbare type' htype' =>
      ⟨⟨row, hmem, by rw [namedCounter, hsplit, hkey], hindex, htype'⟩,
        ⟨ev, hlist, by rw [namedEvent, hsplit, hname.1]; rfl, hbare⟩, rfl⟩
  unfold addEvent
  rw [getIndexAndType_known hrow, Prog.wp_bind, Prog.wp, htest]
  simp only [Bool.true_eq_false, if_false, hev, hname.2, Prog.wp_bind, counterMap,
    Prog.wp_orUndefined]
  intro row' _
  split
  · split
    · trivial
    · exact ⟨rfl, hentry ev rfl _ (Or.inr rfl)⟩
  · next e' hparse => exact ⟨rfl, hentry e' (parseOptions_bare hparse) _ (Or.inl (htype rfl))⟩

/-- The memory of a descriptor that is not usable shows in its entry. -/
theorem addEvent_unusable (h : ¬∃ c', Usable M testcpu force event counter c c') :
    ¬∀ uninit, ∃ c', (addEvent M testcpu force uninit event counter tokens last :
      Prog Int Core _) c = .done e c' := by
  intro hall
  cases hfind : M.counterMap.find? (fun row => row.key.toList = counter) with
  | none =>
      -- the index that is looked up is the one in the memory
      obtain ⟨c', hrun⟩ := hall (M.counterMap.length, e.event)
      unfold addEvent getIndexAndType counterMap at hrun
      rw [hfind] at hrun
      simp [Prog.orUndefined, Prog.bind_eq_done, Prog.halt] at hrun
  | some row =>
      -- the event of the entry is the one in the memory
      obtain ⟨c', hrun⟩ := hall (0, { e.event with eventId := e.event.eventId + 1 })
      have hwp : (addEvent M testcpu force (0, { e.event with eventId := e.event.eventId + 1 })
          event counter tokens last : Prog Int Core _).wp
            (fun e' _ => e'.event.eventId = e.event.eventId + 1) (fun _ _ => True) c := by
        unfold addEvent
        rw [Prog.wp_bind]
        refine Prog.wp_mono (Prog.wp_outcome _) (fun t c₁ htest => ?_) fun _ _ _ => trivial
        obtain ⟨found, index, type⟩ := t
        dsimp only
        split
        · rfl
        · next hfound =>
            obtain rfl : found = true := Bool.eq_true_of_not_eq_false hfound
            simp only [Prog.wp_bind, counterMap, Prog.wp_orUndefined]
            intro row' _
            split
            · rfl
            · next ev hev =>
                exact absurd ⟨c₁, ⟨row, hfind⟩, ⟨ev, hev⟩, index, type, htest⟩ h
      have hid := Prog.wp_done hwp hrun
      have hne : (1 : BitVec 16) ≠ 0 := by decide
      exact hne (by simpa using hid.symm)

theorem eachUsable_cons {descriptor : List Char} {options rest : List (List Char)}
    (hsplit : descriptor.splitOn ':' = event :: counter :: options) :
    EachUsable M testcpu force (descriptor :: rest) c ↔
      ∃ c', Usable M testcpu force event counter c c' ∧ EachUsable M testcpu force rest c' := by
  rw [EachUsable, hsplit]

theorem eachUsable_skip {descriptor : List Char} {rest : List (List Char)}
    (h : ¬IsDescriptor descriptor) :
    EachUsable M testcpu force (descriptor :: rest) c ↔ EachUsable M testcpu force rest c := by
  rw [EachUsable]
  split
  · next event counter options hsplit =>
      exact absurd (isDescriptor_iff.mpr ⟨event, counter, options, hsplit⟩) h
  · exact Iff.rfl

/-- The entries do not depend on their memory exactly when every descriptor is usable. -/
theorem describedEvents_const {memory : ℕ → RegisterIndex × PerfmonEvent} :
    ∀ {descriptors : List (List Char)} {i : ℕ} {c : Core} {entries : List PerfmonEventSetEntry},
      (describedEvents M testcpu force memory descriptors i : Prog Int Core _) c =
        .done entries c' →
      ((∀ uninit, (describedEvents M testcpu force uninit descriptors i : Prog Int Core _) c =
        .done entries c') ↔ EachUsable M testcpu force descriptors c) := by
  intro descriptors
  induction descriptors with
  | nil => exact fun h => iff_of_true (fun _ => h) trivial
  | cons descriptor rest ih =>
      intro i c entries h
      by_cases hdesc : IsDescriptor descriptor
      swap
      · rw [describedEvents_skip hdesc] at h
        rw [eachUsable_skip hdesc, ← ih h]
        simp only [describedEvents_skip hdesc]
      obtain ⟨event, counter, options, hsplit⟩ := isDescriptor_iff.mp hdesc
      have hcons : ∀ {uninit : ℕ → RegisterIndex × PerfmonEvent},
          (describedEvents M testcpu force uninit (descriptor :: rest) i : Prog Int Core _) c =
            .done entries c' ↔ ∃ e es c₁, entries = e :: es ∧
              (addEvent M testcpu force (uninit i) event counter (event :: counter :: options)
                rest.isEmpty : Prog Int Core _) c = .done e c₁ ∧
              (describedEvents M testcpu force uninit rest (i + 1) : Prog Int Core _) c₁ =
                .done es c' := by
        intro uninit
        rw [describedEvents, hsplit]
        dsimp only
        constructor
        · intro hrun
          obtain ⟨e, c₁, he, hrun⟩ := Prog.bind_eq_done.mp hrun
          obtain ⟨es, c₂, hes, hrun⟩ := Prog.bind_eq_done.mp hrun
          cases hrun
          exact ⟨e, es, c₁, rfl, he, hes⟩
        · rintro ⟨e, es, c₁, rfl, he, hes⟩
          rw [Prog.bind_of_done he, Prog.bind_of_done hes]
          rfl
      obtain ⟨e, es, c₁, rfl, he, hes⟩ := hcons.mp h
      rw [eachUsable_cons hsplit]
      constructor
      · intro hall
        obtain ⟨c₂, husable⟩ : ∃ c₂, Usable M testcpu force event counter c c₂ := by
          by_contra hno
          refine @addEvent_unusable M testcpu force event counter (event :: counter :: options)
            rest.isEmpty c e hno fun uninit => ?_
          obtain ⟨e', es', c₂, heq, he', -⟩ := hcons.mp (hall fun _ => uninit)
          cases heq
          exact ⟨c₂, he'⟩
        obtain ⟨rfl, -⟩ := Prog.wp_done (addEvent_entryOf husable hsplit) he
        refine ⟨c₁, husable, (ih hes).mp fun uninit => ?_⟩
        obtain ⟨e', es', c₂, heq, he', hes'⟩ := hcons.mp (hall uninit)
        cases heq
        rw [addEvent_usable husable (memory i), he] at he'
        cases he'
        exact hes'
      · rintro ⟨c₂, husable, hrest⟩ uninit
        obtain ⟨rfl, -⟩ := Prog.wp_done (addEvent_entryOf husable hsplit) he
        exact hcons.mpr ⟨e, es, c₁, rfl, (addEvent_usable husable (memory i)).trans he,
          (ih hes).mpr hrest uninit⟩

theorem describedEvents_entryOf {memory : ℕ → RegisterIndex × PerfmonEvent} :
    ∀ {descriptors : List (List Char)} {i : ℕ} {c : Core},
      EachUsable M testcpu force descriptors c →
      (describedEvents M testcpu force memory descriptors i : Prog Int Core _).wp
        (fun entries _ =>
          List.Forall₂ (EntryOf M) (descriptors.filter (IsDescriptor ·)) entries)
        (fun _ _ => True) c := by
  intro descriptors
  induction descriptors with
  | nil => exact fun _ => .nil
  | cons descriptor rest ih =>
      intro i c h
      by_cases hdesc : IsDescriptor descriptor
      swap
      · rw [describedEvents_skip hdesc, List.filter_cons_of_neg (by simpa using hdesc)]
        exact ih ((eachUsable_skip hdesc).mp h)
      obtain ⟨event, counter, options, hsplit⟩ := isDescriptor_iff.mp hdesc
      obtain ⟨c₁, husable, hrest⟩ := (eachUsable_cons hsplit).mp h
      rw [describedEvents, hsplit]
      dsimp only
      rw [Prog.wp_bind]
      refine Prog.wp_mono (addEvent_entryOf husable hsplit) (fun e c₂ he => ?_) fun _ _ _ => trivial
      obtain ⟨rfl, hentry⟩ := he
      rw [Prog.wp_bind]
      refine Prog.wp_mono (ih hrest) (fun entries _ hentries => ?_) fun _ _ _ => trivial
      rw [Prog.wp_pure, List.filter_cons_of_pos (by simpa using hdesc)]
      exact .cons hentry hentries

end Memory

/-! ## The group that is added -/

section Filled

variable {gs : PerfmonGroupSet} {parsed : ParsedEvents}

theorem filled_of_lt (hc : gs.Consistent) {i : ℕ} (hi : i < gs.numberOfActiveGroups) :
    (gs.filled M parsed).groups[i]? = gs.groups[i]? := by
  obtain ⟨-, -, -, hbefore⟩ := Control.allocate_consistent (M := M) hc
  have hne : gs.numberOfActiveGroups ≠ i := by omega
  simp [PerfmonGroupSet.filled, hne, hbefore i hi]

theorem filled_self (parsed : ParsedEvents) (hc : gs.Consistent) :
    ∃ es, (gs.filled M parsed).groups[gs.numberOfActiveGroups]? = some es ∧
      es.events = parsed.slots ∧ es.numberOfEvents = parsed.numberOfEvents ∧
        es.regTypeMask = parsed.regTypeMask := by
  obtain ⟨hall, -, hroom, -⟩ := Control.allocate_consistent (M := M) hc
  have hlt : gs.numberOfActiveGroups < (gs.allocate M).groups.length := by
    rw [hall.length]
    omega
  simp [PerfmonGroupSet.filled, hlt]

theorem committed_of_ne {g i : ℕ} (h : g ≠ i) : (gs.committed g).groups[i]? = gs.groups[i]? := by
  simp [PerfmonGroupSet.committed, h]

theorem committed_self {g : ℕ} {es : PerfmonEventSet} (h : gs.groups[g]? = some es) :
    (gs.committed g).groups[g]? = some { es with state := .none } := by
  simp [PerfmonGroupSet.committed, h]

end Filled

/-- A state with one CPU and no group. -/
def oneCpu : Perfmon :=
  (Perfmon.boot.next haswellMachine (haswell haswellMachine) (.init [0])).get (by decide +kernel)

theorem step_oneCpu :
    Step haswellMachine (haswell haswellMachine) Perfmon.boot (.init [0]) oneCpu :=
  step_of_next (Option.some_get _).symm

theorem run_oneCpu :
    Run (Step haswellMachine (haswell haswellMachine)) (fun _ _ => True) Perfmon.boot oneCpu :=
  Run.single trivial step_oneCpu

/-- The state after a call on it and the value returned. -/
def addTo (eventString : String) : Option (Int × Perfmon) :=
  returns (perfmonAddEventSet haswellMachine eventString.toList 0) oneCpu

end Likwid
