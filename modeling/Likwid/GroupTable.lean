import Likwid.EventSets
import Likwid.Lib.Total

/-!
# The group table

What `perfmon_addEventSet` makes of the group table, after any mix of successful
and failed calls (`groupTable_of_additions`). A call comes to its end exactly
when its string is `Addable`: when a counter is in use the process exits, an
unknown counter is looked up at the index that `malloc` left, and the tokens of
the last descriptor are destroyed twice when it has too many options.
-/

namespace Likwid

variable {M : Machine} {B : Backend} {s s' : Perfmon}

/-! ## Calls that return -/

/-- Looking up the counter ends the process: its control register has settings, and there is no
force to overwrite them. -/
def InUse (M : Machine) (testcpu : ℕ) (force : Int) (row : RegisterMap) (c : Core) : Prop :=
  let answer := readAnswer M c testcpu row.device row.configRegister
  force = 0 ∧ row.configRegister ≠ 0 ∧ answer.2 ≠ 0 ∧ (answer.1 ≠ 0 ∨ row.type ≠ .fixed)

/-- The look-up of a counter comes to its end: the row of the table that it looks at is there,
and the counter is not in use. -/
def LookupEnds (M : Machine) (testcpu : ℕ) (force : Int) (counter : List Char)
    (uninit : RegisterIndex) (c : Core) : Prop :=
  match M.counterMap.find? (fun row => row.key.toList = counter) with
  | none => uninit < M.counterMap.length
  | some row => hpmCheck M c row.device 0 ≠ 0 → ¬isFreeRunning row.type →
      ¬InUse M testcpu force row c

/-- The descriptors can all be added, one after the other: each counter is looked up in the state
that the ones before leave, and the last one has no more options than there is room for. -/
def EachEnds (M : Machine) (testcpu : ℕ) (force : Int) (group : ℕ) :
    List (List Char) → ℕ → Core → Prop
  | [], _, _ => True
  | descriptor :: rest, i, c =>
      match descriptor.splitOn ':' with
      | event :: counter :: options =>
          LookupEnds M testcpu force counter (M.mallocIndex group i) c ∧
            (getIndexAndType M testcpu counter (M.mallocIndex group i) force : Prog Int Core _).wp
              (fun t c' => (rest = [] → t.1 = true → (getEvent M event counter).isSome →
                options.length ≤ numEventOptions) ∧ EachEnds M testcpu force group rest (i + 1) c')
              (fun _ _ => True) c
      | _ => EachEnds M testcpu force group rest (i + 1) c

section Ends

variable {testcpu : ℕ} {force : Int} {counter event : List Char} {uninit : RegisterIndex}
  {row : RegisterMap} {c : Core}

/-- The run does not halt. -/
abbrev Ended {α : Type} (m : Prog Int Core α) (c : Core) : Prop :=
  m.twp (fun _ _ => True) (fun _ _ => True) c

theorem twp_hpmRead {dev : PciDeviceIndex} {reg : ℕ} {Q : Int × Word → Core → Prop}
    {R : Int → Core → Prop} : (hpmRead M testcpu dev reg).twp Q R c ↔
      Q (readAnswer M c testcpu dev reg) (c.log ⟨.read, testcpu, dev, reg,
        (readAnswer M c testcpu dev reg).2, (readAnswer M c testcpu dev reg).1⟩) := Iff.rfl

theorem ended_hpmWrite (dev : PciDeviceIndex) (reg : ℕ) (data : Word) :
    Ended (hpmWrite M testcpu dev reg data) c := trivial

theorem ended_overwriteSettings {dev : PciDeviceIndex} {reg : ℕ} {type : RegisterType} :
    Ended (overwriteSettings M testcpu dev reg type force) c ↔
      ¬(force = 0 ∧ type ≠ .fixed ∧ ¬isFreeRunning type) := by
  unfold Ended overwriteSettings
  by_cases h1 : force = 1
  · rw [if_pos h1, Prog.twp_bind]
    refine iff_of_true (ended_hpmWrite _ _ _) fun h => ?_
    omega
  · rw [if_neg h1]
    simp

theorem ended_testCounter (hfree : ¬isFreeRunning row.type) :
    Ended (testCounter M testcpu row force) c ↔ ¬InUse M testcpu force row c := by
  have hnotype : ¬isFreeRunning .notype := by decide
  unfold Ended testCounter InUse
  rw [Prog.twp_bind, twp_hpmRead]
  by_cases hconfig : row.configRegister = 0
  · -- without a control register nothing is overwritten
    refine iff_of_true ?_ fun h => h.2.1 hconfig
    rw [if_pos hconfig]
    dsimp only
    split
    · simp [hconfig]
    · split
      · rw [Prog.twp_bind]
        exact ended_hpmWrite _ _ _
      · simp [hconfig]
  rw [if_neg hconfig]
  dsimp only
  split
  · next herr =>
      simp only [Prog.twp_bind, Prog.twp_when, Prog.twp_pure]
      simp [hconfig, herr, hnotype, ended_overwriteSettings]
      tauto
  · next herr =>
      split
      · next hzero =>
          rw [Prog.twp_bind]
          exact iff_of_true (ended_hpmWrite _ _ _) fun h => h.2.2.1 hzero
      · next hzero =>
          simp [hconfig, not_not.mp herr, hfree, ended_overwriteSettings]
          tauto

/-- **The look-up of a counter**: when it comes to its end -/
theorem ended_getIndexAndType :
    Ended (getIndexAndType M testcpu counter uninit force) c ↔
      LookupEnds M testcpu force counter uninit c := by
  unfold Ended getIndexAndType LookupEnds
  simp only [counterMap, Prog.twp_bind, Prog.twp_orUndefined, Prog.twp_get]
  cases hfind : M.counterMap.find? (fun row => row.key.toList = counter) with
  | none =>
      simp only [Option.map_none, Option.getD_none]
      constructor
      · rintro ⟨row, hrow, -⟩
        exact (List.getElem?_eq_some_iff.mp hrow).1
      · intro hlt
        refine ⟨_, List.getElem?_eq_getElem hlt, ?_⟩
        split
        · trivial
        · trivial
  | some found =>
      obtain ⟨hrow, -⟩ := counterMap_of_find hfind
      simp only [Option.map_some, Option.getD_some, hrow, Option.some.injEq, exists_eq_left']
      by_cases hpresent : hpmCheck M c found.device 0 = 0
      · rw [if_pos hpresent]
        exact iff_of_true trivial fun h => absurd hpresent h
      rw [if_neg hpresent]
      by_cases hfree : isFreeRunning found.type
      · rw [if_neg (not_not.mpr hfree), Prog.twp_bind]
        refine iff_of_true ?_ fun _ h => absurd hfree h
        rw [twp_hpmRead]
        split
        · trivial
        · trivial
      · rw [if_pos hfree, Prog.twp_bind]
        refine (ended_testCounter hfree).trans ⟨fun h _ _ => h, fun h => h hpresent hfree⟩

theorem getIndexAndType_lt :
    (getIndexAndType M testcpu counter uninit force : Prog Int Core _).wp
      (fun t _ => ∃ row, M.counterMap[t.2.1]? = some row) (fun _ _ => True) c := by
  unfold getIndexAndType
  simp only [Prog.wp_bind, counterMap, Prog.wp_orUndefined, Prog.wp_get]
  generalize Option.getD _ uninit = index
  intro row hrow
  split
  · exact ⟨row, hrow⟩
  cases M.counterMap.find? (fun row => row.key.toList = counter) with
  | none => exact ⟨row, hrow⟩
  | some found =>
      dsimp only
      split
      · rw [Prog.wp_bind]
        exact Prog.wp_mono (Prog.wp_trivial _) (fun _ _ _ => ⟨row, hrow⟩) fun _ _ _ => trivial
      · rw [Prog.wp_bind]
        refine Prog.wp_mono (Prog.wp_trivial _) (fun t _ _ => ?_) fun _ _ _ => trivial
        split
        · exact ⟨row, hrow⟩
        · exact ⟨row, hrow⟩

/-- One descriptor: the look-up of its counter, and room for the options of the last one. -/
theorem twp_addEvent {memory : RegisterIndex × PerfmonEvent} {options : List (List Char)}
    {last : Bool} {P : Core → Prop} :
    (addEvent M testcpu force memory event counter (event :: counter :: options) last :
        Prog Int Core _).twp (fun _ c' => P c') (fun _ _ => True) c ↔
      LookupEnds M testcpu force counter memory.1 c ∧
        (getIndexAndType M testcpu counter memory.1 force : Prog Int Core _).wp
          (fun t c' => (last = true → t.1 = true → (getEvent M event counter).isSome →
            options.length ≤ numEventOptions) ∧ P c') (fun _ _ => True) c := by
  have hroom : ∀ (e : PerfmonEvent) (mask : Word),
      parseOptions (event :: counter :: options) e mask = none ↔
        ¬options.length ≤ numEventOptions := by
    intro e mask
    simp [parseOptions]
  unfold addEvent
  rw [Prog.twp_bind, Prog.twp_iff]
  refine and_congr ended_getIndexAndType (Prog.wp_congr fun t c' hrun => ?_)
  obtain ⟨row, hrow⟩ := Prog.wp_done getIndexAndType_lt hrun
  obtain ⟨found, index, type⟩ := t
  dsimp only
  cases found with
  | false => simp
  | true =>
      simp only [Bool.true_eq_false, if_false, Prog.twp_bind, counterMap, Prog.twp_orUndefined,
        hrow, Option.some.injEq, exists_eq_left']
      cases hev : getEvent M event counter with
      | none => simp
      | some e =>
          have hlimit : checkCounter counter e.limit.toList = true := by
            have := List.find?_some hev
            simp only [decide_eq_true_eq] at this
            exact this.2
          simp only [hlimit, Bool.true_eq_false, if_false, Option.isSome_some, true_imp_iff]
          cases hparse : parseOptions (event :: counter :: options) e row.optionMask with
          | none =>
              have hno := (hroom _ _).mp hparse
              cases last with
              | false => simp
              | true => simp [hno]
          | some e' =>
              have hok : options.length ≤ numEventOptions := by
                by_contra hno
                rw [(hroom _ _).mpr hno] at hparse
                cases hparse
              simp [hok]

/-- The loop over the descriptors comes to its end exactly when each descriptor does. -/
theorem ended_addEvents {group : ℕ} :
    ∀ (descriptors : List (List Char)) (i : ℕ) (acc : ParsedEvents) (c : Core),
      Ended (addEvents M testcpu force group descriptors i acc) c ↔
        EachEnds M testcpu force group descriptors i c := by
  intro descriptors
  induction descriptors with
  | nil => exact fun _ _ _ => iff_of_true trivial trivial
  | cons descriptor rest ih =>
      intro i acc c
      unfold Ended
      rcases hsplit : descriptor.splitOn ':' with _ | ⟨event, _ | ⟨counter, options⟩⟩
      · rw [addEvents, EachEnds, hsplit]
        exact ih _ _ c
      · rw [addEvents, EachEnds, hsplit]
        exact ih _ _ c
      · rw [addEvents, EachEnds, hsplit]
        dsimp only
        rw [Prog.twp_bind]
        refine (Prog.twp_congr fun e c' _ => ih _ _ c').trans (twp_addEvent.trans ?_)
        refine and_congr_right fun _ => Prog.wp_congr fun t c' _ => ?_
        rw [List.isEmpty_iff]

end Ends

theorem returns_iff_twp {m : PerfmonProg Unit} :
    (∃ r s', returns m s = some (r, s')) ↔ m.twp (fun _ _ => True) (fun _ _ => True) s := by
  unfold returns Prog.twp
  cases m s with
  | done u s' => simp
  | ret r s' => simp
  | halt k => simp

/-- The call does not break off: the string reads as descriptors that can all be added. -/
def Addable (M : Machine) (s : Perfmon) (eventString : List Char) (force : Int) : Prop :=
  '-' ∉ eventString → '.' ∉ eventString → ∀ gs testcpu, s.groupSet = some gs →
    gs.threads.head?.map PerfmonThread.processorId = some testcpu →
    EachEnds M testcpu force gs.numberOfActiveGroups (eventString.splitOn ',') 0 s.core

theorem perfmonAddEventSet_returns_iff {gs : PerfmonGroupSet} (hgs : s.groupSet = some gs)
    (hthreads : gs.threads ≠ []) {eventString : List Char} {force : Int} :
    (∃ r s', returns (perfmonAddEventSet M eventString force) s = some (r, s')) ↔
      Addable M s eventString force := by
  obtain ⟨th, threads, hth⟩ := List.exists_cons_of_ne_nil hthreads
  have hcpu : gs.threads.head?.map PerfmonThread.processorId = some th.processorId := by
    rw [hth]
    rfl
  have hinit : ∀ {Q : PerfmonGroupSet → Perfmon → Prop} {R : Int → Perfmon → Prop},
      requireInit.twp Q R s ↔ Q gs s := by
    intro Q R
    unfold Prog.twp
    rw [requireInit_some hgs]
  rw [returns_iff_twp]
  unfold perfmonAddEventSet Addable
  simp only [hinit, Prog.twp_bind, Prog.twp_when, Prog.twp_ret, Prog.twp_modify,
    Prog.twp_orUndefined, Prog.twp_zoom, hcpu, Option.some.injEq, exists_eq_left']
  have hcommit : ∀ (parsed : ParsedEvents) (s₁ : Perfmon),
      Prog.twp (if 0 < parsed.numberOfEvents ∧ parsed.regTypeMask ≠ 0 then do
          setState gs.numberOfActiveGroups GroupState.none
          Prog.modify fun s => s.modifyGroupSet fun gs =>
            { gs with numberOfActiveGroups := gs.numberOfActiveGroups + 1 }
          Prog.ret ↑gs.numberOfActiveGroups
        else Prog.ret (-einval) : PerfmonProg Unit) (fun _ _ => True) (fun _ _ => True) s₁ := by
    intro parsed s₁
    split
    · trivial
    · trivial
  have hloop : Ended (addEvents M th.processorId force gs.numberOfActiveGroups
      (eventString.splitOn ',') 0 ⟨[], 0, 0⟩) s.core ↔ EachEnds M th.processorId force
        gs.numberOfActiveGroups (eventString.splitOn ',') 0 s.core :=
    ended_addEvents _ _ _ _
  constructor
  · rintro ⟨-, hrun⟩ hminus hdot gs' testcpu hgs' hcpu'
    obtain rfl : gs = gs' := Option.some.inj (hgs.symm.trans hgs')
    obtain rfl : th.processorId = testcpu := Option.some.inj (hcpu.symm.trans hcpu')
    refine hloop.mp ((Prog.twp_congr fun parsed c _ => ?_).mp
      (hrun fun h => h.elim hminus hdot))
    exact iff_true_intro (hcommit _ _)
  · intro h
    refine ⟨fun _ => trivial, fun hchars => ?_⟩
    have hends := h (fun hm => hchars (Or.inl hm)) (fun hd => hchars (Or.inr hd)) gs _ hgs hcpu
    exact (Prog.twp_congr fun parsed c _ => iff_true_intro (hcommit _ _)).mpr (hloop.mpr hends)

/-! ## The group table -/

/-- `perfmon_addEventSet` with the pointer it is given and the value of
`LIKWID_EVENTS`, which takes the place of a null pointer. -/
def perfmonAddEventSetArg (M : Machine) (likwidEvents eventCString : Option (List Char))
    (force : Int) : PerfmonProg Unit := do
  let _ ← requireInit
  match eventCString.or likwidEvents with
  | some eventString => perfmonAddEventSet M eventString force
  | none => Prog.ret (-einval)

/-- A call with what it returned. -/
structure Addition where
  eventCString : Option (List Char)
  likwidEvents : Option (List Char)
  force : Int
  code : Int

def AddStep (M : Machine) (s : Perfmon) (a : Addition) (s' : Perfmon) : Prop :=
  returns (perfmonAddEventSetArg M a.likwidEvents a.eventCString a.force) s = some (a.code, s')

/-- The group numbers the successful calls have returned. -/
def issuedIds (additions : List Addition) : List Int :=
  (additions.map Addition.code).filter (0 ≤ ·)

/-- A call returns the number of the group it adds, or a negative code and adds
none; the groups there were stay as they are. -/
def AddsInOrder (gs : PerfmonGroupSet) (a : Addition) (gs' : PerfmonGroupSet) : Prop :=
  (a.code = gs.numberOfActiveGroups ∧ gs'.numberOfActiveGroups = gs.numberOfActiveGroups + 1 ∨
    a.code < 0 ∧ gs'.numberOfActiveGroups = gs.numberOfActiveGroups) ∧
  ∀ i < gs.numberOfActiveGroups, gs'.groups[i]? = gs.groups[i]?

/-- At most one group of the table is spare. -/
def PerfmonGroupSet.Tight (gs : PerfmonGroupSet) : Prop :=
  gs.numberOfActiveGroups ≤ gs.numberOfGroups ∧
    gs.numberOfGroups ≤ gs.numberOfActiveGroups + 1

theorem AddsInOrder.failed {gs : PerfmonGroupSet} {a : Addition} (h : a.code = -einval) :
    AddsInOrder gs a gs :=
  ⟨Or.inr ⟨by simp [h, einval], rfl⟩, fun _ _ => rfl⟩

/-- Making room leaves one spare group. -/
theorem allocate_tight {gs : PerfmonGroupSet} (h : gs.Tight) :
    (gs.allocate M).numberOfGroups = gs.numberOfActiveGroups + 1 := by
  obtain ⟨hle, hroom⟩ := h
  unfold PerfmonGroupSet.allocate
  dsimp only
  split
  · next h0 => simp [h0]
  split
  · next heq =>
      dsimp only
      omega
  · omega

theorem addOutcome_table {gs : PerfmonGroupSet} (hgs : s.groupSet = some gs) (hc : gs.Consistent)
    (htight : gs.Tight) {eventString : List Char} {a : Addition}
    (h : AddOutcome M s eventString a.force a.code s') :
    ∃ gs', s'.groupSet = some gs' ∧ gs'.Tight ∧ AddsInOrder gs a gs' := by
  rcases h with ⟨hr, rfl⟩ | ⟨gs0, cpu, c, parsed, hread, hend⟩
  · exact ⟨gs, hgs, htight, .failed hr⟩
  obtain rfl : gs = gs0 := Option.some.inj (hgs.symm.trans hread.groupSet)
  obtain ⟨-, hcount, -, -⟩ := Control.allocate_consistent (M := M) hc
  have hroom := allocate_tight (M := M) htight
  have hactive : (gs.filled M parsed).numberOfActiveGroups = gs.numberOfActiveGroups := hcount
  have hnumber : (gs.filled M parsed).numberOfGroups = gs.numberOfActiveGroups + 1 := hroom
  rcases hend with ⟨-, hr, rfl⟩ | ⟨-, hr, rfl⟩
  · refine ⟨_, rfl, ⟨?_, ?_⟩, Or.inr ⟨by simp [hr, einval], hactive⟩,
      fun i hi => filled_of_lt hc hi⟩
    · omega
    · omega
  · have hactive' : ((gs.filled M parsed).committed gs.numberOfActiveGroups).numberOfActiveGroups =
        gs.numberOfActiveGroups + 1 := by
      rw [← hactive]
      rfl
    have hnumber' : ((gs.filled M parsed).committed gs.numberOfActiveGroups).numberOfGroups =
        gs.numberOfActiveGroups + 1 := hnumber
    refine ⟨_, rfl, ⟨?_, ?_⟩, Or.inl ⟨hr, hactive'⟩, fun i hi => ?_⟩
    · omega
    · omega
    · rw [committed_of_ne (by omega)]
      exact filled_of_lt hc hi

/-- **One call** keeps the table. -/
theorem addStep_table {gs : PerfmonGroupSet} (hgs : s.groupSet = some gs)
    (hc : s.control.Consistent) (htight : gs.Tight) {a : Addition} (h : AddStep M s a s') :
    s'.control.Consistent ∧
      ∃ gs', s'.groupSet = some gs' ∧ gs'.Tight ∧ AddsInOrder gs a gs' := by
  unfold AddStep perfmonAddEventSetArg at h
  unfold returns at h
  rw [Prog.bind_of_done (requireInit_some hgs)] at h
  cases harg : a.eventCString.or a.likwidEvents with
  | none =>
      simp only [harg, Prog.ret, Option.some.injEq, Prod.mk.injEq] at h
      obtain ⟨hcode, rfl⟩ := h
      exact ⟨hc, gs, hgs, htight, .failed hcode.symm⟩
  | some eventString =>
      rw [harg] at h
      change returns (perfmonAddEventSet M eventString a.force) s = some (a.code, s') at h
      have hadded : s.control.AddedEventSet M s'.control :=
        of_returns (P := fun _ s' => s.control.AddedEventSet M s'.control)
          (Prog.wp_mono (perfmonAddEventSet_control eventString a.force s)
            (fun _ _ h => h.elim) fun _ _ h => h) h
      exact ⟨hadded.consistent hc, addOutcome_table hgs
        (consistent_of_control (hc _ (control_groupSet hgs))) htight
        (perfmonAddEventSet_returns h)⟩

/-- The call returns, and adds in order. -/
def ReturnsInOrder (M : Machine) (t : Perfmon) (gs : PerfmonGroupSet) (a : Addition) : Prop :=
  ∃ code u gs', AddStep M t { a with code := code } u ∧ u.groupSet = some gs' ∧
    AddsInOrder gs { a with code := code } gs'

/-- The string that the call reads is addable. -/
def CallAddable (M : Machine) (t : Perfmon) (a : Addition) : Prop :=
  ∀ eventString, a.eventCString.or a.likwidEvents = some eventString →
    Addable M t eventString a.force

theorem addStep_iff {gs : PerfmonGroupSet} (hgs : s.groupSet = some gs) (hc : gs.Consistent)
    (a : Addition) : (∃ code u, AddStep M s { a with code := code } u) ↔ CallAddable M s a := by
  have hcall : ∀ {likwidEvents eventCString : Option (List Char)} {force : Int},
      returns (perfmonAddEventSetArg M likwidEvents eventCString force) s =
        match eventCString.or likwidEvents with
        | some eventString => returns (perfmonAddEventSet M eventString force) s
        | none => some (-einval, s) := by
    intro likwidEvents eventCString force
    unfold returns perfmonAddEventSetArg
    rw [Prog.bind_of_done (requireInit_some hgs)]
    cases eventCString.or likwidEvents with
    | none => rfl
    | some eventString => rfl
  unfold AddStep CallAddable
  dsimp only
  simp only [hcall]
  cases a.eventCString.or a.likwidEvents with
  | none => simp
  | some eventString =>
      simp only [Option.some.injEq, forall_eq']
      exact perfmonAddEventSet_returns_iff hgs hc.threads

/-- The table in `t` after `additions`: at most one spare group, and the ids 0, 1, 2, … handed
out. -/
def GroupTable (additions : List Addition) (t : Perfmon) (gs : PerfmonGroupSet) : Prop :=
  t.groupSet = some gs ∧ gs.numberOfActiveGroups ≤ gs.numberOfGroups ∧
    gs.numberOfGroups ≤ gs.numberOfActiveGroups + 1 ∧
    issuedIds additions = (List.range gs.numberOfActiveGroups).map Int.ofNat

/-- **After any calls of `perfmon_addEventSet`, valid or not, the group table is right, and a
further call returns and adds in order if and only if its string is addable.** -/
theorem groupTable_of_additions {s0 : Perfmon} {threadsToCpu : List ℕ} (h0 : s.groupSet = none)
    (hinit : Step M B s (.init threadsToCpu) s0) (hs0 : s0.groupSet ≠ none)
    {additions : List Addition} {t : Perfmon} (h : Trace (AddStep M) s0 additions t) :
    ∃ gs, GroupTable additions t gs ∧
      ∀ a, ReturnsInOrder M t gs a ↔ CallAddable M t a := by
  let Inv (additions : List Addition) (t : Perfmon) : Prop :=
    t.control.Consistent ∧ ∃ gs, t.groupSet = some gs ∧ gs.Tight ∧
      issuedIds additions = (List.range gs.numberOfActiveGroups).map Int.ofNat
  have hboot : Inv [] s0 := by
    obtain ⟨gs, hgs⟩ := Option.ne_none_iff_exists'.mp hs0
    have hstart : s.control.Initialised s0.control := by
      refine hinit.wp (P := fun s0 => s0.groupSet ≠ none → s.control.Initialised s0.control)
        (Prog.wp_mono (perfmonInit_control threadsToCpu s) (fun _ _ h _ => h)
          fun _ s1 hk hne => ?_) hs0
      have hnone := congrArg Control.groupSet hk
      exact absurd (by simpa [Perfmon.control, h0] using hnone) hne
    refine ⟨hstart.consistent, gs, hgs, ?_⟩
    obtain ⟨-, gs', hk, hn, ha, -⟩ := hstart
    have hgs' := congrArg Control.groupSet hk
    rw [control_groupSet hgs] at hgs'
    obtain rfl := Option.some.inj hgs'
    change gs.numberOfGroups = 0 at hn
    change gs.numberOfActiveGroups = 0 at ha
    refine ⟨⟨?_, ?_⟩, ?_⟩
    · omega
    · omega
    · rw [ha]
      rfl
  have hstep : ∀ as t a u, Inv as t → AddStep M t a u → Inv (as ++ [a]) u := by
    rintro as t a u ⟨hc, gs, hgs, htight, hids⟩ hs
    obtain ⟨hc', gs', hgs', htight', hcode, -⟩ := addStep_table hgs hc htight hs
    refine ⟨hc', gs', hgs', htight', ?_⟩
    unfold issuedIds at hids ⊢
    rw [List.map_append, List.filter_append, hids]
    rcases hcode with ⟨hr, hn⟩ | ⟨hr, hn⟩
    · simp [hr, hn, List.range_succ]
    · simp [hn, hr]
  obtain ⟨hc, gs, hgs, htight, hids⟩ := h.invariant hboot hstep
  refine ⟨gs, ⟨hgs, htight.1, htight.2, hids⟩, fun a => ?_⟩
  rw [← addStep_iff hgs (consistent_of_control (hc _ (control_groupSet hgs))) a]
  constructor
  · rintro ⟨code, u, -, hs, -⟩
    exact ⟨code, u, hs⟩
  · rintro ⟨code, u, hs⟩
    obtain ⟨-, gs', hgs', -, hadds⟩ := addStep_table hgs hc htight hs
    exact ⟨code, u, gs', hs, hgs', hadds⟩

/-- A call that fails, and one that takes its string from the environment. -/
theorem groupTable_of_additions_two :
    let r1 := (returns (perfmonAddEventSetArg haswellMachine none (some "X".toList) 0) oneCpu).get
      (by decide +kernel)
    let r2 := (returns (perfmonAddEventSetArg haswellMachine
      (some "INSTR_RETIRED_ANY:FIXC0".toList) none 0) r1.2).get (by decide +kernel)
    ∃ gs, GroupTable [⟨some "X".toList, none, 0, r1.1⟩,
        ⟨none, some "INSTR_RETIRED_ANY:FIXC0".toList, 0, r2.1⟩] r2.2 gs ∧
      ∀ a, ReturnsInOrder haswellMachine r2.2 gs a ↔ CallAddable haswellMachine r2.2 a := by
  intro r1 r2
  have h1 : AddStep haswellMachine oneCpu ⟨some "X".toList, none, 0, r1.1⟩ r1.2 :=
    (Option.some_get (by decide +kernel)).symm
  have h2 : AddStep haswellMachine r1.2
      ⟨none, some "INSTR_RETIRED_ANY:FIXC0".toList, 0, r2.1⟩ r2.2 :=
    (Option.some_get (by decide +kernel)).symm
  have hsome : oneCpu.groupSet.isSome = true := by decide +kernel
  exact groupTable_of_additions rfl step_oneCpu (Option.isSome_iff_ne_none.mp hsome)
    ((Trace.nil.snoc h1).snoc h2)

/-- A descriptor with 25 options, one more than an event has room for -/
def manyOptions : List Char :=
  "INSTR_RETIRED_ANY:FIXC0".toList ++ (List.replicate 25 ":A".toList).flatten

/-- The tokens of the descriptor are destroyed twice. -/
theorem not_returnsInOrder_manyOptions :
    ∃ t gs, Trace (AddStep haswellMachine) oneCpu [] t ∧ t.groupSet = some gs ∧
      ¬ReturnsInOrder haswellMachine t gs ⟨some manyOptions, none, 0, -einval⟩ := by
  have hsome : oneCpu.groupSet.isSome = true := by decide +kernel
  obtain ⟨gs, hgs⟩ := Option.isSome_iff_exists.mp hsome
  have hnone : returns (perfmonAddEventSetArg haswellMachine none (some manyOptions) 0) oneCpu =
      none := by
    have hno : (returns (perfmonAddEventSetArg haswellMachine none (some manyOptions) 0)
        oneCpu).isNone = true := by decide +kernel
    exact Option.isNone_iff_eq_none.mp hno
  refine ⟨oneCpu, gs, .nil, hgs, ?_⟩
  rintro ⟨code, u, -, hs, -⟩
  unfold AddStep at hs
  dsimp only at hs
  rw [hnone] at hs
  cases hs

end Likwid
