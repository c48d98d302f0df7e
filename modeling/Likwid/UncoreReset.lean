import Likwid.Tables

/-!
# The reset of the uncore counters

`HASEP_UNFREEZE_UNCORE_AND_RESET_CTR` clears the counters of the uncore events and means to mark
the events whose counter it cannot clear. It indexes the event array by the index of the counter
instead of the position of the event, so that it marks another event, or writes behind the array
(`marksFailed_iff`).
-/

namespace Likwid

variable (M : Machine)

/-! ## What the reset is to do -/

/-- `HPMwrite` as a function: the error code and the state -/
def hpmWriteResult (cpu : ℕ) (dev : PciDeviceIndex) (reg : ℕ) (data : Word) (c : Core) :
    Int × Core :=
  let err := writeError M c cpu dev reg data
  (err, (if err = 0 then c.setReg (regOwner M cpu dev) dev reg (stored dev data) else c).log
    ⟨.write, cpu, dev, reg, data, err⟩)

/-- Whether the counter of an event could not be cleared, and the state after the attempt -/
def clearCounter (cpu : ℕ) (row : RegisterMap) (c : Core) : Bool × Core :=
  if RegisterType.uncore.toNat ≤ row.type.toNat ∧ row.type ≠ .wbox0fix ∧
      hpmCheck M c row.device cpu ≠ 0 then
    let first := hpmWriteResult M cpu row.device row.counterRegister 0 c
    if first.1 ≠ 0 then (true, first.2)
    else if row.counterRegister2 ≠ 0 then
      let second := hpmWriteResult M cpu row.device row.counterRegister2 0 first.2
      (decide (second.1 ≠ 0), second.2)
    else (false, first.2)
  else (false, c)

/-- The row of the counter of event `i` -/
def rowAt (slots : List Slot) (i : ℕ) : Option RegisterMap :=
  slots[i]?.join.bind fun e => M.counterMap[e.index]?

/-- The events before `n` whose counter could not be cleared, and the state after them -/
def resetRun (cpu : ℕ) (slots : List Slot) (c : Core) : ℕ → List ℕ × Core
  | 0 => ([], c)
  | i + 1 =>
      let (failed, c) := resetRun cpu slots c i
      match rowAt M slots i with
      | some row =>
          let r := clearCounter M cpu row c
          (if r.1 then failed ++ [i] else failed, r.2)
      | none => (failed, c)

/-- The events whose counter the reset tries to clear and cannot -/
def resetFailures (cpu : ℕ) (mask : BitVec 128) (n : ℕ) (lock : Bool) (p : Core × List Slot) :
    List ℕ :=
  if lock = true ∧ hasUncore mask then (resetRun M cpu p.2 p.1 n).1 else []

/-- `events[j].type = NOTYPE` for the positions `js`, and nothing else -/
def markSlots (js : List ℕ) (slots : List Slot) : List Slot :=
  slots.mapIdx fun j s => if j ∈ js then s.map fun e => { e with type := .notype } else s

/-- The routine ends, with these events in the array. -/
def EndsWithSlots (m : Prog Int (Core × List Slot) Unit) (p : Core × List Slot)
    (slots : List Slot) : Prop :=
  ∃ c, m p = .done () (c, slots) ∨ ∃ r, m p = .ret r (c, slots)

/-- The reset ends, and the events in `failed` are marked, and no others. -/
def MarksFailed (cpu : ℕ) (mask : BitVec 128) (n : ℕ) (lock : Bool) (p : Core × List Slot)
    (failed : List ℕ) : Prop :=
  EndsWithSlots (hasepUnfreezeUncoreAndResetCtr M cpu mask n lock) p (markSlots failed p.2)

/-- The index of the counter of event `i` -/
def indexAt (slots : List Slot) (i : ℕ) : RegisterIndex :=
  (slots[i]?.join.map PerfmonEventSetEntry.index).getD 0

/-- Event `j` is there and usable. -/
def UsableAt (slots : List Slot) (j : ℕ) : Prop :=
  ∃ e, slots[j]? = some (some e) ∧ e.type ≠ .notype

/-- The indices of the counters of these events lie in the array, and they are the positions of
the same events, up to events that are unusable anyway. -/
def OwnIndices (slots : List Slot) (failed : List ℕ) : Prop :=
  (∀ i ∈ failed, indexAt slots i < slots.length) ∧
    ∀ j, UsableAt slots j → (j ∈ failed ↔ j ∈ failed.map (indexAt slots))

/-- The first `n` events are there, with counters of the table. -/
def EventsThere (slots : List Slot) (n : ℕ) : Prop := ∀ i < n, (rowAt M slots i).isSome

/-! ## Marked events -/

section Mark

variable {M} {slots : List Slot} {js : List ℕ} {j k : ℕ}

/-- `type = NOTYPE` -/
def PerfmonEventSetEntry.dropType (e : PerfmonEventSetEntry) : PerfmonEventSetEntry :=
  { e with type := .notype }

theorem getElem?_markSlots (js : List ℕ) (slots : List Slot) (j : ℕ) :
    (markSlots js slots)[j]? =
      slots[j]?.map fun s => if j ∈ js then s.map PerfmonEventSetEntry.dropType else s := by
  rw [markSlots, List.getElem?_mapIdx]
  rfl

@[simp] theorem length_markSlots : (markSlots js slots).length = slots.length :=
  List.length_mapIdx

/-- Marking changes no counter. -/
theorem join_markSlots_index (js : List ℕ) (slots : List Slot) (j : ℕ) :
    (markSlots js slots)[j]?.join.map PerfmonEventSetEntry.index =
      slots[j]?.join.map PerfmonEventSetEntry.index := by
  rw [getElem?_markSlots]
  cases slots[j]? with
  | none => rfl
  | some s =>
    simp only [Option.map_some, Option.join_some]
    split
    · cases s with
      | none => rfl
      | some e => rfl
    · rfl

theorem markSlots_nil : markSlots [] slots = slots := by
  refine List.ext_getElem? fun j => ?_
  rw [getElem?_markSlots]
  simp

theorem markSlots_concat :
    markSlots (js ++ [k]) slots =
      (markSlots js slots).modify k (Option.map PerfmonEventSetEntry.dropType) := by
  refine List.ext_getElem? fun j => ?_
  rw [getElem?_markSlots, List.getElem?_modify, getElem?_markSlots]
  cases slots[j]? with
  | none => simp
  | some s =>
    by_cases hk : k = j
    · subst hk
      by_cases hj : k ∈ js
      · cases s with
        | none => simp [hj]
        | some e => simp [hj, PerfmonEventSetEntry.dropType]
      · simp [hj]
    · have hmem : j ∈ js ++ [k] ↔ j ∈ js := by
        rw [List.mem_append, List.mem_singleton]
        exact or_iff_left fun h => hk h.symm
      simp only [hmem, Option.map_some, if_neg hk]
      rfl

theorem dropType_eq {e : PerfmonEventSetEntry} : e.dropType = e ↔ e.type = .notype := by
  constructor
  · intro h
    rw [← h]
    rfl
  · intro h
    unfold PerfmonEventSetEntry.dropType
    rw [← h]

/-- Two markings agree if they agree on the usable events. -/
theorem markSlots_eq_iff {js' : List ℕ} :
    markSlots js slots = markSlots js' slots ↔ ∀ j, UsableAt slots j → (j ∈ js' ↔ j ∈ js) := by
  constructor
  · rintro h j ⟨e, he, htype⟩
    have hj := congrArg (·[j]?) h
    simp only [getElem?_markSlots, he, Option.map_some, Option.some.injEq] at hj
    by_cases h1 : j ∈ js <;> by_cases h2 : j ∈ js'
    · exact iff_of_true h2 h1
    · rw [if_pos h1, if_neg h2] at hj
      exact absurd (dropType_eq.mp (Option.some.inj hj)) htype
    · rw [if_neg h1, if_pos h2] at hj
      exact absurd (dropType_eq.mp (Option.some.inj hj).symm) htype
    · exact iff_of_false h2 h1
  · intro h
    refine List.ext_getElem? fun j => ?_
    rw [getElem?_markSlots, getElem?_markSlots]
    cases hs : slots[j]? with
    | none => rfl
    | some s =>
      cases s with
      | none => simp
      | some e =>
        by_cases htype : e.type = .notype
        · have hdrop := dropType_eq.mpr htype
          simp [hdrop]
        · simp only [Option.map_some, h j ⟨e, hs, htype⟩]

end Mark

/-! ## The loop -/

section Loop

variable {M} {cpu i n : ℕ} {slots slots' : List Slot} {row : RegisterMap} {c : Core}

theorem hpmWrite_apply {ρ : Type} (dev : PciDeviceIndex) (reg : ℕ) (data : Word) (c : Core) :
    (hpmWrite M cpu dev reg data : Prog ρ Core Int) c =
      .done (hpmWriteResult M cpu dev reg data c).1 (hpmWriteResult M cpu dev reg data c).2 := rfl

/-- One round clears the counter of its event, and marks at the index of the counter. -/
theorem hasepResetCtr_apply {e : PerfmonEventSetEntry} (he : slots[i]?.join = some e)
    (hrow : M.counterMap[e.index]? = some row) :
    hasepResetCtr M cpu i (c, slots) =
      if (clearCounter M cpu row c).1 = true then
        markNotype e.index ((clearCounter M cpu row c).2, slots)
      else .done () ((clearCounter M cpu row c).2, slots) := by
  unfold hasepResetCtr counterMap clearCounter
  simp only [Prog.bind_apply, Prog.get_apply, he, hrow, Prog.orOutOfBounds, Prog.orUndefined,
    Prog.pure_apply, Prog.when_apply]
  by_cases hcond : RegisterType.uncore.toNat ≤ row.type.toNat ∧ row.type ≠ .wbox0fix ∧
      hpmCheck M c row.device cpu ≠ 0
  · simp only [if_pos hcond, Prog.zoom, hpmWrite_apply, Prog.Outcome.onState]
    by_cases hfirst : (hpmWriteResult M cpu row.device row.counterRegister 0 c).1 ≠ 0
    · rw [if_pos hfirst, if_pos hfirst]
      rfl
    · rw [if_neg hfirst, if_neg hfirst]
      by_cases hsecond : row.counterRegister2 ≠ 0
      · simp only [if_pos hsecond, Prog.bind_apply, Prog.zoom, hpmWrite_apply,
          Prog.Outcome.onState, Prog.when_apply, decide_eq_true_eq]
      · rw [Prog.when_of_neg hsecond]
        simp only [if_neg hsecond]
        rfl
  · simp only [if_neg hcond]
    rfl

theorem resetRun_succ (hrow : rowAt M slots i = some row) (c : Core) :
    resetRun M cpu slots c (i + 1) =
      (if (clearCounter M cpu row (resetRun M cpu slots c i).2).1 = true then
          (resetRun M cpu slots c i).1 ++ [i]
        else (resetRun M cpu slots c i).1,
        (clearCounter M cpu row (resetRun M cpu slots c i).2).2) := by
  rw [resetRun, hrow]

theorem hasepResetCtr_marked (js : List ℕ) (hrow : rowAt M slots i = some row) (c : Core) :
    hasepResetCtr M cpu i (c, markSlots js slots) =
      if (clearCounter M cpu row c).1 = true then
        if indexAt slots i < slots.length then
          .done () ((clearCounter M cpu row c).2, markSlots (js ++ [indexAt slots i]) slots)
        else .halt .outOfBounds
      else .done () ((clearCounter M cpu row c).2, markSlots js slots) := by
  obtain ⟨e, he, hmap⟩ := Option.bind_eq_some_iff.mp hrow
  have hsame := join_markSlots_index js slots i
  rw [he, Option.map_some] at hsame
  obtain ⟨e', he', hindex⟩ := Option.map_eq_some_iff.mp hsame
  have hat : indexAt slots i = e.index := by
    rw [indexAt, he]
    rfl
  rw [hasepResetCtr_apply he' (hindex.symm ▸ hmap), hindex, hat, markSlots_concat]
  unfold markNotype
  rw [length_markSlots]
  rfl

/-- The loop, if every index it marks at lies in the array -/
theorem resetLoop_done (hfilled : EventsThere M slots n) (c : Core)
    (hin : ∀ i ∈ (resetRun M cpu slots c n).1, indexAt slots i < slots.length) :
    (List.range n).foldlM (fun _ i => hasepResetCtr M cpu i) () (c, slots) =
      .done () ((resetRun M cpu slots c n).2,
        markSlots ((resetRun M cpu slots c n).1.map (indexAt slots)) slots) := by
  induction n with
  | zero =>
    show Prog.Outcome.done () (c, slots) = .done () (c, markSlots [] slots)
    rw [markSlots_nil]
  | succ i ih =>
    obtain ⟨row, hrow⟩ := Option.isSome_iff_exists.mp (hfilled i (Nat.lt_succ_self i))
    rw [resetRun_succ hrow] at hin ⊢
    rw [List.range_succ, Prog.foldlM_concat_eq]
    by_cases hfail : (clearCounter M cpu row (resetRun M cpu slots c i).2).1 = true
    · simp only [if_pos hfail] at hin ⊢
      have hbefore := ih (fun k hk => hfilled k (by omega)) fun k hk =>
        hin k (List.mem_append_left _ hk)
      rw [Prog.bind_of_done hbefore, hasepResetCtr_marked _ hrow, if_pos hfail,
        if_pos (hin i (List.mem_append_right _ (List.mem_singleton_self i))), List.map_append]
      rfl
    · simp only [if_neg hfail] at hin ⊢
      rw [Prog.bind_of_done (ih (fun k hk => hfilled k (by omega)) hin),
        hasepResetCtr_marked _ hrow, if_neg hfail]

/-- Otherwise it writes behind the array. -/
theorem resetLoop_halt (hfilled : EventsThere M slots n) (c : Core)
    (hout : ¬∀ i ∈ (resetRun M cpu slots c n).1, indexAt slots i < slots.length) :
    (List.range n).foldlM (fun _ i => hasepResetCtr M cpu i) () (c, slots) =
      .halt .outOfBounds := by
  induction n with
  | zero => exact absurd (fun i hi => absurd hi List.not_mem_nil) hout
  | succ i ih =>
    have hfilled' : EventsThere M slots i := fun k hk => hfilled k (by omega)
    obtain ⟨row, hrow⟩ := Option.isSome_iff_exists.mp (hfilled i (Nat.lt_succ_self i))
    rw [resetRun_succ hrow] at hout
    rw [List.range_succ, Prog.foldlM_concat_eq]
    by_cases hin : ∀ k ∈ (resetRun M cpu slots c i).1, indexAt slots k < slots.length
    · rw [Prog.bind_of_done (resetLoop_done hfilled' c hin), hasepResetCtr_marked _ hrow]
      by_cases hfail : (clearCounter M cpu row (resetRun M cpu slots c i).2).1 = true
      · simp only [if_pos hfail] at hout ⊢
        have hindex : ¬indexAt slots i < slots.length := by
          intro hlt
          refine hout fun k hk => ?_
          rcases List.mem_append.mp hk with hk | hk
          · exact hin k hk
          · rw [List.mem_singleton.mp hk]
            exact hlt
        rw [if_neg hindex]
      · simp only [if_neg hfail] at hout
        exact absurd hin hout
    · rw [Prog.bind_of_halt (ih hfilled' hin)]

end Loop

/-! ## The macro -/

section Reset

variable {M} {cpu n : ℕ} {mask : BitVec 128}

theorem hpmWrite_ends (dev : PciDeviceIndex) (reg : ℕ) (data : Word) :
    (hpmWrite M cpu dev reg data : Prog Int Core Int).Ends := nofun

theorem hpmRead_ends (dev : PciDeviceIndex) (reg : ℕ) :
    (hpmRead M cpu dev reg : Prog Int Core (Int × Word)).Ends := nofun

theorem checkAndReturnError_ends (err : Int) : (checkAndReturnError M err).Ends :=
  .bind .get fun _ => .when (.ret _)

theorem checkWrite_ends (dev : PciDeviceIndex) (reg : ℕ) (data : Word) :
    (checkWrite M cpu dev reg data).Ends :=
  .bind (hpmWrite_ends dev reg data) fun _ => checkAndReturnError_ends _

theorem checkRead_ends (dev : PciDeviceIndex) (reg : ℕ) : (checkRead M cpu dev reg).Ends :=
  .bind (hpmRead_ends dev reg) fun _ => .bind (checkAndReturnError_ends _) fun _ => .pure _

theorem hasepUnfreezeUncore_ends (lock : Bool) : (hasepUnfreezeUncore M cpu mask lock).Ends := by
  unfold hasepUnfreezeUncore
  split
  · exact checkWrite_ends _ _ _
  · exact .when (.bind (checkRead_ends _ _) fun _ => checkWrite_ends _ _ _)

theorem EndsWithSlots.unique {m : Prog Int (Core × List Slot) Unit} {p : Core × List Slot}
    {slots slots' : List Slot} (h : EndsWithSlots m p slots) (h' : EndsWithSlots m p slots') :
    slots = slots' := by
  obtain ⟨c, h | ⟨r, h⟩⟩ := h <;> obtain ⟨c', h' | ⟨r', h'⟩⟩ := h' <;> rw [h] at h'
  · exact (Prod.mk.inj (Prog.Outcome.done.inj h').2).2
  · cases h'
  · cases h'
  · exact (Prod.mk.inj (Prog.Outcome.ret.inj h').2).2

theorem onFst_unfreeze_endsWith (lock : Bool) (c : Core) (slots : List Slot) :
    EndsWithSlots (Prog.onFst (hasepUnfreezeUncore M cpu mask lock)) (c, slots) slots := by
  unfold EndsWithSlots Prog.onFst Prog.zoom
  cases h : hasepUnfreezeUncore M cpu mask lock c with
  | done u c' => exact ⟨c', Or.inl rfl⟩
  | ret r c' => exact ⟨c', Or.inr ⟨r, rfl⟩⟩
  | halt k => exact absurd h (hasepUnfreezeUncore_ends lock c k)

/-- **The reset marks the events it could not clear** if and only if the indices of their counters
are their positions. -/
theorem marksFailed_iff (lock : Bool) (p : Core × List Slot) (hfilled : EventsThere M p.2 n) :
    MarksFailed M cpu mask n lock p (resetFailures M cpu mask n lock p) ↔
      OwnIndices p.2 (resetFailures M cpu mask n lock p) := by
  obtain ⟨c, slots⟩ := p
  unfold MarksFailed resetFailures hasepUnfreezeUncoreAndResetCtr
  by_cases hcond : lock = true ∧ hasUncore mask
  · rw [if_pos hcond, Prog.when_of_pos hcond]
    let failed := (resetRun M cpu slots c n).1
    show EndsWithSlots _ (c, slots) (markSlots failed slots) ↔ OwnIndices slots failed
    by_cases hin : ∀ i ∈ failed, indexAt slots i < slots.length
    · have hends : EndsWithSlots (do
            (List.range n).foldlM (fun _ i => hasepResetCtr M cpu i) ()
            Prog.onFst (hasepUnfreezeUncore M cpu mask lock)) (c, slots)
          (markSlots (failed.map (indexAt slots)) slots) := by
        unfold EndsWithSlots
        rw [Prog.bind_of_done (resetLoop_done hfilled c hin)]
        exact onFst_unfreeze_endsWith lock _ _
      constructor
      · intro h
        exact ⟨hin, markSlots_eq_iff.mp (hends.unique h)⟩
      · rintro ⟨-, hsame⟩
        rw [← markSlots_eq_iff.mpr hsame]
        exact hends
    · refine iff_of_false ?_ fun h => hin h.1
      unfold EndsWithSlots
      rw [Prog.bind_of_halt (resetLoop_halt hfilled c hin)]
      rintro ⟨c', h | ⟨r, h⟩⟩
      · cases h
      · cases h
  · rw [if_neg hcond, Prog.when_of_neg hcond, markSlots_nil]
    have hnone : OwnIndices slots [] :=
      ⟨fun i hi => absurd hi List.not_mem_nil, fun j _ => Iff.rfl⟩
    exact iff_of_true ⟨c, Or.inl rfl⟩ hnone

end Reset

/-! ## A counter that cannot be cleared -/

/-- A Haswell client on which the first counter of the first box cannot be written -/
def cboxFailing : Machine :=
  { haswellMachine with
    accessWrite := fun _ _ _ reg _ => if reg = 0x706 then -eio else 0
    errno := fun _ => 5 }

/-- The state after the init of CPU 0 -/
def ownerCore : Core where
  regs := fun _ _ _ => 0
  currentConfig := fun _ _ => 0
  registeredCpuList := fun cpu => cpu = 0
  socketLock := fun _ => 0
  tileLock := fun _ => 0
  haswellCboxSetup := some .has
  trace := []

/-- `CACHE_LOOKUP_M:CBOX0C0` -/
def cboxEntry : PerfmonEventSetEntry where
  event := { name := "CACHE_LOOKUP_M", limit := "CBOX", eventId := 0x34, umask := 0x01 }
  index := 12
  type := .cbox0
  threadCounter := fun _ => .fresh

/-- `UOPS_ISSUED_ANY:PMC0` -/
def pmcEntry : PerfmonEventSetEntry where
  event := { name := "UOPS_ISSUED_ANY", limit := "PMC", eventId := 0x0E, umask := 0x01 }
  index := 3
  type := .pmc
  threadCounter := fun _ => .fresh

/-- The event whose counter has index 12 stands at position 12. -/
def ownPosition : List Slot := List.replicate 12 (some pmcEntry) ++ [some cboxEntry]

theorem marksFailed_ownPosition :
    MarksFailed cboxFailing 0 (regTypeMaskOf .cbox0) 13 true (ownerCore, ownPosition)
      (resetFailures cboxFailing 0 (regTypeMaskOf .cbox0) 13 true (ownerCore, ownPosition)) := by
  have hfilled : EventsThere cboxFailing ownPosition 13 := by
    unfold EventsThere
    decide +kernel
  have hfailures : resetFailures cboxFailing 0 (regTypeMaskOf .cbox0) 13 true
      (ownerCore, ownPosition) = [12] := by decide +kernel
  refine (marksFailed_iff true (ownerCore, ownPosition) hfilled).mpr ?_
  rw [hfailures]
  have hindex : indexAt ownPosition 12 = 12 := by decide +kernel
  refine ⟨?_, fun j _ => ?_⟩
  · intro i hi
    rw [List.mem_singleton.mp hi, hindex]
    decide
  · rw [List.map_singleton, hindex]

/-- The only event of the set cannot be cleared. Behind the array something else is marked. -/
theorem not_marksFailed_first :
    resetFailures cboxFailing 0 (regTypeMaskOf .cbox0) 1 true (ownerCore, [some cboxEntry]) = [0] ∧
      ¬MarksFailed cboxFailing 0 (regTypeMaskOf .cbox0) 1 true (ownerCore, [some cboxEntry])
        (resetFailures cboxFailing 0 (regTypeMaskOf .cbox0) 1 true
          (ownerCore, [some cboxEntry])) := by
  refine ⟨by decide +kernel, ?_⟩
  let m := hasepUnfreezeUncoreAndResetCtr cboxFailing 0 (regTypeMaskOf .cbox0) 1 true
  have hhalt : m (ownerCore, [some cboxEntry]) = .halt .outOfBounds := by rfl
  rintro ⟨c, h | ⟨r, h⟩⟩
  · cases hhalt.symm.trans h
  · cases hhalt.symm.trans h

end Likwid
