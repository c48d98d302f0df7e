import Likwid.Lib.Samples
import Likwid.Backends
import Likwid.Overflow

/-!
# Counters that run freely

The energy registers (`POWER`) and the fixed registers of the power control
unit (`WBOX0FIX`) are never reset. A start keeps their reading in `startData`,
every read and the stop keep theirs in `counterData` and count an overflow when
it is below the previous one. But the start leaves 0 in `counterData`, so the
first reading has nothing to be compared with.
-/

namespace Likwid

open Rounding

variable {M : Machine}

theorem field64_of_lt {x : Word} {width : ℕ} (hw : width ≤ 64) (h : x.toNat < 2 ^ width) :
    field64 x 0 width = x := by
  refine BitVec.eq_of_getLsbD_eq fun j hj => ?_
  by_cases hlt : j < width
  · simp only [field64, BitVec.ushiftRight_zero, BitVec.getLsbD_and, BitVec.getLsbD_ushiftRight,
      BitVec.getLsbD_allOnes]
    simp [show 64 - width + j < 64 by omega]
  · have hbit : x.getLsbD j = false :=
      Nat.testBit_lt_two_pow (h.trans_le (Nat.pow_le_pow_right (by decide) (by omega)))
    simp [field64, hbit]

/-! ## One round -/

section Rounds

variable {thread cpu : ℕ} {mask : BitVec 128} {row : RegisterMap} {e : PerfmonEventSetEntry}
  {c c₁ : Core} {x flags : Word}

/-- The register access with which a round on a free running counter samples
it. -/
def sampleAccess (M : Machine) (cpu : ℕ) (dev : PciDeviceIndex) (type : RegisterType) (reg : ℕ) :
    Prog Int Core (Int × Word) :=
  if type = .power then powerRead M cpu reg else hpmRead M cpu dev reg

/-- An event that is set up on a free running counter, and part of its group. -/
structure FreeRunning (M : Machine) (thread : ℕ) (mask : BitVec 128) (row : RegisterMap)
    (e : PerfmonEventSetEntry) : Prop where
  type : e.type = .power ∨ e.type = .wbox0fix
  row_eq : M.counterMap[e.index]? = some row
  row_type : row.type = e.type
  init : (e.threadCounter thread).init = true
  mem : hasType mask e.type
  width_pos : 0 < (M.boxMap e.type).regWidth
  width_le : (M.boxMap e.type).regWidth ≤ 64

theorem haswellStartCase_freeRunning (he : FreeRunning M thread mask row e)
    (hx : x.toNat < 2 ^ (M.boxMap e.type).regWidth)
    (hread : sampleAccess M cpu row.device e.type row.counterRegister c = .done (0, x) c₁)
    (e₁ : PerfmonEventSetEntry) :
    haswellStartCase M thread cpu true e row (haswellUnit e.type) (c, e₁) =
      .done 0 (c₁, e₁.setStart thread x) := by
  have hfield := field64_of_lt he.width_le hx
  rcases he.type with ht | ht <;> rw [ht] at hfield
  · simp only [sampleAccess, ht, if_true] at hread
    simp [ht, haswellStartCase, haswellUnit, Prog.bind_apply, Prog.get_apply, Prog.when_apply,
      Prog.modify_apply, Prog.pure_apply, Prog.zoom, Prog.Outcome.onState, hread,
      checkAndReturnError, hfield]
  · simp only [sampleAccess, ht, reduceCtorEq, if_false] at hread
    simp [ht, haswellStartCase, haswellUnit, Prog.bind_apply, Prog.get_apply, Prog.when_apply,
      Prog.modify_apply, Prog.pure_apply, Prog.zoom, Prog.Outcome.onState, checkRead, hread,
      checkAndReturnError, hfield]

theorem haswellStartEvent_freeRunning (he : FreeRunning M thread mask row e)
    (hx : x.toNat < 2 ^ (M.boxMap e.type).regWidth)
    (hread : sampleAccess M cpu row.device e.type row.counterRegister c = .done (0, x) c₁) :
    haswellStartEvent M thread cpu mask true flags (c, e) =
      .done flags (c₁, (e.clearData thread).setStart thread x) := by
  have hcase := haswellStartCase_freeRunning he hx hread
  simp [haswellStartEvent, Prog.bind_apply, Prog.get_apply, Prog.pure_apply, Prog.modify_apply,
    he.init, he.mem, counterMap, he.row_eq, Prog.orUndefined, Prog.zoom, Prog.Outcome.onState,
    hcase]

/-- What a sample does to the entry. -/
def PerfmonEventSetEntry.sample (e : PerfmonEventSetEntry) (thread : ℕ) (x : Word) :
    PerfmonEventSetEntry :=
  (if x < (e.threadCounter thread).counterData then e.addOverflow thread else e).setCounter
    thread x

theorem sampleCounter_apply (c : Core) (x : Word) :
    sampleCounter thread x x (c, e) = .done () (c, e.sample thread x) := by
  simp only [sampleCounter, Prog.bind_apply, Prog.get_apply, Prog.when_apply,
    PerfmonEventSetEntry.sample]
  split_ifs <;> rfl

theorem haswellCountCase_freeRunning (he : FreeRunning M thread mask row e)
    (hx : x.toNat < 2 ^ (M.boxMap e.type).regWidth)
    (hread : sampleAccess M cpu msrDev e.type row.counterRegister c = .done (0, x) c₁)
    (clear : Bool) :
    haswellCountCase M thread cpu mask true clear e row (haswellUnit e.type) (c, e) =
      .done () (c₁, e.sample thread x) := by
  have hfield := field64_of_lt he.width_le hx
  have hmem := he.mem
  rcases he.type with ht | ht <;> rw [ht] at hfield hmem
  · simp only [sampleAccess, ht, if_true] at hread
    simp [ht, haswellCountCase, haswellUnit, Prog.bind_apply, Prog.get_apply, Prog.when_apply,
      Prog.zoom, Prog.Outcome.onState, hread, checkAndReturnError, hfield, hmem,
      sampleCounter_apply]
  · simp only [sampleAccess, ht, reduceCtorEq, if_false] at hread
    simp [ht, haswellCountCase, haswellUnit, Prog.bind_apply, Prog.get_apply, Prog.when_apply,
      Prog.pure_apply, Prog.zoom, Prog.Outcome.onState, checkRead, hread,
      checkAndReturnError, sampleCounter_apply]

theorem haswellReadEvent_freeRunning (he : FreeRunning M thread mask row e)
    (hx : x.toNat < 2 ^ (M.boxMap e.type).regWidth)
    (hread : sampleAccess M cpu msrDev e.type row.counterRegister c = .done (0, x) c₁) :
    haswellReadEvent M thread cpu mask true () (c, e) = .done () (c₁, e.sample thread x) := by
  have hcase := haswellCountCase_freeRunning he hx hread false
  simp [haswellReadEvent, Prog.bind_apply, Prog.get_apply, Prog.when_apply, he.init, he.mem,
    counterMap, he.row_eq, Prog.orUndefined, Prog.pure_apply, hcase]

theorem haswellStopEvent_freeRunning (he : FreeRunning M thread mask row e)
    (hx : x.toNat < 2 ^ (M.boxMap e.type).regWidth)
    (hread : sampleAccess M cpu msrDev e.type row.counterRegister c = .done (0, x) c₁) :
    haswellStopEvent M thread cpu mask true () (c, e) =
      .done () (c₁, (e.sample thread x).setInit thread false) := by
  have hcase := haswellCountCase_freeRunning he hx hread true
  simp [haswellStopEvent, Prog.bind_apply, Prog.get_apply, Prog.when_apply, he.init, he.mem,
    counterMap, he.row_eq, Prog.orUndefined, Prog.pure_apply, hcase, Prog.modify_apply, Prog.zoom,
    Prog.Outcome.onState]

end Rounds

/-! ## A measurement -/

section Measurement

variable (M : Machine) (thread cpu : ℕ) (mask : BitVec 128) (n i : ℕ)

/-- The loop over the events arrives at event `i`, and its register delivers
`x`. -/
def SampledAt {β : Type} (dev : RegisterMap → PciDeviceIndex) (body : β → EventProg β) (b : β)
    (p : Core × List Slot) (x : Word) : Prop :=
  ∃ b' c e row c', Prog.reaches body i b p = some (b', c, e) ∧ e.type ≠ .notype ∧
    M.counterMap[e.index]? = some row ∧
    sampleAccess M cpu (dev row) e.type row.counterRegister c = .done (0, x) c'

/-- Whatever happens elsewhere between two routines of a thread, event `i` at
most becomes unusable, and the thread's record of it stays. -/
def RecordKept (slots slots' : List Slot) : Prop :=
  ∀ e, slots[i]? = some (some e) → ∃ e', slots'[i]? = some (some e') ∧ e'.index = e.index ∧
    (e'.type = e.type ∨ e'.type = .notype) ∧ e'.threadCounter thread = e.threadCounter thread

/-- A start of the thread that owns its socket's lock and some reads after it:
the sample of event `i` at the start, those of the reads, and the slots. The
state of the machine is any at every routine. -/
inductive SampledSession (slots : List Slot) : Word → List Word → List Slot → Prop
  | start {c c' : Core} {S : Word} {slots' : List Slot} (hlock : haveLock M c cpu = true)
      (hsample : SampledAt M cpu i RegisterMap.device
        (haswellStartEvent M thread cpu mask true) 0 (c, slots) S)
      (hrun : perfmonStartCountersThreadHaswell M thread cpu mask n (c, slots) =
        .done () (c', slots')) :
      SampledSession slots S [] slots'
  | read {c c₀ c₁ c' : Core} {S x flags : Word} {xs : List Word} {slots₁ slots₂ : List Slot}
      (h : SampledSession slots S xs slots₁) (hlock : haveLock M c cpu = true)
      (hpause : pauseCore M cpu mask c = .done flags c₀)
      (hfreeze : hasepFreezeUncore M cpu mask true c₀ = .done () c₁)
      (hsample : SampledAt M cpu i (fun _ => msrDev)
        (haswellReadEvent M thread cpu mask true) () (c₁, slots₁) x)
      (hrun : perfmonReadCountersThreadHaswell M thread cpu mask n (c, slots₁) =
        .done () (c', slots₂)) :
      SampledSession slots S (xs ++ [x]) slots₂
  | other {S : Word} {xs : List Word} {slots₁ slots₂ : List Slot}
      (h : SampledSession slots S xs slots₁) (hkept : RecordKept thread i slots₁ slots₂) :
      SampledSession slots S xs slots₂

/-- A session and its final stop. -/
inductive Stopped (slots : List Slot) : Word → List Word → List Slot → Prop
  | stop {c c₀ c₁ c' : Core} {S x : Word} {xs : List Word} {slots₁ slots₂ : List Slot}
      (h : SampledSession M thread cpu mask n i slots S xs slots₁) (hlock : haveLock M c cpu = true)
      (hpause : Prog.when (hasCore mask) (checkWrite M cpu msrDev msrPerfGlobalCtrl 0) c =
        .done () c₀)
      (hfreeze : hasepFreezeUncore M cpu mask true c₀ = .done () c₁)
      (hsample : SampledAt M cpu i (fun _ => msrDev)
        (haswellStopEvent M thread cpu mask true) () (c₁, slots₁) x)
      (hrun : perfmonStopCountersThreadHaswell M thread cpu mask n (c, slots₁) =
        .done () (c', slots₂)) :
      Stopped slots S (xs ++ [x]) slots₂

/-- How far a counter of row `row` came from the sample `S` over the samples
`xs`. -/
def advanceOf (row : RegisterMap) (S : Word) (xs : List Word) : ℕ :=
  Samples.advance (2 ^ counterWidth M row.type) S.toNat (xs.map BitVec.toNat)

/-- A count in the unit of its counter: energy for `POWER`. -/
def inUnit (type : RegisterType) (index : RegisterIndex) (count : ℚ) : ℚ :=
  if type = .power then M.fl (count * M.energyUnit (getCounterTypeOffset M index)) else count

/-- The record shows what the counter did since the start: how often it wrapped,
and how far it came. -/
def AdvanceRecorded (row : RegisterMap) (e : PerfmonEventSetEntry) (S : Word)
    (xs : List Word) : Prop :=
  (e.threadCounter thread).overflows = Samples.wraps S.toNat (xs.map BitVec.toNat) ∧
    (calculateResult M e.index row.type (e.threadCounter thread)).1 =
      inUnit M row.type e.index (advanceOf M row S xs)

end Measurement

/-! ### What a measurement leaves in the record -/

section Record

variable {thread cpu : ℕ} {mask : BitVec 128} {n i : ℕ} {row : RegisterMap}
  {e e' : PerfmonEventSetEntry} {slots slots' : List Slot} {S : Word} {xs : List Word}

/-- The record after a start and the samples `xs`: the overflows that were there
before it, and the readings that fell below their predecessor, the first of
them compared with 0. -/
def recordAfter (overflows : Int) (S : Word) (xs : List Word) : PerfmonCounter where
  init := true
  overflows := overflows + Samples.wraps 0 (xs.map BitVec.toNat)
  startData := S
  counterData := xs.getLastD 0
  fullData := 0

theorem sample_threadCounter (e : PerfmonEventSetEntry) (thread : ℕ) (x : Word) :
    (e.sample thread x).threadCounter thread =
      { e.threadCounter thread with
        overflows := (e.threadCounter thread).overflows +
          if x < (e.threadCounter thread).counterData then 1 else 0
        counterData := x } := by
  unfold PerfmonEventSetEntry.sample
  split_ifs
  · simp [PerfmonEventSetEntry.setCounter, PerfmonEventSetEntry.addOverflow]
  · simp [PerfmonEventSetEntry.setCounter]

theorem sample_recordAfter {o : Int} {x : Word}
    (h : e.threadCounter thread = recordAfter o S xs) :
    (e.sample thread x).threadCounter thread = recordAfter o S (xs ++ [x]) := by
  have hlast : (xs.map BitVec.toNat).getLastD 0 = (xs.getLastD 0).toNat := by
    rw [List.getLastD_eq_getLast?, List.getLastD_eq_getLast?, List.getLast?_map]
    cases xs.getLast? <;> rfl
  have hnew : (xs ++ [x]).getLastD 0 = x := by simp
  rw [sample_threadCounter, h]
  simp only [recordAfter, List.map_append, List.map_cons, List.map_nil, Samples.wraps_concat,
    hlast, hnew, BitVec.lt_def, Nat.cast_add, Nat.cast_ite, Nat.cast_one, Nat.cast_zero,
    Int.add_assoc]

theorem forCells_sampledAt {β : Type} {dev : RegisterMap → PciDeviceIndex}
    {body : β → EventProg β} {b b' : β} {c c' : Core} {x : Word}
    (hi : i < n) (hsample : SampledAt M cpu i dev body b (c, slots) x)
    (hrun : Prog.forCells body n b (c, slots) = .done b' (c', slots')) :
    ∃ b₁ c₁ e row c₂ b₂ c₃ e', slots[i]? = some (some e) ∧ e.type ≠ .notype ∧
      M.counterMap[e.index]? = some row ∧
      sampleAccess M cpu (dev row) e.type row.counterRegister c₁ = .done (0, x) c₂ ∧
      body b₁ (c₁, e) = .done b₂ (c₃, e') ∧ slots'[i]? = some (some e') := by
  obtain ⟨b₁, c₁, e, row, c₂, hreach, hne, hrow, haccess⟩ := hsample
  obtain ⟨b₁', c₁', e₀, b₂, c₃, e', hreach', hslot, hbody, hslot'⟩ :=
    Prog.forCells_reaches hi hrun
  rw [hreach] at hreach'
  obtain ⟨rfl, rfl, rfl⟩ : b₁ = b₁' ∧ c₁ = c₁' ∧ e = e₀ := by simpa using hreach'
  exact ⟨b₁, c₁, e, row, c₂, b₂, c₃, e', hslot, hne, hrow, haccess, hbody, hslot'⟩

theorem FreeRunning.of_eq (he : FreeRunning M thread mask row e) (htype : e'.type = e.type)
    (hindex : e'.index = e.index) (hinit : (e'.threadCounter thread).init = true) :
    FreeRunning M thread mask row e' where
  type := htype ▸ he.type
  row_eq := hindex ▸ he.row_eq
  row_type := htype ▸ he.row_type
  init := hinit
  mem := htype ▸ he.mem
  width_pos := htype ▸ he.width_pos
  width_le := htype ▸ he.width_le

/-- What the slots hold of event `e` after its start and the samples `xs`. -/
def Tracks (thread i : ℕ) (e : PerfmonEventSetEntry) (S : Word) (xs : List Word)
    (slots : List Slot) : Prop :=
  ∃ e', slots[i]? = some (some e') ∧ e'.index = e.index ∧
    (e'.type = e.type ∨ e'.type = .notype) ∧
    e'.threadCounter thread = recordAfter (e.threadCounter thread).overflows S xs

/-- An event after the reset of the uncore counters. -/
def MaybeDropped (e e' : PerfmonEventSetEntry) : Prop :=
  e' = e ∨ e' = { e with type := .notype }

theorem MaybeDropped.trans (a b c : PerfmonEventSetEntry) (h : MaybeDropped a b)
    (h' : MaybeDropped b c) : MaybeDropped a c := by
  rcases h with rfl | rfl
  · exact h'
  · rcases h' with rfl | rfl
    · exact Or.inr rfl
    · exact Or.inr rfl

theorem startTail_dropped (M : Machine) (cpu : ℕ) (mask : BitVec 128) (n : ℕ) (lock : Bool)
    (flags : Word) :
    Prog.Respects ((Prog.Flow.of (Prog.CellsRel MaybeDropped)
      (Prog.CellsRel.refl fun _ => Or.inl rfl) (Prog.CellsRel.trans MaybeDropped.trans)).snd :
        Prog.Flow (Core × List Slot))
      (do
        hasepUnfreezeUncoreAndResetCtr M cpu mask n lock
        Prog.when (hasCore mask) do
          Prog.onFst (checkWrite M cpu msrDev msrPerfGlobalOvfCtrl ((bit 63 ||| bit 62) ||| flags))
          Prog.onFst (checkWrite M cpu msrDev msrPerfGlobalCtrl flags)) :=
  .bind (resetCtr_slots (fun _ => Or.inl rfl) MaybeDropped.trans (fun _ => Or.inr rfl) n lock)
    fun _ => .when fun _ => .bind (.onFst_snd _) fun _ => .onFst_snd _

/-- What a read does after its loop leaves the slots alone. -/
theorem readTail_slots (M : Machine) (cpu : ℕ) (mask : BitVec 128) (lock : Bool) (flags : Word) :
    Prog.Respects ((Prog.Flow.of Eq Eq.refl fun _ _ _ => Eq.trans).snd :
        Prog.Flow (Core × List Slot))
      (do
        Prog.onFst (hasepUnfreezeUncore M cpu mask lock)
        Prog.when (hasCore mask) (Prog.onFst (checkWrite M cpu msrDev msrPerfGlobalCtrl flags))) :=
  .bind (.onFst_snd _) fun _ => .when fun _ => .onFst_snd _

theorem tracks_start {c c' : Core} (he : FreeRunning M thread mask row e)
    (hslot : slots[i]? = some (some e)) (hi : i < n)
    (hfit : S.toNat < 2 ^ (M.boxMap e.type).regWidth) (hlock : haveLock M c cpu = true)
    (hsample : SampledAt M cpu i RegisterMap.device
      (haswellStartEvent M thread cpu mask true) 0 (c, slots) S)
    (hrun : perfmonStartCountersThreadHaswell M thread cpu mask n (c, slots) =
      .done () (c', slots')) : Tracks thread i e S [] slots' := by
  obtain ⟨p, _, hget, hrun⟩ := Prog.bind_eq_done.mp hrun
  cases hget
  rw [hlock] at hrun
  obtain ⟨flags, ⟨c₁, slots₁⟩, hloop, hrest⟩ := Prog.bind_eq_done.mp hrun
  obtain ⟨b₁, c₁', e₁, row₁, c₂', b₂, c₃, e₂, hslot₁, hne, hrow, haccess, hbody, hslot₂⟩ :=
    forCells_sampledAt hi hsample hloop
  obtain rfl : e = e₁ := by simpa [hslot] using hslot₁
  obtain rfl : row = row₁ := by simpa [he.row_eq] using hrow
  rw [haswellStartEvent_freeRunning he hfit haccess] at hbody
  cases hbody
  -- after the loop the event can only be dropped
  have htail := startTail_dropped M cpu mask n true flags (c₁, slots₁)
  have hcells := Prog.wp_done htail hrest
  obtain ⟨e', hslot', hdrop⟩ := Prog.CellsRel.get_left hcells hslot₂
  have hrecord : ((e.clearData thread).setStart thread S).threadCounter thread =
      recordAfter (e.threadCounter thread).overflows S [] := by
    simp [PerfmonEventSetEntry.clearData, PerfmonEventSetEntry.setStart, recordAfter,
      Samples.wraps, he.init]
  rcases hdrop with rfl | rfl
  · exact ⟨_, hslot', rfl, Or.inl rfl, hrecord⟩
  · exact ⟨_, hslot', rfl, Or.inr rfl, hrecord⟩

theorem tracks_visit {c₁ c₂ : Core} {x : Word} {body : Unit → EventProg Unit}
    (he : FreeRunning M thread mask row e) (hi : i < n) (h : Tracks thread i e S xs slots)
    (hsample : SampledAt M cpu i (fun _ => msrDev) body () (c₁, slots) x)
    (hrun : Prog.forCells body n () (c₁, slots) = .done () (c₂, slots')) :
    ∃ e₁ e₂ c c₁ c₂, FreeRunning M thread mask row e₁ ∧ e₁.index = e.index ∧
      e₁.type = e.type ∧
      e₁.threadCounter thread = recordAfter (e.threadCounter thread).overflows S xs ∧
      sampleAccess M cpu msrDev e₁.type row.counterRegister c = .done (0, x) c₁ ∧
      body () (c, e₁) = .done () (c₂, e₂) ∧ slots'[i]? = some (some e₂) := by
  obtain ⟨e₁, hslot, hindex, htype, hrecord⟩ := h
  obtain ⟨_, c, e₁', row₁, c₁', _, c₂', e₂, hslot₁, hne, hrow, haccess, hdone, hslot₂⟩ :=
    forCells_sampledAt hi hsample hrun
  obtain rfl : e₁ = e₁' := by simpa [hslot] using hslot₁
  have htype : e₁.type = e.type := htype.resolve_right hne
  have he₁ : FreeRunning M thread mask row e₁ := he.of_eq htype hindex (by rw [hrecord]; rfl)
  obtain rfl : row = row₁ := by simpa [he₁.row_eq] using hrow
  exact ⟨e₁, e₂, c, c₁', c₂', he₁, hindex, htype, hrecord, haccess, hdone, hslot₂⟩

theorem sample_index (e : PerfmonEventSetEntry) (thread : ℕ) (x : Word) :
    (e.sample thread x).index = e.index := by
  unfold PerfmonEventSetEntry.sample
  split_ifs <;> rfl

theorem sample_type (e : PerfmonEventSetEntry) (thread : ℕ) (x : Word) :
    (e.sample thread x).type = e.type := by
  unfold PerfmonEventSetEntry.sample
  split_ifs <;> rfl

theorem tracks_session (he : FreeRunning M thread mask row e)
    (hslot : slots[i]? = some (some e)) (hi : i < n)
    (hS : S.toNat < 2 ^ (M.boxMap e.type).regWidth)
    (h : SampledSession M thread cpu mask n i slots S xs slots')
    (hxs : ∀ x ∈ xs, x.toNat < 2 ^ (M.boxMap e.type).regWidth) :
    Tracks thread i e S xs slots' := by
  induction h with
  | start hlock hsample hrun => exact tracks_start he hslot hi hS hlock hsample hrun
  | @read c c₀ c₁ c' S x flags xs slots₁ slots₂ _ hlock hpause hfreeze hsample hrun ih =>
      have hx : x.toNat < 2 ^ (M.boxMap e.type).regWidth := hxs x (by simp)
      have htracks := ih hS fun y hy => hxs y (List.mem_append_left _ hy)
      obtain ⟨p, _, hget, hrun⟩ := Prog.bind_eq_done.mp hrun
      cases hget
      rw [hlock] at hrun
      rw [Prog.bind_of_done (Prog.zoom_of_done hpause)] at hrun
      rw [Prog.bind_of_done (Prog.zoom_of_done hfreeze)] at hrun
      obtain ⟨⟨⟩, ⟨c₂, slots₃⟩, hloop, hrest⟩ := Prog.bind_eq_done.mp hrun
      obtain ⟨e₁, e₂, _, _, _, he₁, hindex, htype, hrecord, haccess, hbody, hslot₂⟩ :=
        tracks_visit he hi htracks hsample hloop
      rw [haswellReadEvent_freeRunning he₁ (htype ▸ hx) haccess] at hbody
      cases hbody
      have htail := readTail_slots M cpu mask true flags (c₂, slots₃)
      have hslots := Prog.wp_done htail hrest
      obtain rfl : slots₃ = slots₂ := hslots
      exact ⟨_, hslot₂, (sample_index ..).trans hindex, Or.inl ((sample_type ..).trans htype),
        sample_recordAfter hrecord⟩
  | other _ hkept ih =>
      obtain ⟨e₁, hslot₁, hindex, htype, hrecord⟩ := ih hS hxs
      obtain ⟨e₂, hslot₂, hindex', htype', hrecord'⟩ := hkept e₁ hslot₁
      refine ⟨e₂, hslot₂, hindex'.trans hindex, ?_, hrecord'.trans hrecord⟩
      rcases htype' with heq | hnone
      · rw [heq]
        exact htype
      · exact Or.inr hnone

theorem tracks_stop (he : FreeRunning M thread mask row e) (hslot : slots[i]? = some (some e))
    (hi : i < n) (hS : S.toNat < 2 ^ (M.boxMap e.type).regWidth)
    (hxs : ∀ x ∈ xs, x.toNat < 2 ^ (M.boxMap e.type).regWidth)
    (h : Stopped M thread cpu mask n i slots S xs slots') :
    xs ≠ [] ∧ ∃ e', slots'[i]? = some (some e') ∧ e'.index = e.index ∧
      e'.threadCounter thread =
        { recordAfter (e.threadCounter thread).overflows S xs with init := false } := by
  cases h with
  | @stop c c₀ c₁ c' _ x xs slots₁ _ hsession hlock hpause hfreeze hsample hrun =>
      have hx : x.toNat < 2 ^ (M.boxMap e.type).regWidth := hxs x (by simp)
      have htracks := tracks_session he hslot hi hS hsession fun y hy =>
        hxs y (List.mem_append_left _ hy)
      obtain ⟨p, _, hget, hrun⟩ := Prog.bind_eq_done.mp hrun
      cases hget
      rw [hlock] at hrun
      have hpause' : (Prog.when (hasCore mask)
          (Prog.onFst (checkWrite M cpu msrDev msrPerfGlobalCtrl 0)) : Prog Int _ Unit)
            (c, slots₁) = .done () (c₀, slots₁) := by
        by_cases hcore : hasCore mask
        · rw [Prog.when_of_pos hcore] at hpause ⊢
          exact Prog.zoom_of_done hpause
        · rw [Prog.when_of_neg hcore] at hpause ⊢
          cases hpause
          rfl
      rw [Prog.bind_of_done hpause', Prog.bind_of_done (Prog.zoom_of_done hfreeze)] at hrun
      obtain ⟨e₁, e₂, _, _, _, he₁, hindex, htype, hrecord, haccess, hbody, hslot₂⟩ :=
        tracks_visit he hi htracks hsample hrun
      rw [haswellStopEvent_freeRunning he₁ (htype ▸ hx) haccess] at hbody
      cases hbody
      refine ⟨by simp, _, hslot₂, (sample_index ..).trans hindex, ?_⟩
      simp only [PerfmonEventSetEntry.setInit, PerfmonEventSetEntry.onCounter_self,
        sample_recordAfter hrecord]

end Record

/-! ## The recorded advance -/

section Advance

variable {thread cpu : ℕ} {mask : BitVec 128} {n i : ℕ} {row : RegisterMap}
  {e e' : PerfmonEventSetEntry} {slots slots' : List Slot} {S : Word} {xs : List Word}

theorem calculateResult_freeRunning {type : RegisterType}
    (ht : type = .power ∨ type = .wbox0fix) (index : RegisterIndex) (r : PerfmonCounter) :
    (calculateResult M index type r).1 =
      inUnit M type index (countedResult M type r.startData r.counterData r.overflows) := by
  rw [calculateResult_fst]
  rcases ht with rfl | rfl
  · rfl
  · exact calculateMarkerResult_of_ne (by decide) (by decide) _

/-- Nothing wraps exactly when no sample is below its predecessor. -/
theorem wraps_eq_zero_iff :
    Samples.wraps S.toNat (xs.map BitVec.toNat) = 0 ↔ (S :: xs).IsChain (· ≤ ·) := by
  rw [Samples.wraps_eq_zero_iff, ← List.map_cons, List.isChain_map]
  rfl

theorem advanceOf_add (hS : S.toNat < 2 ^ counterWidth M row.type)
    (hxs : ∀ x ∈ xs, x.toNat < 2 ^ counterWidth M row.type) (hne : xs ≠ []) :
    advanceOf M row S xs + S.toNat =
      Samples.wraps S.toNat (xs.map BitVec.toNat) * 2 ^ counterWidth M row.type +
        (xs.getLastD 0).toNat := by
  have hlast : (xs.map BitVec.toNat).getLastD S.toNat = (xs.getLastD 0).toNat := by
    rw [List.getLastD_eq_getLast?, List.getLastD_eq_getLast?, List.getLast?_map,
      List.getLast?_eq_some_getLast hne]
    rfl
  rw [← hlast]
  exact Samples.advance_add hS (by simpa using hxs)

/-- Whether the counter wrapped before the first sample, which the start makes the routines
miss -/
def wrapsUnseen (S : Word) (xs : List Word) : Int :=
  if ∃ x ∈ xs.head?, x < S then 1 else 0

theorem wraps_eq_unseen (S : Word) (xs : List Word) :
    (Samples.wraps S.toNat (xs.map BitVec.toNat) : Int) =
      wrapsUnseen S xs + Samples.wraps 0 (xs.map BitVec.toNat) := by
  cases xs with
  | nil => simp [Samples.wraps, wrapsUnseen]
  | cons x xs =>
      rw [List.map_cons, Samples.wraps_cons_zero, Nat.cast_add]
      simp [wrapsUnseen, BitVec.lt_def]

/-- The advance of a counter that did not wrap can be told: a double holds it. -/
def Readable (row : RegisterMap) (S : Word) (xs : List Word) : Prop :=
  row.type = .wbox0fix → Holds 53 ((xs.getLastD 0).toNat - S.toNat)

/-- The counter wrapped, an overflow count left over from before stands for the wrap that is
missed, and rounding makes up for the events that the overflows lose. -/
def WrapsMadeUp (M : Machine) (row : RegisterMap) (index : RegisterIndex) (overflows : Int)
    (S : Word) (xs : List Word) : Prop :=
  let width := counterWidth M row.type
  let k := Samples.wraps S.toNat (xs.map BitVec.toNat)
  overflows = wrapsUnseen S xs ∧ 0 < k ∧
    inUnit M row.type index ((nearest 53 (nearest 53 (firstPart width S (xs.getLastD 0)) +
      nearest 53 (furtherPart width k)) : ℕ) : ℚ) = inUnit M row.type index (advanceOf M row S xs)

end Advance

/-! ### The energy of a package -/

/-- `PWR_PKG_ENERGY` on `PWR0`, set up for every thread. -/
def pkgEnergy : PerfmonEventSetEntry where
  event := { name := "PWR_PKG_ENERGY", limit := "PWR0", eventId := 0x00, umask := 0x00 }
  index := 8
  type := .power
  threadCounter := fun _ => { PerfmonCounter.fresh with init := true }

/-- CPU 0 owns its socket's lock, and every register holds `v`. -/
def holding (v : Word) : Core where
  regs := fun _ _ _ => v
  currentConfig := fun _ _ => 0
  registeredCpuList := fun _ => true
  socketLock := fun _ => 0
  tileLock := fun _ => 0
  haswellCboxSetup := none
  trace := []

/-- The event after a start that reads `S` and a stop that reads `x`. -/
def pkgEnergyAfter (S x : Word) : PerfmonEventSetEntry :=
  (((pkgEnergy.clearData 0).setStart 0 S).sample 0 x).setInit 0 false

def pwr0 : RegisterMap := ⟨"PWR0", 8, .power, 0, msrPkgEnergyStatus, 0, msrDev, 0⟩

theorem freeRunning_pkgEnergy :
    FreeRunning roundingMachine 0 (regTypeMaskOf .power) pwr0 pkgEnergy where
  type := Or.inl rfl
  row_eq := rfl
  row_type := rfl
  init := rfl
  mem := by decide
  width_pos := by decide
  width_le := by decide

theorem stopped_pkgEnergy_rising :
    Stopped roundingMachine 0 0 (regTypeMaskOf .power) 1 0 [some pkgEnergy] 5 [9]
      [some (pkgEnergyAfter 5 9)] := by
  have hstart : SampledSession roundingMachine 0 0 (regTypeMaskOf .power) 1 0 [some pkgEnergy] 5 []
      [some ((pkgEnergy.clearData 0).setStart 0 5)] :=
    .start (c := holding 5) rfl ⟨_, _, _, pwr0, _, rfl, by decide, rfl, rfl⟩ rfl
  exact .stop (c := holding 9) hstart rfl rfl rfl ⟨_, _, _, pwr0, _, rfl, by decide, rfl, rfl⟩ rfl

end Likwid
