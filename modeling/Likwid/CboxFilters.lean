import Likwid.UncoreReset
import Likwid.CounterFlow

/-!
# The filters of the CBOX units

`hasep_cbox_setup` of Haswell EP sets bits in the filter registers of a box and clears none;
`snbep_cbox_setup` of Sandy Bridge EP writes the register only for an event that has filters. The
macro that clears the filters is not used by the set-up. What the filter registers hold after a run
of set-ups is therefore what all of them asked for, and a group sees its own filters only if the
earlier groups left nothing behind that it does not write itself (`filtersOwn_iff`).
-/

namespace Likwid

variable (M : Machine)

/-! ## Sandy Bridge EP -/

/-- The values of `EVENT_OPTION_OPCODE` that `snb_cbox_filter` takes -/
def snbCboxOpcodes : List Word :=
  [0x180, 0x181, 0x182, 0x187, 0x18C, 0x18D, 0x190, 0x191, 0x192, 0x194, 0x195, 0x19C, 0x19E,
   0x1C4, 0x1C5, 0x1C8, 0x1E4, 0x1E5, 0x1E6]

/-- `mask |= (1ULL<<i)` for every NUMA domain; a shift by 64 has no meaning. -/
def numaMask (numberOfNumaDomains : ℕ) : Option Word :=
  if numberOfNumaDomains ≤ 64 then some (lowBits numberOfNumaDomains) else none

/-- One option of `snb_cbox_filter`, with the flag `set_state` -/
def snbCboxFilterOption (numberOfNumaDomains : ℕ) (st : Word × Bool)
    (option : PerfmonEventOption) : Option (Word × Bool) :=
  match option.type with
  | .opcode => some
      (if option.value ∈ snbCboxOpcodes then (st.1 ||| ((option.value &&& 0x1FF) <<< 23), st.2)
        else st)
  | .state => some
      (if option.value &&& 0x3F ≠ 0 then (st.1 ||| ((option.value &&& 0x3F) <<< 17), true) else st)
  | .nid => (numaMask numberOfNumaDomains).map fun mask =>
      if option.value &&& mask ≠ 0 then (st.1 ||| ((option.value &&& 0xFF) <<< 10), st.2) else st
  | .tid => some
      (if option.value ≤ 0xF then (st.1 ||| (option.value &&& 0x1F), st.2) else st)
  | _ => some st

def snbCboxFilter (numberOfNumaDomains : ℕ) (event : PerfmonEvent) : Option Word := do
  let st ← event.optionList.foldlM (snbCboxFilterOption numberOfNumaDomains) (0, false)
  pure (if event.eventId = 0x34 ∧ st.2 = false then st.1 ||| (0x1F <<< 18) else st.1)

def snbepCboxOption (flags : Word) (option : PerfmonEventOption) : Word :=
  match option.type with
  | .tid => flags ||| bit 19
  | _ => boxOption 0xFF flags option

def snbepCboxSetup (numberOfNumaDomains cpu : ℕ) (index : RegisterIndex) (event : PerfmonEvent) :
    Prog Int Core Unit := do
  requireLock M cpu
  Prog.when (0 < event.numberOfOptions) do
    let optflags ← Prog.orUndefined (snbCboxFilter numberOfNumaDomains event)
    let row ← counterMap M index
    Prog.when (optflags ≠ 0)
      (checkWrite M cpu msrDev (M.boxMap row.type).filterRegister1 optflags)
  writeConfig M cpu index (event.optionList.foldl snbepCboxOption (bit 22 ||| eventBits event))

/-! ## Runs of set-ups -/

/-- A call of `perfmon_setupCounterThread_haswell` -/
structure SetupCall where
  thread : ℕ
  cpu : ℕ
  mask : BitVec 128
  numberOfEvents : ℕ
  slots : List Slot

/-- The events of the call -/
def SetupCall.events (call : SetupCall) : List PerfmonEventSetEntry :=
  (call.slots.take call.numberOfEvents).filterMap id

/-- The state after the set-ups, one after the other, if all of them complete -/
def setupGroups : Core → List SetupCall → Option Core
  | c, [] => some c
  | c, call :: calls =>
      ((perfmonSetupCounterThreadHaswell M call.thread call.cpu call.mask
        call.numberOfEvents).result? (c, call.slots)).bind fun r => setupGroups r.2.1 calls

/-- A call of `snbep_cbox_setup` -/
structure CboxCall where
  cpu : ℕ
  index : RegisterIndex
  event : PerfmonEvent

/-- The state after the calls, one after the other, if all of them return -/
def setupCboxes (numberOfNumaDomains : ℕ) : Core → List CboxCall → Option Core
  | c, [] => some c
  | c, call :: calls =>
      ((Prog.call 0 (snbepCboxSetup M numberOfNumaDomains call.cpu call.index call.event) :
        Prog Int Core Int).result? c).bind fun r => setupCboxes numberOfNumaDomains r.2 calls

/-! ## The filters of a group -/

/-- The filter registers of the box of a counter -/
def boxFilters (row : RegisterMap) : List ℕ :=
  [(M.boxMap row.type).filterRegister1, (M.boxMap row.type).filterRegister2]

/-- The filter register of a CBOX -/
def IsFilter (reg : ℕ) : Prop :=
  ∃ row ∈ M.counterMap, haswellUnit row.type = .cbox ∧ reg ∈ boxFilters M row

/-- The bits that an option asks for in the two filter registers -/
def hasepCboxBits (option : PerfmonEventOption) : Word × Word :=
  let field (width : ℕ) : Word :=
    (extractBitField (option.value.setWidth 32) width 0).setWidth 64
  match option.type with
  | .opcode => (0, (0x3#64 <<< 27) ||| (field 5 <<< 20))
  | .nid => (0, field 16)
  | .state => (field 6 <<< 17, 0)
  | .tid => (field 6, 0)
  | _ => (0, 0)

/-- Bit `i` of `reg` is one that the option asks for. -/
def OptionFilter (filter0 filter1 : ℕ) (option : PerfmonEventOption) (reg i : ℕ) : Prop :=
  (reg = filter0 ∧ (hasepCboxBits option).1.getLsbD i = true) ∨
    reg = filter1 ∧ (hasepCboxBits option).2.getLsbD i = true

/-- Bit `i` of `reg` is one that the event asks for: by an option, or as the states it counts if it
gives none. -/
def EventFilter (filter0 filter1 : ℕ) (event : PerfmonEvent) (reg i : ℕ) : Prop :=
  (∃ o ∈ event.optionList, OptionFilter filter0 filter1 o reg i) ∨
    ((event.eventId = 0x34 ∧ ∀ o ∈ event.optionList, o.type ≠ .state) ∧ reg = filter0 ∧
      (0x1F#64 <<< 17).getLsbD i = true)

/-- The event is one of a CBOX, and `row` that of its counter. -/
structure CboxEvent (mask : BitVec 128) (e : PerfmonEventSetEntry) (row : RegisterMap) : Prop where
  masked : hasType mask e.type
  unit : haswellUnit e.type = .cbox
  row_eq : M.counterMap[e.index]? = some row

def EntryFilter (mask : BitVec 128) (e : PerfmonEventSetEntry) (reg i : ℕ) : Prop :=
  ∃ row, CboxEvent M mask e row ∧
    EventFilter (M.boxMap row.type).filterRegister1 (M.boxMap row.type).filterRegister2 e.event
      reg i

/-- Bit `i` of `reg` is one that a CBOX event of the group asks for. -/
def GroupFilter (group : SetupCall) (reg i : ℕ) : Prop :=
  ∃ e ∈ group.events, EntryFilter M group.mask e reg i

/-- `reg` is a filter register of a box that the group uses. -/
def UsesFilter (group : SetupCall) (reg : ℕ) : Prop :=
  ∃ e ∈ group.events, ∃ row, CboxEvent M group.mask e row ∧ reg ∈ boxFilters M row

/-- **The filter registers of the boxes that the group uses hold the filters of its own events.** -/
def FiltersOwn (group : SetupCall) (c : Core) : Prop :=
  ∀ reg, UsesFilter M group reg → ∀ i,
    (c.regs group.cpu msrDev reg).getLsbD i = true ↔ GroupFilter M group reg i

/-- What was in these registers before, and what earlier groups set there, the group sets too. -/
def FiltersCovered (history : List SetupCall) (group : SetupCall) (c : Core) : Prop :=
  ∀ reg, UsesFilter M group reg → ∀ i,
    ((c.regs group.cpu msrDev reg).getLsbD i = true ∨
      ∃ call ∈ history, call.cpu = group.cpu ∧ GroupFilter M call reg i) →
    GroupFilter M group reg i

/-- The filter word that a call of `snbep_cbox_setup` writes, if it writes one, and its register -/
def callFilter (numberOfNumaDomains : ℕ) (call : CboxCall) : Option (ℕ × Word) := do
  let row ← M.counterMap[call.index]?
  let optflags ← snbCboxFilter numberOfNumaDomains call.event
  if 0 < call.event.numberOfOptions ∧ optflags ≠ 0 then
    some ((M.boxMap row.type).filterRegister1, optflags)
  else none

/-- The filter word that the call writes to `reg` of `cpu` -/
def callWord (numberOfNumaDomains cpu reg : ℕ) (call : CboxCall) : Option Word :=
  match callFilter M numberOfNumaDomains call with
  | some (filterReg, optflags) => if call.cpu = cpu ∧ filterReg = reg then some optflags else none
  | none => none

/-- The last filter word that the calls write to `reg` of `cpu` -/
def lastFilter (numberOfNumaDomains cpu reg : ℕ) : List CboxCall → Option Word
  | [] => none
  | call :: calls =>
      (lastFilter numberOfNumaDomains cpu reg calls).or
        (callWord M numberOfNumaDomains cpu reg call)

/-- `reg` is the filter register of a box that the group uses on `cpu`. -/
def CallsFilter (cpu : ℕ) (group : List CboxCall) (reg : ℕ) : Prop :=
  ∃ call ∈ group, call.cpu = cpu ∧ ∃ row, M.counterMap[call.index]? = some row ∧
    reg = (M.boxMap row.type).filterRegister1

/-- The filter register of each box that the group uses holds the last filter word of the group, or
nothing. -/
def CboxFiltersOwn (numberOfNumaDomains cpu : ℕ) (group : List CboxCall) (c : Core) : Prop :=
  ∀ reg, CallsFilter M cpu group reg →
    c.regs cpu msrDev reg = (lastFilter M numberOfNumaDomains cpu reg group).getD 0

/-- The group has filters of its own, or nobody had any before. -/
def CboxFiltersFresh (numberOfNumaDomains cpu : ℕ) (history group : List CboxCall) (c : Core) :
    Prop :=
  ∀ reg, CallsFilter M cpu group reg →
    lastFilter M numberOfNumaDomains cpu reg group = none →
    (lastFilter M numberOfNumaDomains cpu reg history).getD (c.regs cpu msrDev reg) = 0

/-! ## What is assumed -/

/-- Accesses of `cpu` to the filter registers succeed, and a read delivers the content. -/
structure FiltersAnswer (cpu : ℕ) : Prop where
  read : ∀ n reg, IsFilter M reg → M.accessRead n msrDev cpu reg = 0 ∧
    ∀ v, M.accessData n msrDev cpu reg v = v
  write : ∀ n reg data, IsFilter M reg → M.accessWrite n msrDev cpu reg data = 0

/-- The filter registers of the CBOX units are no other registers of the tables. -/
structure FiltersApart : Prop where
  config : ∀ row ∈ M.counterMap, ¬IsFilter M row.configRegister
  filter : ∀ row ∈ M.counterMap, haswellUnit row.type ≠ .cbox → ∀ reg ∈ boxFilters M row,
    ¬IsFilter M reg
  common : ∀ reg ∈ commonRegisters, ¬IsFilter M reg

/-- The only filter register of a CBOX of Sandy Bridge EP -/
def IsCboxFilter (reg : ℕ) : Prop :=
  ∃ row ∈ M.counterMap, haswellUnit row.type = .cbox ∧ reg = (M.boxMap row.type).filterRegister1

/-- Writes of `cpu` to these registers succeed, and none of them is a configuration register. -/
structure CboxFiltersAnswer (cpu : ℕ) : Prop where
  write : ∀ n reg data, IsCboxFilter M reg → M.accessWrite n msrDev cpu reg data = 0
  config : ∀ row ∈ M.counterMap, ¬IsCboxFilter M row.configRegister

/-- The counter of the call is one of a CBOX. -/
def CboxCall.OnCbox (call : CboxCall) : Prop :=
  ∀ row, M.counterMap[call.index]? = some row → haswellUnit row.type = .cbox

/-- The state in which the groups of a socket are set up: `cpu` is registered and holds the socket
lock. -/
structure OwnsSocket (cpu : ℕ) (c : Core) : Prop where
  accessible : Accessible M cpu c
  lock : haveLock M c cpu = true

variable {M} {cpu : ℕ} {mask : BitVec 128} {c c' : Core}

/-! ## Setting bits in the filter registers -/

/-- From `c` to `c'` the bits in `B` were set in the registers in `K` of `owner`, and no others
changed. -/
structure FilterSets (K : ℕ → Prop) (owner : ℕ) (B : ℕ → ℕ → Prop) (c c' : Core) : Prop where
  bits : ∀ reg, K reg → ∀ i, (c'.regs owner msrDev reg).getLsbD i = true ↔
    (c.regs owner msrDev reg).getLsbD i = true ∨ B reg i
  registered : c'.registeredCpuList = c.registeredCpuList
  socketLock : c'.socketLock = c.socketLock
  cboxSetup : c'.haswellCboxSetup = c.haswellCboxSetup

/-- The registers in `K` of `owner` are as they were. -/
abbrev FiltersKept (K : ℕ → Prop) (owner : ℕ) : Core → Core → Prop :=
  FilterSets K owner fun _ _ => False

namespace FilterSets

variable {K : ℕ → Prop} {owner : ℕ} {B B' : ℕ → ℕ → Prop} {a b : Core}

theorem trans (h : FilterSets K owner B a b) (h' : FilterSets K owner B' b c) :
    FilterSets K owner (fun reg i => B reg i ∨ B' reg i) a c where
  bits reg hreg i := by
    rw [h'.bits reg hreg i, h.bits reg hreg i]
    exact or_assoc
  registered := h'.registered.trans h.registered
  socketLock := h'.socketLock.trans h.socketLock
  cboxSetup := h'.cboxSetup.trans h.cboxSetup

theorem congr (h : FilterSets K owner B a b) (hB : ∀ reg i, B reg i ↔ B' reg i) :
    FilterSets K owner B' a b where
  bits reg hreg i := (h.bits reg hreg i).trans (or_congr_right (hB reg i))
  registered := h.registered
  socketLock := h.socketLock
  cboxSetup := h.cboxSetup

theorem refl (c : Core) : FiltersKept K owner c c :=
  ⟨fun _ _ _ => (or_false _).to_iff.symm, rfl, rfl, rfl⟩

theorem kept_trans (a b c : Core) (h : FiltersKept K owner a b) (h' : FiltersKept K owner b c) :
    FiltersKept K owner a c :=
  (h.trans h').congr fun _ _ => or_self_iff

abbrev flow (K : ℕ → Prop) (owner : ℕ) : Prog.Flow Core :=
  Prog.Flow.of (FiltersKept K owner) refl kept_trans

theorem kept (h : FilterSets K owner B a b) (h' : FiltersKept K owner b c) :
    FilterSets K owner B a c :=
  (h.trans h').congr fun _ _ => or_iff_left id

theorem owns (h : FilterSets K owner B c c') (ho : OwnsSocket M cpu c) : OwnsSocket M cpu c' where
  accessible := by
    unfold Accessible
    rw [h.registered]
    exact ho.accessible
  lock := by
    unfold haveLock
    rw [h.socketLock]
    exact ho.lock

theorem write {ρ : Type} {dev : PciDeviceIndex} {reg : ℕ}
    (hreg : cpu = owner → ¬(dev = msrDev ∧ K reg)) (data : Word) :
    Prog.Respects (flow K owner)
      (hpmWrite M cpu dev reg data : Prog ρ Core Int) := by
  intro c
  show FiltersKept K owner c ((if writeError M c cpu dev reg data = 0 then
    c.setReg (regOwner M cpu dev) dev reg (stored dev data) else c).log _)
  by_cases herr : writeError M c cpu dev reg data = 0
  · rw [if_pos herr]
    refine ⟨fun r hr i => ?_, rfl, rfl, rfl⟩
    have hne : ¬(owner = regOwner M cpu dev ∧ msrDev = dev ∧ r = reg) := by
      rintro ⟨howner, rfl, rfl⟩
      exact hreg howner.symm ⟨rfl, hr⟩
    simp only [Core.log_regs, Core.setReg_regs, if_neg hne, or_false]
  · rw [if_neg herr]
    exact ⟨fun _ _ _ => (or_false _).to_iff.symm, rfl, rfl, rfl⟩

/-- What a judgement of the registers in `K` of `owner` allows -/
abbrev Allowed (K : ℕ → Prop) (cpu owner : ℕ) (dev : PciDeviceIndex) (reg : ℕ) : Prop :=
  cpu = owner → ¬(dev = msrDev ∧ K reg)

theorem logic : FrameLogic M cpu (Allowed K cpu owner) (fun _ => True) (FiltersKept K owner) refl
    kept_trans where
  toClosed := Prog.Respects.closed
  read _ _ := fun _ => ⟨fun _ _ _ => (or_false _).to_iff.symm, rfl, rfl, rfl⟩
  write _ _ data hreg := write hreg data
  save _ _ _ := fun _ => ⟨fun _ _ _ => (or_false _).to_iff.symm, rfl, rfl, rfl⟩

end FilterSets

/-! ## One event on Haswell EP -/

theorem writeConfig_kept {K : ℕ → Prop} {owner : ℕ}
    (hK : cpu = owner → ∀ row ∈ M.counterMap, ¬K row.configRegister) {index : RegisterIndex}
    (flags : Word) :
    Prog.Respects (FilterSets.flow K owner)
      (writeConfig M cpu index flags) := by
  have L : FrameLogic M cpu (FilterSets.Allowed K cpu owner) (fun _ => True) _ _ _ :=
    FilterSets.logic
  refine .bind .get fun _ => .when fun _ c => ?_
  unfold counterMap
  rw [Prog.wp_bind, Prog.wp_orUndefined]
  intro row hrow
  have hconfig := fun heq => hK heq row (List.mem_of_getElem? hrow)
  exact Prog.Respects.bind (L.checkWrite _ fun heq h => hconfig heq h.2)
    (fun _ => L.save _ _ trivial) c

theorem haswellSetupCase_kept (hP : FiltersApart M) {lock : Bool} {e : PerfmonEventSetEntry}
    {row : RegisterMap} (hrow : M.counterMap[e.index]? = some row)
    (hunit : haswellUnit row.type ≠ .cbox) (unit : HaswellUnit) :
    Prog.Respects (FilterSets.flow (IsFilter M) cpu)
      (haswellSetupCase M cpu lock e.index row e.event unit) := by
  have L : FrameLogic M cpu (FilterSets.Allowed (IsFilter M) cpu cpu) (fun _ => True) _ _ _ :=
    FilterSets.logic
  have hB : BoxAllowed M e.index (FilterSets.Allowed (IsFilter M) cpu cpu) fun _ => True := by
    refine ⟨fun row' hrow' => ?_, fun row' hrow' => ?_, fun _ reg hreg _ h => ?_, trivial⟩
    · have hconfig := hP.config row' (List.mem_of_getElem? hrow')
      exact ⟨fun _ h => hconfig h.2, fun _ h => hconfig h.2⟩
    · cases hrow.symm.trans hrow'
      have hfilter := hP.filter row (List.mem_of_getElem? hrow) hunit
      exact ⟨fun _ h => hfilter _ List.mem_cons_self h.2,
        fun _ h => hfilter _ (List.mem_cons_of_mem _ List.mem_cons_self) h.2⟩
    · exact hP.common reg (List.mem_append_right _ hreg) h.2
  exact L.haswellSetupCase hB lock hrow e.event unit

section Owner

variable (hA : FiltersAnswer M cpu)

include hA

theorem orFilter_sets (ho : OwnsSocket M cpu c) {reg : ℕ} (hreg : IsFilter M reg) (w : Word) :
    ∃ c', orFilter M cpu reg w c = .done () c' ∧
      FilterSets (IsFilter M) cpu (fun r i => r = reg ∧ w.getLsbD i = true) c c' := by
  have hread := checkRead_done ho.accessible (by decide) (fun n => (hA.read n reg hreg).1)
    fun n => (hA.read n reg hreg).2
  have hwrite := fun n data => hA.write n reg data hreg
  refine ⟨_, (Prog.bind_of_done hread).trans
    (checkWrite_done ho.accessible (by decide) fun n => hwrite n _), fun r hr i => ?_, rfl, rfl,
    rfl⟩
  have howner : regOwner M cpu msrDev = cpu := rfl
  simp only [Core.log_regs, Core.setReg_regs, howner]
  by_cases heq : r = reg
  · rw [if_pos ⟨trivial, trivial, heq⟩, heq]
    show (c.regs cpu msrDev reg ||| w).getLsbD i = true ↔ _
    rw [BitVec.getLsbD_or, Bool.or_eq_true]
    exact or_congr_right (and_iff_right rfl).symm
  · rw [if_neg fun h => heq h.2.2]
    exact (or_iff_left fun h => heq h.1).symm

/-- One option sets its bits, and takes the default states away if it gives states. -/
theorem hasepCboxOption_sets (ho : OwnsSocket M cpu c) {filter0 filter1 : ℕ}
    (h0 : IsFilter M filter0) (h1 : IsFilter M filter1) (st : Word × Bool)
    (o : PerfmonEventOption) :
    ∃ st' c', hasepCboxOption M cpu filter0 filter1 st o c = .done st' c' ∧
      (st'.2 = true ↔ st.2 = true ∧ o.type ≠ .state) ∧
      FilterSets (IsFilter M) cpu (OptionFilter filter0 filter1 o) c c' := by
  have hnone : ∀ {P Q : Prop} (i : ℕ), (P ∧ (0 : Word).getLsbD i = true) ∨
      Q ∧ (0 : Word).getLsbD i = true ↔ False := by
    intro P Q i
    simp
  have hset : ∀ {reg : ℕ}, IsFilter M reg → ∀ (w : Word) (st' : Word × Bool),
      ∃ c', (do orFilter M cpu reg w; pure st' : Prog Int Core (Word × Bool)) c = .done st' c' ∧
        FilterSets (IsFilter M) cpu (fun r i => r = reg ∧ w.getLsbD i = true) c c' := by
    intro reg hreg w st'
    obtain ⟨c', hdone, hsets⟩ := orFilter_sets hA ho hreg w
    exact ⟨c', Prog.bind_of_done hdone, hsets⟩
  have hzero : ∀ i, ¬(0 : Word).getLsbD i = true := by simp
  unfold hasepCboxOption OptionFilter hasepCboxBits
  cases ht : o.type with
  | opcode =>
    obtain ⟨c', hdone, hsets⟩ := hset h1 _ st
    refine ⟨st, c', hdone, by simp, hsets.congr fun r i => ?_⟩
    exact (or_iff_right fun h => hzero i h.2).symm
  | nid =>
    obtain ⟨c', hdone, hsets⟩ := hset h1 _ st
    refine ⟨st, c', hdone, by simp, hsets.congr fun r i => ?_⟩
    exact (or_iff_right fun h => hzero i h.2).symm
  | state =>
    obtain ⟨c', hdone, hsets⟩ := hset h0 _ (st.1, false)
    refine ⟨_, c', hdone, by simp, hsets.congr fun r i => ?_⟩
    exact (or_iff_left fun h => hzero i h.2).symm
  | tid =>
    obtain ⟨c', hdone, hsets⟩ := hset h0 _ (st.1 ||| bit 19, st.2)
    refine ⟨_, c', hdone, by simp, hsets.congr fun r i => ?_⟩
    exact (or_iff_left fun h => hzero i h.2).symm
  | _ =>
    refine ⟨_, c, rfl, by simp, (FilterSets.refl c).congr fun r i => (hnone i).symm⟩

theorem hasepCboxOptions_sets (ho : OwnsSocket M cpu c) {filter0 filter1 : ℕ}
    (h0 : IsFilter M filter0) (h1 : IsFilter M filter1) (options : List PerfmonEventOption)
    (st : Word × Bool) :
    ∃ st' c', options.foldlM (hasepCboxOption M cpu filter0 filter1) st c = .done st' c' ∧
      (st'.2 = true ↔ st.2 = true ∧ ∀ o ∈ options, o.type ≠ .state) ∧
      FilterSets (IsFilter M) cpu
        (fun reg i => ∃ o ∈ options, OptionFilter filter0 filter1 o reg i) c c' := by
  induction options generalizing st c with
  | nil => exact ⟨st, c, rfl, by simp, (FilterSets.refl c).congr fun reg i => by simp⟩
  | cons o options ih =>
    obtain ⟨st1, c1, hstep, hflag, hsets⟩ := hasepCboxOption_sets hA ho h0 h1 st o
    obtain ⟨st2, c2, hrest, hflag', hsets'⟩ := ih (hsets.owns ho) st1
    refine ⟨st2, c2, ?_, ?_, (hsets.trans hsets').congr fun reg i => by simp⟩
    · rw [List.foldlM_cons, Prog.bind_of_done hstep]
      exact hrest
    · rw [hflag', hflag, and_assoc, List.forall_mem_cons]

/-- **The set-up of an event sets the filter bits that it asks for**, and no others. -/
theorem hasepCboxSetup_sets (hP : FiltersApart M) (ho : OwnsSocket M cpu c) {index : RegisterIndex}
    {row : RegisterMap} (hrow : M.counterMap[index]? = some row)
    (hunit : haswellUnit row.type = .cbox) (event : PerfmonEvent) :
    (hasepCboxSetup M cpu index event).wp
      (fun _ c' => FilterSets (IsFilter M) cpu (EventFilter (M.boxMap row.type).filterRegister1
        (M.boxMap row.type).filterRegister2 event) c c')
      (fun _ c' => FilterSets (IsFilter M) cpu (EventFilter (M.boxMap row.type).filterRegister1
        (M.boxMap row.type).filterRegister2 event) c c') c := by
  have hfilter : ∀ reg ∈ boxFilters M row, IsFilter M reg :=
    fun reg hreg => ⟨row, List.mem_of_getElem? hrow, hunit, hreg⟩
  have h0 := hfilter _ List.mem_cons_self
  have h1 := hfilter _ (List.mem_cons_of_mem _ List.mem_cons_self)
  have hlock : ¬haveLock M c cpu = false := by simp [ho.lock]
  unfold hasepCboxSetup counterMap requireLock
  simp only [hrow, Prog.wp_bind, Prog.wp_orUndefined, Option.some.injEq, forall_eq', Prog.wp_get]
  rw [Prog.when_of_neg hlock, Prog.wp_pure]
  obtain ⟨st, c1, hdone, hflag, hsets⟩ := hasepCboxOptions_sets hA ho h0 h1 event.optionList
    (bit 22 ||| eventBits event, decide (event.eventId = 0x34))
  rw [Prog.wp, hdone]
  show (Prog.when _ _).wp _ _ c1
  by_cases hdefault : st.2 = true
  · obtain ⟨c2, hor, hsets2⟩ := orFilter_sets hA (hsets.owns ho) h0 (0x1F#64 <<< 17)
    rw [Prog.when_of_pos hdefault, Prog.wp, hor]
    have hall : FilterSets (IsFilter M) cpu (EventFilter (M.boxMap row.type).filterRegister1
        (M.boxMap row.type).filterRegister2 event) c c2 := by
      rw [hflag, decide_eq_true_eq] at hdefault
      exact (hsets.trans hsets2).congr fun reg i => or_congr_right (and_iff_right hdefault).symm
    exact Prog.wp_mono (writeConfig_kept (fun _ => hP.config) _ c2) (fun _ _ h => hall.kept h)
      fun _ _ h => hall.kept h
  · rw [Prog.when_of_neg hdefault, Prog.wp_pure]
    have hall : FilterSets (IsFilter M) cpu (EventFilter (M.boxMap row.type).filterRegister1
        (M.boxMap row.type).filterRegister2 event) c c1 := by
      rw [hflag, decide_eq_true_eq] at hdefault
      exact hsets.congr fun reg i => (or_iff_left fun h => hdefault h.1).symm
    exact Prog.wp_mono (writeConfig_kept (fun _ => hP.config) _ c1) (fun _ _ h => hall.kept h)
      fun _ _ h => hall.kept h

/-- One round of the set-up sets the filter bits of its event. -/
theorem haswellSetupEvent_sets (hP : FiltersApart M) (ho : OwnsSocket M cpu c)
    (hep : c.haswellCboxSetup = some .hasep) {thread : ℕ} {lock : Bool} (flags : Word)
    {e : PerfmonEventSetEntry} (he : e.Typed M) :
    (haswellSetupEvent M thread cpu mask lock flags).wp
      (fun _ p => FilterSets (IsFilter M) cpu (EntryFilter M mask e) c p.1) (fun _ _ => True)
      (c, e) := by
  unfold haswellSetupEvent
  rw [Prog.wp_bind, Prog.wp_get]
  by_cases hmask : hasType mask e.type
  · rw [if_pos hmask]
    unfold counterMap
    simp only [Prog.wp_bind, Prog.wp_orUndefined, Prog.wp_zoom, Prog.wp_modify, Prog.wp_pure]
    intro row hrow
    have hne : e.type ≠ .notype := fun h => not_hasType_notype mask (h ▸ hmask)
    obtain ⟨row', hrow', htype⟩ := he hne
    cases hrow.symm.trans hrow'
    by_cases hunit : haswellUnit e.type = .cbox
    · have hfilter : ∀ reg i, EventFilter (M.boxMap row.type).filterRegister1
          (M.boxMap row.type).filterRegister2 e.event reg i ↔ EntryFilter M mask e reg i := by
        refine fun reg i => ⟨fun h => ⟨row, ⟨hmask, hunit, hrow⟩, h⟩, ?_⟩
        rintro ⟨row', hev, h⟩
        cases hrow.symm.trans hev.row_eq
        exact h
      rw [hunit]
      unfold haswellSetupCase haswellCboxSetup dropped
      simp only [Prog.wp_bind, Prog.wp_get, hep, Prog.wp_call, Prog.wp_pure]
      exact Prog.wp_mono (hasepCboxSetup_sets hA hP ho hrow (htype ▸ hunit) e.event)
        (fun _ _ h => h.congr hfilter) fun _ _ h => h.congr hfilter
    · refine Prog.wp_mono (haswellSetupCase_kept hP hrow (htype ▸ hunit) (haswellUnit e.type) c)
        (fun _ _ h => h.congr fun reg i => ?_) fun _ _ _ => trivial
      refine iff_of_false id ?_
      rintro ⟨_, hev, _⟩
      exact hunit hev.unit
  · rw [if_neg hmask, Prog.wp_pure]
    refine (FilterSets.refl c).congr fun reg i => iff_of_false id ?_
    rintro ⟨_, hev, _⟩
    exact hmask hev.masked

end Owner

/-! ## A call, and a run of calls -/

theorem haswellSetupFreeze_kept (hP : FiltersApart M) {owner : ℕ} {lock : Bool} :
    Prog.Respects (FilterSets.flow (IsFilter M) owner)
      (haswellSetupFreeze M cpu mask lock) := by
  have L : FrameLogic M cpu (FilterSets.Allowed (IsFilter M) cpu owner) (fun _ => True) _ _ _ :=
    FilterSets.logic
  have hcore : ∀ reg ∈ [msrPerfGlobalCtrl, msrPerfGlobalOvfCtrl, msrPebsEnable],
      reg ∈ commonRegisters := by decide
  exact L.haswellSetupFreeze mask lock (fun reg hreg _ h => hP.common reg (hcore reg hreg) h.2)
    (fun _ h => hP.common _ (by decide) h.2) fun _ h => hP.common _ (by decide) h.2

/-- A call on the CPU that holds the socket lock -/
theorem setup_sets (hA : FiltersAnswer M cpu) (hP : FiltersApart M) (ho : OwnsSocket M cpu c)
    (hep : c.haswellCboxSetup = some .hasep) {call : SetupCall} (hcpu : call.cpu = cpu)
    (htyped : ∀ e, some e ∈ call.slots → e.Typed M) {q : Core × List Slot}
    (hdone : perfmonSetupCounterThreadHaswell M call.thread call.cpu call.mask call.numberOfEvents
      (c, call.slots) = .done () q) :
    FilterSets (IsFilter M) cpu (GroupFilter M call) c q.1 := by
  refine Prog.wp_done (Q := fun _ q => FilterSets (IsFilter M) cpu (GroupFilter M call) c q.1)
    (R := fun _ _ => True) ?_ hdone
  rw [hcpu]
  unfold perfmonSetupCounterThreadHaswell
  rw [Prog.wp_bind, Prog.wp_get, Prog.wp_bind, Prog.wp_zoom]
  have hfreeze : ∀ lock, (haswellSetupFreeze M cpu call.mask lock).wp
      (fun _ c' => FiltersKept (IsFilter M) cpu c c')
      (fun _ c' => FiltersKept (IsFilter M) cpu c c') c :=
    fun _ => haswellSetupFreeze_kept hP c
  refine Prog.wp_mono (hfreeze _) (fun _ c1 hfreeze => ?_) fun _ _ _ => trivial
  rw [Prog.wp_bind]
  -- after the events of `seen`, the bits that these ask for were set
  let I : List PerfmonEventSetEntry → Core → Prop := fun seen s =>
    FilterSets (IsFilter M) cpu (fun reg i => ∃ e ∈ seen, EntryFilter M call.mask e reg i) c s
  have hbody : ∀ lock (flags : Word) seen s (e : PerfmonEventSetEntry), e.Typed M → I seen s →
      (haswellSetupEvent M call.thread cpu call.mask lock flags).wp
        (fun _ p => I (seen ++ [e]) p.1) (fun _ _ => True) (s, e) := by
    intro lock flags seen s e he hI
    refine Prog.wp_mono
      (haswellSetupEvent_sets hA hP (hI.owns ho) (hI.cboxSetup.trans hep) flags he)
      (fun _ p hp => (hI.trans hp).congr fun reg i => ?_) fun _ _ _ => trivial
    simp only [List.mem_append, List.mem_singleton, or_and_right, exists_or, exists_eq_left]
  have hstart : I [] c1 := hfreeze.congr fun reg i => by simp
  refine Prog.wp_mono (Prog.wp_forCells (hbody _) call.numberOfEvents (0 : Word) [] c1 call.slots
    htyped hstart) (fun fixedFlags p hp => ?_) fun _ _ _ => trivial
  have hcontrol : ¬IsFilter M msrPerfFixedCtrCtrl := hP.common _ (by decide)
  have L : FrameLogic M cpu (FilterSets.Allowed (IsFilter M) cpu cpu) (fun _ => True) _ _ _ :=
    FilterSets.logic
  rw [Prog.wp_when]
  refine ⟨fun _ => ?_, fun _ => hp⟩
  rw [Prog.wp_zoom]
  exact Prog.wp_mono (L.checkWrite (fixedFlags : Word) (fun _ h => hcontrol h.2) p.1)
    (fun _ _ h => FilterSets.kept hp h) fun _ _ _ => trivial

theorem setup_kept (hP : FiltersApart M) {call : SetupCall} (hcpu : call.cpu ≠ cpu)
    {q : Core × List Slot}
    (hdone : perfmonSetupCounterThreadHaswell M call.thread call.cpu call.mask call.numberOfEvents
      (c, call.slots) = .done () q) :
    FiltersKept (IsFilter M) cpu c q.1 := by
  have L : FrameLogic M call.cpu (FilterSets.Allowed (IsFilter M) call.cpu cpu)
      (fun _ => True) _ _ _ := FilterSets.logic
  have hW : ∀ dev reg, FilterSets.Allowed (IsFilter M) call.cpu cpu dev reg :=
    fun _ _ heq => absurd heq hcpu
  have hkept : Prog.Respects
      (FilterSets.flow (IsFilter M) cpu).fst
      (perfmonSetupCounterThreadHaswell M call.thread call.cpu call.mask call.numberOfEvents) := by
    refine .bind .get fun p => .bind (.onFst (haswellSetupFreeze_kept hP)) fun _ => .bind ?_
      fun _ => .when fun _ => .onFst (L.checkWrite _ (hW _ _))
    exact .forCells_fst (fun flags => L.haswellSetupEvent
      (fun _ => ⟨fun _ _ => ⟨hW _ _, hW _ _⟩, fun _ _ => ⟨hW _ _, hW _ _⟩, fun _ _ _ => hW _ _,
        trivial⟩) flags) _ _
  exact Prog.wp_done (Q := fun _ p => FiltersKept (IsFilter M) cpu c p.1)
    (R := fun _ p => FiltersKept (IsFilter M) cpu c p.1) (hkept (c, call.slots)) hdone

/-- **A run of set-ups sets the filter bits that its groups ask for**, and clears none. -/
theorem setupGroups_sets (hA : FiltersAnswer M cpu) (hP : FiltersApart M) {calls : List SetupCall}
    (ho : OwnsSocket M cpu c) (hep : c.haswellCboxSetup = some .hasep)
    (htyped : ∀ call ∈ calls, ∀ e, some e ∈ call.slots → e.Typed M)
    (h : setupGroups M c calls = some c') :
    FilterSets (IsFilter M) cpu
      (fun reg i => ∃ call ∈ calls, call.cpu = cpu ∧ GroupFilter M call reg i) c c' := by
  induction calls generalizing c with
  | nil =>
    cases h
    exact (FilterSets.refl c').congr fun reg i => by simp
  | cons call calls ih =>
    obtain ⟨hhead, htail⟩ := List.forall_mem_cons.mp htyped
    obtain ⟨⟨u, q⟩, hresult, hrest⟩ := Option.bind_eq_some_iff.mp h
    have hdone := Prog.result?_eq_some.mp hresult
    have hfirst : FilterSets (IsFilter M) cpu
        (fun reg i => call.cpu = cpu ∧ GroupFilter M call reg i) c q.1 := by
      by_cases hcpu : call.cpu = cpu
      · exact (setup_sets hA hP ho hep hcpu hhead hdone).congr fun reg i =>
          (and_iff_right hcpu).symm
      · exact (setup_kept hP hcpu hdone).congr fun reg i =>
          (iff_of_false (fun h => hcpu h.1) id).symm
    have hthen := ih (hfirst.owns ho) (hfirst.cboxSetup.trans hep) htail hrest
    exact (hfirst.trans hthen).congr fun reg i => by
      simp only [List.mem_cons, exists_eq_or_imp]

/-! ## Sandy Bridge EP -/

/-- From `c` to `c'` the filter words in `L` were written on `owner`. -/
structure FilterWrites (M : Machine) (owner : ℕ) (L : ℕ → Option Word) (c c' : Core) : Prop where
  regs : ∀ reg, IsCboxFilter M reg →
    c'.regs owner msrDev reg = (L reg).getD (c.regs owner msrDev reg)
  registered : c'.registeredCpuList = c.registeredCpuList
  socketLock : c'.socketLock = c.socketLock

namespace FilterWrites

variable {owner : ℕ} {L L' : ℕ → Option Word} {a b : Core}

theorem refl (c : Core) : FilterWrites M owner (fun _ => none) c c := ⟨fun _ _ => rfl, rfl, rfl⟩

theorem trans (h : FilterWrites M owner L a b) (h' : FilterWrites M owner L' b c) :
    FilterWrites M owner (fun reg => (L' reg).or (L reg)) a c where
  regs reg hreg := by
    rw [h'.regs reg hreg, h.regs reg hreg, Option.getD_or]
  registered := h'.registered.trans h.registered
  socketLock := h'.socketLock.trans h.socketLock

theorem kept (h : FilterWrites M owner L a b) (h' : FiltersKept (IsCboxFilter M) owner b c) :
    FilterWrites M owner L a c where
  regs reg hreg := by
    rw [← h.regs reg hreg]
    refine BitVec.eq_of_getLsbD_eq fun i _ => Bool.eq_iff_iff.mpr ?_
    exact (h'.bits reg hreg i).trans (or_false _).to_iff
  registered := h'.registered.trans h.registered
  socketLock := h'.socketLock.trans h.socketLock

theorem owns (h : FilterWrites M owner L c c') (ho : OwnsSocket M cpu c) : OwnsSocket M cpu c' where
  accessible := by
    unfold Accessible
    rw [h.registered]
    exact ho.accessible
  lock := by
    unfold haveLock
    rw [h.socketLock]
    exact ho.lock

end FilterWrites

/-- **A call writes its filter word**, if it has one. -/
theorem snbepCboxSetup_writes {numberOfNumaDomains : ℕ} {call : CboxCall}
    (hA : CboxFiltersAnswer M cpu) (ho : OwnsSocket M cpu c) (hcbox : call.OnCbox M)
    (hcpu : call.cpu = cpu) :
    (snbepCboxSetup M numberOfNumaDomains cpu call.index call.event).wp
      (fun _ c' => FilterWrites M cpu (fun reg => callWord M numberOfNumaDomains cpu reg call) c c')
      (fun _ c' => FilterWrites M cpu (fun reg => callWord M numberOfNumaDomains cpu reg call) c c')
      c := by
  have hlock : ¬haveLock M c cpu = false := by simp [ho.lock]
  have hend : ∀ {L : ℕ → Option Word} {c1 : Core} (flags : Word), FilterWrites M cpu L c c1 →
      (writeConfig M cpu call.index flags).wp (fun _ c' => FilterWrites M cpu L c c')
        (fun _ c' => FilterWrites M cpu L c c') c1 := by
    intro L c1 flags h
    exact Prog.wp_mono (writeConfig_kept (fun _ => hA.config) flags c1) (fun _ _ hk => h.kept hk)
      fun _ _ hk => h.kept hk
  unfold snbepCboxSetup requireLock
  rw [Prog.wp_bind, Prog.wp_bind, Prog.wp_get, Prog.when_of_neg hlock, Prog.wp_pure, Prog.wp_bind]
  by_cases hoptions : 0 < call.event.numberOfOptions
  · rw [Prog.when_of_pos hoptions]
    unfold counterMap
    simp only [Prog.wp_bind, Prog.wp_orUndefined]
    intro optflags hopt row hrow
    by_cases hzero : optflags ≠ 0
    · have hreg : IsCboxFilter M (M.boxMap row.type).filterRegister1 :=
        ⟨row, List.mem_of_getElem? hrow, hcbox row hrow, rfl⟩
      have hwrite := checkWrite_done ho.accessible (by decide)
        fun n => hA.write n _ optflags hreg
      rw [Prog.when_of_pos hzero, Prog.wp, hwrite]
      refine hend _ ⟨fun reg _ => ?_, rfl, rfl⟩
      have hword : callFilter M numberOfNumaDomains call =
          some ((M.boxMap row.type).filterRegister1, optflags) := by
        unfold callFilter
        rw [hrow, hopt]
        exact if_pos ⟨hoptions, hzero⟩
      have howner : regOwner M cpu msrDev = cpu := rfl
      unfold callWord
      rw [hword]
      simp only [Core.log_regs, Core.setReg_regs, howner, hcpu, true_and]
      by_cases heq : reg = (M.boxMap row.type).filterRegister1
      · rw [if_pos heq, if_pos heq.symm]
        rfl
      · rw [if_neg heq, if_neg fun h => heq h.symm]
        rfl
    · rw [Prog.when_of_neg hzero, Prog.wp_pure]
      refine hend _ ⟨fun reg _ => ?_, rfl, rfl⟩
      have hword : callFilter M numberOfNumaDomains call = none := by
        unfold callFilter
        rw [hrow, hopt]
        exact if_neg fun h => hzero h.2
      unfold callWord
      rw [hword]
      rfl
  · rw [Prog.when_of_neg hoptions, Prog.wp_pure]
    refine hend _ ⟨fun reg _ => ?_, rfl, rfl⟩
    have hword : callFilter M numberOfNumaDomains call = none := by
      unfold callFilter
      cases M.counterMap[call.index]? with
      | none => rfl
      | some row =>
        cases snbCboxFilter numberOfNumaDomains call.event with
        | none => rfl
        | some optflags => exact if_neg fun h => hoptions h.1
    unfold callWord
    rw [hword]
    rfl

theorem snbepCboxSetup_kept {numberOfNumaDomains : ℕ} {call : CboxCall} (hcpu : call.cpu ≠ cpu) :
    Prog.Respects
      (FilterSets.flow (IsCboxFilter M) cpu)
      (snbepCboxSetup M numberOfNumaDomains call.cpu call.index call.event) := by
  have L : FrameLogic M call.cpu (FilterSets.Allowed (IsCboxFilter M) call.cpu cpu)
      (fun _ => True) _ _ _ := FilterSets.logic
  refine .bind L.requireLock fun _ => .bind (.when fun _ => .bind (.orUndefined _) fun optflags =>
    .bind (.orUndefined _) fun row => .when fun _ => ?_) fun _ => ?_
  · exact L.checkWrite _ fun heq => absurd heq hcpu
  · exact writeConfig_kept (fun heq => absurd heq hcpu) _

theorem callWord_other {numberOfNumaDomains reg : ℕ} {call : CboxCall} (hcpu : call.cpu ≠ cpu) :
    callWord M numberOfNumaDomains cpu reg call = none := by
  unfold callWord
  split
  · exact if_neg fun h => hcpu h.1
  · rfl

/-- **A run of calls leaves the last filter word of each register**, and the content where there is
none. -/
theorem setupCboxes_writes {numberOfNumaDomains : ℕ} {calls : List CboxCall}
    (hA : CboxFiltersAnswer M cpu) (ho : OwnsSocket M cpu c)
    (hcbox : ∀ call ∈ calls, call.OnCbox M)
    (h : setupCboxes M numberOfNumaDomains c calls = some c') :
    FilterWrites M cpu (fun reg => lastFilter M numberOfNumaDomains cpu reg calls) c c' := by
  induction calls generalizing c with
  | nil =>
    cases h
    exact FilterWrites.refl c'
  | cons call calls ih =>
    obtain ⟨hhead, htail⟩ := List.forall_mem_cons.mp hcbox
    obtain ⟨⟨code, c1⟩, hresult, hrest⟩ := Option.bind_eq_some_iff.mp h
    have hdone := Prog.result?_eq_some.mp hresult
    have hfirst : FilterWrites M cpu (fun reg => callWord M numberOfNumaDomains cpu reg call)
        c c1 := by
      by_cases hcpu : call.cpu = cpu
      · rw [hcpu] at hdone
        exact Prog.wp_called (snbepCboxSetup_writes hA ho hhead hcpu) hdone
      · have hkept : FiltersKept (IsCboxFilter M) cpu c c1 :=
          Prog.wp_called (snbepCboxSetup_kept hcpu c) hdone
        simp only [callWord_other hcpu]
        exact (FilterWrites.refl c).kept hkept
    exact hfirst.trans (ih (hfirst.owns ho) htail hrest)

theorem lastFilter_append {numberOfNumaDomains reg : ℕ} (calls calls' : List CboxCall) :
    lastFilter M numberOfNumaDomains cpu reg (calls ++ calls') =
      (lastFilter M numberOfNumaDomains cpu reg calls').or
        (lastFilter M numberOfNumaDomains cpu reg calls) := by
  induction calls with
  | nil => exact Option.or_none.symm
  | cons call calls ih =>
    rw [List.cons_append, lastFilter, ih, lastFilter, Option.or_assoc]

/-! ## Both parts -/

/-- The groups of `history` and then `group` are set up on Haswell EP. -/
structure GroupsSetUp (M : Machine) (history : List SetupCall) (group : SetupCall) (c c' : Core) :
    Prop where
  answer : FiltersAnswer M group.cpu
  apart : FiltersApart M
  owns : OwnsSocket M group.cpu c
  hasep : c.haswellCboxSetup = some .hasep
  typed : ∀ call ∈ history ++ [group], ∀ e, some e ∈ call.slots → e.Typed M
  run : setupGroups M c (history ++ [group]) = some c'

/-- The CBOX events of `history` and then those of `group` are set up on Sandy Bridge EP. -/
structure CboxesSetUp (M : Machine) (numberOfNumaDomains : ℕ) (cpu : ℕ)
    (history group : List CboxCall) (c c' : Core) : Prop where
  answer : CboxFiltersAnswer M cpu
  owns : OwnsSocket M cpu c
  onCbox : ∀ call ∈ history ++ group, call.OnCbox M
  run : setupCboxes M numberOfNumaDomains c (history ++ group) = some c'

theorem UsesFilter.isFilter {group : SetupCall} {reg : ℕ}
    (htyped : ∀ e, some e ∈ group.slots → e.Typed M) (h : UsesFilter M group reg) :
    IsFilter M reg := by
  obtain ⟨e, he, row, hev, hreg⟩ := h
  obtain ⟨o, ho, rfl⟩ := List.mem_filterMap.mp he
  have hne : e.type ≠ .notype := fun hno => not_hasType_notype group.mask (hno ▸ hev.masked)
  obtain ⟨row', hrow', htype⟩ := htyped e (List.mem_of_mem_take ho) hne
  cases hev.row_eq.symm.trans hrow'
  exact ⟨row, List.mem_of_getElem? hrow', htype ▸ hev.unit, hreg⟩

theorem GroupsSetUp.own_iff {history : List SetupCall} {group : SetupCall}
    (h : GroupsSetUp M history group c c') :
    FiltersOwn M group c' ↔ FiltersCovered M history group c := by
  have hsets := setupGroups_sets h.answer h.apart h.owns h.hasep h.typed h.run
  have hbits : ∀ reg, UsesFilter M group reg → ∀ i,
      ((c'.regs group.cpu msrDev reg).getLsbD i = true ↔
        ((c.regs group.cpu msrDev reg).getLsbD i = true ∨
          ∃ call ∈ history, call.cpu = group.cpu ∧ GroupFilter M call reg i) ∨
        GroupFilter M group reg i) := by
    intro reg hreg i
    have hmem : group ∈ history ++ [group] := List.mem_append_right _ List.mem_cons_self
    rw [hsets.bits reg (hreg.isFilter (h.typed group hmem)) i, or_assoc]
    refine or_congr_right ?_
    simp only [List.mem_append, List.mem_singleton, or_and_right, exists_or, exists_eq_left,
      true_and]
  constructor
  · intro hown reg hreg i hbit
    exact (hown reg hreg i).mp ((hbits reg hreg i).mpr (Or.inl hbit))
  · intro hcovered reg hreg i
    rw [hbits reg hreg i]
    exact or_iff_right_of_imp (hcovered reg hreg i)

theorem CboxesSetUp.own_iff {numberOfNumaDomains : ℕ} {history group : List CboxCall}
    (h : CboxesSetUp M numberOfNumaDomains cpu history group c c') :
    CboxFiltersOwn M numberOfNumaDomains cpu group c' ↔
      CboxFiltersFresh M numberOfNumaDomains cpu history group c := by
  have hwrites := setupCboxes_writes h.answer h.owns h.onCbox h.run
  refine forall_congr' fun reg => forall_congr' fun hreg => ?_
  have hisFilter : IsCboxFilter M reg := by
    obtain ⟨call, hcall, -, row, hrow, rfl⟩ := hreg
    exact ⟨row, List.mem_of_getElem? hrow, h.onCbox call (List.mem_append_right _ hcall) row hrow,
      rfl⟩
  rw [hwrites.regs reg hisFilter, lastFilter_append]
  cases lastFilter M numberOfNumaDomains cpu reg group with
  | none => exact ⟨fun h _ => h, fun h => h rfl⟩
  | some optflags => exact iff_of_true rfl nofun

/-- **After the set-up of a group the filter registers of its boxes hold its own filters**, whatever
was set up before, exactly if on Haswell EP the group sets all bits that were there or that earlier
groups set, and on Sandy Bridge EP it has a filter for the box or nobody had one before. -/
theorem filtersOwn_iff {S : Machine} {numberOfNumaDomains : ℕ} {history : List SetupCall}
    {group : SetupCall} {cboxHistory cboxGroup : List CboxCall} {d d' : Core}
    (h : GroupsSetUp M history group c c')
    (h' : CboxesSetUp S numberOfNumaDomains cpu cboxHistory cboxGroup d d') :
    (FiltersOwn M group c' ↔ FiltersCovered M history group c) ∧
      (CboxFiltersOwn S numberOfNumaDomains cpu cboxGroup d' ↔
        CboxFiltersFresh S numberOfNumaDomains cpu cboxHistory cboxGroup d) :=
  ⟨h.own_iff, h'.own_iff⟩

/-! ## One box -/

def hasepCboxTables : Tables where
  counterMap := [⟨"CBOX0C0", 0, .cbox0, 0xE01, 0xE08, 0, msrDev, optionMaskOf [.tid]⟩]
  boxMap
    | .cbox0 => { regWidth := 48, filterRegister1 := 0xE05, filterRegister2 := 0xE06 }
    | _ => {}
  index_eq := index_eq_of_map (by decide)
  unit_row := by decide
  fixed_row := by decide
  fixed_private := by decide
  fixed_filter := by intro t; cases t <;> decide
  pmc_row := by decide
  pmc_private := by decide
  pmc_counter := by decide
  pmc_filter := by intro t row hrow; cases t <;> revert row <;> decide

def snbepCboxTables : Tables where
  counterMap := [⟨"CBOX0C0", 0, .cbox0, 0xD10, 0xD16, 0, msrDev, optionMaskOf [.tid]⟩]
  boxMap
    | .cbox0 => { regWidth := 44, filterRegister1 := 0xD14 }
    | _ => {}
  index_eq := index_eq_of_map (by decide)
  unit_row := by decide
  fixed_row := by decide
  fixed_private := by decide
  fixed_filter := by intro t; cases t <;> decide
  pmc_row := by decide
  pmc_private := by decide
  pmc_counter := by decide
  pmc_filter := by intro t row hrow; cases t <;> revert row <;> decide

def hasepMachine : Machine :=
  { haswellMachine with
    toTables := hasepCboxTables
    model := haswellEP }

def snbepMachine : Machine :=
  { haswellMachine with
    toTables := snbepCboxTables
    model := 0x2D }

def hasepCore : Core :=
  { ownerCore with haswellCboxSetup := some .hasep }

/-- `LLC_VICTIMS_M` with an option -/
def victimsEvent (option : PerfmonEventOption) : PerfmonEvent :=
  { name := "LLC_VICTIMS_M", limit := "CBOX", eventId := 0x37, umask := 0x01
    numberOfOptions := 1, options := [option] }

/-- The group `LLC_VICTIMS_M:CBOX0C0:TID=v` -/
def tidGroup (v : Word) : SetupCall where
  thread := 0
  cpu := 0
  mask := regTypeMaskOf .cbox0
  numberOfEvents := 1
  slots := [some
    { event := victimsEvent ⟨.tid, v⟩
      index := 0
      type := .cbox0
      threadCounter := fun _ => .fresh }]

theorem tidGroup_filter {v : Word} {reg i : ℕ} : GroupFilter hasepMachine (tidGroup v) reg i ↔
    reg = 0xE05 ∧ ((extractBitField (v.setWidth 32) 6 0).setWidth 64).getLsbD i = true := by
  constructor
  · rintro ⟨e, he, row, hev, hfilter⟩
    rw [List.mem_singleton.mp he] at hev hfilter
    cases hev.row_eq
    rcases hfilter with ⟨o, ho, hoption⟩ | ⟨⟨hlookup, -⟩, -⟩
    · rw [List.mem_singleton.mp ho] at hoption
      rcases hoption with hbit | ⟨-, hbit⟩
      · exact hbit
      · cases hbit.symm.trans (show (0 : Word).getLsbD i = false by simp)
    · cases hlookup
  · rintro ⟨rfl, hbit⟩
    have hmask : hasType (regTypeMaskOf .cbox0) .cbox0 := by decide
    exact ⟨_, List.mem_singleton.mpr rfl, _, ⟨hmask, rfl, rfl⟩, Or.inl
      ⟨_, List.mem_singleton.mpr rfl, Or.inl ⟨rfl, hbit⟩⟩⟩

theorem tidGroups_setUp {v w : Word} {c : Core}
    (h : setupGroups hasepMachine hasepCore [tidGroup v, tidGroup w] = some c) :
    GroupsSetUp hasepMachine [tidGroup v] (tidGroup w) hasepCore c where
  answer := ⟨fun _ _ _ => ⟨rfl, fun _ => rfl⟩, fun _ _ _ _ => rfl⟩
  apart := by
    refine ⟨?_, ?_, ?_⟩
    · unfold IsFilter
      decide
    · unfold IsFilter
      decide
    · unfold IsFilter
      decide
  owns := by
    refine ⟨?_, rfl⟩
    show Accessible hasepMachine 0 hasepCore
    decide
  hasep := rfl
  typed call hcall e he := by
    have hslots : ∃ u, call = tidGroup u := by
      rcases List.mem_cons.mp hcall with rfl | hcall
      · exact ⟨v, rfl⟩
      · exact ⟨w, List.mem_singleton.mp hcall⟩
    obtain ⟨u, rfl⟩ := hslots
    cases List.mem_singleton.mp he
    exact fun _ => ⟨_, rfl, rfl⟩
  run := h

/-- `LLC_VICTIMS_M:CBOX0C0:TID=v` -/
def tidCall (v : Word) : CboxCall := ⟨0, 0, victimsEvent ⟨.tid, v⟩⟩

theorem tidCalls_setUp {calls calls' : List CboxCall} {c : Core}
    (h : setupCboxes snbepMachine 1 ownerCore (calls ++ calls') = some c) :
    CboxesSetUp snbepMachine 1 0 calls calls' ownerCore c where
  answer := by
    refine ⟨fun _ _ _ _ => rfl, ?_⟩
    unfold IsCboxFilter
    decide
  owns := by
    refine ⟨?_, rfl⟩
    decide
  onCbox call _ row hrow := by
    have hall : ∀ row ∈ snbepMachine.counterMap, haswellUnit row.type = .cbox := by decide
    exact hall row (List.mem_of_getElem? hrow)
  run := h

theorem filtersOwn_tid :
    ∃ c c', FiltersOwn hasepMachine (tidGroup 3) c ∧
      CboxFiltersOwn snbepMachine 1 0 [tidCall 2] c' := by
  have hrun : (setupGroups hasepMachine hasepCore [tidGroup 1, tidGroup 3]).isSome := by
    decide +kernel
  have hrun' : (setupCboxes snbepMachine 1 ownerCore [tidCall 1, tidCall 2]).isSome := by
    decide +kernel
  obtain ⟨c, hc⟩ := Option.isSome_iff_exists.mp hrun
  obtain ⟨c', hc'⟩ := Option.isSome_iff_exists.mp hrun'
  obtain ⟨hasep, snbep⟩ := filtersOwn_iff (tidGroups_setUp hc)
    (show CboxesSetUp snbepMachine 1 0 [tidCall 1] [tidCall 2] ownerCore c' from tidCalls_setUp hc')
  refine ⟨c, c', hasep.mpr fun reg _ i => ?_, snbep.mpr fun reg hreg hnone => ?_⟩
  · rintro (hbit | ⟨call, hcall, -, hbit⟩)
    · cases hbit.symm.trans (show (0 : Word).getLsbD i = false by simp)
    · rw [List.mem_singleton.mp hcall, tidGroup_filter] at hbit
      obtain ⟨rfl, hone⟩ := hbit
      have hfield : (extractBitField ((1 : Word).setWidth 32) 6 0).setWidth 64 = 1#64 := by decide
      rw [hfield, BitVec.getLsbD_one, Bool.and_eq_true, decide_eq_true_eq,
        decide_eq_true_eq] at hone
      rw [tidGroup_filter, hone.2]
      decide
  · obtain ⟨call, hcall, -, row, hrow, rfl⟩ := hreg
    rw [List.mem_singleton.mp hcall] at hrow
    cases hrow
    revert hnone
    decide +kernel

/-- A thread filter stays: on Haswell EP it is or-ed to the next one, on Sandy Bridge EP the next
group has none. -/
theorem not_filtersOwn_tid :
    ∃ c c', setupGroups hasepMachine hasepCore [tidGroup 2, tidGroup 1] = some c ∧
      ¬FiltersOwn hasepMachine (tidGroup 1) c ∧
      setupCboxes snbepMachine 1 ownerCore [tidCall 2, ⟨0, 0, victimsEvent ⟨.edge, 0⟩⟩] =
        some c' ∧
      ¬CboxFiltersOwn snbepMachine 1 0 [⟨0, 0, victimsEvent ⟨.edge, 0⟩⟩] c' := by
  have hrun : (setupGroups hasepMachine hasepCore [tidGroup 2, tidGroup 1]).isSome := by
    decide +kernel
  have hrun' : (setupCboxes snbepMachine 1 ownerCore
      [tidCall 2, ⟨0, 0, victimsEvent ⟨.edge, 0⟩⟩]).isSome := by
    decide +kernel
  obtain ⟨c, hc⟩ := Option.isSome_iff_exists.mp hrun
  obtain ⟨c', hc'⟩ := Option.isSome_iff_exists.mp hrun'
  refine ⟨c, c', hc, fun hown => ?_, hc', fun hown => ?_⟩
  · have hcovered := (tidGroups_setUp hc).own_iff.mp hown
    have huses : UsesFilter hasepMachine (tidGroup 1) 0xE05 := by
      have hmask : hasType (regTypeMaskOf .cbox0) .cbox0 := by decide
      exact ⟨_, List.mem_singleton.mpr rfl, _, ⟨hmask, rfl, rfl⟩, List.mem_cons_self⟩
    have hbit := hcovered 0xE05 huses 1 (Or.inr ⟨tidGroup 2, List.mem_cons_self, rfl,
      tidGroup_filter.mpr ⟨rfl, by decide⟩⟩)
    revert hbit
    rw [tidGroup_filter]
    decide
  · have hset : CboxesSetUp snbepMachine 1 0 [tidCall 2] [⟨0, 0, victimsEvent ⟨.edge, 0⟩⟩]
        ownerCore c' := tidCalls_setUp hc'
    have hfresh := hset.own_iff.mp hown 0xD14
      ⟨_, List.mem_cons_self, rfl, _, rfl, rfl⟩ (by decide +kernel)
    revert hfresh
    decide +kernel

end Likwid
