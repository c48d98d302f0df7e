import Likwid.SocketLocks

/-!
# What a thread uses of the uncore

A thread makes all its accesses on its own CPU. A thread that does not own its socket uses the
registers of the core only: it has nothing to do with an uncore event, but for the `QBOXnFIX` events
that a read and a stop look at. The same holds of every thread if the group has no uncore event.
-/

namespace Likwid

variable {M : Machine} {thread cpu : ℕ} {mask : BitVec 128} {lock clear : Bool} {c c' : Core}

/-! ## Registers -/

/-- The registers of the core that are no counters -/
def coreControls : List ℕ :=
  [msrPerfGlobalCtrl, msrPerfGlobalOvfCtrl, msrPerfGlobalStatus, msrPebsEnable,
   msrPerfFixedCtrCtrl, msrOffcoreResp0, msrOffcoreResp1, ia32ThermStatus]

/-- The control register of a counter and the registers it counts in -/
def RegisterMap.registers (row : RegisterMap) : List ℕ :=
  [row.configRegister, row.counterRegister, row.counterRegister2]

/-- A register of the core -/
def CoreRegister (M : Machine) (dev : PciDeviceIndex) (reg : ℕ) : Prop :=
  dev = msrDev ∧ reg ∈ coreControls ∨
    ∃ row ∈ M.counterMap, row.type.toNat < RegisterType.uncore.toNat ∧
      (dev = msrDev ∨ dev = row.device) ∧ reg ∈ row.registers

/-- A register of an uncore counter, and none of the core -/
def UncoreRegister (M : Machine) (dev : PciDeviceIndex) (reg : ℕ) : Prop :=
  (∃ row ∈ M.counterMap, RegisterType.uncore.toNat ≤ row.type.toNat ∧ dev = row.device ∧
    reg ∈ row.registers) ∧ ¬CoreRegister M dev reg

theorem coreRegister_control {reg : ℕ} (h : reg ∈ coreControls) : CoreRegister M msrDev reg :=
  Or.inl ⟨rfl, h⟩

theorem haswellUnit_isCore {type : RegisterType}
    (h : ¬RegisterType.uncore.toNat ≤ type.toNat) :
    haswellUnit type ∈ [HaswellUnit.pmc, .fixed, .power, .thermal] := by
  cases type with
  | pmc | fixed | power | thermal => decide
  | _ => exact absurd (by decide) h

/-! ## Accesses -/

/-- All accesses meet `P`, and the locks are as they were. -/
def Uses (P : Access → Prop) (c c' : Core) : Prop := Made P c c' ∧ LocksKept c c'

namespace Uses

variable {P Q : Access → Prop}

theorem refl (c : Core) : Uses P c c := ⟨Made.refl c, LocksKept.refl c⟩

theorem trans (a b c : Core) (h : Uses P a b) (h' : Uses P b c) : Uses P a c :=
  ⟨h.1.trans h'.1, LocksKept.trans _ _ _ h.2 h'.2⟩

theorem mono (h : Uses P c c') (hPQ : ∀ a, P a → Q a) : Uses Q c c' := ⟨h.1.mono hPQ, h.2⟩

theorem of_silent (h : c'.trace = c.trace) (hlocks : LocksKept c c') : Uses P c c' := by
  refine ⟨⟨⟨[], h.symm⟩, fun a ha => ?_⟩, hlocks⟩
  rw [newAccesses_append (l := []) h] at ha
  cases ha

abbrev flow (P : Access → Prop) : Prog.Flow Core := Prog.Flow.of (Uses P) refl trans

theorem read {ρ : Type} {dev : PciDeviceIndex} {reg : ℕ}
    (h : ∀ kind data err, P ⟨kind, cpu, dev, reg, data, err⟩) :
    Prog.Respects (flow P) (hpmRead M cpu dev reg : Prog ρ Core (Int × Word)) :=
  fun _ => ⟨Made.single rfl (h _ _ _), rfl⟩

theorem write {ρ : Type} {dev : PciDeviceIndex} {reg : ℕ}
    (h : ∀ kind data err, P ⟨kind, cpu, dev, reg, data, err⟩) (data : Word) :
    Prog.Respects (flow P) (hpmWrite M cpu dev reg data : Prog ρ Core Int) := by
  intro c
  let c0 := if writeError M c cpu dev reg data = 0 then
    c.setReg (regOwner M cpu dev) dev reg (stored dev data) else c
  have htrace : c0.trace = c.trace := by
    show Core.trace (ite _ _ _) = _
    split <;> rfl
  have hlock : c0.socketLock = c.socketLock := by
    show Core.socketLock (ite _ _ _) = _
    split <;> rfl
  let a : Access := ⟨.write, cpu, dev, reg, data, writeError M c cpu dev reg data⟩
  have hmade : Made P c (c0.log a) :=
    Made.single (x := a) (congrArg (a :: ·) htrace) (h _ _ _)
  exact ⟨hmade, hlock⟩

theorem check (err : Int) : Prog.Respects (flow P) (checkAndReturnError M err) :=
  .bind .get fun _ => .when fun _ => .ret refl

theorem checkRead {dev : PciDeviceIndex} {reg : ℕ}
    (h : ∀ kind data err, P ⟨kind, cpu, dev, reg, data, err⟩) :
    Prog.Respects (flow P) (checkRead M cpu dev reg) :=
  .bind (read h) fun _ => .bind (check _) fun _ => .pure _

theorem checkWrite {dev : PciDeviceIndex} {reg : ℕ}
    (h : ∀ kind data err, P ⟨kind, cpu, dev, reg, data, err⟩) (data : Word) :
    Prog.Respects (flow P) (checkWrite M cpu dev reg data) :=
  .bind (write h data) fun _ => check _

theorem logic : FrameLogic M cpu (fun _ _ => True) (fun _ => True) (Uses (·.cpu = cpu)) refl
    trans where
  toClosed := Prog.Respects.closed
  read _ _ := read fun _ _ _ => rfl
  write _ _ data _ := write (fun _ _ _ => rfl) data
  save _ _ _ := fun _ => of_silent rfl rfl

theorem silent {α : Type} {m : EventProg α} {p : Core × PerfmonEventSetEntry}
    (h : SilentOn m p) (hlocks : Prog.Respects
      (Prog.Flow.of LocksKept LocksKept.refl LocksKept.trans).fst m) :
    m.wp (fun _ q => Uses P p.1 q.1) (fun _ q => Uses P p.1 q.1) p :=
  Prog.wp_mono (Prog.wp_and h (hlocks p)) (fun _ _ hq => of_silent hq.1 hq.2)
    fun _ _ hq => of_silent hq.1 hq.2

theorem forCells {β : Type} {body : β → EventProg β} {Q : PerfmonEventSetEntry → Prop}
    (h : ∀ b s e, LocksKept c s → Q e →
      (body b).wp (fun _ p => Uses P s p.1) (fun _ p => Uses P s p.1) (s, e))
    (n : ℕ) (b : β) {slots : List Slot} (hslots : ∀ e, some e ∈ slots → Q e) :
    (Prog.forCells body n b).wp (fun _ p => Uses P c p.1) (fun _ p => Uses P c p.1) (c, slots) := by
  have hbody : ∀ b s e, Q e → (body b).wp
      (fun _ p => (Prog.Flow.inv (Uses P c)).done s p.1 ∧ True)
      (fun _ p => (Prog.Flow.inv (Uses P c)).exit s p.1) (s, e) := by
    intro b s e he
    by_cases hs : Uses P c s
    · exact Prog.wp_mono (h b s e hs.2 he) (fun _ p hp => ⟨fun _ => trans _ _ _ hs hp, trivial⟩)
        fun _ p hp _ => trans _ _ _ hs hp
    · exact Prog.wp_mono (Prog.wp_trivial _) (fun _ _ _ => ⟨fun h => absurd h hs, trivial⟩)
        fun _ _ _ h => absurd h hs
  exact Prog.wp_mono (Prog.forCells_typed (S := fun _ _ => True) hbody n b c slots hslots)
    (fun _ _ hp => hp.1 (refl c)) fun _ _ hp => hp (refl c)

end Uses

/-- Registers of the core are used only. -/
abbrev CoreOnly (M : Machine) (a : Access) : Prop := CoreRegister M a.dev a.reg

theorem coreOnly_control {reg : ℕ} (h : reg ∈ coreControls) (kind : AccessKind) (data : Word)
    (err : Int) : CoreOnly M ⟨kind, cpu, msrDev, reg, data, err⟩ := coreRegister_control h

/-! ## The events of the core -/

section Events

variable {e : PerfmonEventSetEntry} {row : RegisterMap} {index : RegisterIndex}
  {event : PerfmonEvent}

theorem coreOnly_row (hrow : row ∈ M.counterMap)
    (hcore : row.type.toNat < RegisterType.uncore.toNat) {dev : PciDeviceIndex}
    (hdev : dev = msrDev ∨ dev = row.device) {reg : ℕ} (hreg : reg ∈ row.registers)
    (kind : AccessKind) (data : Word) (err : Int) :
    CoreOnly M ⟨kind, cpu, dev, reg, data, err⟩ := Or.inr ⟨row, hrow, hcore, hdev, hreg⟩

theorem hasepPmcSetup_coreOnly
    (hcore : ∀ row, M.counterMap[index]? = some row → row.type.toNat < RegisterType.uncore.toNat) :
    Prog.Respects (Uses.flow (CoreOnly M)) (hasepPmcSetup M cpu index event) := by
  have hoffcore : ∀ reg ∈ coreControls, ∀ options, Prog.Respects (Uses.flow (CoreOnly M)) (do
      let flags ← offcoreFlags event options
      checkWrite M cpu msrDev reg flags : Prog Int Core Unit) := by
    intro reg hreg options
    refine .bind (.ite (fun _ => ?_) fun _ => .pure _) fun _ =>
      Uses.checkWrite (coreOnly_control hreg) _
    exact .bind (.orUndefined _) fun _ => .bind (.orUndefined _) fun _ => .pure _
  refine .bind (.ite (fun _ => ?_) fun _ => .when fun _ => ?_) fun _ =>
    .bind .get fun _ => .when fun _ => ?_
  · exact hoffcore _ (by decide) _
  · exact hoffcore _ (by decide) _
  · intro c
    unfold counterMap
    rw [Prog.wp_bind, Prog.wp_orUndefined]
    intro row hrow
    refine Prog.Respects.bind (Uses.checkWrite (coreOnly_row (List.mem_of_getElem? hrow)
      (hcore row hrow) (Or.inl rfl) (by simp [RegisterMap.registers])) _) (fun _ => ?_) c
    exact .modify fun _ => Uses.of_silent rfl rfl

theorem powerRead_coreOnly {reg : ℕ} (h : CoreRegister M msrDev reg) :
    Prog.Respects (Uses.flow (CoreOnly M)) (powerRead M cpu reg : Prog Int Core (Int × Word)) := by
  refine .ite (fun _ => ?_) fun _ => .pure _
  split
  · exact .ite (fun _ => .bind (Uses.read fun _ _ _ => h) fun _ => .bind .get fun _ =>
      .ite (fun _ => .pure _) fun _ => .pure _) fun _ => .pure _
  · exact .halt _

theorem record_coreOnly (f : PerfmonEventSetEntry → PerfmonEventSetEntry) :
    Prog.Respects (Uses.flow (CoreOnly M)).fst (Prog.onSnd (Prog.modify f) : EventProg Unit) :=
  counting_record f

theorem haswellSetupCase_coreOnly (hrow : M.counterMap[index]? = some row)
    (hcore : row.type.toNat < RegisterType.uncore.toNat) {u : HaswellUnit}
    (hu : u ∈ [HaswellUnit.pmc, .fixed, .power, .thermal]) :
    Prog.Respects (Uses.flow (CoreOnly M)) (haswellSetupCase M cpu lock index row event u) := by
  simp only [List.mem_cons, List.not_mem_nil, or_false] at hu
  rcases hu with rfl | rfl | rfl | rfl
  · refine .bind (.call fun c => hasepPmcSetup_coreOnly (fun row' hrow' => ?_) c) fun _ => .pure _
    obtain rfl := Option.some.inj (hrow.symm.trans hrow')
    exact hcore
  · exact .bind .get fun _ => .ite (fun _ => .bind (.modify fun _ => Uses.of_silent rfl rfl)
      fun _ => .pure _) fun _ => .pure _
  · exact .pure _
  · exact .pure _

theorem haswellStartCase_coreOnly (hrow : row ∈ M.counterMap)
    (hcore : row.type.toNat < RegisterType.uncore.toNat) {u : HaswellUnit}
    (hu : u ∈ [HaswellUnit.pmc, .fixed, .power, .thermal]) :
    Prog.Respects (Uses.flow (CoreOnly M)).fst (haswellStartCase M thread cpu lock e row u) := by
  have hcounter : ∀ {dev}, dev = msrDev ∨ dev = row.device → ∀ kind data err,
      CoreOnly M ⟨kind, cpu, dev, row.counterRegister, data, err⟩ :=
    fun hdev => coreOnly_row hrow hcore hdev (by simp [RegisterMap.registers])
  simp only [List.mem_cons, List.not_mem_nil, or_false] at hu
  rcases hu with rfl | rfl | rfl | rfl
  · exact .bind (.onFst (Uses.checkWrite (hcounter (Or.inr rfl)) _)) fun _ => .pure _
  · exact .bind (.onFst (Uses.checkWrite (hcounter (Or.inr rfl)) _)) fun _ => .pure _
  · refine .bind (.when fun _ => .bind (.onFst ?_) fun _ => .bind (.onFst (Uses.check _))
      fun _ => record_coreOnly _) fun _ => .pure _
    exact powerRead_coreOnly (hcounter (Or.inl rfl) .read 0 0)
  · exact .pure _

theorem haswellCountCase_coreOnly (hrow : row ∈ M.counterMap)
    (hcore : row.type.toNat < RegisterType.uncore.toNat) {u : HaswellUnit}
    (hu : u ∈ [HaswellUnit.pmc, .fixed, .power, .thermal]) :
    Prog.Respects (Uses.flow (CoreOnly M)).fst
      (haswellCountCase M thread cpu mask lock clear e row u) := by
  have hcounter : ∀ kind data err,
      CoreOnly M ⟨kind, cpu, msrDev, row.counterRegister, data, err⟩ :=
    coreOnly_row hrow hcore (Or.inl rfl) (by simp [RegisterMap.registers])
  have hoverflow : ∀ offset result, Prog.Respects (Uses.flow (CoreOnly M)).fst
      (hasepCheckCoreOverflow M thread cpu offset result) := fun _ _ =>
    .bind .get fun _ => .when fun _ =>
      .bind (.onFst (Uses.checkRead (coreOnly_control (by decide)))) fun _ =>
        .bind (.when fun _ => record_coreOnly _) fun _ =>
          .onFst (Uses.checkWrite (coreOnly_control (by decide)) _)
  simp only [List.mem_cons, List.not_mem_nil, or_false] at hu
  rcases hu with rfl | rfl | rfl | rfl
  · exact .bind (.onFst (Uses.checkRead hcounter)) fun _ => .bind (hoverflow _ _) fun _ =>
      record_coreOnly _
  · exact .bind (.onFst (Uses.checkRead hcounter)) fun _ => .bind (hoverflow _ _) fun _ =>
      record_coreOnly _
  · exact .when fun _ => .bind (.onFst (powerRead_coreOnly (hcounter .read 0 0))) fun _ =>
      .bind (.onFst (Uses.check _)) fun _ => counting_sample _ _
  · refine .bind (.onFst ?_) fun _ => .bind (.onFst (Uses.check _)) fun _ => record_coreOnly _
    exact .bind (Uses.read (coreOnly_control (by decide))) fun _ =>
      .ite (fun _ => .pure _) fun _ => .pure _

end Events

/-- A group with an event of the uncore has uncore units in its mask. -/
theorem hasUncore_of_hasType {type : RegisterType} (h : hasType mask type)
    (huncore : RegisterType.uncore.toNat ≤ type.toNat) : hasUncore mask := by
  intro h0
  refine h ?_
  unfold regTypeMaskOf
  split
  · next hlt =>
    have hlt64 : type.toNat < 64 := hlt
    have h4 : 4 ≤ type.toNat := huncore
    have hbit := congrArg (fun v => v.getLsbD type.toNat) h0
    have hmask : mask.getLsbD type.toNat = false := by
      have hones : ((~~~(0xF#64)).setWidth 128).getLsbD type.toNat = true := by
        generalize type.toNat = k at *
        have hk : ∀ k : ℕ, k < 64 → 4 ≤ k → ((~~~(0xF#64)).setWidth 128).getLsbD k = true := by
          decide
        exact hk k hlt64 h4
      simp only [BitVec.getLsbD_and, hones, Bool.and_true, BitVec.getLsbD_zero] at hbit
      exact hbit
    refine BitVec.eq_of_getLsbD_eq fun i hi => ?_
    rw [BitVec.getLsbD_and, BitVec.getLsbD_shiftLeft, BitVec.getLsbD_zero]
    by_cases heq : i = type.toNat
    · rw [heq, hmask, Bool.false_and]
    · simp only [BitVec.getLsbD_one]
      grind
  · simp

/-! ## Rounds -/

section Rounds

variable {e : PerfmonEventSetEntry}

/-- An event of the uncore is none of the thread's. -/
def NotOwn (M : Machine) (cpu : ℕ) (mask : BitVec 128) (lock : Bool) (c : Core)
    (e : PerfmonEventSetEntry) : Prop :=
  hasType mask e.type → RegisterType.uncore.toNat ≤ e.type.toNat →
    lock = false ∧ haveLock M c cpu = false

theorem core_row {row : RegisterMap} (htyped : e.Typed M)
    (hcore : ¬RegisterType.uncore.toNat ≤ e.type.toNat) (hrow : M.counterMap[e.index]? = some row) :
    row.type.toNat < RegisterType.uncore.toNat := by
  have hne : e.type ≠ .notype := by
    intro heq
    rw [heq] at hcore
    exact hcore (by decide)
  obtain ⟨row', hrow', htype⟩ := htyped hne
  obtain rfl := Option.some.inj (hrow'.symm.trans hrow)
  rw [htype]
  exact Nat.lt_of_not_le hcore

theorem haswellSetupEvent_coreOnly (htyped : e.Typed M) (hown : NotOwn M cpu mask lock c e)
    (flags : Word) : (haswellSetupEvent M thread cpu mask lock flags).wp
      (fun _ p => Uses (CoreOnly M) c p.1) (fun _ p => Uses (CoreOnly M) c p.1) (c, e) := by
  by_cases huncore : hasType mask e.type ∧ RegisterType.uncore.toNat ≤ e.type.toNat
  · obtain ⟨rfl, hlock⟩ := hown huncore.1 huncore.2
    exact Uses.silent (haswellSetupEvent_silent hlock huncore.2 flags)
      (LocksKept.logic.haswellSetupEvent boxAllowed_true flags)
  · unfold haswellSetupEvent
    rw [Prog.wp_bind, Prog.wp_get]
    dsimp only
    split
    · next hmask =>
        have hcore := fun h => huncore ⟨hmask, h⟩
        simp only [Prog.wp_bind, counterMap, Prog.wp_orUndefined, Prog.wp_zoom, Prog.wp_modify,
          Prog.wp_pure]
        exact fun row hrow => haswellSetupCase_coreOnly hrow (core_row htyped hcore hrow)
          (haswellUnit_isCore hcore) c
    · exact Uses.refl c

theorem haswellStartEvent_coreOnly (htyped : e.Typed M) (hown : NotOwn M cpu mask lock c e)
    (flags : Word) : (haswellStartEvent M thread cpu mask lock flags).wp
      (fun _ p => Uses (CoreOnly M) c p.1) (fun _ p => Uses (CoreOnly M) c p.1) (c, e) := by
  by_cases huncore : hasType mask e.type ∧ RegisterType.uncore.toNat ≤ e.type.toNat
  · obtain ⟨rfl, -⟩ := hown huncore.1 huncore.2
    exact Uses.silent (haswellStartEvent_silent huncore.2 flags)
      (LocksKept.logic.haswellStartEvent (countAllowed_true true) flags)
  · unfold haswellStartEvent
    rw [Prog.wp_bind, Prog.wp_get]
    dsimp only
    split
    · next hset =>
        have hcore := fun h => huncore ⟨hset.2, h⟩
        simp only [Prog.wp_bind, counterMap, Prog.wp_orUndefined, Prog.wp_zoom, Prog.wp_modify,
          Prog.wp_pure]
        exact fun row hrow => haswellStartCase_coreOnly (List.mem_of_getElem? hrow)
          (core_row htyped hcore hrow) (haswellUnit_isCore hcore) (c, e.clearData thread)
    · exact Uses.refl c

theorem haswellReadEvent_coreOnly (htyped : e.Typed M) (hown : NotOwn M cpu mask lock c e)
    (hlink : hasType mask e.type → RegisterType.uncore.toNat ≤ e.type.toNat →
      ¬ReadsLink M thread mask e) :
    (haswellReadEvent M thread cpu mask lock ()).wp
      (fun _ p => Uses (CoreOnly M) c p.1) (fun _ p => Uses (CoreOnly M) c p.1) (c, e) := by
  by_cases huncore : hasType mask e.type ∧ RegisterType.uncore.toNat ≤ e.type.toNat
  · obtain ⟨rfl, hlock⟩ := hown huncore.1 huncore.2
    exact Uses.silent ((haswellReadEvent_silent hlock huncore.2).mpr
      (hlink huncore.1 huncore.2))
      (LocksKept.logic.haswellReadEvent (countAllowed_true false) ())
  · unfold haswellReadEvent
    rw [Prog.wp_bind, Prog.wp_get, Prog.wp_when]
    refine ⟨fun hset => ?_, fun _ => Uses.refl c⟩
    have hcore := fun h => huncore ⟨hset.2, h⟩
    simp only [Prog.wp_bind, counterMap, Prog.wp_orUndefined]
    exact fun row hrow => haswellCountCase_coreOnly (List.mem_of_getElem? hrow)
      (core_row htyped hcore hrow) (haswellUnit_isCore hcore) (c, e)

theorem haswellStopEvent_coreOnly (htyped : e.Typed M) (hown : NotOwn M cpu mask lock c e)
    (hlink : hasType mask e.type → RegisterType.uncore.toNat ≤ e.type.toNat →
      ¬ReadsLink M thread mask e) :
    (haswellStopEvent M thread cpu mask lock ()).wp
      (fun _ p => Uses (CoreOnly M) c p.1) (fun _ p => Uses (CoreOnly M) c p.1) (c, e) := by
  by_cases huncore : hasType mask e.type ∧ RegisterType.uncore.toNat ≤ e.type.toNat
  · obtain ⟨rfl, hlock⟩ := hown huncore.1 huncore.2
    exact Uses.silent ((haswellStopEvent_silent hlock huncore.2).mpr
      (hlink huncore.1 huncore.2))
      (LocksKept.logic.haswellStopEvent (countAllowed_true true) ())
  · unfold haswellStopEvent
    rw [Prog.wp_bind, Prog.wp_get, Prog.wp_bind]
    have hclear : ∀ q : Core × PerfmonEventSetEntry, Uses (CoreOnly M) c q.1 →
        (Prog.when (¬((e.threadCounter thread).init = true ∧ ¬hasType mask e.type))
          (Prog.onSnd (Prog.modify (·.setInit thread false))) : EventProg Unit).wp
            (fun _ p => Uses (CoreOnly M) c p.1) (fun _ p => Uses (CoreOnly M) c p.1) q := by
      intro q hq
      rw [Prog.wp_when]
      exact ⟨fun _ => hq, fun _ => hq⟩
    rw [Prog.wp_when]
    refine ⟨fun hset => ?_, fun _ => hclear _ (Uses.refl c)⟩
    have hcore := fun h => huncore ⟨hset.2, h⟩
    simp only [Prog.wp_bind, counterMap, Prog.wp_orUndefined]
    exact fun row hrow => Prog.wp_mono (haswellCountCase_coreOnly (List.mem_of_getElem? hrow)
      (core_row htyped hcore hrow) (haswellUnit_isCore hcore) (c, e))
      (fun _ q hq => hclear q hq) fun _ _ hq => hq

end Rounds

/-! ## The routines -/

section Routines

variable {slots : List Slot}

/-- A thread that does not own its socket, or a group without uncore units -/
def Bare (M : Machine) (cpu : ℕ) (mask : BitVec 128) (c : Core) : Prop :=
  haveLock M c cpu = false ∨ ¬hasUncore mask

theorem Bare.not_locked (h : Bare M cpu mask c) :
    ¬(haveLock M c cpu = true ∧ hasUncore mask) := by
  rintro ⟨hlock, huncore⟩
  exact h.elim (fun hno => by rw [hno] at hlock; cases hlock) fun hno => hno huncore

theorem Bare.freeze (h : Bare M cpu mask c) :
    hasepFreezeUncore M cpu mask (haveLock M c cpu) = Pure.pure () := by
  unfold hasepFreezeUncore
  rw [if_neg fun hall => h.not_locked ⟨hall.1, hall.2.1⟩, Prog.when_of_neg h.not_locked]

theorem Bare.unfreeze (h : Bare M cpu mask c) :
    hasepUnfreezeUncore M cpu mask (haveLock M c cpu) = Pure.pure () := by
  unfold hasepUnfreezeUncore
  rw [if_neg fun hall => h.not_locked ⟨hall.1, hall.2.1⟩, Prog.when_of_neg h.not_locked]

theorem Bare.notOwn (h : Bare M cpu mask c) (hlocks : LocksKept c c') (e : PerfmonEventSetEntry) :
    NotOwn M cpu mask (haveLock M c cpu) c' e := by
  intro hmask huncore
  have hlock := h.resolve_right (not_not_intro (hasUncore_of_hasType hmask huncore))
  exact ⟨hlock, haveLock_congr hlocks cpu ▸ hlock⟩

/-- No event that the thread reads without a lock -/
def NoLink (M : Machine) (thread : ℕ) (mask : BitVec 128) (slots : List Slot) : Prop :=
  ∀ e, some e ∈ slots → ¬ReadsLink M thread mask e

theorem haswellSetup_coreOnly (h : Bare M cpu mask c) (htyped : ∀ e, some e ∈ slots → e.Typed M)
    (n : ℕ) : (perfmonSetupCounterThreadHaswell M thread cpu mask n).wp
      (fun _ p => Uses (CoreOnly M) c p.1) (fun _ p => Uses (CoreOnly M) c p.1) (c, slots) := by
  have hwrite : ∀ reg ∈ coreControls, ∀ data, Prog.Respects (Uses.flow (CoreOnly M))
      (checkWrite M cpu msrDev reg data) := fun reg hreg data =>
    Uses.checkWrite (coreOnly_control hreg) data
  have hfreeze : Prog.Respects (Uses.flow (CoreOnly M))
      (haswellSetupFreeze M cpu mask (haveLock M c cpu)) := by
    unfold haswellSetupFreeze
    rw [h.freeze]
    exact .bind (.when fun _ => .bind (hwrite _ (by decide) _) fun _ =>
      .bind (hwrite _ (by decide) _) fun _ => hwrite _ (by decide) _) fun _ => .pure _
  unfold perfmonSetupCounterThreadHaswell
  rw [Prog.wp_bind, Prog.wp_get, Prog.wp_bind, Prog.wp_zoom]
  refine Prog.wp_mono (hfreeze c) (fun _ c1 h1 => ?_) fun _ c1 h1 => h1
  rw [Prog.wp_bind]
  refine Prog.wp_mono (Uses.forCells (Q := fun e => e.Typed M) (P := CoreOnly M)
    (fun flags s e hlocks he => haswellSetupEvent_coreOnly he
      (h.notOwn (LocksKept.trans _ _ _ h1.2 hlocks) e) flags) n 0 htyped)
    (fun flags p h2 => ?_) fun _ p h2 => Uses.trans _ _ _ h1 h2
  have h12 := Uses.trans _ _ _ h1 h2
  rw [Prog.wp_when, Prog.wp_zoom]
  exact ⟨fun _ => Prog.wp_mono (hwrite _ (by decide) flags p.1)
    (fun _ _ h3 => Uses.trans _ _ _ h12 h3) fun _ _ h3 => Uses.trans _ _ _ h12 h3, fun _ => h12⟩

theorem haswellStart_coreOnly (h : Bare M cpu mask c) (htyped : ∀ e, some e ∈ slots → e.Typed M)
    (n : ℕ) : (perfmonStartCountersThreadHaswell M thread cpu mask n).wp
      (fun _ p => Uses (CoreOnly M) c p.1) (fun _ p => Uses (CoreOnly M) c p.1) (c, slots) := by
  have hreset : hasepUnfreezeUncoreAndResetCtr M cpu mask n (haveLock M c cpu) = Pure.pure () :=
    Prog.when_of_neg h.not_locked
  unfold perfmonStartCountersThreadHaswell
  rw [Prog.wp_bind, Prog.wp_get, Prog.wp_bind]
  refine Prog.wp_mono (Uses.forCells (Q := fun e => e.Typed M) (P := CoreOnly M)
    (fun flags s e hlocks he => haswellStartEvent_coreOnly he (h.notOwn hlocks e) flags) n 0 htyped)
    (fun flags p h1 => ?_) fun _ p h1 => h1
  rw [hreset, Prog.bind_pure_left, Prog.wp_when]
  refine ⟨fun _ => ?_, fun _ => h1⟩
  refine Prog.wp_mono (Prog.Respects.bind (Prog.Respects.onFst
    (Uses.checkWrite (P := CoreOnly M) (coreOnly_control (by decide)) _)) (fun _ =>
      .onFst (Uses.checkWrite (coreOnly_control (by decide)) flags)) p)
    (fun _ _ h2 => Uses.trans _ _ _ h1 h2) fun _ _ h2 => Uses.trans _ _ _ h1 h2

theorem haswellRead_coreOnly (h : Bare M cpu mask c) (htyped : ∀ e, some e ∈ slots → e.Typed M)
    (hlink : haveLock M c cpu = false → NoLink M thread mask slots) (n : ℕ) :
    (perfmonReadCountersThreadHaswell M thread cpu mask n).wp
      (fun _ p => Uses (CoreOnly M) c p.1) (fun _ p => Uses (CoreOnly M) c p.1) (c, slots) := by
  have hpause : Prog.Respects (Uses.flow (CoreOnly M)) (pauseCore M cpu mask) :=
    .ite (fun _ => .bind (Uses.checkRead (coreOnly_control (by decide))) fun _ =>
      .bind (Uses.checkWrite (coreOnly_control (by decide)) _) fun _ => .pure _) fun _ => .pure _
  have hslots : ∀ e, some e ∈ slots → e.Typed M ∧ (hasType mask e.type →
      RegisterType.uncore.toNat ≤ e.type.toNat → ¬ReadsLink M thread mask e) :=
    fun e he => ⟨htyped e he, fun hmask huncore => hlink
      (h.resolve_right (not_not_intro (hasUncore_of_hasType hmask huncore))) e he⟩
  unfold perfmonReadCountersThreadHaswell
  rw [Prog.wp_bind, Prog.wp_get, Prog.wp_bind, Prog.wp_zoom]
  refine Prog.wp_mono (hpause c) (fun flags c1 h1 => ?_) fun _ c1 h1 => h1
  rw [h.freeze, h.unfreeze, Prog.wp_bind, Prog.wp_zoom]
  show Prog.wp _ _ _ (c1, slots)
  rw [Prog.wp_bind]
  refine Prog.wp_mono (Uses.forCells (P := CoreOnly M) (fun _ s e hlocks he =>
    haswellReadEvent_coreOnly he.1 (h.notOwn (LocksKept.trans _ _ _ h1.2 hlocks) e) he.2) n ()
      hslots) (fun _ p h2 => ?_) fun _ p h2 => Uses.trans _ _ _ h1 h2
  have h12 := Uses.trans _ _ _ h1 h2
  rw [Prog.wp_bind, Prog.wp_zoom]
  show Prog.wp _ _ _ p
  rw [Prog.wp_when, Prog.wp_zoom]
  exact ⟨fun _ => Prog.wp_mono (Uses.checkWrite (P := CoreOnly M) (coreOnly_control (by decide))
    flags p.1) (fun _ _ h3 => Uses.trans _ _ _ h12 h3) fun _ _ h3 => Uses.trans _ _ _ h12 h3,
      fun _ => h12⟩

theorem haswellStop_coreOnly (h : Bare M cpu mask c) (htyped : ∀ e, some e ∈ slots → e.Typed M)
    (hlink : haveLock M c cpu = false → NoLink M thread mask slots) (n : ℕ) :
    (perfmonStopCountersThreadHaswell M thread cpu mask n).wp
      (fun _ p => Uses (CoreOnly M) c p.1) (fun _ p => Uses (CoreOnly M) c p.1) (c, slots) := by
  have hslots : ∀ e, some e ∈ slots → e.Typed M ∧ (hasType mask e.type →
      RegisterType.uncore.toNat ≤ e.type.toNat → ¬ReadsLink M thread mask e) :=
    fun e he => ⟨htyped e he, fun hmask huncore => hlink
      (h.resolve_right (not_not_intro (hasUncore_of_hasType hmask huncore))) e he⟩
  have hloop : ∀ c1, Uses (CoreOnly M) c c1 →
      (Prog.forCells (haswellStopEvent M thread cpu mask (haveLock M c cpu)) n ()).wp
        (fun _ p => Uses (CoreOnly M) c p.1) (fun _ p => Uses (CoreOnly M) c p.1) (c1, slots) :=
    fun c1 h1 => Prog.wp_mono (Uses.forCells (P := CoreOnly M) (fun _ s e hlocks he =>
      haswellStopEvent_coreOnly he.1 (h.notOwn (LocksKept.trans _ _ _ h1.2 hlocks) e) he.2) n ()
        hslots) (fun _ p h2 => Uses.trans _ _ _ h1 h2) fun _ p h2 => Uses.trans _ _ _ h1 h2
  unfold perfmonStopCountersThreadHaswell
  rw [Prog.wp_bind, Prog.wp_get, Prog.wp_bind, Prog.wp_when, Prog.wp_zoom]
  rw [h.freeze]
  refine ⟨fun _ => Prog.wp_mono (Uses.checkWrite (P := CoreOnly M) (coreOnly_control (by decide))
    0 c) (fun _ c1 h1 => ?_) fun _ c1 h1 => h1, fun _ => ?_⟩
  · rw [Prog.wp_bind, Prog.wp_zoom]
    exact hloop c1 h1
  · rw [Prog.wp_bind, Prog.wp_zoom]
    exact hloop c (Uses.refl c)

end Routines

end Likwid
