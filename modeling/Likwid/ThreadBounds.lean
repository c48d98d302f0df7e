import Likwid.Backends
import Likwid.Frames
import Likwid.Lib.Bounds

/-!
# The thread routines stay within the event array

A set-up, a read and a stop index the events of their group only, as long as the
first `numberOfEvents` slots are initialised. A start is another matter: where
the reset of an uncore counter fails, Haswell marks the event at the index of
the counter's register.
-/

namespace Likwid

open Prog (Within Filled)

variable {M : Machine} {B : Backend} {cpu thread : ℕ} {mask : BitVec 128} {lock clear : Bool}

/-! ## The shared state -/

/-- No routine on the shared state indexes an array. -/
abbrev Free {ρ σ α : Type} (m : Prog ρ σ α) : Prop := Within (fun _ => True) m

theorem Free.logic : CoreLogic M cpu (fun _ _ => True) (fun _ => True)
    (fun (α : Type) (m _ : Prog Int Core α) => Free m) where
  toClosed := Prog.Within.closed
  read _ _ := fun _ _ => trivial
  write _ _ _ _ := fun _ _ => trivial
  save _ _ _ := fun _ _ => trivial

theorem Free.counterMap {ρ σ : Type} (index : RegisterIndex) :
    Free (counterMap M index : Prog ρ σ RegisterMap) :=
  .orUndefined _

theorem Free.check (err : Int) : Free (checkAndReturnError M err) :=
  (Free.logic : CoreLogic M 0 _ _ _).check err

theorem Free.checkRead (dev : PciDeviceIndex) (reg : ℕ) : Free (checkRead M cpu dev reg) :=
  Free.logic.checkRead dev reg

theorem Free.checkWrite (dev : PciDeviceIndex) (reg : ℕ) (data : Word) :
    Free (checkWrite M cpu dev reg data) :=
  Free.logic.checkWrite data trivial

theorem Free.freeze : Free (hasepFreezeUncore M cpu mask lock) :=
  Free.logic.hasepFreezeUncore mask lock trivial trivial

theorem Free.unfreeze : Free (hasepUnfreezeUncore M cpu mask lock) :=
  .ite (fun _ => Free.checkWrite _ _ _) fun _ => .when fun _ =>
    .bind (Free.checkRead _ _) fun _ => Free.checkWrite _ _ _

theorem Free.powerRead {ρ : Type} (reg : ℕ) :
    Free (powerRead M cpu reg : Prog ρ Core (Int × Word)) := by
  refine .ite (fun _ => ?_) fun _ => .pure _
  split
  · exact .ite (fun _ => .bind (fun _ _ => trivial) fun _ => .bind .get fun _ =>
      .ite (fun _ => .pure _) fun _ => .pure _) fun _ => .pure _
  · exact .halt (by decide)

theorem Free.thermalRead {ρ : Type} : Free (thermalRead M cpu : Prog ρ Core (Int × Word)) :=
  .bind (fun _ _ => trivial) fun _ => .ite (fun _ => .pure _) fun _ => .pure _

theorem Free.uncoreCounter (row : RegisterMap) : Free (uncoreCounter M cpu row clear) :=
  .bind (Free.checkRead _ _) fun _ => .bind (.when fun _ => Free.checkWrite _ _ _) fun _ =>
    .ite (fun _ => .bind (Free.checkRead _ _) fun _ => .bind (.when fun _ => Free.checkWrite _ _ _)
      fun _ => .pure _) fun _ => .pure _

theorem Free.uncoreGlobalOverflow (type : RegisterType) :
    Free (uncoreGlobalOverflow M cpu type) :=
  .ite (fun _ => .bind (Free.checkRead _ _) fun _ => .ite
    (fun _ => .bind (Free.checkWrite _ _ _) fun _ => .pure _) fun _ => .pure _) fun _ => .pure _

theorem Free.requireLock : Free (requireLock M cpu) :=
  .bind .get fun _ => .when fun _ => .ret _

theorem Free.record (f : PerfmonEventSetEntry → PerfmonEventSetEntry) :
    Free (Prog.onSnd (Prog.modify f) : EventProg Unit) :=
  .onSnd_modify

theorem Free.core {α : Type} {m : Prog Int Core α} (h : Free m) :
    Free (Prog.onFst m : EventProg α) :=
  .onFst (J := fun _ => True) h

/-! ## Haswell -/

theorem haswellSetupEvent_free (flags : Word) :
    Free (haswellSetupEvent M thread cpu mask lock flags) := by
  rintro ⟨c, e⟩ _
  unfold haswellSetupEvent
  refine .bind_done rfl ?_
  dsimp only
  split
  · refine (Free.counterMap e.index _ trivial).bind fun row p hrow _ => ?_
    have hfound : M.counterMap[e.index]? = some row := by
      unfold counterMap at hrow
      cases hlookup : M.counterMap[e.index]? with
      | none => simp [hlookup, Prog.orUndefined, Prog.halt] at hrow
      | some row' =>
          simp only [hlookup, Prog.orUndefined, Pure.pure, Prog.Outcome.done.injEq] at hrow
          rw [hrow.1]
    refine Within.bind (Free.record _) (fun _ => Within.bind (Free.core ?_) fun _ => .pure _) p
      trivial
    exact Free.logic.haswellSetupCase (boxAllowed_true e.index) lock hfound e.event _
  · trivial

theorem hasepCheckCoreOverflow_free (offset : ℕ) (result : Word) :
    Free (hasepCheckCoreOverflow M thread cpu offset result) :=
  .bind .get fun _ => .when fun _ => .bind (Free.core (Free.checkRead _ _)) fun _ =>
    .bind (.when fun _ => Free.record _) fun _ => Free.core (Free.checkWrite _ _ _)

theorem sampleCounter_free (result stored : Word) : Free (sampleCounter thread result stored) :=
  .bind .get fun _ => .bind (.when fun _ => Free.record _) fun _ => Free.record _

theorem hasUncoreRead_free (index : RegisterIndex) (boxOffset : ℕ) :
    Free (hasUncoreRead M thread cpu index clear boxOffset) := by
  refine .bind (Free.counterMap _) fun row => .bind (Free.core Free.requireLock) fun _ =>
    .bind (Free.core (Free.uncoreCounter _)) fun counter => .bind .get fun p =>
      .bind (.when fun _ => ?_) fun _ => Free.record _
  refine .bind (Free.core (Free.uncoreGlobalOverflow _)) fun _ => .when fun _ =>
    .bind (Free.core (Free.checkRead _ _)) fun _ => .when fun _ => ?_
  exact .bind (Free.record _) fun _ => Free.core (Free.checkWrite _ _ _)

theorem haswellCountCase_free (e : PerfmonEventSetEntry) (row : RegisterMap)
    (unit : HaswellUnit) :
    Free (haswellCountCase M thread cpu mask lock clear e row unit) := by
  have huncore : ∀ offset, Free (haswellCountCase.uncore M thread cpu clear e offset) :=
    fun offset => .bind (.call (hasUncoreRead_free _ _)) fun _ => .pure _
  cases unit with
  | pmc | fixed =>
      exact .bind (Free.core (Free.checkRead _ _)) fun _ => .bind (hasepCheckCoreOverflow_free _ _)
        fun _ => Free.record _
  | power =>
      exact .when fun _ => .bind (Free.core (Free.powerRead _)) fun _ =>
        .bind (Free.core (Free.check _)) fun _ => sampleCounter_free _ _
  | thermal =>
      exact .bind (Free.core Free.thermalRead) fun _ => .bind (Free.core (Free.check _)) fun _ =>
        Free.record _
  | wbox0fix =>
      exact .when fun _ => .bind (Free.core (Free.checkRead _ _)) fun _ => sampleCounter_free _ _
  | qboxfix =>
      have hread : ∀ dev reg, Free (hpmRead M cpu dev reg : Prog Int Core (Int × Word)) :=
        fun _ _ _ _ => trivial
      have hset : ∀ result, Free (Prog.onSnd (Prog.modify
          (PerfmonEventSetEntry.setCounter · thread result)) : EventProg Unit) :=
        fun _ => Free.record _
      unfold haswellCountCase
      dsimp only
      split
      · exact .bind (Free.core (hread _ _)) fun _ => hset _
      · split
        · exact .bind (Free.core (hread _ _)) fun _ => hset _
        · exact .bind (.pure _) fun _ => hset _
  | other => exact .pure _
  | _ => exact huncore _

theorem haswellReadEvent_free (u : Unit) : Free (haswellReadEvent M thread cpu mask lock u) :=
  .bind .get fun _ => .when fun _ => .bind (Free.counterMap _) fun _ => haswellCountCase_free _ _ _

theorem haswellStopEvent_free (u : Unit) : Free (haswellStopEvent M thread cpu mask lock u) :=
  .bind .get fun _ => .bind (.when fun _ => .bind (Free.counterMap _) fun _ =>
    haswellCountCase_free _ _ _) fun _ => .when fun _ => Free.record _

theorem pauseCore_free : Free (pauseCore M cpu mask) :=
  .ite (fun _ => .bind (Free.checkRead _ _) fun _ => .bind (Free.checkWrite _ _ _) fun _ => .pure _)
    fun _ => .pure _

/-- The routine keeps the first `n` slots initialised and indexes no other. -/
abbrev WithinSlots (n : ℕ) {α : Type} (m : Prog Int (Core × List Slot) α) : Prop :=
  Within (fun p => Filled n p.2) m

theorem WithinSlots.core {n : ℕ} {α : Type} {m : Prog Int Core α} (h : Free m) :
    WithinSlots n (Prog.onFst m) :=
  .onFst (J := Filled n) h

theorem haswellSetup_within (n : ℕ) :
    WithinSlots n (perfmonSetupCounterThreadHaswell M thread cpu mask n) :=
  .bind .get fun _ => .bind (WithinSlots.core (Free.logic.haswellSetupFreeze mask _
    (fun _ _ => trivial) trivial trivial)) fun _ =>
      .bind (.forCells haswellSetupEvent_free n 0 n le_rfl) fun _ =>
        .when fun _ => WithinSlots.core (Free.checkWrite _ _ _)

theorem haswellRead_within (n : ℕ) :
    WithinSlots n (perfmonReadCountersThreadHaswell M thread cpu mask n) :=
  .bind .get fun _ => .bind (WithinSlots.core pauseCore_free) fun _ =>
    .bind (WithinSlots.core Free.freeze) fun _ =>
      .bind (.forCells haswellReadEvent_free n () n le_rfl) fun _ =>
        .bind (WithinSlots.core Free.unfreeze) fun _ => .when fun _ =>
        WithinSlots.core (Free.checkWrite _ _ _)

theorem haswellStop_within (n : ℕ) :
    WithinSlots n (perfmonStopCountersThreadHaswell M thread cpu mask n) :=
  .bind .get fun _ => .bind (.when fun _ => WithinSlots.core (Free.checkWrite _ _ _)) fun _ =>
    .bind (WithinSlots.core Free.freeze) fun _ => .forCells haswellStopEvent_free n () n le_rfl

/-! ## Nehalem -/

theorem nehalemSetupEvent_free (flags : Word) :
    Free (nehalemSetupEvent M thread cpu mask lock flags) :=
  .bind .get fun _ => .ite (fun _ => .bind (Free.record _) fun _ =>
    .bind (Free.core (Free.logic.nehalemSetupCase (boxAllowed_true _) trivial trivial _ _ _))
      fun _ => .pure _) fun _ => .pure _

theorem nehalemSetup_within (n : ℕ) :
    WithinSlots n (perfmonSetupCounterThreadNehalem M thread cpu mask n) :=
  .bind .get fun _ => .bind (WithinSlots.core (Free.logic.nehalemSetupFreeze mask _
    (fun _ _ => trivial) trivial)) fun _ =>
      .bind (.forCells nehalemSetupEvent_free n 0 n le_rfl) fun _ =>
        .when fun _ => WithinSlots.core (Free.checkWrite _ _ _)

theorem nehCheckOverflow_free (status ovfCtrl offset : ℕ) (result : Word) :
    Free (nehCheckOverflow M thread cpu status ovfCtrl offset result) :=
  .bind .get fun _ => .when fun _ => .bind (Free.core (Free.checkRead _ _)) fun _ => .when fun _ =>
    .bind (Free.record _) fun _ => Free.core (Free.checkWrite _ _ _)

theorem nehalemCountEvent_free (u : Unit) : Free (nehalemCountEvent M thread cpu mask lock u) := by
  refine .bind .get fun p => .when fun _ => .bind (Free.counterMap _) fun row => .bind ?_ fun _ =>
    Free.record _
  cases p.2.type with
  | pmc | fixed =>
      exact .bind (Free.core (Free.checkRead _ _)) fun _ => .bind (nehCheckOverflow_free _ _ _ _)
        fun _ => .pure _
  | uncore =>
      exact .ite (fun _ => .bind (Free.core (Free.checkRead _ _)) fun _ =>
        .bind (nehCheckOverflow_free _ _ _ _) fun _ => .pure _) fun _ => .pure _
  | _ => exact .pure _

theorem nehalemStop_within (n : ℕ) :
    WithinSlots n (perfmonStopCountersThreadNehalem M thread cpu mask n) :=
  .bind .get fun _ => .bind (WithinSlots.core (.when fun _ => Free.checkWrite _ _ _)) fun _ =>
    .bind (WithinSlots.core (.when fun _ => Free.checkWrite _ _ _)) fun _ =>
      .forCells nehalemCountEvent_free n () n le_rfl

theorem nehalemRead_within (n : ℕ) :
    WithinSlots n (perfmonReadCountersThreadNehalem M thread cpu mask n) :=
  .bind .get fun _ => .bind (WithinSlots.core pauseCore_free) fun _ =>
    .bind (WithinSlots.core (.ite (fun _ => .bind (Free.checkRead _ _) fun _ =>
      .bind (Free.checkWrite _ _ _) fun _ => .pure _) fun _ => .pure _)) fun _ =>
      .bind (.forCells nehalemCountEvent_free n () n le_rfl) fun _ =>
        .bind (WithinSlots.core (.when fun _ => Free.checkWrite _ _ _)) fun _ =>
          WithinSlots.core (.when fun _ => Free.checkWrite _ _ _)

theorem nehalemStart_within (n : ℕ) :
    WithinSlots n (perfmonStartCountersThreadNehalem M thread cpu mask n) := by
  refine .bind .get fun _ => .bind (.forCells (fun flags => ?_) n (0, 0) n le_rfl) fun _ =>
    .bind (WithinSlots.core (.when fun _ => Free.checkWrite _ _ _)) fun _ =>
      WithinSlots.core (.when fun _ => .bind (Free.checkWrite _ _ _) fun _ => Free.checkWrite _ _ _)
  refine .bind .get fun p => .ite (fun _ => .bind (Free.counterMap _) fun row =>
    .bind (Free.record _) fun _ => .bind (Free.core ?_) fun _ => .pure _) fun _ => .pure _
  cases p.2.type with
  | pmc | fixed => exact .bind (Free.checkWrite _ _ _) fun _ => .pure _
  | uncore =>
      exact .ite (fun _ => .bind (Free.checkWrite _ _ _) fun _ => .pure _) fun _ => .pure _
  | _ => exact .pure _

/-! ## Backends -/

/-- The set-up, read and stop of every thread stay within the array. -/
structure Backend.InBounds (B : Backend) : Prop where
  setup : ∀ thread cpu mask n, WithinSlots n (B.setupCountersThread thread cpu mask n)
  read : ∀ thread cpu mask n, WithinSlots n (B.readCountersThread thread cpu mask n)
  stop : ∀ thread cpu mask n, WithinSlots n (B.stopCountersThread thread cpu mask n)

/-- The start of a group with this mask does as well. -/
def Backend.StartInBounds (B : Backend) (mask : BitVec 128) : Prop :=
  ∀ thread cpu n, WithinSlots n (B.startCountersThread thread cpu mask n)

theorem haswell_inBounds : (haswell M).InBounds where
  setup _ _ _ n := haswellSetup_within n
  read _ _ _ n := haswellRead_within n
  stop _ _ _ n := haswellStop_within n

theorem nehalem_inBounds : (nehalem M).InBounds where
  setup _ _ _ n := nehalemSetup_within n
  read _ _ _ n := nehalemRead_within n
  stop _ _ _ n := nehalemStop_within n

theorem nehalem_startInBounds : (nehalem M).StartInBounds mask :=
  fun _ _ n => nehalemStart_within n

end Likwid
