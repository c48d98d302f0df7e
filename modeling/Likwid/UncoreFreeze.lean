import Likwid.PausedRead

/-!
# The freeze of the uncore

A set-up, a read and a stop freeze the uncore with `HASEP_FREEZE_UNCORE`, a start and a read
unfreeze it. The routines are cut into pieces at these macros, and a run of calls is looked at piece
by piece. On Haswell EP the uncore is off from each freeze to the next unfreeze. The client's branch
of the freeze clears the bit only if it is clear already, so that a freeze after an unfreeze has no
effect (`uncoreOff_iff`).
-/

namespace Likwid

variable {M : Machine} {thread cpu n : ℕ} {mask : BitVec 128}

/-! ## Pieces of the routines -/

/-- A piece of a routine of the thread that holds the socket lock -/
inductive Piece where
  | freeze (mask : BitVec 128)
  | unfreeze (mask : BitVec 128)
  | setupCore (mask : BitVec 128)
  | setupLoop (mask : BitVec 128) (numberOfEvents : ℕ)
  | startLoop (mask : BitVec 128) (numberOfEvents : ℕ)
  | resetLoop (mask : BitVec 128) (numberOfEvents : ℕ)
  | startCore (mask : BitVec 128) (flags : Word)
  | readCore (mask : BitVec 128)
  | readLoop (mask : BitVec 128) (numberOfEvents : ℕ)
  | readResume (mask : BitVec 128) (flags : Word)
  | stopCore (mask : BitVec 128)
  | stopLoop (mask : BitVec 128) (numberOfEvents : ℕ)

def Piece.prog (M : Machine) (thread cpu : ℕ) : Piece → Prog Int (Core × List Slot) Unit
  | .freeze mask => Prog.onFst (hasepFreezeUncore M cpu mask true)
  | .unfreeze mask => Prog.onFst (hasepUnfreezeUncore M cpu mask true)
  | .setupCore mask => Prog.onFst (Prog.when (hasCore mask) do
      checkWrite M cpu msrDev msrPerfGlobalCtrl 0
      checkWrite M cpu msrDev msrPerfGlobalOvfCtrl 0xC00000070000000F
      checkWrite M cpu msrDev msrPebsEnable 0)
  | .setupLoop mask n => do
      let fixedFlags ← Prog.forCells (haswellSetupEvent M thread cpu mask true) n 0
      Prog.when (0 < fixedFlags)
        (Prog.onFst (checkWrite M cpu msrDev msrPerfFixedCtrCtrl fixedFlags))
  | .startLoop mask n => do
      let _ ← Prog.forCells (haswellStartEvent M thread cpu mask true) n 0
      pure ()
  | .resetLoop mask n => Prog.when (hasUncore mask)
      ((List.range n).foldlM (fun _ i => hasepResetCtr M cpu i) ())
  | .startCore mask flags => Prog.when (hasCore mask) do
      Prog.onFst (checkWrite M cpu msrDev msrPerfGlobalOvfCtrl ((bit 63 ||| bit 62) ||| flags))
      Prog.onFst (checkWrite M cpu msrDev msrPerfGlobalCtrl flags)
  | .readCore mask => do
      let _ ← Prog.onFst (pauseCore M cpu mask)
      pure ()
  | .readLoop mask n => Prog.forCells (haswellReadEvent M thread cpu mask true) n ()
  | .readResume mask flags => Prog.when (hasCore mask)
      (Prog.onFst (checkWrite M cpu msrDev msrPerfGlobalCtrl flags))
  | .stopCore mask => Prog.when (hasCore mask)
      (Prog.onFst (checkWrite M cpu msrDev msrPerfGlobalCtrl 0))
  | .stopLoop mask n => Prog.forCells (haswellStopEvent M thread cpu mask true) n ()

/-- The routines of a measurement. The finalize routine is not one of them: it writes
MSR_UNC_V3_U_PMON_GLOBAL_CTL and MSR_PERF_GLOBAL_CTRL without the macros. -/
inductive Routine where
  | setup
  | start
  | read
  | stop
deriving DecidableEq, Repr

def Routine.prog (M : Machine) (thread cpu : ℕ) (mask : BitVec 128) (n : ℕ) :
    Routine → Prog Int (Core × List Slot) Unit
  | .setup => perfmonSetupCounterThreadHaswell M thread cpu mask n
  | .start => perfmonStartCountersThreadHaswell M thread cpu mask n
  | .read => perfmonReadCountersThreadHaswell M thread cpu mask n
  | .stop => perfmonStopCountersThreadHaswell M thread cpu mask n

/-- The pieces of a routine in their order, with the flags it passes on -/
def Routine.pieces (mask : BitVec 128) (n : ℕ) (flags : Word) : Routine → List Piece
  | .setup => [.setupCore mask, .freeze mask, .setupLoop mask n]
  | .start => [.startLoop mask n, .resetLoop mask n, .unfreeze mask, .startCore mask flags]
  | .read => [.readCore mask, .freeze mask, .readLoop mask n, .unfreeze mask,
      .readResume mask flags]
  | .stop => [.stopCore mask, .freeze mask, .stopLoop mask n]

/-- The run of one piece: the code it returned early, if it did, and the state it ended in -/
structure PieceRun where
  piece : Piece
  code : Option Int
  state : Core × List Slot

/-- The pieces are run one after the other, up to one that returns early. -/
inductive Executes (M : Machine) (thread cpu : ℕ) :
    Core × List Slot → List Piece → List PieceRun → Core × List Slot → Prop
  | nil (p : Core × List Slot) : Executes M thread cpu p [] [] p
  | done {p q r : Core × List Slot} {piece : Piece} {pieces : List Piece} {steps : List PieceRun} :
      piece.prog M thread cpu p = .done () q → Executes M thread cpu q pieces steps r →
      Executes M thread cpu p (piece :: pieces) (⟨piece, none, q⟩ :: steps) r
  | ret {p q : Core × List Slot} {piece : Piece} {pieces : List Piece} {code : Int} :
      piece.prog M thread cpu p = .ret code q →
      Executes M thread cpu p (piece :: pieces) [⟨piece, some code, q⟩] q

/-- A run of calls of the routines on `cpu`, which holds the socket lock, each with an event set of
its own: the steps of the calls in their order -/
inductive Calls (M : Machine) (thread cpu : ℕ) :
    Core × List Slot → List PieceRun → Core × List Slot → Prop
  | nil (p : Core × List Slot) : Calls M thread cpu p [] p
  | call {p q r : Core × List Slot} {slots : List Slot} {steps rest : List PieceRun}
      (routine : Routine) (mask : BitVec 128) (n : ℕ) (flags : Word) :
      haveLock M p.1 cpu = true →
      EndsIn (routine.prog M thread cpu mask n) (p.1, slots) q →
      Executes M thread cpu (p.1, slots) (routine.pieces mask n flags) steps q →
      Calls M thread cpu q rest r → Calls M thread cpu p (steps ++ rest) r

/-- A call of a routine, with the event set it is for -/
structure RoutineCall where
  routine : Routine
  mask : BitVec 128
  numberOfEvents : ℕ
  slots : List Slot

/-- The calls one after the other, on the thread that holds the socket lock -/
inductive RoutineRun (M : Machine) (thread cpu : ℕ) :
    Core × List Slot → List RoutineCall → Core × List Slot → Prop
  | nil (p : Core × List Slot) : RoutineRun M thread cpu p [] p
  | call {p q r : Core × List Slot} {cs : List RoutineCall} (c : RoutineCall) :
      haveLock M p.1 cpu = true →
      EndsIn (c.routine.prog M thread cpu c.mask c.numberOfEvents) (p.1, c.slots) q →
      RoutineRun M thread cpu q cs r → RoutineRun M thread cpu p (c :: cs) r

/-- The state after the calls, if the lock is held at each of them and none of them halts -/
def runRoutines (M : Machine) (thread cpu : ℕ) :
    Core × List Slot → List RoutineCall → Option (Core × List Slot)
  | p, [] => some p
  | p, c :: cs =>
      if haveLock M p.1 cpu then
        match c.routine.prog M thread cpu c.mask c.numberOfEvents (p.1, c.slots) with
        | .done _ q => runRoutines M thread cpu q cs
        | .ret _ q => runRoutines M thread cpu q cs
        | .halt _ => none
      else none

theorem RoutineRun.of_runRoutines {p q : Core × List Slot} {cs : List RoutineCall}
    (h : runRoutines M thread cpu p cs = some q) : RoutineRun M thread cpu p cs q := by
  induction cs generalizing p with
  | nil =>
      obtain rfl := Option.some.inj h
      exact .nil p
  | cons c cs ih =>
      unfold runRoutines at h
      split at h
      · next hlock =>
          split at h
          · next hrun => exact .call c hlock (Or.inl hrun) (ih h)
          · next hrun => exact .call c hlock (Or.inr ⟨_, hrun⟩) (ih h)
          · cases h
      · cases h

/-! ## What the macros are to do -/

/-- What the macros so far are to have made of the uncore -/
inductive UncoreState where
  | unknown
  | off
  | on
deriving DecidableEq, Repr

/-- A macro that completes turns the uncore off or on, if the event set has uncore events. -/
def UncoreState.after (s : UncoreState) (step : PieceRun) : UncoreState :=
  match step.piece, step.code with
  | .freeze mask, none => if hasUncore mask then .off else s
  | .unfreeze mask, none => if hasUncore mask then .on else s
  | _, _ => s

def UncoreState.Matches (M : Machine) (cpu : ℕ) (c : Core) : UncoreState → Prop
  | .unknown => True
  | .off => ¬Unfrozen M cpu c
  | .on => Unfrozen M cpu c

def Piece.IsMacro : Piece → Prop
  | .freeze _ => True
  | .unfreeze _ => True
  | _ => False

/-- After every step the uncore is as the macros so far are to have made it, and between the macros
its control register is not written. -/
def UncoreFollows (M : Machine) (cpu : ℕ) :
    UncoreState → Core → List PieceRun → Prop
  | _, _, [] => True
  | s, c, step :: steps =>
      (s.after step).Matches M cpu step.state.1 ∧
      (¬step.piece.IsMacro → Made (Sparing (· = uncoreControl M)) c step.state.1) ∧
      UncoreFollows M cpu (s.after step) step.state.1 steps

/-- Where the uncore is frozen on a client, it is frozen already. -/
def FreezesFrozen (M : Machine) (cpu : ℕ) : Core → List PieceRun → Prop
  | _, [] => True
  | c, step :: steps =>
      (∀ mask, step.piece = .freeze mask → step.code = none → hasUncore mask →
        M.model = haswellEP ∨ ¬Unfrozen M cpu c) ∧
      FreezesFrozen M cpu step.state.1 steps

/-- Accesses of `cpu` to `reg` return 0 or fail, and a read that returns 0 delivers the content. -/
def FaithfulControl (M : Machine) (cpu reg : ℕ) : Prop :=
  ∀ n, M.accessRead n msrDev cpu reg ≤ 0 ∧
    (M.accessRead n msrDev cpu reg = 0 → ∀ v, M.accessData n msrDev cpu reg v = v) ∧
    ∀ data, M.accessWrite n msrDev cpu reg data ≤ 0

/-! ## Routines and pieces -/

/-- The pieces as one routine -/
def inSequence (M : Machine) (thread cpu : ℕ) : List Piece → Prog Int (Core × List Slot) Unit
  | [] => pure ()
  | piece :: pieces => do
      piece.prog M thread cpu
      inSequence M thread cpu pieces

theorem inSequence_executes {pieces : List Piece} {p q : Core × List Slot}
    (h : EndsIn (inSequence M thread cpu pieces) p q) :
    ∃ steps, Executes M thread cpu p pieces steps q := by
  induction pieces generalizing p with
  | nil =>
    rcases h with hdone | ⟨r, hret⟩
    · cases hdone
      exact ⟨[], .nil _⟩
    · cases hret
  | cons piece pieces ih =>
    unfold EndsIn inSequence at h
    rw [Prog.bind_apply] at h
    cases hpiece : piece.prog M thread cpu p with
    | done u p1 =>
      rw [hpiece] at h
      obtain ⟨steps, hsteps⟩ := ih h
      exact ⟨_, .done hpiece hsteps⟩
    | ret r p1 =>
      rw [hpiece] at h
      rcases h with hdone | ⟨r', hret⟩
      · cases hdone
      · cases hret
        exact ⟨_, .ret hpiece⟩
    | halt k =>
      rw [hpiece] at h
      rcases h with hdone | ⟨r', hret⟩
      · cases hdone
      · cases hret

theorem bind_value {σ α : Type} {m : Prog Int σ α} {f : α → Prog Int σ Unit} (b : α) (s : σ) :
    ∃ a, (m >>= f) s = ((m >>= fun _ => pure ()) >>= fun _ => f a) s := by
  cases h : m s with
  | done a s' =>
    refine ⟨a, ?_⟩
    rw [Prog.bind_of_done h, Prog.bind_assoc, Prog.bind_of_done h]
    rfl
  | ret r s' =>
    refine ⟨b, ?_⟩
    rw [Prog.bind_of_ret h, Prog.bind_assoc, Prog.bind_of_ret h]
  | halt k =>
    refine ⟨b, ?_⟩
    rw [Prog.bind_of_halt h, Prog.bind_assoc, Prog.bind_of_halt h]

theorem bind_unit {σ : Type} (m : Prog Int σ Unit) : (m >>= fun _ => pure ()) = m :=
  Prog.bind_pure_right m

theorem onFst_bind {ρ σ τ α β : Type} (m : Prog ρ σ α) (f : α → Prog ρ σ β) :
    (Prog.onFst (m >>= f) : Prog ρ (σ × τ) β) = Prog.onFst m >>= fun a => Prog.onFst (f a) := by
  funext ⟨s, t⟩
  simp only [Prog.zoom, Prog.bind_apply]
  cases m s <;> rfl

theorem setup_inSequence {p : Core × List Slot} (hlock : haveLock M p.1 cpu = true) :
    perfmonSetupCounterThreadHaswell M thread cpu mask n p =
      inSequence M thread cpu (Routine.setup.pieces mask n 0) p := by
  unfold perfmonSetupCounterThreadHaswell haswellSetupFreeze
  rw [Prog.bind_of_done (Prog.get_apply p), hlock, onFst_bind, Prog.bind_assoc]
  simp only [Routine.pieces, inSequence, Piece.prog, bind_unit]

theorem stop_inSequence {p : Core × List Slot} (hlock : haveLock M p.1 cpu = true) :
    perfmonStopCountersThreadHaswell M thread cpu mask n p =
      inSequence M thread cpu (Routine.stop.pieces mask n 0) p := by
  unfold perfmonStopCountersThreadHaswell
  rw [Prog.bind_of_done (Prog.get_apply p), hlock]
  simp only [Routine.pieces, inSequence, Piece.prog, bind_unit]

theorem read_inSequence {p : Core × List Slot} (hlock : haveLock M p.1 cpu = true) :
    ∃ flags, perfmonReadCountersThreadHaswell M thread cpu mask n p =
      inSequence M thread cpu (Routine.read.pieces mask n flags) p := by
  unfold perfmonReadCountersThreadHaswell
  rw [Prog.bind_of_done (Prog.get_apply p), hlock]
  obtain ⟨flags, hflags⟩ := bind_value (m := Prog.onFst (pauseCore M cpu mask)) (f := fun flags =>
    do
    Prog.onFst (hasepFreezeUncore M cpu mask true)
    Prog.forCells (haswellReadEvent M thread cpu mask true) n ()
    Prog.onFst (hasepUnfreezeUncore M cpu mask true)
    Prog.when (hasCore mask) (Prog.onFst (checkWrite M cpu msrDev msrPerfGlobalCtrl flags))) 0 p
  refine ⟨flags, hflags.trans ?_⟩
  simp only [Routine.pieces, inSequence, Piece.prog, bind_unit]

theorem start_inSequence {p : Core × List Slot} (hlock : haveLock M p.1 cpu = true) :
    ∃ flags, perfmonStartCountersThreadHaswell M thread cpu mask n p =
      inSequence M thread cpu (Routine.start.pieces mask n flags) p := by
  unfold perfmonStartCountersThreadHaswell
  rw [Prog.bind_of_done (Prog.get_apply p), hlock]
  obtain ⟨flags, hflags⟩ := bind_value
    (m := Prog.forCells (haswellStartEvent M thread cpu mask true) n 0) (f := fun flags => do
      hasepUnfreezeUncoreAndResetCtr M cpu mask n true
      Prog.when (hasCore mask) do
        Prog.onFst (checkWrite M cpu msrDev msrPerfGlobalOvfCtrl ((bit 63 ||| bit 62) ||| flags))
        Prog.onFst (checkWrite M cpu msrDev msrPerfGlobalCtrl flags)) 0 p
  refine ⟨flags, hflags.trans ?_⟩
  have hreset : hasepUnfreezeUncoreAndResetCtr M cpu mask n true = (do
      Prog.when (hasUncore mask) ((List.range n).foldlM (fun _ i => hasepResetCtr M cpu i) ())
      Prog.onFst (hasepUnfreezeUncore M cpu mask true)) := by
    unfold hasepUnfreezeUncoreAndResetCtr
    by_cases huncore : hasUncore mask
    · rw [Prog.when_of_pos ⟨rfl, huncore⟩, Prog.when_of_pos huncore]
    · unfold hasepUnfreezeUncore
      rw [Prog.when_of_neg fun h => huncore h.2, Prog.when_of_neg huncore,
        if_neg fun h => huncore h.2.1, Prog.when_of_neg fun h => huncore h.2]
      rfl
  simp only [Routine.pieces, inSequence, Piece.prog, bind_unit, hreset, Prog.bind_assoc]

/-- **Every call runs through its pieces.** -/
theorem routine_executes (routine : Routine) {p q : Core × List Slot}
    (hlock : haveLock M p.1 cpu = true) (hend : EndsIn (routine.prog M thread cpu mask n) p q) :
    ∃ flags steps, Executes M thread cpu p (routine.pieces mask n flags) steps q := by
  have hof : ∀ flags, routine.prog M thread cpu mask n p =
      inSequence M thread cpu (routine.pieces mask n flags) p →
      ∃ flags steps, Executes M thread cpu p (routine.pieces mask n flags) steps q := by
    intro flags heq
    unfold EndsIn at hend
    rw [heq] at hend
    exact ⟨flags, inSequence_executes hend⟩
  cases routine with
  | setup => exact hof 0 (setup_inSequence hlock)
  | start =>
    obtain ⟨flags, hflags⟩ := @start_inSequence M thread cpu n mask p hlock
    exact hof flags hflags
  | read =>
    obtain ⟨flags, hflags⟩ := @read_inSequence M thread cpu n mask p hlock
    exact hof flags hflags
  | stop => exact hof 0 (stop_inSequence hlock)

/-! ## What the pieces do to the control register -/

theorem ne_uncoreControl {reg : ℕ}
    (h : reg ≠ msrUncV3UPmonGlobalCtl ∧ reg ≠ msrUncorePerfGlobalCtrl) :
    reg ≠ uncoreControl M := by
  unfold uncoreControl
  split
  · exact h.1
  · exact h.2

section Pieces

variable (hT : TablesApart M (· = uncoreControl M))

include hT

/-- Between the macros the control register is left alone. -/
theorem piece_kept {piece : Piece} (hcut : ¬piece.IsMacro) :
    Prog.Respects (ControlKept.flow M cpu (· = uncoreControl M)).fst
      (piece.prog M thread cpu) := by
  have hL : FrameLogic M cpu (fun dev reg => ¬(dev = msrDev ∧ reg = uncoreControl M))
      (fun _ => True) _ _ _ := ControlKept.logic
  have hC : ∀ clear, CountAllowed M
      (fun dev reg => ¬(dev = msrDev ∧ reg = uncoreControl M)) clear := by
    refine hT.countAllowed fun reg hreg => ne_uncoreControl ?_
    revert hreg reg
    decide
  have hB := hT.boxAllowed fun reg hreg => ne_uncoreControl (M := M) (by revert hreg reg; decide)
  have hwrite : ∀ reg data, reg ≠ msrUncV3UPmonGlobalCtl ∧ reg ≠ msrUncorePerfGlobalCtrl →
      Prog.Respects (ControlKept.flow M cpu (· = uncoreControl M))
        (checkWrite M cpu msrDev reg data) :=
    fun reg data hne => hL.checkWrite data fun h => ne_uncoreControl hne h.2
  cases piece with
  | freeze mask | unfreeze mask => exact absurd trivial hcut
  | setupCore mask =>
      exact .onFst (.when fun _ => .bind (hwrite _ _ (by decide)) fun _ =>
        .bind (hwrite _ _ (by decide)) fun _ => hwrite _ _ (by decide))
  | setupLoop mask n =>
      exact .bind (.forCells_fst (fun flags => hL.haswellSetupEvent hB flags) n 0) fun _ =>
        .when fun _ => .onFst (hwrite _ _ (by decide))
  | startLoop mask n =>
      exact .bind (.forCells_fst (fun flags => hL.haswellStartEvent (hC true) flags) n 0)
        fun _ => .pure _
  | resetLoop mask n => exact .when fun _ => .foldlM (fun _ i _ => hL.hasepResetCtr (hC true) i) ()
  | startCore mask flags =>
      exact .when fun _ => .bind (.onFst (hwrite _ _ (by decide))) fun _ =>
        .onFst (hwrite _ _ (by decide))
  | readCore mask =>
      refine .bind (.onFst (.ite (fun _ => ?_) fun _ => .pure _)) fun _ => .pure _
      exact .bind (hL.checkRead _ _) fun _ => .bind (hwrite _ _ (by decide)) fun _ => .pure _
  | readLoop mask n => exact .forCells_fst (fun u => hL.haswellReadEvent (hC false) u) n ()
  | readResume mask flags => exact .when fun _ => .onFst (hwrite _ _ (by decide))
  | stopCore mask => exact .when fun _ => .onFst (hwrite _ _ (by decide))
  | stopLoop mask n => exact .forCells_fst (fun u => hL.haswellStopEvent (hC true) u) n ()

end Pieces

section Accesses

variable {reg : ℕ} (hF : FaithfulControl M cpu reg) (c : Core)

include hF

/-- A read of the register that is not left delivers the content. -/
theorem checkRead_control :
    (checkRead M cpu msrDev reg).wp (fun v c' => v = c.regs cpu msrDev reg ∧ c'.regs = c.regs)
      (fun _ c' => c'.regs = c.regs) c := by
  obtain ⟨hle, hdata, -⟩ := hF c.trace.length
  show Prog.wp (do
    checkAndReturnError M (readAnswer M c cpu msrDev reg).1
    pure (readAnswer M c cpu msrDev reg).2) _ _ (c.log _)
  unfold checkAndReturnError
  simp only [Prog.wp_bind, Prog.wp_get, Prog.wp_when, Prog.wp_ret, Prog.wp_pure]
  refine ⟨fun _ => rfl, fun hnonneg => ⟨?_, rfl⟩⟩
  unfold readAnswer at hnonneg ⊢
  by_cases hdev : maxNumPciDevices ≤ msrDev
  · exact absurd hdev (by decide)
  rw [if_neg hdev] at hnonneg ⊢
  by_cases hcpu : M.numHWThreads ≤ cpu
  · rw [if_pos hcpu] at hnonneg
    exact absurd (by decide) hnonneg
  rw [if_neg hcpu] at hnonneg ⊢
  by_cases hreg : c.registeredCpuList cpu = false
  · rw [if_pos hreg] at hnonneg
    exact absurd (by decide) hnonneg
  rw [if_neg hreg] at hnonneg ⊢
  exact hdata (Int.le_antisymm hle (Int.not_lt.mp hnonneg)) _

omit hF in
/-- Of a register whose writes return 0 or fail: a write that is not left has changed it alone, and
one that is left has changed nothing. -/
theorem checkWrite_stores {dev : PciDeviceIndex} (data : Word)
    (hwrite : ∀ n, M.accessWrite n dev cpu reg data ≤ 0) :
    (checkWrite M cpu dev reg data).wp
      (fun _ c' => c'.regs = (c.setReg (regOwner M cpu dev) dev reg (stored dev data)).regs ∧
        c'.registeredCpuList = c.registeredCpuList)
      (fun _ c' => c'.regs = c.regs) c := by
  have hle : writeError M c cpu dev reg data ≤ 0 := by
    unfold writeError
    split
    · decide
    · split
      · decide
      · split
        · decide
        · exact hwrite _
  show Prog.wp (checkAndReturnError M (writeError M c cpu dev reg data)) _ _
    ((if writeError M c cpu dev reg data = 0 then
      c.setReg (regOwner M cpu dev) dev reg (stored dev data) else c).log _)
  unfold checkAndReturnError
  rw [Prog.wp_bind, Prog.wp_get, Prog.wp_when, Prog.wp_ret]
  constructor
  · intro hneg
    rw [if_neg (by omega)]
    rfl
  · intro hnonneg
    rw [if_pos (Int.le_antisymm hle (Int.not_lt.mp hnonneg))]
    exact ⟨rfl, rfl⟩

theorem checkWrite_sets (data : Word) :
    (checkWrite M cpu msrDev reg data).wp
      (fun _ c' => c'.regs = (c.setReg cpu msrDev reg data).regs)
      (fun _ c' => c'.regs = c.regs) c :=
  Prog.wp_mono (checkWrite_stores c data fun n => (hF n).2.2 data) (fun _ _ h => h.1)
    fun _ _ h => h

theorem checkWrite_control (data : Word) :
    (checkWrite M cpu msrDev reg data).wp (fun _ c' => c'.regs cpu msrDev reg = data)
      (fun _ c' => c'.regs cpu msrDev reg = c.regs cpu msrDev reg) c := by
  refine Prog.wp_mono (checkWrite_sets hF c data) (fun _ c' h => ?_) fun _ c' h => by rw [h]
  rw [h]
  simp

end Accesses

section Macros

variable (hF : FaithfulControl M cpu (uncoreControl M)) (c : Core)

include hF

/-- The freeze turns the uncore off on Haswell EP, and leaves it as it is on a client. -/
theorem freeze_unfrozen :
    (hasepFreezeUncore M cpu mask true).wp
      (fun _ c' => Unfrozen M cpu c' ↔ Unfrozen M cpu c ∧ ¬(hasUncore mask ∧ M.model = haswellEP))
      (fun _ c' => Unfrozen M cpu c' ↔ Unfrozen M cpu c) c := by
  unfold hasepFreezeUncore Unfrozen
  by_cases hep : hasUncore mask ∧ M.model = haswellEP
  · have hctl : msrUncV3UPmonGlobalCtl = uncoreControl M := (if_pos hep.2).symm
    rw [if_pos ⟨rfl, hep⟩, hctl]
    refine Prog.wp_mono (checkWrite_control hF c (bit 31)) ?_ ?_
    · intro _ c' hvalue
      rw [hvalue]
      exact iff_of_false (by decide) fun h => h.2 hep
    · intro _ c' hsame
      rw [hsame]
  · rw [if_neg fun h => hep h.2, Prog.wp_when]
    refine ⟨fun hcond => ?_, fun _ => ⟨fun h => ⟨h, hep⟩, fun h => h.1⟩⟩
    have hctl : msrUncorePerfGlobalCtrl = uncoreControl M :=
      (if_neg fun hmodel => hep ⟨hcond.2, hmodel⟩).symm
    rw [hctl, Prog.wp_bind]
    refine Prog.wp_mono (checkRead_control hF c) ?_ fun _ c' hsame => by rw [hsame]
    rintro data c1 ⟨rfl, hsame1⟩
    rw [Prog.wp_when]
    constructor
    · intro hzero
      -- The bit is cleared only where it is clear.
      have hclear : ¬(c.regs cpu msrDev (uncoreControl M)).getLsbD 29 = true := by
        have hbit := congrArg (fun v => v.getLsbD 29) hzero
        rw [BitVec.getLsbD_and, show (bit 29).getLsbD 29 = true from by decide,
          Bool.and_true] at hbit
        intro hset
        rw [hset] at hbit
        cases hbit
      refine Prog.wp_mono (checkWrite_control hF c1 _) ?_ ?_
      · intro _ c2 hvalue
        rw [hvalue, BitVec.getLsbD_and]
        exact iff_of_false (fun h => hclear (Bool.and_eq_true _ _ |>.mp h).1) fun h => hclear h.1
      · intro _ c2 hsame2
        rw [hsame2, hsame1]
    · intro _
      rw [hsame1]
      exact ⟨fun h => ⟨h, hep⟩, fun h => h.1⟩

theorem unfreeze_unfrozen :
    (hasepUnfreezeUncore M cpu mask true).wp
      (fun _ c' => Unfrozen M cpu c' ↔ Unfrozen M cpu c ∨ hasUncore mask)
      (fun _ c' => Unfrozen M cpu c' ↔ Unfrozen M cpu c) c := by
  have hwrite : ∀ (data : Word) (c1 : Core), c1.regs = c.regs → data.getLsbD 29 = true →
      hasUncore mask → (checkWrite M cpu msrDev (uncoreControl M) data).wp
        (fun _ c' => Unfrozen M cpu c' ↔ Unfrozen M cpu c ∨ hasUncore mask)
        (fun _ c' => Unfrozen M cpu c' ↔ Unfrozen M cpu c) c1 := by
    intro data c1 hsame hdata huncore
    refine Prog.wp_mono (checkWrite_control hF c1 data) ?_ ?_
    · intro _ c2 hvalue
      unfold Unfrozen
      rw [hvalue]
      exact iff_of_true hdata (Or.inr huncore)
    · intro _ c2 hsame2
      unfold Unfrozen
      rw [hsame2, hsame]
  unfold hasepUnfreezeUncore
  by_cases hep : hasUncore mask ∧ M.model = haswellEP
  · have hctl : msrUncV3UPmonGlobalCtl = uncoreControl M := (if_pos hep.2).symm
    rw [if_pos ⟨rfl, hep⟩, hctl]
    exact hwrite _ c rfl (by decide) hep.1
  · rw [if_neg fun h => hep h.2, Prog.wp_when]
    refine ⟨fun hcond => ?_, fun hno => ?_⟩
    · have hctl : msrUncorePerfGlobalCtrl = uncoreControl M :=
        (if_neg fun hmodel => hep ⟨hcond.2, hmodel⟩).symm
      rw [hctl, Prog.wp_bind]
      refine Prog.wp_mono (checkRead_control hF c) ?_ fun _ c' hsame => by
        unfold Unfrozen
        rw [hsame]
      rintro data c1 ⟨rfl, hsame1⟩
      refine hwrite _ c1 hsame1 ?_ hcond.2
      rw [BitVec.getLsbD_or, show (bit 29).getLsbD 29 = true from by decide, Bool.or_true]
    · exact ⟨Or.inl, fun h => h.resolve_right fun huncore => hno ⟨rfl, huncore⟩⟩

end Macros

/-! ## Runs -/

/-- The step is a run of its piece from `c`. -/
def PieceRun.From (M : Machine) (thread cpu : ℕ) (c : Core) (step : PieceRun) : Prop :=
  ∃ slots, match step.code with
    | none => step.piece.prog M thread cpu (c, slots) = .done () step.state
    | some code => step.piece.prog M thread cpu (c, slots) = .ret code step.state

def StepsFrom (M : Machine) (thread cpu : ℕ) : Core → List PieceRun → Prop
  | _, [] => True
  | c, step :: steps => step.From M thread cpu c ∧ StepsFrom M thread cpu step.state.1 steps

theorem Executes.stepsFrom {p q : Core × List Slot} {pieces : List Piece}
    {steps rest : List PieceRun} (h : Executes M thread cpu p pieces steps q)
    (hrest : StepsFrom M thread cpu q.1 rest) : StepsFrom M thread cpu p.1 (steps ++ rest) := by
  induction h with
  | nil p => exact hrest
  | @done p _ _ _ _ _ hpiece _ ih => exact ⟨⟨p.2, hpiece⟩, ih hrest⟩
  | @ret p _ _ _ _ hpiece => exact ⟨⟨p.2, hpiece⟩, hrest⟩

theorem Calls.stepsFrom {p q : Core × List Slot} {steps : List PieceRun}
    (h : Calls M thread cpu p steps q) : StepsFrom M thread cpu p.1 steps := by
  induction h with
  | nil p => trivial
  | call _ _ _ _ _ _ hexec _ ih => exact hexec.stepsFrom ih

/-- What a run of a piece on the shared state shows -/
theorem PieceRun.From.elim {c : Core} {step : PieceRun} {Q R : Core → Prop}
    (h : step.From M thread cpu c)
    (hpiece : ∀ slots, (step.piece.prog M thread cpu).wp (fun _ p => Q p.1) (fun _ p => R p.1)
      (c, slots)) :
    (step.code = none → Q step.state.1) ∧ (step.code ≠ none → R step.state.1) := by
  obtain ⟨slots, hrun⟩ := h
  cases hcode : step.code with
  | none =>
    rw [hcode] at hrun
    have hQ := Prog.wp_done (hpiece slots) hrun
    exact ⟨fun _ => hQ, fun hne => absurd rfl hne⟩
  | some r =>
    rw [hcode] at hrun
    have hR := Prog.wp_returned (hpiece slots) hrun
    exact ⟨nofun, fun _ => hR⟩

section Steps

variable (hT : TablesApart M (· = uncoreControl M)) (hF : FaithfulControl M cpu (uncoreControl M))

include hT hF

/-- **One step.** The uncore follows it, except where it freezes a client's that is not frozen. -/
theorem step_follows {s : UncoreState} {c : Core} {step : PieceRun}
    (hfrom : step.From M thread cpu c) (hs : s.Matches M cpu c) :
    ((s.after step).Matches M cpu step.state.1 ∧
      (¬step.piece.IsMacro → Made (Sparing (· = uncoreControl M)) c step.state.1)) ↔
    ∀ mask, step.piece = .freeze mask → step.code = none → hasUncore mask →
      M.model = haswellEP ∨ ¬Unfrozen M cpu c := by
  obtain ⟨piece, code, state⟩ := step
  have hsame : (Unfrozen M cpu state.1 ↔ Unfrozen M cpu c) → s.Matches M cpu state.1 := by
    intro h
    cases s with
    | unknown => trivial
    | off => exact fun hu => hs (h.mp hu)
    | on => exact h.mpr hs
  by_cases hcut : piece.IsMacro
  · cases piece with
    | freeze mask =>
      obtain ⟨hdone, hret⟩ := hfrom.elim (Q := fun c' =>
          Unfrozen M cpu c' ↔ Unfrozen M cpu c ∧ ¬(hasUncore mask ∧ M.model = haswellEP))
        (R := fun c' => Unfrozen M cpu c' ↔ Unfrozen M cpu c)
        fun slots => Prog.wp_zoom.mpr (freeze_unfrozen hF c)
      cases code with
      | some r =>
        refine iff_of_true ⟨hsame (hret nofun), fun hno => absurd trivial hno⟩ ?_
        exact fun _ _ hcode => nomatch hcode
      | none =>
        have hafter := hdone rfl
        by_cases huncore : hasUncore mask
        · have hoff : s.after ⟨.freeze mask, none, state⟩ = .off := if_pos huncore
          rw [hoff]
          constructor
          · rintro ⟨hnot, -⟩ mask' hmask - -
            by_cases hmodel : M.model = haswellEP
            · exact Or.inl hmodel
            · exact Or.inr fun hu => hnot (hafter.mpr ⟨hu, fun h => hmodel h.2⟩)
          · intro hcond
            refine ⟨fun hu => ?_, fun hno => absurd trivial hno⟩
            obtain ⟨hu', hno⟩ := hafter.mp hu
            rcases hcond mask rfl rfl huncore with hmodel | hfrozen
            · exact hno ⟨huncore, hmodel⟩
            · exact hfrozen hu'
        · have hkept : s.after ⟨.freeze mask, none, state⟩ = s := if_neg huncore
          rw [hkept]
          refine iff_of_true ⟨hsame ?_, fun hno => absurd trivial hno⟩ ?_
          · exact hafter.trans ⟨fun h => h.1, fun h => ⟨h, fun hep => huncore hep.1⟩⟩
          · intro mask' hmask _ huncore'
            cases hmask
            exact absurd huncore' huncore
    | unfreeze mask =>
      obtain ⟨hdone, hret⟩ := hfrom.elim
        (Q := fun c' => Unfrozen M cpu c' ↔ Unfrozen M cpu c ∨ hasUncore mask)
        (R := fun c' => Unfrozen M cpu c' ↔ Unfrozen M cpu c)
        fun slots => Prog.wp_zoom.mpr (unfreeze_unfrozen hF c)
      refine iff_of_true ⟨?_, fun hno => absurd trivial hno⟩ fun _ hmask => nomatch hmask
      cases code with
      | some r => exact hsame (hret nofun)
      | none =>
        have hafter := hdone rfl
        by_cases huncore : hasUncore mask
        · have hon : s.after ⟨.unfreeze mask, none, state⟩ = .on := if_pos huncore
          rw [hon]
          exact hafter.mpr (Or.inr huncore)
        · have hkept : s.after ⟨.unfreeze mask, none, state⟩ = s := if_neg huncore
          rw [hkept]
          exact hsame (hafter.trans ⟨fun h => h.resolve_right huncore, Or.inl⟩)
    | _ => exact absurd hcut id
  · obtain ⟨hdone, hret⟩ := hfrom.elim (Q := ControlKept M cpu (· = uncoreControl M) c)
      (R := ControlKept M cpu (· = uncoreControl M) c)
      fun slots => piece_kept hT hcut (c, slots)
    have hkept : ControlKept M cpu (· = uncoreControl M) c state.1 := by
      cases code with
      | none => exact hdone rfl
      | some r => exact hret nofun
    have hafter : s.after ⟨piece, code, state⟩ = s := by
      cases piece with
      | freeze mask | unfreeze mask => exact absurd trivial hcut
      | _ => rfl
    rw [hafter]
    refine iff_of_true ⟨hsame ?_, fun _ => hkept.made⟩ fun mask hmask => ?_
    · unfold Unfrozen
      rw [hkept.reg _ rfl]
    · cases hmask
      exact absurd trivial hcut

theorem steps_follow {steps : List PieceRun} {s : UncoreState} {c : Core}
    (hfrom : StepsFrom M thread cpu c steps) (hs : s.Matches M cpu c) :
    UncoreFollows M cpu s c steps ↔ FreezesFrozen M cpu c steps := by
  induction steps generalizing s c with
  | nil => exact Iff.rfl
  | cons step steps ih =>
    have hstep := step_follows hT hF hfrom.1 hs
    constructor
    · rintro ⟨hmatches, hmade, hrest⟩
      exact ⟨hstep.mp ⟨hmatches, hmade⟩, (ih hfrom.2 hmatches).mp hrest⟩
    · rintro ⟨hcond, hrest⟩
      obtain ⟨hmatches, hmade⟩ := hstep.mpr hcond
      exact ⟨hmatches, hmade, (ih hfrom.2 hmatches).mpr hrest⟩

/-- **The uncore is off from each freeze to the next unfreeze, and on from there to the next
freeze**, in every run of calls in which each freeze meets Haswell EP or an uncore that is off, and
in no other. -/
theorem uncoreOff_iff {p q : Core × List Slot} {steps : List PieceRun}
    (hcalls : Calls M thread cpu p steps q) :
    UncoreFollows M cpu .unknown p.1 steps ↔ FreezesFrozen M cpu p.1 steps :=
  steps_follow hT hF hcalls.stepsFrom trivial

omit hT hF in
/-- Haswell EP freezes whatever the uncore does. -/
theorem freezesFrozen_ep (hmodel : M.model = haswellEP) (c : Core) (steps : List PieceRun) :
    FreezesFrozen M cpu c steps := by
  induction steps generalizing c with
  | nil => trivial
  | cons step steps ih => exact ⟨fun _ _ _ _ => Or.inl hmodel, ih _⟩

omit hT hF in
theorem RoutineRun.calls {p q : Core × List Slot} {cs : List RoutineCall}
    (h : RoutineRun M thread cpu p cs q) : ∃ steps, Calls M thread cpu p steps q := by
  induction h with
  | nil p => exact ⟨[], .nil p⟩
  | call c hlock hend _ ih =>
      obtain ⟨rest, hrest⟩ := ih
      obtain ⟨flags, steps, hsteps⟩ := routine_executes (p := (_, c.slots)) c.routine hlock hend
      exact ⟨steps ++ rest, .call c.routine c.mask c.numberOfEvents flags hlock hend hsteps hrest⟩

/-- **On Haswell EP the uncore follows the macros** in every run of the routines on the thread that
holds the socket lock, whatever accesses fail. -/
theorem uncoreFollows_ep (hmodel : M.model = haswellEP) {p q : Core × List Slot}
    {cs : List RoutineCall} (h : RoutineRun M thread cpu p cs q) :
    ∃ steps, Calls M thread cpu p steps q ∧ UncoreFollows M cpu .unknown p.1 steps := by
  obtain ⟨steps, hsteps⟩ := h.calls
  exact ⟨steps, hsteps,
    (steps_follow (s := .unknown) hT hF hsteps.stepsFrom trivial).mpr
      (freezesFrozen_ep hmodel p.1 steps)⟩

end Steps

/-! ## Two machines -/

/-- `CACHE_LOOKUP_M:CBOX0C0` is set up on a client whose uncore is off. -/
theorem uncoreOff_clientSetup : ∃ steps q,
    Calls haswellMachine 0 0 (ownerCore, [some cboxEntry]) steps q ∧ steps.length = 3 ∧
      UncoreFollows haswellMachine 0 .unknown ownerCore steps := by
  have hT : TablesApart haswellMachine (· = uncoreControl haswellMachine) := by
    constructor <;> decide
  have hF : FaithfulControl haswellMachine 0 (uncoreControl haswellMachine) :=
    fun _ => ⟨Int.le_refl 0, fun _ _ => rfl, fun _ => Int.le_refl 0⟩
  have hexec : ∃ steps q, Executes haswellMachine 0 0 (ownerCore, [some cboxEntry])
      (Routine.setup.pieces (regTypeMaskOf .cbox0) 1 0) steps q ∧
        EndsIn (Routine.setup.prog haswellMachine 0 0 (regTypeMaskOf .cbox0) 1)
          (ownerCore, [some cboxEntry]) q ∧
        steps.length = 3 ∧ FreezesFrozen haswellMachine 0 ownerCore steps := by
    refine ⟨_, _, .done rfl (.done rfl (.done rfl (.nil _))), Or.inl rfl, rfl, nofun, ?_, nofun,
      trivial⟩
    intro mask _ _ _
    refine Or.inr ?_
    unfold Unfrozen
    decide +kernel
  obtain ⟨steps, q, hsteps, hend, hlength, hfrozen⟩ := hexec
  have hcalls : Calls haswellMachine 0 0 (ownerCore, [some cboxEntry]) (steps ++ []) q :=
    .call .setup (regTypeMaskOf .cbox0) 1 0 rfl hend hsteps (.nil q)
  rw [List.append_nil] at hcalls
  exact ⟨steps, q, hcalls, hlength, (uncoreOff_iff hT hF hcalls).mpr hfrozen⟩

/-- Haswell EP with one counter of a box -/
def oneBoxMachine : Machine :=
  { haswellMachine with
    model := haswellEP
    toTables :=
      { counterMap := [⟨"CBOX0C0", 0, .cbox0, 0xE01, 0xE08, 0, msrDev, 0⟩]
        boxMap := fun t => if t = .cbox0 then { regWidth := 48 } else {}
        index_eq := index_eq_of_map (by decide)
        unit_row := by decide
        fixed_row := by decide
        fixed_private := by decide
        fixed_filter := by intro t; cases t <;> decide
        pmc_row := by decide
        pmc_private := by decide
        pmc_counter := by decide
        pmc_filter := by intro t row hrow; cases t <;> revert row <;> decide } }

/-- The CPU that owns the socket, with the box routine of Haswell EP -/
def oneBoxCore : Core := { ownerCore with haswellCboxSetup := some .hasep }

def oneBoxCalls : List RoutineCall := [.setup, .start, .read, .stop].map fun routine =>
  ⟨routine, regTypeMaskOf .cbox0, 1, [some ({ cboxEntry with index := 0 }.setInit 0 true)]⟩

/-- The box is set up, started, read and stopped, with the counter at index 0. -/
theorem uncoreFollows_ep_session : ∃ steps q,
    RoutineRun oneBoxMachine 0 0 (oneBoxCore, []) oneBoxCalls q ∧
      Calls oneBoxMachine 0 0 (oneBoxCore, []) steps q ∧
      UncoreFollows oneBoxMachine 0 .unknown oneBoxCore steps := by
  have hT : TablesApart oneBoxMachine (· = uncoreControl oneBoxMachine) := by
    constructor <;> decide
  have hF : FaithfulControl oneBoxMachine 0 (uncoreControl oneBoxMachine) :=
    fun _ => ⟨Int.le_refl 0, fun _ _ => rfl, fun _ => Int.le_refl 0⟩
  have hruns : (runRoutines oneBoxMachine 0 0 (oneBoxCore, []) oneBoxCalls).isSome = true := by
    decide +kernel
  obtain ⟨q, hq⟩ := Option.isSome_iff_exists.mp hruns
  have hrun := RoutineRun.of_runRoutines hq
  obtain ⟨steps, hcalls, hfollows⟩ := uncoreFollows_ep hT hF rfl hrun
  exact ⟨steps, q, hrun, hcalls, hfollows⟩

/-- The client after a start: the uncore counts. -/
def countingCore : Core :=
  { ownerCore with
    regs := fun _ dev reg => if dev = msrDev ∧ reg = msrUncorePerfGlobalCtrl then bit 29 else 0 }

def countingSlots : List Slot := [some (cboxEntry.setInit 0 true)]

/-- The stop does not freeze it. -/
theorem not_uncoreOff_clientStop : ∃ steps q,
    Calls haswellMachine 0 0 (countingCore, countingSlots) steps q ∧
      ¬UncoreFollows haswellMachine 0 .unknown countingCore steps := by
  have hexec : ∃ steps q, Executes haswellMachine 0 0 (countingCore, countingSlots)
      (Routine.stop.pieces (regTypeMaskOf .cbox0) 1 0) steps q ∧
        EndsIn (Routine.stop.prog haswellMachine 0 0 (regTypeMaskOf .cbox0) 1)
          (countingCore, countingSlots) q ∧
        ¬UncoreFollows haswellMachine 0 .unknown countingCore steps := by
    refine ⟨_, _, .done rfl (.done rfl (.done rfl (.nil _))), Or.inl rfl, ?_⟩
    rintro ⟨-, -, hoff, -⟩
    refine hoff ?_
    unfold Unfrozen
    decide +kernel
  obtain ⟨steps, q, hsteps, hend, hnot⟩ := hexec
  have hcalls : Calls haswellMachine 0 0 (countingCore, countingSlots) (steps ++ []) q :=
    .call .stop (regTypeMaskOf .cbox0) 1 0 rfl hend hsteps (.nil q)
  rw [List.append_nil] at hcalls
  exact ⟨steps, q, hcalls, hnot⟩

end Likwid
