import Likwid.AccessModules
import Likwid.Lib.Run
import Likwid.Tables
import Mathlib.Data.Finset.Card

/-!
# Registration with the access layer

`HPMinit` chooses the access module, `HPMaddThread` registers a CPU with it and
`HPMfinalize` releases both. The number of registered CPUs is kept beside their
flags and always agrees with them. `HPMcheck` returns `-ENODEV` for a CPU that is
not registered, which its callers take for a device; and for one that is, the
module it asks may find a device that its read and write routines answer with
`-ENODEV` (`registered_of_run`).
-/

namespace Likwid

/-! ## `access.c` -/

abbrev accessmodeDirect : Int := 0
abbrev accessmodeDaemon : Int := 1

/-- The flags are `core.registeredCpuList`. -/
structure Hpm where
  daemonMode : Int
  access : Option AccessMode := none
  registeredCpus : Int := 0
  core : Core

namespace Hpm

def setRegistered (s : Hpm) (cpu : ℕ) (flag : Bool) : Hpm :=
  { s with core := { s.core with registeredCpuList := fun i =>
      if i = cpu then flag else s.core.registeredCpuList i } }

variable (M : Machine)

/-- `HPMmode` -/
def mode (mode : Int) : Prog Int Hpm Unit :=
  Prog.when (mode = accessmodeDirect ∨ mode = accessmodeDaemon)
    (Prog.modify fun s => { s with daemonMode := mode })

/-- `HPMinit` -/
def init : Prog Int Hpm Unit := do
  let s ← Prog.get
  Prog.when s.access.isNone (do
    Prog.when (s.daemonMode = -1) (Prog.modify fun s => { s with daemonMode := accessmodeDaemon })
    Prog.modify fun s => { s with access :=
      if s.daemonMode = accessmodeDaemon then some .daemon
      else if s.daemonMode = accessmodeDirect then some .direct
      else none })

/-- `HPMaddThread` -/
def addThread (cpu : Int) : Prog Int Hpm Unit := do
  let s ← Prog.get
  Prog.when (cpu < 0 ∨ (maxNumThreads : Int) ≤ cpu) (Prog.halt .outOfBounds)
  Prog.when (s.core.registeredCpuList cpu.toNat = false) (do
    Prog.when s.access.isNone (Prog.ret (-enodev))
    Prog.when (M.accessInit cpu.toNat ≠ 0) (Prog.ret (M.accessInit cpu.toNat))
    Prog.modify fun s => { s with registeredCpus := s.registeredCpus + 1 }
    Prog.modify fun s => s.setRegistered cpu.toNat true)

/-- The body of the loop in `HPMfinalize`. -/
def finalizeCpu (i : ℕ) : Prog Int Hpm Unit := do
  let s ← Prog.get
  Prog.when (maxNumThreads ≤ i) (Prog.halt .outOfBounds)
  Prog.when (s.core.registeredCpuList i) (do
    Prog.when s.access.isNone (Prog.halt .undefined)
    Prog.modify fun s => { s with registeredCpus := s.registeredCpus - 1 }
    Prog.modify fun s => s.setRegistered i false)

/-- `HPMfinalize` -/
def finalize : Prog Int Hpm Unit := do
  let s ← Prog.get
  Prog.when (s.registeredCpus ≠ 0)
    ((List.range M.numHWThreads).foldlM (fun _ i => finalizeCpu i) ())
  Prog.modify fun s => { s with access := none }

variable (E : Modules)

/-- The index of a CPU in the tables, if it is one. -/
def index (cpu : Int) : Option (Fin maxNumThreads) :=
  if h : 0 ≤ cpu ∧ cpu.toNat < maxNumThreads then some ⟨cpu.toNat, h.2⟩ else none

/-- `HPMcheck` -/
def check (dev : PciDeviceIndex) (cpu : Int) : Prog Int Hpm Int := do
  let s ← Prog.get
  let i ← Prog.orOutOfBounds (index cpu)
  if s.core.registeredCpuList i = false then return -enodev
  else do
    let mode ← Prog.orUndefined s.access
    Prog.orUndefined (E.check mode dev i)

/-- The tests of `HPMread` and `HPMwrite`, and the function of the module they call:
the code and `*data`. -/
def tested (cpu : Int) (dev : PciDeviceIndex)
    (call : AccessMode → Fin maxNumThreads → Option (Int × Word)) :
    Prog Int Hpm (Int × Word) := do
  let s ← Prog.get
  if maxNumPciDevices ≤ dev then return (-efault, 0)
  else if cpu < 0 ∨ (E.numHWThreads : Int) ≤ cpu then return (-erange, 0)
  else do
    let i ← Prog.orOutOfBounds (index cpu)
    if s.core.registeredCpuList i = false then return (-enodev, 0)
    else do
      let mode ← Prog.orUndefined s.access
      Prog.orUndefined (call mode i)

/-- `HPMread` -/
def read (cpu : Int) (dev : PciDeviceIndex) (reg : ℕ) : Prog Int Hpm (Int × Word) :=
  tested E cpu dev fun mode i => E.access .read mode dev i reg

/-- `HPMwrite` -/
def write (cpu : Int) (dev : PciDeviceIndex) (reg : ℕ) (data : Word) :
    Prog Int Hpm (Int × Word) :=
  tested E cpu dev fun mode i => E.access (.write data) mode dev i reg

def readWrite (a : RegAccess) (cpu : Int) (dev : PciDeviceIndex) (reg : ℕ) :
    Prog Int Hpm (Int × Word) :=
  match a with
  | .read => read E cpu dev reg
  | .write data => write E cpu dev reg data

theorem readWrite_eq (a : RegAccess) (cpu : Int) (dev : PciDeviceIndex) (reg : ℕ) :
    readWrite E a cpu dev reg = tested E cpu dev fun mode i => E.access a mode dev i reg := by
  cases a <;> rfl

end Hpm

/-! ## Runs -/

inductive HpmOp where
  | mode (mode : Int)
  | init
  | addThread (cpu : Int)
  | finalize

/-- A call, and what the machine answers during it. -/
structure HpmCall where
  machine : Machine
  op : HpmOp

def HpmCall.prog (call : HpmCall) : Prog Int Hpm Unit :=
  match call.op with
  | .mode mode => Hpm.mode mode
  | .init => Hpm.init
  | .addThread cpu => Hpm.addThread call.machine cpu
  | .finalize => Hpm.finalize call.machine

/-- A call that returns, whatever it returns. -/
def HpmStep (s : Hpm) (call : HpmCall) (s' : Hpm) : Prop :=
  ∃ code : Int, Prog.call 0 call.prog s = (.done code s' : Prog.Outcome Int Hpm Int)

/-- No call made yet, whatever `config.daemonMode` is. -/
def Hpm.start (mode : Int) (core : Core) : Hpm where
  daemonMode := mode
  core := { core with registeredCpuList := fun _ => false }

/-- The CPUs whose flag is set. -/
def Hpm.registered (s : Hpm) : Finset ℕ :=
  (Finset.range maxNumThreads).filter (s.core.registeredCpuList · = true)

/-- `registeredCpus` counts the flags. -/
def Hpm.Counted (s : Hpm) : Prop := s.registeredCpus = s.registered.card

/-- **One access**: `HPMcheck` reads no flag outside the list, a device that it
reports is that of a registered CPU, the module reports it, and `HPMread` or
`HPMwrite` answers, not with `-ENODEV`. -/
def Hpm.Checked (E : Modules) (s : Hpm) (a : RegAccess) (dev : PciDeviceIndex) (cpu : Int)
    (reg : ℕ) : Prop :=
  Hpm.check E dev cpu s ≠ .halt .outOfBounds ∧
    ∀ v s', Hpm.check E dev cpu s = .done v s' → v ≠ 0 →
      (∃ i mode, Hpm.index cpu = some i ∧ s.core.registeredCpuList i = true ∧
        s.access = some mode ∧ E.check mode dev i = some v) ∧
      ∃ code data s'', Hpm.readWrite E a cpu dev reg s = .done (code, data) s'' ∧ code ≠ -enodev

/-- The CPU is registered, and the module serves what it finds; a CPU that the
topology does not have is answered with `-ERANGE`. -/
def Hpm.Answered (E : Modules) (s : Hpm) (a : RegAccess) (dev : PciDeviceIndex) (cpu : Int)
    (reg : ℕ) : Prop :=
  ∃ i, Hpm.index cpu = some i ∧ s.core.registeredCpuList i = true ∧
    (cpu < E.numHWThreads → ∀ mode, s.access = some mode → E.Serves a mode dev i reg)

/-! ## Counting -/

section Counted

variable {M : Machine} {s s' : Hpm} {i : ℕ}

@[simp] theorem Hpm.mem_registered :
    i ∈ s.registered ↔ i < maxNumThreads ∧ s.core.registeredCpuList i = true := by
  simp [Hpm.registered]

theorem Hpm.registered_setRegistered_true (hi : i < maxNumThreads) :
    (s.setRegistered i true).registered = insert i s.registered := by
  ext j
  by_cases hj : j = i
  · subst hj
    simp [Hpm.setRegistered, hi]
  · simp [Hpm.setRegistered, hj]

theorem Hpm.registered_setRegistered_false :
    (s.setRegistered i false).registered = s.registered.erase i := by
  ext j
  by_cases hj : j = i
  · subst hj
    simp [Hpm.setRegistered]
  · simp [Hpm.setRegistered, hj]

theorem counted_mode (mode : Int) (h : s.Counted) :
    (Hpm.mode mode).wp (fun _ s' => s'.Counted) (fun _ s' => s'.Counted) s := by
  simp only [Hpm.mode, Prog.wp_when, Prog.wp_modify]
  exact ⟨fun _ => h, fun _ => h⟩

theorem counted_init (h : s.Counted) :
    Hpm.init.wp (fun _ s' => s'.Counted) (fun _ s' => s'.Counted) s := by
  simp only [Hpm.init, Prog.wp_bind, Prog.wp_get, Prog.wp_when, Prog.wp_modify]
  exact ⟨fun _ => ⟨fun _ => h, fun _ => h⟩, fun _ => h⟩

theorem counted_addThread (cpu : Int) (h : s.Counted) :
    (Hpm.addThread M cpu).wp (fun _ s' => s'.Counted) (fun _ s' => s'.Counted) s := by
  simp only [Hpm.addThread, Prog.wp_bind, Prog.wp_get, Prog.wp_when, Prog.wp_modify,
    Prog.wp_halt, Prog.wp_ret]
  refine ⟨fun _ => trivial, fun hin => ⟨fun hfresh => ⟨fun _ => h, fun _ => ⟨fun _ => h,
    fun _ => ?_⟩⟩, fun _ => h⟩⟩
  -- the flag was not set, so both grow by one
  have hcpu : cpu.toNat < maxNumThreads := by
    have hlt : cpu < (maxNumThreads : Int) := by omega
    omega
  have hnew : cpu.toNat ∉ s.registered := by simp [hfresh]
  unfold Hpm.Counted at h ⊢
  have hcard := Finset.card_insert_of_notMem hnew
  have hregistered := Hpm.registered_setRegistered_true (s := s) hcpu
  show s.registeredCpus + 1 = ((s.setRegistered cpu.toNat true).registered.card : Int)
  rw [hregistered, hcard, h]
  rfl

theorem counted_finalizeCpu (h : s.Counted) :
    (Hpm.finalizeCpu i).wp (fun _ s' => s'.Counted) (fun _ s' => s'.Counted) s := by
  simp only [Hpm.finalizeCpu, Prog.wp_bind, Prog.wp_get, Prog.wp_when, Prog.wp_modify,
    Prog.wp_halt]
  refine ⟨fun _ => trivial, fun hin => ⟨fun hset => ⟨fun _ => trivial, fun _ => ?_⟩, fun _ => h⟩⟩
  have hmem : i ∈ s.registered := Hpm.mem_registered.mpr ⟨Nat.lt_of_not_le hin, hset⟩
  unfold Hpm.Counted at h ⊢
  have hcard := Finset.card_erase_add_one hmem
  have hregistered := Hpm.registered_setRegistered_false (s := s) (i := i)
  show s.registeredCpus - 1 = ((s.setRegistered i false).registered.card : Int)
  rw [hregistered, h]
  omega

theorem counted_finalize (h : s.Counted) :
    (Hpm.finalize M).wp (fun _ s' => s'.Counted) (fun _ s' => s'.Counted) s := by
  simp only [Hpm.finalize, Prog.wp_bind, Prog.wp_get, Prog.wp_when, Prog.wp_modify]
  refine ⟨fun _ => ?_, fun _ => h⟩
  exact Prog.wp_foldlM (I := fun (_ : List ℕ) (s : Hpm) => s.Counted)
    (fun _ _ _ _ _ hs => counted_finalizeCpu hs) h

theorem counted_step {call : HpmCall} (h : s.Counted) (hs : HpmStep s call s') : s'.Counted := by
  obtain ⟨code, hrun⟩ := hs
  have hprog : call.prog.wp (fun _ s' => s'.Counted) (fun _ s' => s'.Counted) s := by
    unfold HpmCall.prog
    cases call.op with
    | mode mode => exact counted_mode mode h
    | init => exact counted_init h
    | addThread cpu => exact counted_addThread cpu h
    | finalize => exact counted_finalize h
  have hcall : (Prog.call 0 call.prog : Prog Int Hpm Int).wp (fun _ s' => s'.Counted)
      (fun _ _ => True) s := Prog.wp_call.mpr hprog
  have hcounted := Prog.wp_done hcall hrun
  exact hcounted

end Counted

/-! ## Checking -/

section Checked

variable {E : Modules} {s : Hpm} {a : RegAccess} {dev : PciDeviceIndex} {cpu : Int} {reg : ℕ}
  {i : Fin maxNumThreads} {mode : AccessMode}

theorem index_eq_some (h : Hpm.index cpu = some i) : 0 ≤ cpu ∧ (i : ℕ) = cpu.toNat := by
  unfold Hpm.index at h
  split at h
  · next hin =>
      obtain rfl := Option.some.inj h
      exact ⟨hin.1, rfl⟩
  · cases h

theorem check_of_none (h : Hpm.index cpu = none) :
    Hpm.check E dev cpu s = .halt .outOfBounds := by
  unfold Hpm.check
  rw [Prog.bind_of_done (Prog.get_apply s), h]
  rfl

theorem check_of_unregistered (h : Hpm.index cpu = some i)
    (hflag : s.core.registeredCpuList i = false) :
    Hpm.check E dev cpu s = .done (-enodev) s := by
  unfold Hpm.check
  rw [Prog.bind_of_done (Prog.get_apply s), h, Prog.orOutOfBounds, Prog.bind_pure_left,
    if_pos hflag]
  rfl

theorem check_of_registered (h : Hpm.index cpu = some i)
    (hflag : s.core.registeredCpuList i = true) :
    Hpm.check E dev cpu s =
      (Prog.orUndefined s.access >>= fun mode => Prog.orUndefined (E.check mode dev i) :
        Prog Int Hpm Int) s := by
  unfold Hpm.check
  rw [Prog.bind_of_done (Prog.get_apply s), h, Prog.orOutOfBounds, Prog.bind_pure_left,
    if_neg (by simp [hflag])]

theorem check_done_iff (h : Hpm.index cpu = some i) (hflag : s.core.registeredCpuList i = true)
    {v : Int} {s' : Hpm} : Hpm.check E dev cpu s = .done v s' ↔
      s' = s ∧ ∃ mode, s.access = some mode ∧ E.check mode dev i = some v := by
  rw [check_of_registered h hflag]
  cases haccess : s.access with
  | none => simp [Prog.orUndefined, Prog.halt, Prog.bind_apply]
  | some mode =>
      cases hcheck : E.check mode dev i with
      | none => simp [Prog.orUndefined, Prog.halt, Prog.bind_apply, Prog.pure_apply, hcheck]
      | some w =>
          simp [Prog.orUndefined, Prog.bind_apply, Prog.pure_apply, hcheck, and_comm, eq_comm]

theorem check_within (h : Hpm.index cpu = some i) (hflag : s.core.registeredCpuList i = true) :
    Hpm.check E dev cpu s ≠ .halt .outOfBounds := by
  rw [check_of_registered h hflag]
  cases haccess : s.access with
  | none => simp [Prog.orUndefined, Prog.halt, Prog.bind_apply]
  | some mode =>
      cases hcheck : E.check mode dev i <;>
        simp [Prog.orUndefined, Prog.halt, Prog.bind_apply, Prog.pure_apply, hcheck]

/-- A registered CPU of the topology is served by its module, another answered with
an error of its own. -/
theorem access_answered (h : Hpm.index cpu = some i) (hflag : s.core.registeredCpuList i = true)
    (hmode : s.access = some mode) (hdev : dev < maxNumPciDevices) :
    (∃ code data s', Hpm.readWrite E a cpu dev reg s = .done (code, data) s' ∧ code ≠ -enodev) ↔
      (cpu < E.numHWThreads → ∃ r, E.access a mode dev i reg = some r ∧ r.1 ≠ -enodev) := by
  have h0 := (index_eq_some h).1
  rw [Hpm.readWrite_eq]
  unfold Hpm.tested
  rw [Prog.bind_of_done (Prog.get_apply s), if_neg (Nat.not_le.mpr hdev)]
  by_cases hcpu : cpu < E.numHWThreads
  · rw [if_neg (by omega), h, Prog.orOutOfBounds, Prog.bind_pure_left, if_neg (by simp [hflag]),
      hmode, Prog.orUndefined, Prog.bind_pure_left]
    cases haccess : E.access a mode dev i reg with
    | none => simp [Prog.orUndefined, Prog.halt, haccess, hcpu]
    | some r =>
        obtain ⟨code, data⟩ := r
        simp [Prog.orUndefined, Prog.pure_apply, haccess, hcpu]
  · have herange : -erange ≠ -enodev := by decide
    rw [if_pos (by omega)]
    simp [Prog.pure_apply, hcpu, herange]

/-- A device that a module finds has a number below `MAX_NUM_PCI_DEVICES`. -/
theorem lt_of_check {v : Int} (h : E.check mode dev i = some v) (hv : v ≠ 0) :
    dev < maxNumPciDevices := by
  by_cases h0 : dev = msrDev
  · subst h0
    decide
  · cases mode with
    | daemon =>
        obtain ⟨q, _, hhas⟩ := daemon_check_iff.mp ⟨v, h, hv⟩
        unfold Daemon.Has at hhas
        rw [if_neg h0] at hhas
        exact hhas.2.1
    | direct => exact ((direct_check_iff h0).mp ⟨v, h, hv⟩).2.1

/-- What `HPMcheck` reports is accessible exactly if the CPU is registered and the
module serves what it finds. -/
theorem checked_iff : s.Checked E a dev cpu reg ↔ s.Answered E a dev cpu reg := by
  unfold Hpm.Checked Hpm.Answered
  cases hindex : Hpm.index cpu with
  | none =>
      refine iff_of_false (fun h => h.1 (check_of_none hindex)) ?_
      rintro ⟨i, hi, -⟩
      cases hi
  | some i =>
      cases hflag : s.core.registeredCpuList i with
      | false =>
          refine iff_of_false (fun h => ?_) ?_
          · obtain ⟨⟨j, mode, hj, hset, _⟩, _⟩ :=
              h.2 (-enodev) s (check_of_unregistered hindex hflag) (by decide)
            obtain rfl := Option.some.inj hj
            rw [hflag] at hset
            cases hset
          · rintro ⟨j, hj, hset, -⟩
            obtain rfl := Option.some.inj hj
            rw [hflag] at hset
            cases hset
      | true =>
          constructor
          · rintro ⟨-, h⟩
            refine ⟨i, rfl, hflag, fun hcpu mode hmode => serves_iff.mp fun v hv hne => ?_⟩
            have hrun : Hpm.check E dev cpu s = .done v s :=
              (check_done_iff hindex hflag).mpr ⟨rfl, mode, hmode, hv⟩
            exact (access_answered hindex hflag hmode (lt_of_check hv hne)).mp (h v s hrun hne).2
              hcpu
          · rintro ⟨j, hj, -, h⟩
            obtain rfl := Option.some.inj hj
            refine ⟨check_within hindex hflag, fun v s' hrun hne => ?_⟩
            obtain ⟨_, mode, hmode, hv⟩ := (check_done_iff hindex hflag).mp hrun
            refine ⟨⟨i, mode, rfl, hflag, hmode, hv⟩, ?_⟩
            refine (access_answered hindex hflag hmode (lt_of_check hv hne)).mpr fun hcpu => ?_
            exact serves_iff.mpr (h hcpu mode hmode) v hv hne

end Checked

/-- **Registration**: after any sequence of calls `registeredCpus` counts the flags,
and what `HPMcheck` reports is accessible exactly for the registered CPUs whose
module serves what it finds. -/
theorem registered_of_run {mode : Int} {core : Core} {s : Hpm}
    (h : Run HpmStep (fun _ _ => True) (Hpm.start mode core) s) :
    s.Counted ∧ ∀ E a dev cpu reg, s.Checked E a dev cpu reg ↔ s.Answered E a dev cpu reg := by
  refine ⟨?_, fun E a dev cpu reg => checked_iff⟩
  refine Run.invariant ?_ (fun _ _ _ hs _ hstep => counted_step hs hstep) h
  simp [Hpm.Counted, Hpm.registered, Hpm.start]

/-- Nothing accessed yet. -/
def quietCore : Core where
  regs := fun _ _ _ => 0
  currentConfig := fun _ _ => 0
  registeredCpuList := fun _ => false
  socketLock := fun _ => -1
  tileLock := fun _ => -1
  haswellCboxSetup := none
  trace := []

/-- Direct access with CPU 0 registered. -/
def oneRegistered : Hpm where
  daemonMode := accessmodeDirect
  access := some .direct
  registeredCpus := 1
  core := { quietCore with registeredCpuList := fun i => if i = 0 then true else false }

theorem oneRegistered_run :
    Run HpmStep (fun _ _ => True) (Hpm.start accessmodeDirect quietCore) oneRegistered :=
  have hinit : HpmStep (Hpm.start accessmodeDirect quietCore) ⟨haswellMachine, .init⟩
      { Hpm.start accessmodeDirect quietCore with access := some .direct } := ⟨0, rfl⟩
  have hadd : HpmStep { Hpm.start accessmodeDirect quietCore with access := some .direct }
      ⟨haswellMachine, .addThread 0⟩ oneRegistered := ⟨0, rfl⟩
  (Run.nil.snoc trivial hinit).snoc trivial hadd

theorem registered_of_run_one :
    oneRegistered.Counted ∧ ∀ E a dev cpu reg,
      oneRegistered.Checked E a dev cpu reg ↔ oneRegistered.Answered E a dev cpu reg :=
  registered_of_run oneRegistered_run

/-- Two CPUs, CPU 0 on socket 0; all devices are there. -/
def goodModules : Modules where
  files := goodFiles
  numHWThreads := 4
  setup := goodDirect
  direct := unopenedDirect
  client := {}
  daemonSetup _ := goodDaemon
  daemons _ := unopenedDaemon

/-- CPU 3 is not registered, and `HPMcheck` answers `-ENODEV`; CPU 0 is, and the
device 5 that `HPMcheck` finds is read with `-ENODEV`. -/
theorem not_checked_unregistered :
    ∃ s, Run HpmStep (fun _ _ => True) (Hpm.start accessmodeDirect quietCore) s ∧
      ¬s.Checked goodModules .read msrDev 3 0x309 ∧ ¬s.Checked goodModules .read 5 0 0xF4 := by
  refine ⟨oneRegistered, oneRegistered_run, fun hchecked => ?_, fun hchecked => ?_⟩
  · obtain ⟨⟨i, mode, hi, hset, _⟩, _⟩ := hchecked.2 (-enodev) oneRegistered rfl (by decide)
    obtain rfl : 3 = i := Option.some.inj hi
    exact absurd hset (by decide)
  · obtain ⟨_, code, data, s', hrun, hcode⟩ := hchecked.2 1 oneRegistered rfl (by decide)
    have hread : Hpm.readWrite goodModules .read 0 5 0xF4 oneRegistered =
        .done (-enodev, 0) oneRegistered := rfl
    rw [hread] at hrun
    cases hrun
    exact hcode rfl

end Likwid
