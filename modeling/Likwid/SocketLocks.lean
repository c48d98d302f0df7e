import Likwid.CoreFlow
import Likwid.Lib.FirstCome

/-!
# Who owns a socket

`perfmon_init` lets the CPUs of its list take the socket locks one after the other, and a lock that
is taken stays with its CPU until the next `perfmon_init` (`socketLock_of_run`). A thread without
the lock makes no access for an uncore event, except that a read and a stop of a `QBOXnFIX` event do
not look at the lock.
-/

namespace Likwid

variable {M : Machine} {thread cpu : ℕ} {mask : BitVec 128} {c c' : Core} {s t : Perfmon}

/-! ## The lock table -/

/-- The value of a lock: `LOCK_INIT` or the CPU that holds it -/
def lockWord : Option ℕ → Int
  | none => -1
  | some cpu => cpu

theorem lockWord_eq_free {o : Option ℕ} : lockWord o = -1 ↔ o = none := by
  cases o with
  | none => simp [lockWord]
  | some cpu => simp [lockWord]

theorem lockWord_eq_cpu {o : Option ℕ} : lockWord o = (cpu : Int) ↔ o = some cpu := by
  cases o with
  | none => simp [lockWord]
  | some cpu' =>
      simp only [lockWord, Option.some.injEq]
      exact Int.ofNat_inj

/-- The CPU of the list that owns socket `n`: the first one on it -/
def socketOwner (M : Machine) (cpus : List ℕ) (n : ℕ) : Option ℕ :=
  FirstCome.first M.core2node cpus n

/-- `lock_acquire` takes a lock that is free and leaves one that is held. -/
theorem acquireLocks_socketLock {held : ℕ → Option ℕ}
    (h : ∀ n, c.socketLock n = lockWord (held n)) (n : ℕ) :
    (if n = M.core2node cpu ∧ c.socketLock n = -1 then (cpu : Int) else c.socketLock n) =
      lockWord (FirstCome.claim M.core2node held cpu n) := by
  unfold FirstCome.claim
  by_cases hn : n = M.core2node cpu
  · rw [if_pos hn, h]
    cases hheld : held n with
    | none => simp [hn, lockWord]
    | some owner =>
        have hne : lockWord (some owner) ≠ -1 := fun he => by simp [lockWord_eq_free] at he
        rw [if_neg fun hc => hne hc.2]
        rfl
  · rw [if_neg fun hc => hn hc.1, if_neg hn, h]

/-! ## The locks along the calls -/

/-- The socket locks are as they were. -/
def LocksKept (c c' : Core) : Prop := c'.socketLock = c.socketLock

namespace LocksKept

theorem refl (c : Core) : LocksKept c c := rfl

theorem trans (a b c : Core) (h : LocksKept a b) (h' : LocksKept b c) : LocksKept a c :=
  Eq.trans h' h

theorem write {ρ : Type} (cpu : ℕ) (dev : PciDeviceIndex) (reg : ℕ) (data : Word) :
    Prog.Respects (Prog.Flow.of LocksKept refl trans)
      (hpmWrite M cpu dev reg data : Prog ρ Core Int) := by
  intro c
  show Core.socketLock (Core.log (if _ then _ else _) _) = _
  split
  · rfl
  · rfl

theorem logic : FrameLogic M cpu (fun _ _ => True) (fun _ => True) LocksKept refl trans where
  toClosed := Prog.Respects.closed
  read _ _ := fun _ => rfl
  write _ _ _ _ := write _ _ _ _
  save _ _ _ := fun _ => rfl

end LocksKept

/-! ## The whole routines along a judgement that allows every access -/

section Routines

variable {R : Core → Core → Prop} {hr : ∀ c, R c c} {ht : ∀ a b c, R a b → R b c → R a c}
  (L : FrameLogic M cpu (fun _ _ => True) (fun _ => True) R hr ht)

theorem countAllowed_true (clear : Bool) : CountAllowed M (fun _ _ => True) clear := by
  constructor <;> simp

include L

namespace CoreLogic

theorem hasepUnfreezeUncore (mask : BitVec 128) (lock : Bool) :
    Prog.Respects (Prog.Flow.of R hr ht) (hasepUnfreezeUncore M cpu mask lock) :=
  .ite (fun _ => L.checkWrite _ trivial) fun _ => .when fun _ =>
    .bind (L.checkRead _ _) fun _ => L.checkWrite _ trivial

theorem haswellSetup (n : ℕ) : Prog.Respects (Prog.Flow.of R hr ht).fst
    (perfmonSetupCounterThreadHaswell M thread cpu mask n) := by
  refine .bind .get fun p => .bind (.onFst (L.haswellSetupFreeze mask _ (fun _ _ => trivial) trivial
    trivial)) fun _ => .bind (.forCells_fst (fun flags => ?_) n 0) fun _ => .when fun _ =>
      .onFst (L.checkWrite _ trivial)
  exact L.haswellSetupEvent boxAllowed_true flags

theorem haswellStart (n : ℕ) : Prog.Respects (Prog.Flow.of R hr ht).fst
    (perfmonStartCountersThreadHaswell M thread cpu mask n) := by
  have hC := countAllowed_true (M := M) true
  refine .bind .get fun p => .bind (.forCells_fst (fun flags => L.haswellStartEvent hC flags) n 0)
    fun flags => .bind (.when fun _ => ?_) fun _ => .when fun _ =>
      .bind (.onFst (L.checkWrite _ trivial)) fun _ => .onFst (L.checkWrite _ trivial)
  exact .bind (.foldlM (fun _ i _ => L.hasepResetCtr hC i) ()) fun _ =>
    .onFst (L.hasepUnfreezeUncore mask _)

theorem haswellRead (n : ℕ) : Prog.Respects (Prog.Flow.of R hr ht).fst
    (perfmonReadCountersThreadHaswell M thread cpu mask n) := by
  have hC := countAllowed_true (M := M) false
  refine .bind .get fun p => .bind (.onFst (.ite (fun _ => ?_) fun _ => .pure _)) fun flags =>
    .bind (.onFst (L.hasepFreezeUncore mask _ trivial trivial)) fun _ =>
      .bind (.forCells_fst (fun u => L.haswellReadEvent hC u) n ()) fun _ =>
        .bind (.onFst (L.hasepUnfreezeUncore mask _)) fun _ => .when fun _ =>
          .onFst (L.checkWrite _ trivial)
  exact .bind (L.checkRead _ _) fun _ => .bind (L.checkWrite _ trivial) fun _ => .pure _

theorem haswellStop (n : ℕ) : Prog.Respects (Prog.Flow.of R hr ht).fst
    (perfmonStopCountersThreadHaswell M thread cpu mask n) := by
  have hC := countAllowed_true (M := M) true
  exact .bind .get fun p => .bind (.when fun _ => .onFst (L.checkWrite _ trivial)) fun _ =>
    .bind (.onFst (L.hasepFreezeUncore mask _ trivial trivial)) fun _ =>
      .forCells_fst (fun u => L.haswellStopEvent hC u) n ()

theorem haswellFinalize (n : ℕ) : Prog.Respects (Prog.Flow.of R hr ht).fst
    (perfmonFinalizeCountersThreadHaswell M thread cpu mask n) := by
  have hwrite : ∀ dev reg data, Prog.Respects (Prog.Flow.of R hr ht)
      (Likwid.checkWrite M cpu dev reg data) := fun _ _ data => L.checkWrite data trivial
  have hfilter : ∀ dev reg, Prog.Respects (Prog.Flow.of R hr ht) (do
      let _ ← hpmWrite M cpu dev reg 0 : Prog Int Core Unit) :=
    fun _ _ => .bind (L.write _ _ _ trivial) fun _ => .pure _
  have hclear : ∀ lock type row, Prog.Respects (Prog.Flow.of R hr ht)
      (haswellClearEvent M cpu lock type row) := fun _ _ _ =>
    .when fun _ => .bind (hwrite _ _ _) fun _ => .bind (.when fun _ => hwrite _ _ _) fun _ =>
      .bind (.when fun _ => hfilter _ _) fun _ => .when fun _ => hfilter _ _
  refine .bind .get fun p => .bind (.forCells_fst (fun ovf => ?_) n _) fun ovf =>
    .bind (.onFst (.when fun _ => .bind (hwrite _ _ _) fun _ => hwrite _ _ _)) fun _ =>
      .onFst (.when fun _ => .bind (hwrite _ _ _) fun _ => hwrite _ _ _)
  refine .bind .get fun p => counting_row fun row _ => .ite (fun _ => .pure _) fun _ => ?_
  dsimp only
  split
  · exact .bind (.onFst (.ite (fun _ => hwrite _ _ _) fun _ => .when fun _ => hwrite _ _ _))
      fun _ => .bind (.pure _) fun _ => .bind (.onFst (hclear _ _ _)) fun _ =>
        .bind (counting_record _) fun _ => .pure _
  · exact .bind (.pure _) fun _ => .bind (.onFst (hclear _ _ _)) fun _ =>
      .bind (counting_record _) fun _ => .pure _
  · exact .bind (.pure _) fun _ => .bind (.onFst (hclear _ _ _)) fun _ =>
      .bind (counting_record _) fun _ => .pure _

end CoreLogic

end Routines

theorem haswell_locksKept : CoreFlow M (haswell M) LocksKept where
  refl := LocksKept.refl
  trans := LocksKept.trans
  setup _ _ _ n := LocksKept.logic.haswellSetup n
  start _ _ _ n := LocksKept.logic.haswellStart n
  read _ _ _ n := LocksKept.logic.haswellRead n
  stop _ _ _ n := LocksKept.logic.haswellStop n
  finalize _ _ _ n := LocksKept.logic.haswellFinalize n
  hpmRead _ _ _ := fun _ => rfl
  hpmWrite _ _ _ _ := LocksKept.write _ _ _ _
  cleared _ := rfl

/-! ## Owners along a run -/

/-- Each lock is held by the first of the threads' CPUs on its socket. -/
def LocksOwned (M : Machine) (s : Perfmon) : Prop :=
  ∀ threads, s.threads? = some threads →
    ∀ n, s.core.socketLock n = lockWord (socketOwner M (threads.map PerfmonThread.processorId) n)

theorem perfmonInitHaswell_locks {held : ℕ → Option ℕ}
    (h : ∀ n, c.socketLock n = lockWord (held n)) :
    (perfmonInitHaswell M cpu).wp
      (fun _ c' => ∀ n, c'.socketLock n = lockWord (FirstCome.claim M.core2node held cpu n))
      (fun _ c' => ∀ n, c'.socketLock n = lockWord (FirstCome.claim M.core2node held cpu n)) c := by
  have L : FrameLogic M cpu _ _ LocksKept _ _ := LocksKept.logic
  have hbox : ∀ f, Prog.Respects (Prog.Flow.of LocksKept LocksKept.refl LocksKept.trans)
      (setCboxSetup f : Prog Int Core Unit) := fun _ => .modify fun _ => rfl
  unfold perfmonInitHaswell
  rw [Prog.wp_bind]
  unfold acquireLocks
  rw [Prog.wp_modify]
  refine Prog.wp_mono (Prog.Respects.bind (L.checkWrite _ trivial) (fun _ =>
    .bind (L.write _ _ _ trivial) fun _ => .bind (L.read _ _) fun _ =>
      .bind (L.write _ _ _ trivial) fun _ => .bind (L.read _ _) fun _ =>
        .ite (fun _ => hbox _) fun _ => .when fun _ => hbox _) _)
    (fun _ c' hkept n => ?_) fun _ c' hkept n => ?_
  · rw [hkept]
    exact acquireLocks_socketLock h n
  · rw [hkept]
    exact acquireLocks_socketLock h n

theorem map_processorId_mapIdx (cpus : List ℕ) :
    (cpus.mapIdx fun i cpu => (⟨i, cpu⟩ : PerfmonThread)).map PerfmonThread.processorId = cpus := by
  refine List.ext_getElem? fun i => ?_
  simp only [List.getElem?_map, List.getElem?_mapIdx, Option.map_map]
  exact Option.map_id'

/-- An init gives each socket to the first CPU of the list on it, or changes nothing. -/
theorem perfmonInit_locks (cpus : List ℕ) (s : Perfmon) :
    (perfmonInit M (haswell M) cpus).wp
      (fun _ s' => s.groupSet = none ∧
        s'.threads? = some (cpus.mapIdx fun i cpu => ⟨i, cpu⟩) ∧
        ∀ n, s'.core.socketLock n = lockWord (socketOwner M cpus n))
      (fun _ s' => s' = s) s := by
  unfold perfmonInit
  rw [Prog.wp_bind, Prog.wp_get]
  cases hgs : s.groupSet with
  | some gs => rfl
  | none =>
      simp only [Prog.wp_bind, Prog.wp_when, Prog.wp_ret, Prog.wp_modify]
      refine ⟨fun _ => trivial, fun _ => ⟨fun _ => trivial, fun _ => ⟨fun _ => trivial,
        fun _ => ?_⟩⟩⟩
      refine Prog.wp_mono (Prog.wp_foldlM
        (I := fun seen (s' : Perfmon) => ∀ n, s'.core.socketLock n =
          lockWord (seen.foldl (FirstCome.claim M.core2node) (fun _ => none) n))
        (R := fun _ _ => False) ?_ fun _ => rfl) (fun _ s1 h1 => ⟨trivial, rfl, fun n => ?_⟩)
        fun _ _ h => h.elim
      · intro seen cpu _ s1 _ h1
        simp only [List.foldl_concat]
        rw [Prog.wp_bind, Prog.wp_zoom]
        have hadd : (hpmAddThread M cpu : Prog Int Core Unit).wp
            (fun _ c => ∀ n, c.socketLock n =
              lockWord (seen.foldl (FirstCome.claim M.core2node) (fun _ => none) n))
            (fun _ _ => False) s1.core := by
          unfold hpmAddThread
          rw [Prog.wp_modify]
          split
          · exact h1
          · exact h1
        refine Prog.wp_mono hadd (fun _ c hc => ?_) fun _ _ h => h
        rw [Prog.wp_bind, Prog.wp_zoom, Prog.wp_call]
        exact perfmonInitHaswell_locks hc
      · have hlock := h1 n
        rw [FirstCome.foldl_claim, Option.none_or] at hlock
        exact hlock

theorem perfmonInit_locksOwned (h : LocksOwned M s) (cpus : List ℕ) :
    (perfmonInit M (haswell M) cpus).wp (fun _ s' => LocksOwned M s')
      (fun _ s' => LocksOwned M s') s := by
  refine Prog.wp_mono (perfmonInit_locks cpus s) (fun _ s' hinit => ?_) fun _ s' hsame => ?_
  · intro threads hthreads n
    rw [hinit.2.1] at hthreads
    obtain rfl := Option.some.inj hthreads
    rw [map_processorId_mapIdx]
    exact hinit.2.2 n
  · exact hsame ▸ h

theorem LocksOwned.kept (h : LocksOwned M s) (hrel : CoreRel LocksKept s t) : LocksOwned M t := by
  intro threads hthreads n
  rw [hrel.core]
  exact h threads (hrel.threads ▸ hthreads) n

theorem LocksOwned.step {call : Call} (h : LocksOwned M s) (hs : Step M (haswell M) s call t) :
    LocksOwned M t := by
  cases call with
  | init cpus => exact hs.wp (P := fun t => LocksOwned M t) (perfmonInit_locksOwned h cpus)
  | finalize =>
      refine hs.wp (P := fun t => LocksOwned M t) (Prog.wp_mono
        (haswell_locksKept.finalize_respects s) (fun _ s' hk => ?_) fun _ s' hk => ?_)
      · intro threads hthreads
        simp [hk.2] at hthreads
      · intro threads hthreads
        simp [hk.2] at hthreads
  | _ =>
      exact h.kept (hs.wp (P := fun t => CoreRel LocksKept s t)
        (haswell_locksKept.call_respects (by simp) (by simp) s))

/-- **In every state of a run each lock is held by the first of the threads' CPUs on its socket**,
however often the module is initialised and finalised. -/
theorem locksOwned_of_run {guard : Perfmon → Call → Prop} (h0 : Booted s)
    (h : Run (Step M (haswell M)) guard s t) : LocksOwned M t := by
  refine @Run.invariant _ _ _ _ _ _ (LocksOwned M) (fun threads hthreads => ?_)
    (fun _ _ _ hu _ hs => hu.step hs) h
  rw [Perfmon.threads?, h0.groupSet] at hthreads
  cases hthreads

/-- The second initialisation gives the lock to another CPU. -/
theorem locksOwned_again :
    LocksOwned haswellMachine ((Perfmon.after haswellMachine (haswell haswellMachine)
      [.init [3, 1], .finalize, .init [1, 3]] Perfmon.boot).get (by decide +kernel)) :=
  locksOwned_of_run booted_boot (Run.of_afterIf (Option.some_get _).symm)

/-- No call initialises anew: an init that finds a group set changes nothing. -/
def NoReinit (s : Perfmon) : Call → Prop
  | .init _ => s.groupSet ≠ none
  | _ => True

/-- **The locks stay with their owners until the next initialisation.** -/
theorem socketLock_of_run (h : Run (Step M (haswell M)) NoReinit s t) :
    t.core.socketLock = s.core.socketLock := by
  refine @Run.invariant _ _ _ _ _ _ (fun t : Perfmon => t.core.socketLock = s.core.socketLock)
    rfl ?_ h
  intro u call v hu hguard hs
  have hkept : LocksKept u.core v.core := by
    cases call with
    | init cpus =>
        refine hs.wp (P := fun v => LocksKept u.core v.core) (Prog.wp_mono
          (perfmonInit_locks cpus u) (fun _ _ hinit => absurd hinit.1 hguard) fun _ _ hsame => ?_)
        exact hsame ▸ LocksKept.refl _
    | finalize =>
        exact hs.wp (P := fun v => LocksKept u.core v.core) (Prog.wp_mono
          (haswell_locksKept.finalize_respects u) (fun _ _ hk => hk.1) fun _ _ hk => hk.1)
    | _ =>
        exact (hs.wp (P := fun v => CoreRel LocksKept u v)
          (haswell_locksKept.call_respects (by simp) (by simp) u)).core
  exact LocksKept.trans _ _ _ hu hkept

/-! ## A thread without the lock -/

section Locked

variable {e : PerfmonEventSetEntry} {index : RegisterIndex} {event : PerfmonEvent}
  {row : RegisterMap} {clear : Bool}

/-- Neither a completed run nor an early return has made an access. -/
abbrev SilentAt {α : Type} (m : Prog Int Core α) (c : Core) : Prop :=
  m.wp (fun _ c' => c'.trace = c.trace) (fun _ c' => c'.trace = c.trace) c

abbrev SilentOn {τ α : Type} (m : Prog Int (Core × τ) α) (p : Core × τ) : Prop :=
  m.wp (fun _ q => q.1.trace = p.1.trace) (fun _ q => q.1.trace = p.1.trace) p

theorem requireLock_silent {α : Type} {f : Unit → Prog Int Core α}
    (hlock : haveLock M c cpu = false) : SilentAt (requireLock M cpu >>= f) c := by
  unfold SilentAt requireLock
  rw [Prog.wp_bind, Prog.wp_bind, Prog.wp_get, Prog.wp_when]
  exact ⟨fun _ => rfl, fun hno => absurd hlock hno⟩

theorem counterMap_silent {α : Type} {f : RegisterMap → Prog Int Core α}
    (h : ∀ row, SilentAt (f row) c) : SilentAt (counterMap M index >>= f) c := by
  unfold SilentAt counterMap
  rw [Prog.wp_bind, Prog.wp_orUndefined]
  exact fun row _ => h row

theorem dropped_silent {m : Prog Int Core Unit} (h : SilentAt m c) : SilentAt (dropped m) c := by
  unfold SilentAt dropped
  rw [Prog.wp_bind, Prog.wp_call]
  exact h

/-- The `case` labels of the uncore -/
def HaswellUnit.IsUncore : HaswellUnit → Prop
  | .pmc | .fixed | .power | .thermal => False
  | _ => True

theorem haswellUnit_isUncore {type : RegisterType}
    (h : RegisterType.uncore.toNat ≤ type.toNat) : (haswellUnit type).IsUncore := by
  cases type with
  | pmc | fixed | power | thermal => exact absurd h (by decide)
  | _ => exact trivial

theorem haswellSetupCase_silent {u : HaswellUnit} (hlock : haveLock M c cpu = false)
    (hu : u.IsUncore) : SilentAt (haswellSetupCase M cpu false index row event u) c := by
  have hpci : SilentAt (dropped (pciBoxSetup M cpu index event)) c :=
    dropped_silent (counterMap_silent fun _ => requireLock_silent hlock)
  have hqbox : ∀ dev, SilentAt (dropped (hasepQboxSetup M cpu index event dev)) c :=
    fun _ => dropped_silent (counterMap_silent fun _ => requireLock_silent hlock)
  have hnone : SilentAt (do
      Prog.when (false = true) (checkWrite M cpu msrDev row.configRegister (bit 22 ||| bit 20))
      pure 0 : Prog Int Core (BitVec 32)) c := rfl
  cases u with
  | pmc | fixed | power | thermal => exact hu.elim
  | cbox =>
      unfold haswellSetupCase haswellCboxSetup SilentAt
      rw [Prog.wp_bind, Prog.wp_get]
      rcases c.haswellCboxSetup with _ | _ | _
      · exact trivial
      · exact dropped_silent (requireLock_silent hlock)
      · exact dropped_silent (counterMap_silent fun _ => requireLock_silent hlock)
  | ubox => exact dropped_silent (requireLock_silent hlock)
  | uboxfix => exact hnone
  | sbox => exact dropped_silent (requireLock_silent hlock)
  | bbox => exact dropped_silent (counterMap_silent fun _ => requireLock_silent hlock)
  | wbox => exact dropped_silent (counterMap_silent fun _ => requireLock_silent hlock)
  | mbox | pbox | rbox | ibox0 | ibox1 => exact hpci
  | mboxfix =>
      unfold haswellSetupCase SilentAt
      simp [Prog.wp_bind]
  | qbox0 | qbox1 => exact hqbox _
  | wbox0fix | qboxfix | other => exact rfl

theorem haswellStartCase_silent {u : HaswellUnit} (hu : u.IsUncore) (e' : PerfmonEventSetEntry) :
    SilentOn (haswellStartCase M thread cpu false e row u) (c, e') := by
  cases u with
  | pmc | fixed | power | thermal => exact hu.elim
  | qboxfix =>
      unfold haswellStartCase SilentOn
      simp [Prog.wp_bind]
  | _ => exact rfl

/-- The `QBOXnFIX` case reads its register for the events 0, 1 and 2. -/
theorem haswellCountCase_silent {u : HaswellUnit} (hlock : haveLock M c cpu = false)
    (hu : u.IsUncore) : SilentOn (haswellCountCase M thread cpu mask false clear e row u) (c, e) ↔
      ¬(u = .qboxfix ∧
        (e.event.eventId = 0 ∨ e.event.eventId = 1 ∨ e.event.eventId = 2)) := by
  have huncore : ∀ offset,
      SilentOn (haswellCountCase.uncore M thread cpu clear e offset) (c, e) := by
    intro offset
    unfold haswellCountCase.uncore SilentOn hasUncoreRead
    simp only [Prog.wp_bind, Prog.wp_call, counterMap, Prog.wp_orUndefined, Prog.wp_zoom]
    intro row _
    unfold requireLock
    simp only [Prog.wp_bind, Prog.wp_get, Prog.wp_when, Prog.wp_ret]
    exact ⟨fun _ => rfl, fun hno => absurd hlock hno⟩
  have hread : ∀ f : Word → Word, ¬SilentOn (do
      let answer ← Prog.onFst (hpmRead M cpu row.device row.counterRegister)
      Prog.onSnd (Prog.modify (·.setCounter thread (f answer.2))) : EventProg Unit) (c, e) := by
    intro f h
    have hcons : _ :: c.trace = c.trace := h
    exact List.cons_ne_self _ _ hcons
  have hother : u ≠ .qboxfix → SilentOn (haswellCountCase M thread cpu mask false clear e row u)
      (c, e) := by
    intro hne
    cases u with
    | pmc | fixed | power | thermal => exact hu.elim
    | qboxfix => exact absurd rfl hne
    | wbox0fix | other => exact rfl
    | _ => exact huncore _
  by_cases hq : u = .qboxfix
  · subst hq
    unfold haswellCountCase
    by_cases h0 : e.event.eventId = 0
    · rw [if_pos h0]
      exact iff_of_false (hread qpiRate) fun h => h ⟨rfl, Or.inl h0⟩
    · rw [if_neg h0]
      by_cases h12 : e.event.eventId = 1 ∨ e.event.eventId = 2
      · rw [if_pos h12]
        exact iff_of_false (hread fun status => field64 status 0 (M.boxMap e.type).regWidth)
          fun h => h ⟨rfl, Or.inr h12⟩
      · rw [if_neg h12]
        exact iff_of_true rfl fun h => h.2.elim h0 h12
  · exact iff_of_true (hother hq) fun h => hq h.1

/-! ### The rounds -/

/-- An event that a read and a stop look at without asking for the lock -/
structure LinkEvent (M : Machine) (mask : BitVec 128) (e : PerfmonEventSetEntry) : Prop where
  hasType : hasType mask e.type
  row : ∃ row, M.counterMap[e.index]? = some row
  unit : haswellUnit e.type = .qboxfix
  eventId : e.event.eventId = 0 ∨ e.event.eventId = 1 ∨ e.event.eventId = 2

/-- The thread has set such an event up. -/
structure ReadsLink (M : Machine) (thread : ℕ) (mask : BitVec 128) (e : PerfmonEventSetEntry) :
    Prop where
  init : (e.threadCounter thread).init = true
  event : LinkEvent M mask e

theorem countRound_silent (hlock : haveLock M c cpu = false)
    (htype : RegisterType.uncore.toNat ≤ e.type.toNat) :
    SilentOn (Prog.when ((e.threadCounter thread).init = true ∧ hasType mask e.type) do
        let row ← counterMap M e.index
        haswellCountCase M thread cpu mask false clear e row (haswellUnit e.type)) (c, e) ↔
      ¬ReadsLink M thread mask e := by
  have hu := haswellUnit_isUncore htype
  unfold SilentOn
  rw [Prog.wp_when]
  by_cases hon : (e.threadCounter thread).init = true ∧ hasType mask e.type
  · simp only [hon, not_true_eq_false, false_implies, and_true, forall_const,
      and_self, Prog.wp_bind, counterMap, Prog.wp_orUndefined]
    constructor
    · rintro hall ⟨-, -, ⟨row, hrow⟩, hunit, hid⟩
      exact (haswellCountCase_silent hlock hu).mp (hall row hrow) ⟨hunit, hid⟩
    · intro hno row hrow
      exact (haswellCountCase_silent hlock hu).mpr fun h =>
        hno ⟨hon.1, hon.2, ⟨row, hrow⟩, h.1, h.2⟩
  · refine iff_of_true ⟨fun h => absurd h hon, fun _ => rfl⟩ fun h =>
      hon ⟨h.init, h.event.hasType⟩

theorem haswellSetupEvent_silent (hlock : haveLock M c cpu = false)
    (htype : RegisterType.uncore.toNat ≤ e.type.toNat) (flags : Word) :
    SilentOn (haswellSetupEvent M thread cpu mask false flags) (c, e) := by
  unfold haswellSetupEvent SilentOn
  rw [Prog.wp_bind, Prog.wp_get]
  dsimp only
  split
  · simp only [Prog.wp_bind, counterMap, Prog.wp_orUndefined, Prog.wp_zoom, Prog.wp_modify]
    exact fun row _ => haswellSetupCase_silent hlock (haswellUnit_isUncore htype)
  · exact rfl

theorem haswellStartEvent_silent (htype : RegisterType.uncore.toNat ≤ e.type.toNat)
    (flags : Word) : SilentOn (haswellStartEvent M thread cpu mask false flags) (c, e) := by
  unfold haswellStartEvent SilentOn
  rw [Prog.wp_bind, Prog.wp_get]
  dsimp only
  split
  · simp only [Prog.wp_bind, counterMap, Prog.wp_orUndefined, Prog.wp_zoom, Prog.wp_modify]
    intro row _
    exact haswellStartCase_silent (haswellUnit_isUncore htype) (e.clearData thread)
  · exact rfl

theorem haswellReadEvent_silent (hlock : haveLock M c cpu = false)
    (htype : RegisterType.uncore.toNat ≤ e.type.toNat) :
    SilentOn (haswellReadEvent M thread cpu mask false ()) (c, e) ↔ ¬ReadsLink M thread mask e :=
  countRound_silent hlock htype

theorem haswellStopEvent_silent (hlock : haveLock M c cpu = false)
    (htype : RegisterType.uncore.toNat ≤ e.type.toNat) :
    SilentOn (haswellStopEvent M thread cpu mask false ()) (c, e) ↔ ¬ReadsLink M thread mask e := by
  rw [← @countRound_silent M thread cpu mask c e true hlock htype]
  unfold haswellStopEvent SilentOn
  rw [Prog.wp_bind, Prog.wp_get, Prog.wp_bind]
  have hclear : ∀ q : Core × PerfmonEventSetEntry,
      (Prog.when (¬((e.threadCounter thread).init = true ∧ ¬hasType mask e.type))
        (Prog.onSnd (Prog.modify (·.setInit thread false))) : EventProg Unit).wp
          (fun _ q => q.1.trace = c.trace) (fun _ q => q.1.trace = c.trace) q ↔
        q.1.trace = c.trace := by
    intro q
    rw [Prog.wp_when]
    by_cases hcond : ¬((e.threadCounter thread).init = true ∧ ¬hasType mask e.type)
    · exact ⟨fun h => h.1 hcond, fun h => ⟨fun _ => h, fun hno => absurd hcond hno⟩⟩
    · exact ⟨fun h => h.2 hcond, fun h => ⟨fun hc => absurd hc hcond, fun _ => h⟩⟩
  simp only [hclear]

end Locked

/-! ## Locks and threads without an init -/

theorem haveLock_congr (h : c.socketLock = c'.socketLock) (cpu : ℕ) :
    haveLock M c cpu = haveLock M c' cpu := by
  unfold haveLock
  rw [h]

theorem threads?_of_run (h : Run (Step M (haswell M)) NoReinit s t) :
    t.threads? = none ∨ t.threads? = s.threads? := by
  refine @Run.invariant _ _ _ _ _ _
    (fun t : Perfmon => t.threads? = none ∨ t.threads? = s.threads?) (Or.inr rfl) ?_ h
  intro u call v hu hguard hs
  have hkept : v.threads? = none ∨ v.threads? = u.threads? := by
    cases call with
    | init cpus =>
        exact hs.wp (P := fun v => v.threads? = none ∨ v.threads? = u.threads?) (Prog.wp_mono
          (perfmonInit_locks cpus u) (fun _ _ hinit => absurd hinit.1 hguard)
            fun _ _ hsame => Or.inr (congrArg Perfmon.threads? hsame))
    | finalize =>
        exact hs.wp (P := fun v => v.threads? = none ∨ v.threads? = u.threads?) (Prog.wp_mono
          (haswell_locksKept.finalize_respects u) (fun _ _ hk => Or.inl hk.2)
            fun _ _ hk => Or.inl hk.2)
    | _ =>
        exact Or.inr (hs.wp (P := fun v => CoreRel LocksKept u v)
          (haswell_locksKept.call_respects (by simp) (by simp) u)).threads
  rcases hkept with hnone | hsame
  · exact Or.inl hnone
  · exact hsame ▸ hu

end Likwid
