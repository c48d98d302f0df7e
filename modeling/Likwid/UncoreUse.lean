import Likwid.CallLaw
import Likwid.ConfigCache
import Likwid.ThreadUse

/-!
# Every use of the uncore

The calls that set up, start, read and stop counters, and the groups and threads they work on. As
long as an owner that uses an uncore group is listed once, and no other thread reads a `QBOXnFIX`
event, each uncore counter is used by the owner of its socket only (`usedByOwner_of_run`).
-/

namespace Likwid

variable {M : Machine} {s t u : Perfmon} {cpus : List ℕ} {g i thread cpu : ℕ} {c : Core}
  {slots : List Slot}

/-! ## Owners -/

/-- One thread of the list has the CPU of the access, and this CPU owns its socket. -/
structure ByOwner (M : Machine) (cpus : List ℕ) (a : Access) : Prop where
  owner : socketOwner M cpus (M.core2node a.cpu) = some a.cpu
  thread : ∃! i : ℕ, cpus[i]? = some a.cpu

/-- A register of an uncore counter is used by the owner of the socket. -/
def UsedByOwner (M : Machine) (cpus : List ℕ) (a : Access) : Prop :=
  UncoreRegister M a.dev a.reg → ByOwner M cpus a

theorem CoreOnly.usedByOwner {a : Access} (h : CoreOnly M a) : UsedByOwner M cpus a :=
  fun huncore => absurd h huncore.2

/-- A CPU that stands in the list once -/
def ListedOnce (cpus : List ℕ) (cpu : ℕ) : Prop :=
  ∀ i j : ℕ, cpus[i]? = some cpu → cpus[j]? = some cpu → i = j

/-- A routine of a thread on its own CPU leaves the uncore to the owners, as long as it does so
without the lock or on a group without uncore units. -/
theorem usedByOwner_wp {m : Prog Int (Core × List Slot) Unit} {mask : BitVec 128}
    (hcpu : cpus[i]? = some cpu)
    (hlocks : ∀ n, c.socketLock n = lockWord (socketOwner M cpus n))
    (honce : socketOwner M cpus (M.core2node cpu) = some cpu → hasUncore mask →
      ListedOnce cpus cpu)
    (hframe : Prog.Respects (Uses.flow (·.cpu = cpu)).fst m)
    (hcore : Bare M cpu mask c → m.wp (fun _ p => Uses (CoreOnly M) c p.1)
      (fun _ p => Uses (CoreOnly M) c p.1) (c, slots)) :
    m.wp (fun _ p => Uses (UsedByOwner M cpus) c p.1)
      (fun _ p => Uses (UsedByOwner M cpus) c p.1) (c, slots) := by
  have howner : haveLock M c cpu = true ↔ socketOwner M cpus (M.core2node cpu) = some cpu := by
    unfold haveLock
    rw [decide_eq_true_iff, hlocks]
    exact lockWord_eq_cpu
  by_cases hown : haveLock M c cpu = true ∧ hasUncore mask
  · have hmine := howner.mp hown.1
    have hthread : ∃! i : ℕ, cpus[i]? = some cpu :=
      ⟨i, hcpu, fun j hj => honce hmine hown.2 j i hj hcpu⟩
    have huses : ∀ a : Access, a.cpu = cpu → UsedByOwner M cpus a := by
      rintro a rfl _
      exact ⟨hmine, hthread⟩
    exact Prog.wp_mono (hframe (c, slots)) (fun _ _ h => h.mono huses) fun _ _ h => h.mono huses
  · have hbare : Bare M cpu mask c := by
      rcases Classical.not_and_iff_not_or_not.mp hown with hno | hno
      · exact Or.inl (Bool.eq_false_iff.mpr hno)
      · exact Or.inr hno
    exact Prog.wp_mono (hcore hbare) (fun _ _ h => h.mono fun _ => CoreOnly.usedByOwner)
      fun _ _ h => h.mono fun _ => CoreOnly.usedByOwner

/-! ## Entries along a call -/

/-- An entry keeps its counter and its event. No flag is set, unless `fresh` allows it. -/
structure CounterKept (fresh : Prop) (e e' : PerfmonEventSetEntry) : Prop where
  index : e'.index = e.index
  event : e'.event = e.event
  type : e'.type = e.type ∨ e'.type = .notype
  init : ∀ t, (e'.threadCounter t).init = true → fresh ∨ (e.threadCounter t).init = true

namespace CounterKept

variable {fresh : Prop} {e e' : PerfmonEventSetEntry}

theorem refl (e : PerfmonEventSetEntry) : CounterKept fresh e e :=
  ⟨rfl, rfl, Or.inl rfl, fun _ => Or.inr⟩

theorem trans (a b c : PerfmonEventSetEntry) (h : CounterKept fresh a b)
    (h' : CounterKept fresh b c) : CounterKept fresh a c := by
  refine ⟨h'.index.trans h.index, h'.event.trans h.event, ?_, fun t ht => ?_⟩
  · exact h'.type.elim (fun heq => heq ▸ h.type) Or.inr
  · exact (h'.init t ht).elim Or.inl (h.init t)

theorem onCounter {f : PerfmonCounter → PerfmonCounter}
    (h : ∀ r, (f r).init = true → fresh ∨ r.init = true) :
    CounterKept fresh e (e.onCounter thread f) := by
  refine ⟨rfl, rfl, Or.inl rfl, fun t ht => ?_⟩
  by_cases heq : t = thread
  · subst heq
    rw [PerfmonEventSetEntry.onCounter_self] at ht
    exact h _ ht
  · rw [PerfmonEventSetEntry.onCounter_of_ne _ _ _ heq] at ht
    exact Or.inr ht

theorem entryRel : EntryRel thread (CounterKept fresh) where
  refl := refl
  trans := trans
  counter _ _ h := onCounter fun r hr => Or.inr ((h r).1 ▸ hr)

theorem typed (h : CounterKept fresh e e') (he : e.Typed M) : e'.Typed M := by
  intro hne
  have htype := h.type.resolve_right hne
  rw [h.index, htype]
  exact he (htype ▸ hne)

theorem linkEvent {mask : BitVec 128} (h : CounterKept fresh e e') (hlink : LinkEvent M mask e') :
    LinkEvent M mask e := by
  have htype : e'.type = e.type := by
    refine h.type.resolve_right fun hno => ?_
    have hunit := hlink.unit
    rw [hno] at hunit
    cases hunit
  refine ⟨htype ▸ hlink.hasType, h.index ▸ hlink.row, htype ▸ hlink.unit, ?_⟩
  rw [← h.event]
  exact hlink.eventId

end CounterKept

/-! ## The law of a call -/

theorem calculateResult_init (index : RegisterIndex) (type : RegisterType) (r : PerfmonCounter) :
    (calculateResult M index type r).2.init = r.init := by
  unfold calculateResult
  dsimp only
  split_ifs <;> rfl

/-- From the state `s` on, the uncore is used by the owners, and the groups keep their counters. The
flags of the groups with `fresh` may be set. -/
def useLaw (M : Machine) (cpus : List ℕ) (s : Perfmon) (fresh active started : ℕ → Prop) :
    CallLaw M where
  core c := Uses (UsedByOwner M cpus) s.core c
  threads := cpus.mapIdx fun i cpu => ⟨i, cpu⟩
  active := active
  started := started
  mask g mask := ∃ es, s.group? g = some es ∧ es.regTypeMask = mask
  entry g _ e := ∃ es e0, s.group? g = some es ∧ some e0 ∈ es.events ∧ CounterKept (fresh g) e0 e
  addResult _ _ _ _ j := fun ⟨es, e0, hes, he0, h⟩ => ⟨es, e0, hes, he0,
    h.trans _ _ _ (CounterKept.onCounter fun r hr =>
      Or.inr ((calculateResult_init _ _ r).symm.trans hr))⟩
  setInit _ _ _ j := fun ⟨es, e0, hes, he0, h⟩ => ⟨es, e0, hes, he0,
    h.trans _ _ _ (CounterKept.onCounter fun _ hr => by cases hr)⟩

/-- What a run with the CPUs `cpus` has in each state -/
structure LockSession (M : Machine) (cpus : List ℕ) (s : Perfmon) : Prop where
  locks : ∀ n, s.core.socketLock n = lockWord (socketOwner M cpus n)
  threads : ∀ gs, s.groupSet = some gs → gs.threads = cpus.mapIdx fun i cpu => ⟨i, cpu⟩
  typed : ∀ g es, s.group? g = some es → ∀ e, some e ∈ es.events → e.Typed M

section Law

theorem LockSession.holds (h : LockSession M cpus s) (fresh active started : ℕ → Prop)
    (hactive : ∀ gs, s.groupSet = some gs → 0 ≤ gs.activeGroup → active gs.activeGroup.toNat)
    (hstarted : ∀ g es, s.group? g = some es → es.state = .start → started g) :
    (useLaw M cpus s fresh active started).Holds s :=
  ⟨Uses.refl _, h.threads, hactive, hstarted, fun _ es hes => ⟨es, hes, rfl⟩,
    fun _ es hes e he => ⟨es, e, hes, he, CounterKept.refl e⟩⟩

variable {fresh active started : ℕ → Prop} {r : ThreadRoutine}

/-- What a routine is to do in the law -/
theorem useLaw_keeps (hrel : ∀ cpu mask n, Prog.Respects
      (CounterKept.entryRel : EntryRel i (CounterKept (fresh g))).slots (r i cpu mask n))
    (huses : ∀ cpu es n c slots, cpus[i]? = some cpu → s.group? g = some es →
      LocksKept s.core c → (∀ e, some e ∈ slots → ∃ e0, some e0 ∈ es.events ∧
        CounterKept (fresh g) e0 e) →
      (r i cpu es.regTypeMask n).wp (fun _ p => Uses (UsedByOwner M cpus) c p.1)
        (fun _ p => Uses (UsedByOwner M cpus) c p.1) (c, slots)) :
    (useLaw M cpus s fresh active started).Keeps r g i := by
  rintro th mask n hth ⟨es, hes, rfl⟩
  refine .of_inv fun p hp => ?_
  obtain ⟨cpu, hcpu, rfl⟩ : ∃ cpu, cpus[i]? = some cpu ∧ th = ⟨i, cpu⟩ := by
    have hget : (cpus.mapIdx fun i cpu => (⟨i, cpu⟩ : PerfmonThread))[i]? = some th := hth
    rw [List.getElem?_mapIdx, Option.map_eq_some_iff] at hget
    obtain ⟨cpu, hcpu, heq⟩ := hget
    exact ⟨cpu, hcpu, heq.symm⟩
  have hslots : ∀ e, some e ∈ p.2 → ∃ e0, some e0 ∈ es.events ∧ CounterKept (fresh g) e0 e := by
    intro e he
    obtain ⟨es', e0, hes', he0, h⟩ := hp.2 e he
    obtain rfl := Option.some.inj (hes.symm.trans hes')
    exact ⟨e0, he0, h⟩
  have hend : ∀ q : Core × List Slot, Uses (UsedByOwner M cpus) p.1 q.1 →
      Prog.CellsRel (CounterKept (fresh g)) p.2 q.2 →
      (useLaw M cpus s fresh active started).slots g es.regTypeMask q := by
    refine fun q huse hcells => ⟨Uses.trans _ _ _ hp.1 huse, fun e' he' => ?_⟩
    obtain ⟨j, hj⟩ := List.mem_iff_getElem?.mp he'
    obtain ⟨e, he, h⟩ := hcells.get hj
    obtain ⟨e0, he0, h0⟩ := hslots e (List.mem_of_getElem? he)
    exact ⟨es, e0, hes, he0, h0.trans _ _ _ h⟩
  exact Prog.wp_mono (Prog.wp_and (huses cpu es n p.1 p.2 hcpu hes hp.1.2 hslots)
    (hrel cpu es.regTypeMask n p)) (fun _ q hq => hend q hq.1 hq.2) fun _ q hq => hend q hq.1 hq.2

/-! ## The thread routines in the law -/

/-- An owner that runs a group with uncore units is listed once. -/
def OnceIn (M : Machine) (cpus : List ℕ) (s : Perfmon) (g i : ℕ) : Prop :=
  ∀ es, s.group? g = some es → hasUncore es.regTypeMask → ∀ cpu, cpus[i]? = some cpu →
    socketOwner M cpus (M.core2node cpu) = some cpu → ListedOnce cpus cpu

/-- A thread that does not own its socket has no link event to read; where the flags may be set
before the read, no link event at all. -/
def NoLinkIn (M : Machine) (cpus : List ℕ) (fresh : Prop) (s : Perfmon) (g i : ℕ) : Prop :=
  ∀ es, s.group? g = some es → ∀ cpu, cpus[i]? = some cpu →
    socketOwner M cpus (M.core2node cpu) ≠ some cpu → ∀ e, some e ∈ es.events →
      LinkEvent M es.regTypeMask e → ¬fresh ∧ (e.threadCounter i).init = false

variable (h : LockSession M cpus s)

include h

theorem LockSession.setup_keeps (honce : OnceIn M cpus s g i) (hfresh : fresh g) :
    (useLaw M cpus s fresh active started).Keeps (haswell M).setupCountersThread g i := by
  refine useLaw_keeps (fun _ _ n => haswellSetup_entries CounterKept.entryRel
    (fun e => CounterKept.onCounter fun _ _ => Or.inl hfresh) n) ?_
  intro cpu es n c slots hcpu hes hlocks hslots
  refine usedByOwner_wp hcpu (fun n => hlocks ▸ h.locks n) (fun hown huncore =>
    honce es hes huncore cpu hcpu hown) (Uses.logic.haswellSetup n) fun hbare => ?_
  refine haswellSetup_coreOnly hbare (fun e he => ?_) n
  obtain ⟨e0, he0, hkept⟩ := hslots e he
  exact hkept.typed (h.typed g es hes e0 he0)

theorem LockSession.start_keeps (honce : OnceIn M cpus s g i) :
    (useLaw M cpus s fresh active started).Keeps (haswell M).startCountersThread g i := by
  refine useLaw_keeps (fun _ _ n => haswellStart_entries CounterKept.entryRel
    (fun _ _ => CounterKept.onCounter fun _ hr => Or.inr hr)
    (fun _ => ⟨rfl, rfl, Or.inr rfl, fun _ => Or.inr⟩) n) ?_
  intro cpu es n c slots hcpu hes hlocks hslots
  refine usedByOwner_wp hcpu (fun n => hlocks ▸ h.locks n) (fun hown huncore =>
    honce es hes huncore cpu hcpu hown) (Uses.logic.haswellStart n) fun hbare => ?_
  refine haswellStart_coreOnly hbare (fun e he => ?_) n
  obtain ⟨e0, he0, hkept⟩ := hslots e he
  exact hkept.typed (h.typed g es hes e0 he0)

theorem LockSession.noLink (hlink : NoLinkIn M cpus (fresh g) s g i) {es : PerfmonEventSet}
    (hcpu : cpus[i]? = some cpu) (hes : s.group? g = some es) (hlocks : LocksKept s.core c)
    (hslots : ∀ e, some e ∈ slots → ∃ e0, some e0 ∈ es.events ∧ CounterKept (fresh g) e0 e)
    (hlock : haveLock M c cpu = false) : NoLink M i es.regTypeMask slots := by
  intro e he hread
  obtain ⟨e0, he0, hkept⟩ := hslots e he
  have hother : socketOwner M cpus (M.core2node cpu) ≠ some cpu := by
    intro hown
    unfold haveLock at hlock
    rw [decide_eq_false_iff_not, hlocks, h.locks, hown] at hlock
    exact hlock rfl
  obtain ⟨hfresh, hinit⟩ := hlink es hes cpu hcpu hother e0 he0 (hkept.linkEvent hread.event)
  have h0 := (hkept.init i hread.init).resolve_left hfresh
  rw [hinit] at h0
  cases h0

theorem LockSession.read_keeps (honce : OnceIn M cpus s g i)
    (hlink : NoLinkIn M cpus (fresh g) s g i) :
    (useLaw M cpus s fresh active started).Keeps (haswell M).readCountersThread g i := by
  refine useLaw_keeps (fun _ _ n => haswellRead_entries CounterKept.entryRel n) ?_
  intro cpu es n c slots hcpu hes hlocks hslots
  refine usedByOwner_wp hcpu (fun n => hlocks ▸ h.locks n) (fun hown huncore =>
    honce es hes huncore cpu hcpu hown) (Uses.logic.haswellRead n) fun hbare => ?_
  refine haswellRead_coreOnly hbare (fun e he => ?_) (h.noLink hlink hcpu hes hlocks hslots) n
  obtain ⟨e0, he0, hkept⟩ := hslots e he
  exact hkept.typed (h.typed g es hes e0 he0)

theorem LockSession.stop_keeps (honce : OnceIn M cpus s g i)
    (hlink : NoLinkIn M cpus (fresh g) s g i) :
    (useLaw M cpus s fresh active started).Keeps (haswell M).stopCountersThread g i := by
  refine useLaw_keeps (fun _ _ n => haswellStop_entries CounterKept.entryRel
    (fun _ => CounterKept.onCounter fun _ hr => by cases hr) n) ?_
  intro cpu es n c slots hcpu hes hlocks hslots
  refine usedByOwner_wp hcpu (fun n => hlocks ▸ h.locks n) (fun hown huncore =>
    honce es hes huncore cpu hcpu hown) (Uses.logic.haswellStop n) fun hbare => ?_
  refine haswellStop_coreOnly hbare (fun e he => ?_) (h.noLink hlink hcpu hes hlocks hslots) n
  obtain ⟨e0, he0, hkept⟩ := hslots e he
  exact hkept.typed (h.typed g es hes e0 he0)

end Law

/-! ## What the calls work on -/

/-- The calls that set up, start, read and stop counters -/
def Call.UsesCounters : Call → Prop
  | .init _ | .finalize | .addEventSet _ _ => False
  | _ => True

/-- Group `g` is the active one. -/
def Perfmon.Active (s : Perfmon) (g : ℕ) : Prop :=
  ∃ gs, s.groupSet = some gs ∧ gs.activeGroup = g

/-- Group `g` is in the state `START`. -/
def Perfmon.InStart (s : Perfmon) (g : ℕ) : Prop :=
  ∃ es, s.group? g = some es ∧ es.state = .start

/-- A switch to `newGroup` stops a group and starts one. -/
def Perfmon.Restarts (s : Perfmon) (newGroup : Int) : Prop :=
  ∃ g : ℕ, (s.Active g ∨ newGroup = g) ∧ s.InStart g

/-- A read of group `groupId` works on `g`. -/
def Perfmon.Reads (s : Perfmon) (groupId : Int) (g : ℕ) : Prop :=
  s.InStart g ∧ ∃ gs, s.groupSet = some gs ∧ gs.readGroup groupId = g

/-- The groups a call sets up and starts -/
def Call.SetsUp (s : Perfmon) (g : ℕ) : Call → Prop
  | .setupCounters groupId => groupId = g
  | .startCounters | .startGroupCounters _ => s.Active g
  | .switchActiveGroup newGroup => newGroup = g ∨ s.Active g ∧ s.Restarts newGroup
  | _ => False

/-- The groups a call reads and stops, and the threads that do -/
def Call.LooksAt (s : Perfmon) (g i : ℕ) : Call → Prop
  | .readCounters => s.Reads (-1) g
  | .readGroupCounters groupId => s.Reads groupId g
  | .readGroupThreadCounters groupId threadId => s.Reads groupId g ∧ (threadId = -1 ∨ threadId = i)
  | .readCountersCpu cpu =>
      ∃ gs, s.groupSet = some gs ∧ gs.activeGroup = g ∧ gs.threadOfCpu cpu = i
  | .stopCounters | .stopGroupCounters _ => s.Active g ∧ s.InStart g
  | .switchActiveGroup newGroup => (s.Active g ∨ newGroup = g) ∧ s.Restarts newGroup
  | _ => False

/-- The call sets group `g` up before it stops it. -/
def Call.Renews (g : ℕ) : Call → Prop
  | .switchActiveGroup newGroup => newGroup = g
  | _ => False

/-- No owner listed twice works on a group with uncore units, and no thread without the lock of its
socket reads or stops a link event. -/
structure LocksSuffice (M : Machine) (cpus : List ℕ) (s : Perfmon) (call : Call) : Prop where
  once : ∀ g i, call.SetsUp s g ∨ call.LooksAt s g i → OnceIn M cpus s g i
  link : ∀ g i, call.LooksAt s g i → NoLinkIn M cpus (call.Renews g) s g i

/-! ## One call -/

theorem Perfmon.active_toNat {gs : PerfmonGroupSet} (hgs : s.groupSet = some gs)
    (h0 : 0 ≤ gs.activeGroup) : s.Active gs.activeGroup.toNat :=
  ⟨gs, hgs, (Int.toNat_of_nonneg h0).symm⟩

/-- The law of a call that sets no flag -/
abbrev plainLaw (M : Machine) (cpus : List ℕ) (s : Perfmon) (started : ℕ → Prop) : CallLaw M :=
  useLaw M cpus s (fun _ => False) s.Active started

section Calls

variable (h : LockSession M cpus s)

include h

theorem LockSession.plainLaw (started : ℕ → Prop) (hstarted : ∀ g, s.InStart g → started g) :
    (plainLaw M cpus s started).Holds s :=
  h.holds _ _ _ (fun _ hgs h0 => Perfmon.active_toNat hgs h0) fun g es hes hstate =>
    hstarted g ⟨es, hes, hstate⟩

theorem LockSession.read_uses {groupId threadId : Int}
    (hguard : ∀ (g i : ℕ), s.Reads groupId g → threadId = -1 ∨ threadId = i →
      OnceIn M cpus s g i ∧ NoLinkIn M cpus False s g i) :
    (perfmonReadCountersOf (haswell M) groupId threadId).wp
      (fun _ t => Uses (UsedByOwner M cpus) s.core t.core)
      (fun _ t => Uses (UsedByOwner M cpus) s.core t.core) s := by
  refine Prog.wp_mono (CallLaw.readCountersOf (h.plainLaw _ fun _ hrun => hrun) ?_)
    (fun _ _ ht => ht.core) fun _ _ ht => ht.core
  intro gs hgs h0 hrun i hi
  have hreads : s.Reads groupId (gs.readGroup groupId).toNat :=
    ⟨hrun, gs, hgs, (Int.toNat_of_nonneg h0).symm⟩
  exact h.read_keeps (hguard _ i hreads hi).1 (hguard _ i hreads hi).2

theorem LockSession.starts {g : ℕ} {fresh active started : ℕ → Prop} (hstarted : started g)
    (honce : ∀ i, OnceIn M cpus s g i) :
    (useLaw M cpus s fresh active started).Starts (haswell M) g :=
  ⟨fun i => h.start_keeps (honce i), hstarted⟩

theorem LockSession.uses_of_step {call : Call} (hguard : LocksSuffice M cpus s call)
    (hcall : call.UsesCounters) (hs : Step M (haswell M) s call t) :
    Uses (UsedByOwner M cpus) s.core t.core := by
  have hplain := h.plainLaw _ fun _ hrun => hrun
  have hrunning := h.plainLaw (fun g => s.InStart g ∨ s.Active g) fun _ => Or.inl
  cases call with
  | init _ | finalize | addEventSet _ _ => exact hcall.elim
  | setupCounters groupId =>
      have hU := h.holds (groupId = ·) (fun g => s.Active g ∨ groupId = g) s.InStart
        (fun _ hgs h0 => Or.inl (Perfmon.active_toNat hgs h0))
        fun g es hes hstate => ⟨es, hes, hstate⟩
      refine (hs.wp (Prog.Respects.inv (CallLaw.setupCounters fun h0 => ?_) hU)).core
      have hg : groupId = groupId.toNat := (Int.toNat_of_nonneg h0).symm
      exact ⟨fun i => h.setup_keeps (hguard.once _ i (Or.inl hg)) hg, Or.inr hg⟩
  | startCounters =>
      refine (hs.wp (Prog.Respects.inv (CallLaw.startCounters fun g hg => ?_) hrunning)).core
      exact h.starts (Or.inr hg) fun i => hguard.once g i (Or.inl hg)
  | startGroupCounters groupId =>
      refine (hs.wp (Prog.Respects.inv (CallLaw.startGroupCounters fun g hg => ?_) hrunning)).core
      exact h.starts (Or.inr hg) fun i => hguard.once g i (Or.inl hg)
  | readCounters =>
      exact hs.wp (h.read_uses fun g i hg _ => ⟨hguard.once g i (Or.inr hg), hguard.link g i hg⟩)
  | readGroupCounters groupId =>
      exact hs.wp (h.read_uses fun g i hg _ => ⟨hguard.once g i (Or.inr hg), hguard.link g i hg⟩)
  | readGroupThreadCounters groupId threadId =>
      exact hs.wp (h.read_uses fun g i hg hi =>
        ⟨hguard.once g i (Or.inr ⟨hg, hi⟩), hguard.link g i ⟨hg, hi⟩⟩)
  | readCountersCpu cpu =>
      refine (hs.wp (CallLaw.readCountersCpu hplain fun gs hgs h0 => ?_)).core
      have hlook : Call.LooksAt s gs.activeGroup.toNat (gs.threadOfCpu cpu)
          (.readCountersCpu cpu) := ⟨gs, hgs, (Int.toNat_of_nonneg h0).symm, rfl⟩
      exact h.read_keeps (hguard.once _ _ (Or.inr hlook)) (hguard.link _ _ hlook)
  | stopCounters =>
      refine (hs.wp (Prog.Respects.inv (CallLaw.stopCounters fun g hg hrun i => ?_) hplain)).core
      exact h.stop_keeps (hguard.once g i (Or.inr ⟨hg, hrun⟩)) (hguard.link g i ⟨hg, hrun⟩)
  | stopGroupCounters groupId =>
      refine (hs.wp (Prog.Respects.inv (CallLaw.stopGroupCounters fun g hg hrun i => ?_)
        hplain)).core
      exact h.stop_keeps (hguard.once g i (Or.inr ⟨hg, hrun⟩)) (hguard.link g i ⟨hg, hrun⟩)
  | switchActiveGroup newGroup =>
      have hU := h.holds (newGroup = ·) (fun g => s.Active g ∨ newGroup = g)
        (fun g => s.InStart g ∨ s.Restarts newGroup)
        (fun _ hgs h0 => Or.inl (Perfmon.active_toNat hgs h0))
        fun g es hes hstate => Or.inl ⟨es, hes, hstate⟩
      have hrestarts : ∀ g : ℕ, s.Active g ∨ newGroup = g →
          s.InStart g ∨ s.Restarts newGroup → s.Restarts newGroup :=
        fun g hg hrun => hrun.elim (fun hrun => ⟨g, hg, hrun⟩) id
      refine (hs.wp (Prog.Respects.inv (CallLaw.switchActiveGroup ?_ ?_ ?_) hU)).core
      · intro g hg hrun i
        have hlook : Call.LooksAt s g i (.switchActiveGroup newGroup) :=
          ⟨hg, hrestarts g hg hrun⟩
        exact h.stop_keeps (hguard.once g i (Or.inr hlook)) (hguard.link g i hlook)
      · intro h0
        have hg : newGroup = newGroup.toNat := (Int.toNat_of_nonneg h0).symm
        exact ⟨fun i => h.setup_keeps (hguard.once _ i (Or.inl (Or.inl hg))) hg, Or.inr hg⟩
      · intro g0 hg0 hrun g hg
        have hagain := hrestarts g0 hg0 hrun
        refine h.starts (Or.inr hagain) fun i => hguard.once g i (Or.inl ?_)
        exact hg.elim (fun hg => Or.inr ⟨hg, hagain⟩) Or.inl

end Calls

/-! ## Along a run -/

/-- The entries of all groups have the types of their counters. -/
def AllTyped (M : Machine) (s : Perfmon) : Prop :=
  ∀ g es, s.group? g = some es → ∀ e, some e ∈ es.events → e.Typed M

theorem counterKept_entryFlow : EntryFlow M (haswell M) (CounterKept True) where
  refl := CounterKept.refl
  trans := CounterKept.trans
  setInit _ _ := CounterKept.onCounter fun _ _ => Or.inl trivial
  addResult _ _ _ := CounterKept.onCounter fun _ _ => Or.inl trivial
  setup _ _ _ n := haswellSetup_entries CounterKept.entryRel
    (fun _ => CounterKept.onCounter fun _ _ => Or.inl trivial) n
  start _ _ _ n := haswellStart_entries CounterKept.entryRel
    (fun _ _ => CounterKept.onCounter fun _ _ => Or.inl trivial)
    (fun _ => ⟨rfl, rfl, Or.inr rfl, fun _ _ => Or.inl trivial⟩) n
  read _ _ _ n := haswellRead_entries CounterKept.entryRel n
  stop _ _ _ n := haswellStop_entries CounterKept.entryRel
    (fun _ => CounterKept.onCounter fun _ _ => Or.inl trivial) n

namespace AllTyped

theorem kept (h : AllTyped M s) (hkept : EventsKept (CounterKept True) s t) : AllTyped M t := by
  intro g es' hes' e' he'
  obtain ⟨es, hes, hrel⟩ := hkept.old hes'
  obtain ⟨i, hi⟩ := List.mem_iff_getElem?.mp he'
  obtain ⟨e, he, hentry⟩ := hrel.events.get hi
  exact hentry.typed (h g es hes e (List.mem_of_getElem? he))

theorem of_none (h : s.groupSet = none) : AllTyped M s :=
  fun g es hes => by simp [Perfmon.group?, h] at hes

theorem modifyGroup (h : AllTyped M s) {f : PerfmonEventSet → PerfmonEventSet}
    (hf : ∀ es e, some e ∈ (f es).events → some e ∈ es.events ∨ e.Typed M) :
    AllTyped M (s.modifyGroup g f) := by
  intro i es hes e he
  rw [EventsKept.group?_modifyGroup, Option.map_eq_some_iff] at hes
  obtain ⟨es0, hes0, rfl⟩ := hes
  split at he
  · exact (hf es0 e he).elim (h i es0 hes0 e) id
  · exact h i es0 hes0 e he

theorem modifyGroupSet (h : AllTyped M s) {f : PerfmonGroupSet → PerfmonGroupSet}
    (hf : ∀ gs, ∀ es ∈ (f gs).groups, es ∈ gs.groups ∨ es.events = []) :
    AllTyped M (s.modifyGroupSet f) := by
  intro g es hes e he
  cases hgs : s.groupSet with
  | none => simp [Perfmon.group?, Perfmon.modifyGroupSet, hgs] at hes
  | some gs =>
      simp only [Perfmon.group?, Perfmon.modifyGroupSet, hgs, Option.map_some,
        Option.bind_some] at hes
      rcases hf gs es (List.mem_of_getElem? hes) with hmem | hnil
      · obtain ⟨i, hi⟩ := List.mem_iff_getElem?.mp hmem
        exact h i es (by simp [Perfmon.group?, hgs, hi]) e he
      · simp [hnil] at he

theorem addEventSet (h : AllTyped M s) (eventString : List Char) (force : Int) :
    (perfmonAddEventSet M eventString force).wp (fun _ t => AllTyped M t)
      (fun _ t => AllTyped M t) s := by
  unfold perfmonAddEventSet
  rw [Prog.wp_bind, wp_requireInit]
  refine ⟨fun gs _ => ?_, fun _ => h⟩
  have hroom : AllTyped M (s.modifyGroupSet (PerfmonGroupSet.allocate M)) :=
    h.modifyGroupSet fun _ _ => mem_allocate
  simp only [Prog.wp_bind, Prog.wp_when, Prog.wp_ret, Prog.wp_modify, Prog.wp_orUndefined,
    Prog.wp_zoom]
  refine ⟨fun _ => h, fun _ testcpu _ => ?_⟩
  refine Prog.wp_mono (addEvents_fresh M testcpu force gs.numberOfActiveGroups
    (eventString.splitOn ',') 0 ⟨[], 0, 0⟩ s.core ⟨by simp, by simp, by simp⟩)
    (fun parsed c hnew => ?_) fun _ c _ => hroom
  have hfilled := AllTyped.modifyGroup (s := { s with core := c }.modifyGroupSet
    (PerfmonGroupSet.allocate M)) (g := gs.numberOfActiveGroups) hroom (f := fun es => { es with
      events := parsed.slots
      numberOfEvents := parsed.numberOfEvents
      regTypeMask := parsed.regTypeMask }) fun _ e he => Or.inr (hnew.typed e he)
  split
  · simp only [Prog.wp_bind, Prog.wp_modify, Prog.wp_ret, setState]
    refine AllTyped.modifyGroupSet (f := fun gs => { gs with
      numberOfActiveGroups := gs.numberOfActiveGroups + 1 }) ?_ fun _ _ => Or.inl
    exact hfilled.modifyGroup (f := fun es => { es with state := .none }) fun _ _ => Or.inl
  · exact hfilled

theorem init (h : AllTyped M s) (cpus : List ℕ) :
    (perfmonInit M (haswell M) cpus).wp (fun _ t => AllTyped M t) (fun _ t => AllTyped M t) s := by
  unfold perfmonInit
  rw [Prog.wp_bind, Prog.wp_get]
  cases hgs : s.groupSet with
  | some gs => exact h
  | none =>
      simp only [Prog.wp_bind, Prog.wp_when, Prog.wp_ret, Prog.wp_modify]
      refine ⟨fun _ => h, fun _ => ⟨fun _ => h, fun _ => ⟨fun _ => h, fun _ => ?_⟩⟩⟩
      refine Prog.wp_mono (Prog.wp_foldlM (I := fun _ _ => True) (R := fun _ _ => False)
        (fun seen cpu _ s1 _ _ => ?_) trivial) (fun _ s1 _ g es hes => ?_) fun _ _ hno => hno.elim
      · rw [Prog.wp_bind, Prog.wp_zoom]
        unfold hpmAddThread
        rw [Prog.wp_modify, Prog.wp_bind, Prog.wp_zoom, Prog.wp_call]
        exact Prog.wp_trivial _
      · simp [Perfmon.group?] at hes

theorem step {call : Call} (h : AllTyped M s) (hs : Step M (haswell M) s call t) :
    AllTyped M t := by
  cases call with
  | init cpus => exact hs.wp (h.init cpus)
  | finalize =>
      refine hs.wp (P := fun t => AllTyped M t) (Prog.wp_mono (perfmonFinalize_control s)
        (fun _ t hk => ?_) fun _ t hk => ?_)
      · exact .of_none (groupSet_of_control_none (by rw [hk]))
      · exact .of_none (groupSet_of_control_none (by rw [hk.2, hk.1]))
  | addEventSet eventString force => exact hs.wp (h.addEventSet eventString force)
  | _ =>
      exact h.kept (hs.wp (P := fun t => EventsKept (CounterKept True) s t)
        (counterKept_entryFlow.call_respects (by simp) s))

end AllTyped

/-- A call of a run, with the accesses that counters were used in so far -/
def UseStep (M : Machine) (p : Perfmon × List Access) (call : Call)
    (q : Perfmon × List Access) : Prop :=
  Step M (haswell M) p.1 call q.1 ∧
    (call.UsesCounters → q.2 = newAccesses p.1.core q.1.core ++ p.2) ∧
    (¬call.UsesCounters → q.2 = p.2)

/-- The guard of a run in which the locks suffice -/
def KeepsOwners (M : Machine) (cpus : List ℕ) (p : Perfmon × List Access) (call : Call) : Prop :=
  NoReinit p.1 call ∧ (call.UsesCounters → LocksSuffice M cpus p.1 call)

/-- After an init, the locks are with the owners for as long as no other one comes. -/
theorem lockSession_init (hnone : s.groupSet = none) (htyped : AllTyped M s)
    (hinit : Step M (haswell M) s (.init cpus) t) (hset : t.groupSet ≠ none) :
    LockSession M cpus t := by
  have htyped' := htyped.step hinit
  refine hinit.wp (P := fun t => t.groupSet ≠ none → AllTyped M t → LockSession M cpus t)
    (Prog.wp_mono (perfmonInit_locks cpus s) (fun _ t ht _ htyped' => ?_)
      fun _ t ht hset => absurd (ht ▸ hnone) hset) hset htyped'
  refine ⟨ht.2.2, fun gs hgs => ?_, htyped'⟩
  have hthreads := ht.2.1
  rw [Perfmon.threads?, hgs] at hthreads
  exact Option.some.inj hthreads

theorem LockSession.step {call : Call} (h : LockSession M cpus s) (hguard : NoReinit s call)
    (hs : Step M (haswell M) s call t) : LockSession M cpus t := by
  have hrun : Run (Step M (haswell M)) NoReinit s t := .single hguard hs
  refine ⟨fun n => ?_, fun gs hgs => ?_, AllTyped.step h.typed hs⟩
  · rw [socketLock_of_run hrun]
    exact h.locks n
  · have hthreads : t.threads? = some gs.threads := by rw [Perfmon.threads?, hgs]; rfl
    rcases threads?_of_run hrun with hno | hsame
    · rw [hno] at hthreads
      cases hthreads
    · rw [hsame] at hthreads
      obtain ⟨gs0, hgs0, heq⟩ := Option.map_eq_some_iff.mp hthreads
      exact heq ▸ h.threads gs0 hgs0

theorem LockSession.of_run {p q : Perfmon × List Access} (h : LockSession M cpus p.1)
    (hrun : Run (UseStep M) (KeepsOwners M cpus) p q)
    (hused : ∀ a ∈ p.2, UsedByOwner M cpus a) :
    LockSession M cpus q.1 ∧ q.1.core.socketLock = p.1.core.socketLock ∧
      ∀ a ∈ q.2, UsedByOwner M cpus a := by
  refine @Run.invariant _ _ _ _ _ _ (fun q => LockSession M cpus q.1 ∧
    q.1.core.socketLock = p.1.core.socketLock ∧ ∀ a ∈ q.2, UsedByOwner M cpus a)
    ⟨h, rfl, hused⟩ ?_ hrun
  rintro ⟨t, used⟩ call ⟨t', used'⟩ ⟨ht, hlock, hall⟩ ⟨hno, hguard⟩ ⟨hs, hadd, hsame⟩
  refine ⟨ht.step hno hs, (socketLock_of_run (.single hno hs)).trans hlock, fun a ha => ?_⟩
  by_cases hcall : call.UsesCounters
  · have hused' : used' = newAccesses t.core t'.core ++ used := hadd hcall
    rw [hused', List.mem_append] at ha
    exact ha.elim ((ht.uses_of_step (hguard hcall) hcall hs).1.2 a) (hall a)
  · have hused' : used' = used := hsame hcall
    exact hall a (hused' ▸ ha)

theorem onceIn_of_nodup (h : cpus.Nodup) : OnceIn M cpus s g i := by
  intro es _ _ cpu _ _ i j hi hj
  obtain ⟨hlt, -⟩ := List.getElem?_eq_some_iff.mp hi
  exact (List.getElem?_inj hlt h).mp (hi.trans hj.symm)

instance (s : Perfmon) : (call : Call) → Decidable (NoReinit s call)
  | .init _ => inferInstanceAs (Decidable (s.groupSet ≠ none))
  | .finalize | .addEventSet _ _ | .setupCounters _ => inferInstanceAs (Decidable True)
  | .startCounters | .startGroupCounters _ | .readCounters => inferInstanceAs (Decidable True)
  | .readGroupCounters _ | .readGroupThreadCounters _ _ => inferInstanceAs (Decidable True)
  | .readCountersCpu _ | .stopCounters | .stopGroupCounters _ => inferInstanceAs (Decidable True)
  | .switchActiveGroup _ => inferInstanceAs (Decidable True)

def linkRateTables : Tables where
  counterMap := [⟨"QBOX0FIX0", 0, .qbox0fix, 0, 0xD4, 0, 17, 0⟩]
  boxMap
    | .qbox0fix => { regWidth := 32, device := 17 }
    | _ => {}
  index_eq := index_eq_of_map (by decide)
  unit_row := by decide
  fixed_row := by decide
  fixed_private := by decide
  fixed_filter := by intro t; cases t <;> decide
  pmc_row := by decide
  pmc_private := by decide
  pmc_counter := by decide
  pmc_filter := by intro t row hrow; cases t <;> revert row <;> decide

def linkRateMachine : Machine :=
  { haswellMachine with
    toTables := linkRateTables
    model := haswellEP
    eventHash := [{ name := "QPI_RATE", limit := "QBOX0FIX0", eventId := 0x00, umask := 0x00 }] }

instance : DecidablePred Call.UsesCounters
  | .init _ | .finalize | .addEventSet _ _ => inferInstanceAs (Decidable False)
  | .setupCounters _ | .startCounters | .startGroupCounters _ => inferInstanceAs (Decidable True)
  | .readCounters | .readGroupCounters _ => inferInstanceAs (Decidable True)
  | .readGroupThreadCounters _ _ | .readCountersCpu _ => inferInstanceAs (Decidable True)
  | .stopCounters | .stopGroupCounters _ => inferInstanceAs (Decidable True)
  | .switchActiveGroup _ => inferInstanceAs (Decidable True)

/-- The next state of a run, with the accesses so far -/
def useNext (M : Machine) (p : Perfmon × List Access) (call : Call) :
    Option (Perfmon × List Access) :=
  (p.1.next M (haswell M) call).map fun t =>
    (t, if call.UsesCounters then newAccesses p.1.core t.core ++ p.2 else p.2)

theorem useStep_of_next {p q : Perfmon × List Access} {call : Call}
    (h : useNext M p call = some q) : UseStep M p call q := by
  obtain ⟨t, ht, rfl⟩ := Option.map_eq_some_iff.mp h
  exact ⟨step_of_next ht, fun h => if_pos h, fun h => if_neg h⟩

/-- The calls of a program that reads the link rate by its first thread -/
def linkRateCalls : List Call :=
  [.addEventSet "QPI_RATE:QBOX0FIX0".toList 0, .setupCounters 0, .startCounters,
    .readGroupThreadCounters 0 0]

theorem keepsOwners_linkRate (p : Perfmon × List Access) {call : Call}
    (hcall : call ∈ linkRateCalls) : KeepsOwners linkRateMachine [1, 0] p call := by
  have honce : ∀ g i, OnceIn linkRateMachine [1, 0] p.1 g i :=
    fun _ _ => onceIn_of_nodup (by decide)
  simp only [linkRateCalls, List.mem_cons, List.not_mem_nil, or_false] at hcall
  rcases hcall with rfl | rfl | rfl | rfl
  · exact ⟨trivial, fun h => h.elim⟩
  · exact ⟨trivial, fun _ => ⟨fun _ _ _ => honce _ _, fun _ _ h => h.elim⟩⟩
  · exact ⟨trivial, fun _ => ⟨fun _ _ _ => honce _ _, fun _ _ h => h.elim⟩⟩
  · refine ⟨trivial, fun _ => ⟨fun _ _ _ => honce _ _, ?_⟩⟩
    rintro g i ⟨-, hi⟩ es - cpu hcpu hother
    obtain rfl : 0 = i := Int.ofNat_inj.mp (hi.resolve_left (by decide))
    obtain rfl : 1 = cpu := Option.some.inj hcpu
    exact absurd (by decide) hother

theorem uncoreRegister_linkRate : UncoreRegister linkRateMachine 17 0xD4 := by
  have hrow : ∀ row ∈ linkRateMachine.counterMap,
      row = ⟨"QBOX0FIX0", 0, .qbox0fix, 0, 0xD4, 0, 17, 0⟩ := fun row h => List.mem_singleton.mp h
  refine ⟨⟨_, List.mem_singleton_self _, by decide, rfl, by decide⟩, ?_⟩
  rintro (⟨hdev, -⟩ | ⟨row, hmem, hcore, -⟩)
  · exact absurd hdev (by decide)
  · obtain rfl := hrow row hmem
    exact absurd hcore (by decide)

end Likwid
