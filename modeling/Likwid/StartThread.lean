import Likwid.EventArrays
import Likwid.SetupErrors

/-!
# The start of a thread

A start resets the counters, unfreezes the uncore and enables the core counters, in this order, and
may be left at any access. What it did then to the registers of its CPU (`ThreadLeft`), and what a
start does that returns 0 (`ThreadStarted`).
-/

namespace Likwid

variable {M : Machine} {thread cpu : ℕ} {mask : BitVec 128} {lock : Bool}

/-! ## Accesses -/

/-- All accesses on the way from `c` to `c'` meet `P`. -/
def Made (P : Access → Prop) (c c' : Core) : Prop := Grows c c' ∧ ∀ a ∈ newAccesses c c', P a

namespace Made

variable {P Q : Access → Prop} {a b c : Core}

theorem refl (c : Core) : Made P c c := by
  refine ⟨Grows.refl c, fun a ha => ?_⟩
  rw [newAccesses_self] at ha
  cases ha

theorem trans (hab : Made P a b) (hbc : Made P b c) : Made P a c := by
  refine ⟨Grows.trans _ _ _ hab.1 hbc.1, fun x hx => ?_⟩
  rw [newAccesses_trans hab.1 hbc.1] at hx
  rcases List.mem_append.mp hx with h | h
  · exact hbc.2 x h
  · exact hab.2 x h

theorem mono (h : Made P a b) (hPQ : ∀ x, P x → Q x) : Made Q a b :=
  ⟨h.1, fun x hx => hPQ x (h.2 x hx)⟩

theorem single {x : Access} (h : b.trace = x :: a.trace) (hx : P x) : Made P a b := by
  refine ⟨⟨[x], h.symm⟩, fun y hy => ?_⟩
  rw [newAccesses_append (l := [x]) h] at hy
  exact List.mem_singleton.mp hy ▸ hx

end Made

/-! ## Before the uncore is unfrozen -/

/-- The register of a counter, as the tables have it -/
def IsCounter (M : Machine) (dev : PciDeviceIndex) (reg : ℕ) : Prop :=
  ∃ row ∈ M.counterMap, dev = row.device ∧
    (reg = row.counterRegister ∨ reg = row.counterRegister2)

/-- An access of `cpu` that writes, if anything, the register of a counter -/
def CountersOnly (M : Machine) (cpu : ℕ) (a : Access) : Prop :=
  a.cpu = cpu ∧ (a.kind = .write → IsCounter M a.dev a.reg)

/-- Counters of `cpu` were set to zero, and all other registers are as they were. -/
structure Zeroed (M : Machine) (cpu : ℕ) (c c' : Core) : Prop where
  made : Made (CountersOnly M cpu) c c'
  regs : ∀ owner reg, c'.regs owner msrDev reg = c.regs owner msrDev reg ∨
    owner = cpu ∧ IsCounter M msrDev reg ∧ c'.regs owner msrDev reg = 0
  socketLock : c'.socketLock = c.socketLock

namespace Zeroed

theorem refl (c : Core) : Zeroed M cpu c c := ⟨Made.refl c, fun _ _ => Or.inl rfl, rfl⟩

theorem trans (a b c : Core) (h : Zeroed M cpu a b) (h' : Zeroed M cpu b c) : Zeroed M cpu a c := by
  refine ⟨h.made.trans h'.made, fun owner reg => ?_, h'.socketLock.trans h.socketLock⟩
  rcases h'.regs owner reg with heq | hzero
  · rw [heq]
    exact h.regs owner reg
  · exact Or.inr hzero

abbrev flow (M : Machine) (cpu : ℕ) : Prog.Flow Core := Prog.Flow.of (Zeroed M cpu) refl trans

theorem read {ρ : Type} (dev : PciDeviceIndex) (reg : ℕ) :
    Prog.Respects (flow M cpu) (hpmRead M cpu dev reg : Prog ρ Core (Int × Word)) :=
  fun _ => ⟨Made.single rfl ⟨rfl, nofun⟩, fun _ _ => Or.inl rfl, rfl⟩

theorem write {ρ : Type} {dev : PciDeviceIndex} {reg : ℕ} (hreg : IsCounter M dev reg) :
    Prog.Respects (flow M cpu) (hpmWrite M cpu dev reg 0 : Prog ρ Core Int) := by
  intro c
  have hstored : stored dev 0 = 0 := by
    unfold stored
    split <;> rfl
  let c0 := if writeError M c cpu dev reg 0 = 0 then
    c.setReg (regOwner M cpu dev) dev reg (stored dev 0) else c
  have htrace : c0.trace = c.trace := by
    show Core.trace (ite _ _ _) = _
    split <;> rfl
  have hlock : c0.socketLock = c.socketLock := by
    show Core.socketLock (ite _ _ _) = _
    split <;> rfl
  have hregs : ∀ owner r, c0.regs owner msrDev r = c.regs owner msrDev r ∨
      owner = cpu ∧ IsCounter M msrDev r ∧ c0.regs owner msrDev r = 0 := by
    intro owner r
    show Core.regs (ite _ _ _) _ _ _ = _ ∨ _ ∧ _ ∧ Core.regs (ite _ _ _) _ _ _ = _
    split
    · rw [hstored, Core.setReg_regs]
      dsimp only
      split
      · next hthis =>
          obtain ⟨howner, hdev, hr⟩ := hthis
          rw [regOwner, if_pos hdev.symm] at howner
          exact Or.inr ⟨howner, by rw [hdev, hr]; exact hreg, rfl⟩
      · exact Or.inl rfl
    · exact Or.inl rfl
  let a : Access := ⟨.write, cpu, dev, reg, 0, writeError M c cpu dev reg 0⟩
  have hmade : Made (CountersOnly M cpu) c (c0.log a) :=
    Made.single (x := a) (congrArg (a :: ·) htrace) ⟨rfl, fun _ => hreg⟩
  exact ⟨hmade, hregs, hlock⟩

theorem check (err : Int) : Prog.Respects (flow M cpu) (checkAndReturnError M err) :=
  .bind .get fun _ => .when fun _ => .ret refl

theorem checkRead (dev : PciDeviceIndex) (reg : ℕ) :
    Prog.Respects (flow M cpu) (checkRead M cpu dev reg) :=
  .bind (read dev reg) fun _ => .bind (check _) fun _ => .pure _

theorem checkWrite {dev : PciDeviceIndex} {reg : ℕ} (hreg : IsCounter M dev reg) :
    Prog.Respects (flow M cpu) (checkWrite M cpu dev reg 0) :=
  .bind (write hreg) fun _ => check _

theorem powerRead {ρ : Type} (reg : ℕ) :
    Prog.Respects (flow M cpu) (powerRead M cpu reg : Prog ρ Core (Int × Word)) := by
  refine .ite (fun _ => ?_) fun _ => .pure _
  split
  · exact .ite (fun _ => .bind (read _ _) fun _ => .bind .get fun _ =>
      .ite (fun _ => .pure _) fun _ => .pure _) fun _ => .pure _
  · exact .halt _

end Zeroed

theorem haswellStartCase_zeroed {e : PerfmonEventSetEntry} {row : RegisterMap}
    (hrow : row ∈ M.counterMap) (unit : HaswellUnit) :
    Prog.Respects (Zeroed.flow M cpu).fst (haswellStartCase M thread cpu lock e row unit) := by
  have hreg : IsCounter M row.device row.counterRegister := ⟨row, hrow, rfl, Or.inl rfl⟩
  have hset : ∀ v, Prog.Respects (Zeroed.flow M cpu).fst
      (Prog.onSnd (Prog.modify (·.setStart thread v)) : EventProg Unit) :=
    fun v => .zoom fun p => Zeroed.refl p.1
  cases unit with
  | pmc | fixed => exact .bind (.onFst (Zeroed.checkWrite hreg)) fun _ => .pure _
  | power =>
      exact .bind (.when fun _ => .bind (.onFst (Zeroed.powerRead _)) fun _ =>
        .bind (.onFst (Zeroed.check _)) fun _ => hset _) fun _ => .pure _
  | wbox0fix =>
      exact .bind (.when fun _ => .bind (.onFst (Zeroed.checkRead _ _)) fun _ => hset _)
        fun _ => .pure _
  | qboxfix =>
      exact .bind .get fun _ => .bind (.when fun _ => .bind (.onFst (Zeroed.checkRead _ _))
        fun _ => hset _) fun _ => .pure _
  | _ => exact .pure _

theorem haswellStartEvent_zeroed (flags : Word) :
    Prog.Respects (Zeroed.flow M cpu).fst (haswellStartEvent M thread cpu mask lock flags) := by
  rintro ⟨c, e⟩
  unfold haswellStartEvent counterMap
  simp only [Prog.wp_bind, Prog.wp_get]
  split
  · simp only [Prog.wp_bind, Prog.wp_orUndefined, Prog.wp_zoom, Prog.wp_modify, Prog.wp_pure]
    intro row hrow
    exact haswellStartCase_zeroed (List.mem_of_getElem? hrow) _ (c, e.clearData thread)
  · exact Zeroed.refl c

theorem markNotype_zeroed (index : RegisterIndex) :
    Prog.Respects (Zeroed.flow M cpu).fst (markNotype index) := by
  intro p
  unfold markNotype Prog.wp
  by_cases hlt : index < p.2.length
  · simp only [hlt, if_true]
    exact Zeroed.refl p.1
  · simp [hlt]

theorem hasepResetCtr_zeroed (i : ℕ) :
    Prog.Respects (Zeroed.flow M cpu).fst (hasepResetCtr M cpu i) := by
  refine .bind .get fun p => .bind (.orOutOfBounds _) fun e => ?_
  intro q
  unfold counterMap
  rw [Prog.wp_bind, Prog.wp_orUndefined]
  intro row hrow
  have hmem := List.mem_of_getElem? hrow
  refine Prog.Respects.when (fun _ => .bind (.onFst (Zeroed.write ⟨row, hmem, rfl, Or.inl rfl⟩))
    fun err => .ite (fun _ => markNotype_zeroed _) fun _ => .when fun _ => .bind
      (.onFst (Zeroed.write ⟨row, hmem, rfl, Or.inr rfl⟩)) fun _ =>
        .when fun _ => markNotype_zeroed _) q

/-! ## Enable flags -/

/-- The bit the start of `thread` sets for an event -/
def startFlag (M : Machine) (thread : ℕ) (mask : BitVec 128) (e : PerfmonEventSetEntry) : Word :=
  if (e.threadCounter thread).init = true ∧ hasType mask e.type then
    match haswellUnit e.type with
    | .pmc => bit (e.index - M.perfNumFixedCtr)
    | .fixed => bit (e.index + 32)
    | _ => 0
  else 0

/-- The enable flags of `thread`: what its start writes to the global control register -/
def startFlags (M : Machine) (thread : ℕ) (mask : BitVec 128) (n : ℕ) (slots : List Slot) : Word :=
  ((slots.take n).filterMap id).foldl (fun flags e => flags ||| startFlag M thread mask e) 0

theorem foldl_flags_getLsbD {b : ℕ} (events : List PerfmonEventSetEntry) (flags : Word) :
    (events.foldl (fun flags e => flags ||| startFlag M thread mask e) flags).getLsbD b = true ↔
      flags.getLsbD b = true ∨ ∃ e ∈ events, (startFlag M thread mask e).getLsbD b = true := by
  induction events generalizing flags with
  | nil => simp
  | cons e events ih =>
      rw [List.foldl_cons, ih, BitVec.getLsbD_or, Bool.or_eq_true]
      simp only [List.mem_cons, exists_eq_or_imp]
      exact or_assoc

theorem startFlags_getLsbD {b n : ℕ} {slots : List Slot} :
    (startFlags M thread mask n slots).getLsbD b = true ↔
      ∃ i < n, ∃ e, slots[i]? = some (some e) ∧
        (startFlag M thread mask e).getLsbD b = true := by
  unfold startFlags
  rw [foldl_flags_getLsbD]
  constructor
  · rintro (hzero | ⟨e, he, hb⟩)
    · simp at hzero
    · obtain ⟨slot, hslot, heq⟩ := List.mem_filterMap.mp he
      obtain ⟨i, hi⟩ := List.mem_iff_getElem?.mp hslot
      rw [List.getElem?_take, Option.ite_none_right_eq_some] at hi
      exact ⟨i, hi.1, e, hi.2.trans (congrArg some heq), hb⟩
  · rintro ⟨i, hi, e, he, hb⟩
    refine Or.inr ⟨e, List.mem_filterMap.mpr ⟨some e, ?_, rfl⟩, hb⟩
    refine List.mem_of_getElem? (i := i) ?_
    rw [List.getElem?_take, if_pos hi, he]

/-- An entry keeps its counter and its flags. Its event may become unusable. -/
structure StartKept (e e' : PerfmonEventSetEntry) : Prop where
  index : e'.index = e.index
  type : e'.type = e.type ∨ e'.type = .notype
  init : ∀ t, (e'.threadCounter t).init = (e.threadCounter t).init

namespace StartKept

variable {e e' : PerfmonEventSetEntry}

theorem refl (e : PerfmonEventSetEntry) : StartKept e e := ⟨rfl, Or.inl rfl, fun _ => rfl⟩

theorem trans (a b c : PerfmonEventSetEntry) (h : StartKept a b) (h' : StartKept b c) :
    StartKept a c := by
  refine ⟨h'.index.trans h.index, ?_, fun t => (h'.init t).trans (h.init t)⟩
  rcases h'.type with heq | hno
  · rw [heq]
    exact h.type
  · exact Or.inr hno

theorem onCounter {f : PerfmonCounter → PerfmonCounter} (h : ∀ r, (f r).init = r.init) :
    StartKept e (e.onCounter thread f) := by
  refine ⟨rfl, Or.inl rfl, fun t => ?_⟩
  by_cases heq : t = thread
  · subst heq
    rw [PerfmonEventSetEntry.onCounter_self]
    exact h _
  · rw [PerfmonEventSetEntry.onCounter_of_ne _ _ _ heq]

theorem entryRel : EntryRel thread StartKept where
  refl := refl
  trans := trans
  counter _ _ h := onCounter fun r => (h r).1

theorem startFlag_le (h : StartKept e e') {b : ℕ}
    (hb : (startFlag M thread mask e').getLsbD b = true) :
    (startFlag M thread mask e).getLsbD b = true := by
  unfold startFlag at hb
  rw [h.init, h.index] at hb
  rcases h.type with heq | hno
  · rw [heq] at hb
    exact hb
  · rw [hno, if_neg fun hset => not_hasType_notype mask hset.2] at hb
    simp at hb

end StartKept

abbrev SlotsKept : List Slot → List Slot → Prop := Prog.CellsRel StartKept

theorem startFlags_le {slots slots' : List Slot} {n b : ℕ} (h : SlotsKept slots slots')
    (hb : (startFlags M thread mask n slots').getLsbD b = true) :
    (startFlags M thread mask n slots).getLsbD b = true := by
  obtain ⟨i, hi, e', he', hflag⟩ := startFlags_getLsbD.mp hb
  obtain ⟨e, he, hkept⟩ := h.get he'
  exact startFlags_getLsbD.mpr ⟨i, hi, e, he, hkept.startFlag_le hflag⟩

/-- A round of the event loop adds the flag of its event. -/
theorem haswellStartEvent_flag (flags : Word) (c : Core) (e : PerfmonEventSetEntry) :
    (haswellStartEvent M thread cpu mask lock flags).wp
      (fun flags' _ => flags' = flags ||| startFlag M thread mask e) (fun _ _ => True) (c, e) := by
  have hcase : ∀ (row : RegisterMap) (p : Core × PerfmonEventSetEntry),
      (haswellStartCase M thread cpu lock e row (haswellUnit e.type)).wp
        (fun flag _ => flag = match haswellUnit e.type with
          | .pmc => bit (e.index - M.perfNumFixedCtr)
          | .fixed => bit (e.index + 32)
          | _ => 0) (fun _ _ => True) p := by
    intro row p
    have hzero : ∀ m : EventProg Unit, (m >>= fun _ => pure (0 : Word)).wp
        (fun flag _ => flag = 0) (fun _ _ => True) p := by
      intro m
      rw [Prog.wp_bind]
      exact Prog.wp_mono (Prog.wp_trivial m) (fun _ _ _ => rfl) fun _ _ _ => trivial
    cases haswellUnit e.type with
    | pmc | fixed =>
        unfold haswellStartCase
        rw [Prog.wp_bind]
        exact Prog.wp_mono (Prog.wp_trivial _) (fun _ _ _ => rfl) fun _ _ _ => trivial
    | power | wbox0fix => exact hzero _
    | qboxfix =>
        unfold haswellStartCase
        rw [Prog.wp_bind, Prog.wp_get]
        exact hzero _
    | _ => rfl
  unfold haswellStartEvent counterMap
  simp only [Prog.wp_bind, Prog.wp_get]
  split
  · next hset =>
      simp only [Prog.wp_bind, Prog.wp_orUndefined, Prog.wp_zoom, Prog.wp_modify, Prog.wp_pure]
      intro row _
      refine Prog.wp_mono (hcase row (c, e.clearData thread)) (fun flag p hflag => ?_)
        fun _ _ h => h
      rw [hflag, startFlag, if_pos hset]
  · next hset =>
      rw [Prog.wp_pure, startFlag, if_neg hset]
      simp

/-! ## Unfreezing -/

/-- The register that freezes the uncore -/
def uncoreControl (M : Machine) : ℕ :=
  if M.model = haswellEP then msrUncV3UPmonGlobalCtl else msrUncorePerfGlobalCtrl

/-- Counter `b` of `cpu` counts. -/
def CounterEnabled (cpu b : ℕ) (c : Core) : Prop :=
  (c.regs cpu msrDev msrPerfGlobalCtrl).getLsbD b = true

/-- The uncore is unfrozen, as `cpu` sees it. -/
def Unfrozen (M : Machine) (cpu : ℕ) (c : Core) : Prop :=
  (c.regs cpu msrDev (uncoreControl M)).getLsbD 29 = true

theorem uncoreControl_ne (M : Machine) :
    uncoreControl M ≠ msrPerfGlobalCtrl ∧ uncoreControl M ≠ msrPerfGlobalOvfCtrl := by
  unfold uncoreControl
  split <;> decide

theorem Zeroed.enabled {owner b : ℕ} {c c' : Core} (h : Zeroed M cpu c c')
    (hb : CounterEnabled owner b c') : CounterEnabled owner b c := by
  unfold CounterEnabled at *
  rcases h.regs owner msrPerfGlobalCtrl with heq | ⟨-, -, hzero⟩
  · exact heq ▸ hb
  · rw [hzero] at hb
    simp at hb

theorem Zeroed.unfrozen {owner : ℕ} {c c' : Core} (h : Zeroed M cpu c c')
    (hb : Unfrozen M owner c') : Unfrozen M owner c := by
  unfold Unfrozen at *
  rcases h.regs owner (uncoreControl M) with heq | ⟨-, -, hzero⟩
  · exact heq ▸ hb
  · rw [hzero] at hb
    simp at hb

/-- The registers a start writes besides the counters -/
def startControls (M : Machine) : List ℕ :=
  [msrPerfGlobalOvfCtrl, msrPerfGlobalCtrl, uncoreControl M]

/-- No counter is one of these registers. -/
def CountersApart (M : Machine) : Prop :=
  ∀ row ∈ M.counterMap, row.device = msrDev →
    row.counterRegister ∉ startControls M ∧ row.counterRegister2 ∉ startControls M

theorem CountersApart.not_isCounter (hM : CountersApart M) {reg : ℕ}
    (hreg : reg ∈ startControls M) : ¬IsCounter M msrDev reg := by
  rintro ⟨row, hrow, hdev, heq⟩
  obtain ⟨h1, h2⟩ := hM row hrow hdev.symm
  rcases heq with rfl | rfl
  · exact h1 hreg
  · exact h2 hreg

theorem Zeroed.control {owner reg : ℕ} {c c' : Core} (h : Zeroed M cpu c c')
    (hM : CountersApart M) (hreg : reg ∈ startControls M) :
    c'.regs owner msrDev reg = c.regs owner msrDev reg :=
  (h.regs owner reg).resolve_right fun hzero => hM.not_isCounter hreg hzero.2.1

/-- A write of `cpu` to a register of its own, answered by `err` -/
structure Wrote (cpu reg : ℕ) (data : Word) (err : Int) (c c' : Core) : Prop where
  trace : c'.trace = ⟨.write, cpu, msrDev, reg, data, err⟩ :: c.trace
  value : c'.regs cpu msrDev reg = if err = 0 then data else c.regs cpu msrDev reg
  frame : ∀ owner r, ¬(owner = cpu ∧ r = reg) → c'.regs owner msrDev r = c.regs owner msrDev r
  socketLock : c'.socketLock = c.socketLock

theorem checkWrite_wrote (reg : ℕ) (data : Word) (c : Core) :
    (checkWrite M cpu msrDev reg data).wp (fun _ c' => ∃ err, 0 ≤ err ∧ Wrote cpu reg data err c c')
      (fun _ c' => ∃ err < 0, Wrote cpu reg data err c c') c := by
  let err := writeError M c cpu msrDev reg data
  let c0 := if err = 0 then c.setReg (regOwner M cpu msrDev) msrDev reg (stored msrDev data) else c
  have howner : regOwner M cpu msrDev = cpu := if_pos rfl
  have hstored : stored msrDev data = data := if_pos rfl
  have hwrote : Wrote cpu reg data err c (c0.log ⟨.write, cpu, msrDev, reg, data, err⟩) := by
    by_cases herr : err = 0
    · have hc0 : c0 = c.setReg cpu msrDev reg data := by
        rw [← howner, ← hstored]
        exact if_pos herr
      rw [hc0]
      refine ⟨rfl, ?_, fun owner r hne => ?_, rfl⟩
      · simp [herr]
      · have hnot : ¬(owner = cpu ∧ msrDev = msrDev ∧ r = reg) := fun h => hne ⟨h.1, h.2.2⟩
        show (if owner = cpu ∧ msrDev = msrDev ∧ r = reg then data else _) = _
        rw [if_neg hnot]
    · have hc0 : c0 = c := if_neg herr
      rw [hc0]
      exact ⟨rfl, (if_neg herr).symm, fun _ _ _ => rfl, rfl⟩
  show Prog.wp (checkAndReturnError M err) _ _ (c0.log ⟨.write, cpu, msrDev, reg, data, err⟩)
  unfold checkAndReturnError
  rw [Prog.wp_bind, Prog.wp_get, Prog.wp_when, Prog.wp_ret]
  exact ⟨fun hneg => ⟨err, hneg, hwrote⟩, fun hpos => ⟨err, Int.not_lt.mp hpos, hwrote⟩⟩

/-- A write to the registers of the core counters failed between `c` and `c'`. -/
def CoreWriteFailed (c c' : Core) : Prop :=
  ∃ a ∈ newAccesses c c', a.kind = .write ∧ a.dev = msrDev ∧
    a.reg ∈ [msrPerfGlobalOvfCtrl, msrPerfGlobalCtrl] ∧ a.err < 0

/-- Every access that does not fail returns 0. -/
def Nonpositive (c c' : Core) : Prop := ∀ a ∈ newAccesses c c', a.err ≤ 0

theorem Nonpositive.split {a b c : Core} (hab : Grows a b) (hbc : Grows b c)
    (h : Nonpositive a c) : Nonpositive a b ∧ Nonpositive b c := by
  unfold Nonpositive at h
  rw [newAccesses_trans hab hbc] at h
  exact ⟨fun x hx => h x (List.mem_append_right _ hx), fun x hx => h x (List.mem_append_left _ hx)⟩

/-- An access of `cpu` before the core counters are enabled -/
def BeforeCore (M : Machine) (cpu : ℕ) (a : Access) : Prop :=
  a.cpu = cpu ∧ (a.kind = .write → IsCounter M a.dev a.reg ∨ a.reg = uncoreControl M)

/-- The start of a thread before the core counters are enabled. It may have unfrozen the uncore
if `unfreezes` holds. -/
structure StartPrepared (M : Machine) (cpu : ℕ) (unfreezes : Prop) (c c' : Core) : Prop where
  made : Made (BeforeCore M cpu) c c'
  socketLock : c'.socketLock = c.socketLock
  others : ∀ owner, owner ≠ cpu → ∀ r, c'.regs owner msrDev r = c.regs owner msrDev r
  enabled : ∀ b, CounterEnabled cpu b c' → CounterEnabled cpu b c
  unfrozen : Unfrozen M cpu c' → Unfrozen M cpu c ∨ unfreezes
  enabledKept : CountersApart M → ∀ b, CounterEnabled cpu b c → CounterEnabled cpu b c'
  unfrozenKept : CountersApart M → Unfrozen M cpu c → Unfrozen M cpu c'

namespace StartPrepared

variable {u : Prop} {a b c c' : Core}

theorem mono {v : Prop} (h : StartPrepared M cpu u c c') (huv : u → v) :
    StartPrepared M cpu v c c' :=
  ⟨h.made, h.socketLock, h.others, h.enabled, fun hfree => (h.unfrozen hfree).imp_right huv,
    h.enabledKept, h.unfrozenKept⟩

theorem trans (h : StartPrepared M cpu u a b) (h' : StartPrepared M cpu u b c) :
    StartPrepared M cpu u a c where
  made := h.made.trans h'.made
  socketLock := h'.socketLock.trans h.socketLock
  others owner hne r := (h'.others owner hne r).trans (h.others owner hne r)
  enabled b hb := h.enabled b (h'.enabled b hb)
  unfrozen hfree := (h'.unfrozen hfree).elim h.unfrozen Or.inr
  enabledKept hM b hb := h'.enabledKept hM b (h.enabledKept hM b hb)
  unfrozenKept hM hfree := h'.unfrozenKept hM (h.unfrozenKept hM hfree)

theorem of_zeroed (h : Zeroed M cpu c c') : StartPrepared M cpu u c c' where
  made := h.made.mono fun _ ha => ⟨ha.1, fun hw => Or.inl (ha.2 hw)⟩
  socketLock := h.socketLock
  others owner hne r := (h.regs owner r).resolve_right fun hzero => hne hzero.1
  enabled _ hb := h.enabled hb
  unfrozen hb := Or.inl (h.unfrozen hb)
  enabledKept hM b hb := by
    unfold CounterEnabled at *
    rwa [h.control hM (by simp [startControls])]
  unfrozenKept hM hfree := by
    unfold Unfrozen at *
    rwa [h.control hM (by simp [startControls])]

/-- The write that unfreezes, or fails to -/
theorem of_wrote {data : Word} {err : Int} (h : Wrote cpu (uncoreControl M) data err c c')
    (hdata : data.getLsbD 29 = true) : StartPrepared M cpu (err = 0) c c' := by
  have hctrl : ∀ owner, c'.regs owner msrDev msrPerfGlobalCtrl =
      c.regs owner msrDev msrPerfGlobalCtrl :=
    fun owner => h.frame owner _ fun heq => (uncoreControl_ne M).1 heq.2.symm
  refine ⟨Made.single h.trace ⟨rfl, fun _ => Or.inr rfl⟩, h.socketLock,
    fun owner hne r => h.frame owner r fun heq => hne heq.1, fun b hb => ?_, fun hfree => ?_,
    fun _ b hb => ?_, fun _ hfree => ?_⟩
  · unfold CounterEnabled at *
    exact hctrl cpu ▸ hb
  · by_cases herr : err = 0
    · exact Or.inr herr
    · unfold Unfrozen at *
      rw [h.value, if_neg herr] at hfree
      exact Or.inl hfree
  · unfold CounterEnabled at *
    exact (hctrl cpu).symm ▸ hb
  · unfold Unfrozen at *
    rw [h.value]
    split
    · exact hdata
    · exact hfree

/-- None of these accesses is one to the registers of the core counters. -/
theorem not_coreWriteFailed (hM : CountersApart M) (h : StartPrepared M cpu u c c') :
    ¬CoreWriteFailed c c' := by
  rintro ⟨a, ha, hwrite, hdev, hreg, -⟩
  rcases (h.made.2 a ha).2 hwrite with hcounter | heq
  · rw [hdev] at hcounter
    refine hM.not_isCounter ?_ hcounter
    simp only [List.mem_cons, List.not_mem_nil, or_false] at hreg
    rcases hreg with h1 | h1 <;> simp [startControls, h1]
  · have hne := uncoreControl_ne M
    simp only [List.mem_cons, List.not_mem_nil, or_false] at hreg
    rcases hreg with h1 | h1
    · exact hne.2 (heq.symm.trans h1)
    · exact hne.1 (heq.symm.trans h1)

end StartPrepared

theorem Wrote.unfrozen {data : Word} {err : Int} {c c' : Core}
    (h : Wrote cpu (uncoreControl M) data err c c') (hdata : data.getLsbD 29 = true)
    (herr : 0 ≤ err) (hnonpos : Nonpositive c c') : Unfrozen M cpu c' := by
  have hmem : ⟨.write, cpu, msrDev, uncoreControl M, data, err⟩ ∈ newAccesses c c' := by
    rw [newAccesses_append (l := [_]) h.trace]
    exact List.mem_singleton_self _
  have hzero : err = 0 := Int.le_antisymm (hnonpos _ hmem) herr
  unfold Unfrozen
  rw [h.value, if_pos hzero]
  exact hdata

/-- The uncore is unfrozen, or the access that should do it failed. -/
theorem hasepUnfreezeUncore_prepared (hlock : lock = true) (huncore : hasUncore mask) (c : Core) :
    (hasepUnfreezeUncore M cpu mask lock).wp
      (fun _ c' => StartPrepared M cpu True c c' ∧ (Nonpositive c c' → Unfrozen M cpu c'))
      (fun _ c' => StartPrepared M cpu False c c') c := by
  have hwrite : ∀ (data : Word) (c1 : Core), data.getLsbD 29 = true →
      StartPrepared M cpu False c c1 → (checkWrite M cpu msrDev (uncoreControl M) data).wp
        (fun _ c' => StartPrepared M cpu True c c' ∧ (Nonpositive c c' → Unfrozen M cpu c'))
        (fun _ c' => StartPrepared M cpu False c c') c1 := by
    intro data c1 hdata h1
    refine Prog.wp_mono (checkWrite_wrote (uncoreControl M) data c1) ?_ ?_
    · rintro _ c2 ⟨err, herr, hwrote⟩
      have h2 := StartPrepared.of_wrote hwrote hdata
      refine ⟨(h1.mono False.elim).trans (h2.mono fun _ => trivial), fun hnonpos => ?_⟩
      exact hwrote.unfrozen hdata herr (hnonpos.split h1.made.1 h2.made.1).2
    · rintro _ c2 ⟨err, herr, hwrote⟩
      exact h1.trans ((StartPrepared.of_wrote hwrote hdata).mono fun hzero => by omega)
  have hrefl : StartPrepared M cpu False c c := StartPrepared.of_zeroed (Zeroed.refl c)
  unfold hasepUnfreezeUncore
  by_cases hmodel : M.model = haswellEP
  · have hcontrol : uncoreControl M = msrUncV3UPmonGlobalCtl := if_pos hmodel
    rw [if_pos ⟨hlock, huncore, hmodel⟩, ← hcontrol]
    exact hwrite _ c (by decide) hrefl
  · have hcontrol : uncoreControl M = msrUncorePerfGlobalCtrl := if_neg hmodel
    rw [if_neg fun h => hmodel h.2.2, Prog.when_of_pos ⟨hlock, huncore⟩, Prog.wp_bind, ← hcontrol]
    refine Prog.wp_mono (Zeroed.checkRead msrDev (uncoreControl M) c) (fun data c1 h1 => ?_)
      fun _ c1 h1 => StartPrepared.of_zeroed h1
    refine hwrite _ c1 ?_ (StartPrepared.of_zeroed h1)
    rw [BitVec.getLsbD_or, show (bit 29).getLsbD 29 = true from by decide, Bool.or_true]

/-! ## The start of a thread -/

/-- What the start of a thread does in any case -/
structure ThreadRun (M : Machine) (cpu : ℕ) (p p' : Core × List Slot) : Prop where
  made : Made (·.cpu = cpu) p.1 p'.1
  socketLock : p'.1.socketLock = p.1.socketLock
  others : ∀ owner, owner ≠ cpu → ∀ r, p'.1.regs owner msrDev r = p.1.regs owner msrDev r
  slots : SlotsKept p.2 p'.2
  unfrozenKept : CountersApart M → Unfrozen M cpu p.1 → Unfrozen M cpu p'.1

/-- A start that runs to its end -/
structure ThreadStarted (M : Machine) (thread cpu : ℕ) (mask : BitVec 128) (n : ℕ)
    (p p' : Core × List Slot) : Prop extends ThreadRun M cpu p p' where
  enabled : Nonpositive p.1 p'.1 → hasCore mask → ∀ b, CounterEnabled cpu b p'.1 ↔
    (startFlags M thread mask n p.2).getLsbD b = true
  unfrozen : Unfrozen M cpu p'.1 → Unfrozen M cpu p.1 ∨ haveLock M p.1 cpu = true ∧ hasUncore mask
  unfreezes : Nonpositive p.1 p'.1 → haveLock M p.1 cpu = true → hasUncore mask →
    Unfrozen M cpu p'.1

/-- A start that returns early -/
structure ThreadLeft (M : Machine) (cpu : ℕ) (mask : BitVec 128) (p p' : Core × List Slot) :
    Prop extends ThreadRun M cpu p p' where
  enabled : CountersApart M → ∀ b, CounterEnabled cpu b p'.1 ↔ CounterEnabled cpu b p.1
  unfrozen : Unfrozen M cpu p'.1 → Unfrozen M cpu p.1 ∨
    haveLock M p.1 cpu = true ∧ hasUncore mask ∧ CoreWriteFailed p.1 p'.1
  unfreezes : CountersApart M → Nonpositive p.1 p'.1 → haveLock M p.1 cpu = true →
    hasUncore mask → CoreWriteFailed p.1 p'.1 → Unfrozen M cpu p'.1

/-- The part before the core counters are enabled, with the slots it leaves -/
structure SlotsPrepared (M : Machine) (cpu : ℕ) (unfreezes : Prop) (p p' : Core × List Slot) :
    Prop extends StartPrepared M cpu unfreezes p.1 p'.1 where
  slots : SlotsKept p.2 p'.2

theorem SlotsPrepared.run {u : Prop} {p p' : Core × List Slot} (h : SlotsPrepared M cpu u p p') :
    ThreadRun M cpu p p' :=
  ⟨h.made.mono fun _ ha => ha.1, h.socketLock, h.others, h.slots, h.unfrozenKept⟩

theorem startLoop_prepared (n : ℕ) (p : Core × List Slot) :
    (Prog.forCells (haswellStartEvent M thread cpu mask lock) n 0).wp
      (fun flags p' => flags = startFlags M thread mask n p.2 ∧ SlotsPrepared M cpu False p p')
      (fun _ p' => SlotsPrepared M cpu False p p') p := by
  have hevent : ∀ flags, Prog.Respects (StartKept.entryRel.flow)
      (haswellStartEvent M thread cpu mask lock flags) :=
    haswellStartEvent_entries (R := StartKept) StartKept.entryRel fun _ _ =>
      StartKept.onCounter fun _ => rfl
  have hslots := Prog.Respects.forCells_snd StartKept.refl StartKept.trans hevent n 0 p
  refine Prog.wp_mono (Prog.wp_and (Prog.forCells_fold haswellStartEvent_flag n 0 p.1 p.2)
    (Prog.wp_and (Prog.Respects.forCells_fst haswellStartEvent_zeroed n 0 p) hslots)) ?_ ?_
  · rintro flags p' ⟨hflags, hzero, hslots⟩
    exact ⟨hflags, StartPrepared.of_zeroed hzero, hslots⟩
  · rintro r p' ⟨-, hzero, hslots⟩
    exact ⟨StartPrepared.of_zeroed hzero, hslots⟩

/-- The counters of the uncore are reset and unfrozen. -/
theorem resetCtr_prepared (n : ℕ) (p : Core × List Slot) :
    (hasepUnfreezeUncoreAndResetCtr M cpu mask n lock).wp
      (fun _ p' => SlotsPrepared M cpu (lock = true ∧ hasUncore mask) p p' ∧
        (Nonpositive p.1 p'.1 → lock = true → hasUncore mask → Unfrozen M cpu p'.1))
      (fun _ p' => SlotsPrepared M cpu False p p') p := by
  have hslots : (hasepUnfreezeUncoreAndResetCtr M cpu mask n lock).wp
      (fun _ p' => SlotsKept p.2 p'.2) (fun _ p' => SlotsKept p.2 p'.2) p :=
    resetCtr_slots StartKept.refl StartKept.trans (fun _ => ⟨rfl, Or.inr rfl, fun _ => rfl⟩)
      n lock p
  by_cases hcond : lock = true ∧ hasUncore mask
  · have hcore : (hasepUnfreezeUncoreAndResetCtr M cpu mask n lock).wp
        (fun _ p' => StartPrepared M cpu True p.1 p'.1 ∧
          (Nonpositive p.1 p'.1 → Unfrozen M cpu p'.1))
        (fun _ p' => StartPrepared M cpu False p.1 p'.1) p := by
      unfold hasepUnfreezeUncoreAndResetCtr
      rw [Prog.when_of_pos hcond, Prog.wp_bind]
      have hloop := Prog.Respects.foldlM (l := List.range n)
        (fun _ i _ => @hasepResetCtr_zeroed M cpu i) () p
      refine Prog.wp_mono hloop (fun _ q hq => ?_) fun _ q hq => StartPrepared.of_zeroed hq
      rw [Prog.wp_zoom]
      have hq0 : StartPrepared M cpu False p.1 q.1 := StartPrepared.of_zeroed hq
      refine Prog.wp_mono (hasepUnfreezeUncore_prepared hcond.1 hcond.2 q.1) (fun _ c h => ?_)
        fun _ c h => hq0.trans h
      exact ⟨(hq0.mono False.elim).trans h.1,
        fun hnonpos => h.2 (hnonpos.split hq0.made.1 h.1.made.1).2⟩
    refine Prog.wp_mono (Prog.wp_and hcore hslots) ?_ fun _ p' h => ⟨h.1, h.2⟩
    rintro _ p' ⟨⟨hprep, hfree⟩, hkept⟩
    exact ⟨⟨hprep.mono fun _ => hcond, hkept⟩, fun hnonpos _ _ => hfree hnonpos⟩
  · unfold hasepUnfreezeUncoreAndResetCtr
    rw [Prog.when_of_neg hcond]
    exact ⟨⟨StartPrepared.of_zeroed (Zeroed.refl p.1), Prog.CellsRel.refl StartKept.refl _⟩,
      fun _ hlock huncore => absurd ⟨hlock, huncore⟩ hcond⟩

/-- Writes to the registers of the core counters -/
structure CoreWritten (M : Machine) (cpu : ℕ) (c c' : Core) : Prop where
  made : Made (·.cpu = cpu) c c'
  socketLock : c'.socketLock = c.socketLock
  others : ∀ owner, owner ≠ cpu → ∀ r, c'.regs owner msrDev r = c.regs owner msrDev r
  unfrozen : Unfrozen M cpu c' ↔ Unfrozen M cpu c

namespace CoreWritten

variable {a b c c' : Core}

theorem trans (h : CoreWritten M cpu a b) (h' : CoreWritten M cpu b c) : CoreWritten M cpu a c where
  made := h.made.trans h'.made
  socketLock := h'.socketLock.trans h.socketLock
  others owner hne r := (h'.others owner hne r).trans (h.others owner hne r)
  unfrozen := h'.unfrozen.trans h.unfrozen

theorem of_wrote {reg : ℕ} {data : Word} {err : Int} (hreg : uncoreControl M ≠ reg)
    (h : Wrote cpu reg data err c c') : CoreWritten M cpu c c' where
  made := Made.single h.trace rfl
  socketLock := h.socketLock
  others owner hne r := h.frame owner r fun heq => hne heq.1
  unfrozen := by
    unfold Unfrozen
    rw [h.frame cpu _ fun heq => hreg heq.2]

end CoreWritten

theorem Wrote.mem {reg : ℕ} {data : Word} {err : Int} {c c' : Core}
    (h : Wrote cpu reg data err c c') :
    ⟨.write, cpu, msrDev, reg, data, err⟩ ∈ newAccesses c c' := by
  rw [newAccesses_append (l := [_]) h.trace]
  exact List.mem_singleton_self _

/-- The end of a start: the overflow bits are cleared and the counters enabled. -/
theorem coreWrites_written (flags : Word) (c : Core) :
    (do
      checkWrite M cpu msrDev msrPerfGlobalOvfCtrl ((bit 63 ||| bit 62) ||| flags)
      checkWrite M cpu msrDev msrPerfGlobalCtrl flags : Prog Int Core Unit).wp
      (fun _ c' => CoreWritten M cpu c c' ∧
        (Nonpositive c c' → ∀ b, CounterEnabled cpu b c' ↔ flags.getLsbD b = true))
      (fun _ c' => CoreWritten M cpu c c' ∧
        (∀ b, CounterEnabled cpu b c' ↔ CounterEnabled cpu b c) ∧ CoreWriteFailed c c') c := by
  have huncore := uncoreControl_ne M
  have hkept : ∀ {data : Word} {err : Int} {c1 : Core} (b : ℕ),
      Wrote cpu msrPerfGlobalOvfCtrl data err c c1 →
        (CounterEnabled cpu b c1 ↔ CounterEnabled cpu b c) := by
    intro data err c1 b hwrote
    unfold CounterEnabled
    rw [hwrote.frame cpu _ fun heq => absurd heq.2 (by decide)]
  rw [Prog.wp_bind]
  refine Prog.wp_mono (checkWrite_wrote msrPerfGlobalOvfCtrl _ c) ?_ ?_
  · rintro _ c1 ⟨err1, -, h1⟩
    have hw1 := CoreWritten.of_wrote huncore.2 h1
    refine Prog.wp_mono (checkWrite_wrote msrPerfGlobalCtrl flags c1) ?_ ?_
    · rintro _ c2 ⟨err2, herr2, h2⟩
      have hw2 := CoreWritten.of_wrote huncore.1 h2
      refine ⟨hw1.trans hw2, fun hnonpos b => ?_⟩
      have hle := (hnonpos.split hw1.made.1 hw2.made.1).2 _ h2.mem
      unfold CounterEnabled
      rw [h2.value, if_pos (Int.le_antisymm hle herr2)]
    · rintro _ c2 ⟨err2, herr2, h2⟩
      have hw2 := CoreWritten.of_wrote huncore.1 h2
      have hmem : ⟨.write, cpu, msrDev, msrPerfGlobalCtrl, flags, err2⟩ ∈ newAccesses c c2 := by
        rw [newAccesses_trans hw1.made.1 hw2.made.1]
        exact List.mem_append_left _ h2.mem
      refine ⟨hw1.trans hw2, fun b => ?_, _, hmem, rfl, rfl, by simp, herr2⟩
      rw [← hkept b h1]
      unfold CounterEnabled
      rw [h2.value, if_neg (by omega)]
  · rintro _ c1 ⟨err1, herr1, h1⟩
    exact ⟨CoreWritten.of_wrote huncore.2 h1, fun b => hkept b h1, _, h1.mem, rfl, rfl, by simp,
      herr1⟩

theorem SlotsPrepared.trans {u : Prop} {p q r : Core × List Slot} (h : SlotsPrepared M cpu u p q)
    (h' : SlotsPrepared M cpu u q r) : SlotsPrepared M cpu u p r where
  toStartPrepared := h.toStartPrepared.trans h'.toStartPrepared
  slots := Prog.CellsRel.trans StartKept.trans _ _ _ h.slots h'.slots

theorem SlotsPrepared.mono {u v : Prop} {p q : Core × List Slot} (h : SlotsPrepared M cpu u p q)
    (huv : u → v) : SlotsPrepared M cpu v p q :=
  ⟨h.toStartPrepared.mono huv, h.slots⟩

/-- A start that returns early before the core counters are enabled -/
theorem SlotsPrepared.left {p p' : Core × List Slot} (h : SlotsPrepared M cpu False p p') :
    ThreadLeft M cpu mask p p' where
  toThreadRun := h.run
  enabled hM b := ⟨h.enabled b, h.enabledKept hM b⟩
  unfrozen hfree := Or.inl ((h.unfrozen hfree).resolve_right id)
  unfreezes hM _ _ _ hfailed := absurd hfailed (h.not_coreWriteFailed hM)

theorem SlotsPrepared.core_run {u : Prop} {p q : Core × List Slot} {c : Core}
    (h : SlotsPrepared M cpu u p q) (hc : CoreWritten M cpu q.1 c) :
    ThreadRun M cpu p (c, q.2) where
  made := h.run.made.trans hc.made
  socketLock := hc.socketLock.trans h.socketLock
  others owner hne r := (hc.others owner hne r).trans (h.others owner hne r)
  slots := h.slots
  unfrozenKept hM hfree := hc.unfrozen.mpr (h.unfrozenKept hM hfree)

/-- **The start of a thread** -/
theorem haswellStart_run (n : ℕ) (p : Core × List Slot) :
    (perfmonStartCountersThreadHaswell M thread cpu mask n).wp
      (fun _ p' => ThreadStarted M thread cpu mask n p p')
      (fun _ p' => ThreadLeft M cpu mask p p') p := by
  unfold perfmonStartCountersThreadHaswell
  rw [Prog.wp_bind, Prog.wp_get, Prog.wp_bind]
  refine Prog.wp_mono (startLoop_prepared n p) ?_ fun _ p' h => h.left
  rintro flags p1 ⟨rfl, h1⟩
  rw [Prog.wp_bind]
  refine Prog.wp_mono (resetCtr_prepared n p1) ?_ fun _ p' h => (h1.trans h).left
  rintro _ p2 ⟨h2, hfree⟩
  have h12 := (h1.mono False.elim).trans h2
  have hunfrozen : Nonpositive p.1 p2.1 → haveLock M p.1 cpu = true → hasUncore mask →
      Unfrozen M cpu p2.1 :=
    fun hnonpos => hfree (hnonpos.split h1.made.1 h2.made.1).2
  have hleft : ∀ c : Core, (CoreWritten M cpu p2.1 c ∧
      (∀ b, CounterEnabled cpu b c ↔ CounterEnabled cpu b p2.1) ∧ CoreWriteFailed p2.1 c) →
      ThreadLeft M cpu mask p (c, p2.2) := by
    rintro c ⟨hwritten, henabled, a, ha, hfailed⟩
    have hmem : a ∈ newAccesses p.1 c := by
      rw [newAccesses_trans h12.made.1 hwritten.made.1]
      exact List.mem_append_left _ ha
    exact
      { toThreadRun := h12.core_run hwritten
        enabled := fun hM b => (henabled b).trans ⟨h12.enabled b, h12.enabledKept hM b⟩
        unfrozen := fun hf => (h12.unfrozen (hwritten.unfrozen.mp hf)).imp_right fun hu =>
          ⟨hu.1, hu.2, a, hmem, hfailed⟩
        unfreezes := fun _ hnonpos hlock huncore _ => hwritten.unfrozen.mpr
          (hunfrozen (hnonpos.split h12.made.1 hwritten.made.1).1 hlock huncore) }
  rw [Prog.wp_when]
  refine ⟨fun hcore => ?_, fun hcore => ?_⟩
  · have hwrites := @coreWrites_written M cpu (startFlags M thread mask n p.2) p2.1
    rw [Prog.wp_bind] at hwrites
    simp only [Prog.wp_bind, Prog.wp_zoom]
    refine Prog.wp_mono hwrites (fun _ c1 hsecond => Prog.wp_mono hsecond ?_ ?_) ?_
    · rintro _ c ⟨hwritten, hset⟩
      exact
        { toThreadRun := h12.core_run hwritten
          enabled := fun hnonpos _ => hset (hnonpos.split h12.made.1 hwritten.made.1).2
          unfrozen := fun hf => h12.unfrozen (hwritten.unfrozen.mp hf)
          unfreezes := fun hnonpos hlock huncore => hwritten.unfrozen.mpr
            (hunfrozen (hnonpos.split h12.made.1 hwritten.made.1).1 hlock huncore) }
    · exact fun _ c h => hleft c h
    · exact fun _ c h => hleft c h
  · exact
      { toThreadRun := h12.run
        enabled := fun _ hc => absurd hc hcore
        unfrozen := h12.unfrozen
        unfreezes := hunfrozen }

end Likwid
