import Likwid.CounterFlow
import Likwid.UncoreReset

/-!
# The pause around a read

The read routines save and clear the enable flags of the counters, read the counters, and put the
flags back. A counter that cannot be read makes them return in between, with the counters still
paused; and the Haswell routine enables the uncore afterwards whether it was enabled before or not
(`readKeepsEnables_iff`).
-/

namespace Likwid

variable {M : Machine} {thread cpu ctl n : ℕ} {mask : BitVec 128} {lock : Bool} {g u : Word}

/-! ## What the read is to keep -/

/-- A routine ends in `p'`: it completes or returns early. -/
def EndsIn {σ : Type} (m : Prog Int σ Unit) (p p' : σ) : Prop :=
  m p = .done () p' ∨ ∃ r, m p = .ret r p'

/-- The core counters of `cpu` and the uncore are enabled as before. -/
def HaswellEnablesKept (M : Machine) (cpu : ℕ) (c c' : Core) : Prop :=
  c'.regs cpu msrDev msrPerfGlobalCtrl = c.regs cpu msrDev msrPerfGlobalCtrl ∧
    (Unfrozen M cpu c' ↔ Unfrozen M cpu c)

def NehalemEnablesKept (cpu : ℕ) (c c' : Core) : Prop :=
  c'.regs cpu msrDev msrPerfGlobalCtrl = c.regs cpu msrDev msrPerfGlobalCtrl ∧
    c'.regs cpu msrDev msrUncorePerfGlobalCtrl = c.regs cpu msrDev msrUncorePerfGlobalCtrl

/-- The accesses of `cpu` to the registers in `K` succeed: only counter reads may fail. -/
def ControlAnswers (M : Machine) (cpu : ℕ) (K : ℕ → Prop) : Prop :=
  ∀ n reg, K reg → M.accessRead n msrDev cpu reg = 0 ∧
    (∀ v, M.accessData n msrDev cpu reg v = v) ∧ ∀ data, M.accessWrite n msrDev cpu reg data = 0

/-- The registers that enable counters -/
def enableRegisters (M : Machine) : List ℕ :=
  [msrPerfGlobalCtrl, uncoreControl M, msrUncorePerfGlobalCtrl]

/-- No status register of a table is one of them. -/
def StatusApart (M : Machine) : Prop :=
  ∀ row ∈ M.counterMap, row.device = msrDev →
    (M.boxMap row.type).statusRegister ∉ enableRegisters M

/-- The part of the Haswell read before the counters are read -/
def haswellPause (M : Machine) (cpu : ℕ) (mask : BitVec 128) (lock : Bool) :
    Prog Int (Core × List Slot) Word := do
  let flags ← Prog.onFst (pauseCore M cpu mask)
  Prog.onFst (hasepFreezeUncore M cpu mask lock)
  pure flags

def nehalemPause (M : Machine) (cpu : ℕ) (mask : BitVec 128) (lock : Bool) :
    Prog Int (Core × List Slot) (Word × Word) := do
  let pmcFlags ← Prog.onFst (pauseCore M cpu mask)
  let uncoreFlags ← Prog.onFst (pauseUncoreNehalem M cpu mask lock)
  pure (pmcFlags, uncoreFlags)

/-- The counters are paused, and then one of them cannot be read. -/
def CountingFails {α : Type} (pause : Prog Int (Core × List Slot) α)
    (loop : Prog Int (Core × List Slot) Unit) (p : Core × List Slot) : Prop :=
  ∃ flags q r q', pause p = .done flags q ∧ loop q = .ret r q'

def HaswellCountingFails (M : Machine) (thread cpu : ℕ) (mask : BitVec 128) (n : ℕ)
    (p : Core × List Slot) : Prop :=
  CountingFails (haswellPause M cpu mask (haveLock M p.1 cpu))
    (Prog.forCells (haswellReadEvent M thread cpu mask (haveLock M p.1 cpu)) n ()) p

def NehalemCountingFails (M : Machine) (thread cpu : ℕ) (mask : BitVec 128) (n : ℕ)
    (p : Core × List Slot) : Prop :=
  CountingFails (nehalemPause M cpu mask (haveLock M p.1 cpu))
    (Prog.forCells (nehalemCountEvent M thread cpu mask (haveLock M p.1 cpu)) n ()) p

/-- Either nothing can be accessed, or all counters can be read and an uncore that is used was
enabled, or a counter cannot be read and what the pause disables was disabled. -/
def HaswellPauseHarmless (M : Machine) (thread cpu : ℕ) (mask : BitVec 128) (n : ℕ)
    (p : Core × List Slot) : Prop :=
  Accessible M cpu p.1 →
    (¬HaswellCountingFails M thread cpu mask n p →
      haveLock M p.1 cpu = true → hasUncore mask → Unfrozen M cpu p.1) ∧
    (HaswellCountingFails M thread cpu mask n p →
      (hasCore mask → p.1.regs cpu msrDev msrPerfGlobalCtrl = 0) ∧
      (haveLock M p.1 cpu = true → hasUncore mask → M.model = haswellEP → ¬Unfrozen M cpu p.1))

/-- Either nothing can be accessed, or all counters can be read, or what the pause disables was
disabled. -/
def NehalemPauseHarmless (M : Machine) (thread cpu : ℕ) (mask : BitVec 128) (n : ℕ)
    (p : Core × List Slot) : Prop :=
  Accessible M cpu p.1 → NehalemCountingFails M thread cpu mask n p →
    (hasCore mask → p.1.regs cpu msrDev msrPerfGlobalCtrl = 0) ∧
    (haveLock M p.1 cpu = true → hasUncoreNehalem mask →
      p.1.regs cpu msrDev msrUncorePerfGlobalCtrl = 0)

/-! ## The control registers -/

/-- `cpu` may be accessed, and this is in its control registers. -/
structure Controls (M : Machine) (cpu ctl : ℕ) (g u : Word) (c : Core) : Prop where
  accessible : Accessible M cpu c
  global : c.regs cpu msrDev msrPerfGlobalCtrl = g
  uncore : c.regs cpu msrDev ctl = u

theorem readAnswer_accessible {K : ℕ → Prop} (hans : ControlAnswers M cpu K) {reg : ℕ}
    (hreg : K reg) {c : Core} (hc : Accessible M cpu c) :
    readAnswer M c cpu msrDev reg = (0, c.regs cpu msrDev reg) := by
  have hlt := hc.1
  obtain ⟨hread, hdata, -⟩ := hans c.trace.length reg hreg
  unfold readAnswer
  rw [if_neg (by decide), if_neg (by omega), if_neg (by simp [hc.2]), hread, hdata]
  rfl

theorem writeError_accessible {K : ℕ → Prop} (hans : ControlAnswers M cpu K) {reg : ℕ}
    (hreg : K reg) {c : Core} (hc : Accessible M cpu c) (data : Word) :
    writeError M c cpu msrDev reg data = 0 := by
  have hlt := hc.1
  unfold writeError
  rw [if_neg (by decide), if_neg (by omega), if_neg (by simp [hc.2])]
  exact (hans c.trace.length reg hreg).2.2 data

/-- What the Haswell freeze leaves in the uncore register: the client's is not changed. -/
def frozenUncore (M : Machine) (mask : BitVec 128) (lock : Bool) (u : Word) : Word :=
  if lock = true ∧ hasUncore mask ∧ M.model = haswellEP then bit 31 else u

/-- What unfreezing leaves there -/
def unfrozenUncore (M : Machine) (mask : BitVec 128) (lock : Bool) (u : Word) : Word :=
  if lock = true ∧ hasUncore mask then if M.model = haswellEP then bit 29 else u ||| bit 29 else u

/-- `ctl` is not the register of the core counters, and accesses to both succeed. -/
structure ControlPair (M : Machine) (cpu ctl : ℕ) : Prop where
  ne : ctl ≠ msrPerfGlobalCtrl
  answers : ControlAnswers M cpu (· ∈ [msrPerfGlobalCtrl, ctl])

namespace ControlPair

section Core

variable (h : ControlPair M cpu ctl)

include h

theorem checkRead {reg : ℕ} (hreg : reg ∈ [msrPerfGlobalCtrl, ctl]) {c : Core}
    (hc : Controls M cpu ctl g u c) :
    (checkRead M cpu msrDev reg).wp
      (fun v c' => v = c.regs cpu msrDev reg ∧ Controls M cpu ctl g u c') (fun _ _ => False) c := by
  have hanswer := readAnswer_accessible h.answers hreg hc.accessible
  show Prog.wp (do
    checkAndReturnError M (readAnswer M c cpu msrDev reg).1
    pure (readAnswer M c cpu msrDev reg).2) _ _ (c.log _)
  rw [hanswer]
  exact ⟨rfl, hc.accessible, hc.global, hc.uncore⟩

theorem checkWrite {reg : ℕ} (hreg : reg ∈ [msrPerfGlobalCtrl, ctl]) (data : Word) {c : Core}
    (hc : Accessible M cpu c) :
    (checkWrite M cpu msrDev reg data).wp
      (fun _ c' => Accessible M cpu c' ∧ c'.regs cpu msrDev reg = data ∧
        ∀ r, r ≠ reg → c'.regs cpu msrDev r = c.regs cpu msrDev r) (fun _ _ => False) c := by
  have herr := writeError_accessible h.answers hreg hc data
  have howner : regOwner M cpu msrDev = cpu := if_pos rfl
  have hstored : stored msrDev data = data := if_pos rfl
  show Prog.wp (checkAndReturnError M (writeError M c cpu msrDev reg data)) _ _
    ((if writeError M c cpu msrDev reg data = 0 then
      c.setReg (regOwner M cpu msrDev) msrDev reg (stored msrDev data) else c).log _)
  rw [herr, if_pos rfl, howner, hstored]
  refine ⟨hc, ?_, fun r hne => ?_⟩
  · simp
  · simp [hne]

theorem writeGlobal (data : Word) {c : Core} (hc : Controls M cpu ctl g u c) :
    (Likwid.checkWrite M cpu msrDev msrPerfGlobalCtrl data).wp
      (fun _ c' => Controls M cpu ctl data u c') (fun _ _ => False) c := by
  refine Prog.wp_mono (h.checkWrite (by simp) data hc.accessible) ?_ fun _ _ hno => hno
  rintro _ c' ⟨hacc, hreg, hothers⟩
  exact ⟨hacc, hreg, (hothers ctl h.ne).trans hc.uncore⟩

theorem writeUncore (data : Word) {c : Core} (hc : Controls M cpu ctl g u c) :
    (Likwid.checkWrite M cpu msrDev ctl data).wp
      (fun _ c' => Controls M cpu ctl g data c') (fun _ _ => False) c := by
  refine Prog.wp_mono (h.checkWrite (by simp) data hc.accessible) ?_ fun _ _ hno => hno
  rintro _ c' ⟨hacc, hreg, hothers⟩
  exact ⟨hacc, (hothers _ h.ne.symm).trans hc.global, hreg⟩

theorem pauseCore {c : Core} (hc : Controls M cpu ctl g u c) :
    (pauseCore M cpu mask).wp
      (fun flags c' => (hasCore mask → flags = g) ∧
        Controls M cpu ctl (if hasCore mask then 0 else g) u c') (fun _ _ => False) c := by
  unfold Likwid.pauseCore
  by_cases hcore : hasCore mask
  · rw [if_pos hcore, if_pos hcore, Prog.wp_bind]
    refine Prog.wp_mono (h.checkRead (by simp) hc) ?_ fun _ _ hno => hno
    rintro flags c1 ⟨hflags, h1⟩
    rw [Prog.wp_bind]
    refine Prog.wp_mono (h.writeGlobal 0 h1) (fun _ c2 h2 => ?_) fun _ _ hno => hno
    exact ⟨fun _ => hflags.trans hc.global, h2⟩
  · rw [if_neg hcore, if_neg hcore]
    exact ⟨fun hyes => absurd hyes hcore, hc⟩

theorem restoreCore {flags : Word} {c : Core} (hflags : hasCore mask → flags = g)
    (hc : Controls M cpu ctl (if hasCore mask then 0 else g) u c) :
    (Prog.when (hasCore mask) (Likwid.checkWrite M cpu msrDev msrPerfGlobalCtrl flags)).wp
      (fun _ c' => Controls M cpu ctl g u c') (fun _ _ => False) c := by
  by_cases hcore : hasCore mask
  · rw [Prog.when_of_pos hcore, hflags hcore]
    exact h.writeGlobal g hc
  · rw [if_neg hcore] at hc
    rw [Prog.when_of_neg hcore]
    exact hc

end Core

theorem pauseUncoreNehalem (h : ControlPair M cpu msrUncorePerfGlobalCtrl) {c : Core}
    (hc : Controls M cpu msrUncorePerfGlobalCtrl g u c) :
    (pauseUncoreNehalem M cpu mask lock).wp
      (fun flags c' => (lock = true ∧ hasUncoreNehalem mask → flags = u) ∧
        Controls M cpu msrUncorePerfGlobalCtrl g
          (if lock = true ∧ hasUncoreNehalem mask then 0 else u) c') (fun _ _ => False) c := by
  unfold Likwid.pauseUncoreNehalem
  by_cases hcond : lock = true ∧ hasUncoreNehalem mask
  · rw [if_pos hcond, if_pos hcond, Prog.wp_bind]
    refine Prog.wp_mono (h.checkRead (by simp) hc) ?_ fun _ _ hno => hno
    rintro flags c1 ⟨hflags, h1⟩
    rw [Prog.wp_bind]
    refine Prog.wp_mono (h.writeUncore 0 h1) (fun _ c2 h2 => ?_) fun _ _ hno => hno
    exact ⟨fun _ => hflags.trans hc.uncore, h2⟩
  · rw [if_neg hcond, if_neg hcond]
    exact ⟨fun hyes => absurd hyes hcond, hc⟩

theorem restoreUncore (h : ControlPair M cpu msrUncorePerfGlobalCtrl) {flags : Word} {c : Core}
    (hflags : lock = true ∧ hasUncoreNehalem mask → flags = u)
    (hc : Controls M cpu msrUncorePerfGlobalCtrl g
      (if lock = true ∧ hasUncoreNehalem mask then 0 else u) c) :
    (Prog.when (lock = true ∧ hasUncoreNehalem mask)
      (Likwid.checkWrite M cpu msrDev msrUncorePerfGlobalCtrl flags)).wp
      (fun _ c' => Controls M cpu msrUncorePerfGlobalCtrl g u c') (fun _ _ => False) c := by
  by_cases hcond : lock = true ∧ hasUncoreNehalem mask
  · rw [Prog.when_of_pos hcond, hflags hcond]
    exact h.writeUncore u hc
  · rw [if_neg hcond] at hc
    rw [Prog.when_of_neg hcond]
    exact hc

theorem freeze (h : ControlPair M cpu (uncoreControl M)) {c : Core}
    (hc : Controls M cpu (uncoreControl M) g u c) :
    (hasepFreezeUncore M cpu mask lock).wp
      (fun _ c' => Controls M cpu (uncoreControl M) g (frozenUncore M mask lock u) c')
      (fun _ _ => False) c := by
  unfold hasepFreezeUncore frozenUncore
  by_cases hep : lock = true ∧ hasUncore mask ∧ M.model = haswellEP
  · have hctl : uncoreControl M = msrUncV3UPmonGlobalCtl := if_pos hep.2.2
    rw [if_pos hep, if_pos hep, ← hctl]
    exact h.writeUncore _ hc
  · rw [if_neg hep, if_neg hep, Prog.wp_when]
    refine ⟨fun hcond => ?_, fun _ => hc⟩
    have hctl : uncoreControl M = msrUncorePerfGlobalCtrl :=
      if_neg fun hmodel => hep ⟨hcond.1, hcond.2, hmodel⟩
    rw [Prog.wp_bind, ← hctl]
    refine Prog.wp_mono (h.checkRead (by simp) hc) ?_ fun _ _ hno => hno
    rintro data c1 ⟨rfl, h1⟩
    rw [hc.uncore, Prog.wp_when]
    refine ⟨fun hzero => ?_, fun _ => h1⟩
    -- The bit is cleared only where it is clear.
    have hsame : u &&& ~~~(bit 29) = u := by
      ext i hi
      have hi' := congrArg (fun v => v[i]) hzero
      simp only [BitVec.getElem_and, BitVec.getElem_not] at hi' ⊢
      cases hu : u[i] <;> cases hb : (bit 29)[i] <;> simp_all
    rw [hsame]
    exact h.writeUncore _ h1

theorem unfreeze (h : ControlPair M cpu (uncoreControl M)) {c : Core}
    (hc : Controls M cpu (uncoreControl M) g u c) :
    (hasepUnfreezeUncore M cpu mask lock).wp
      (fun _ c' => Controls M cpu (uncoreControl M) g (unfrozenUncore M mask lock u) c')
      (fun _ _ => False) c := by
  unfold hasepUnfreezeUncore unfrozenUncore
  by_cases hcond : lock = true ∧ hasUncore mask
  · rw [if_pos hcond]
    by_cases hmodel : M.model = haswellEP
    · have hctl : uncoreControl M = msrUncV3UPmonGlobalCtl := if_pos hmodel
      rw [if_pos ⟨hcond.1, hcond.2, hmodel⟩, if_pos hmodel, ← hctl]
      exact h.writeUncore _ hc
    · have hctl : uncoreControl M = msrUncorePerfGlobalCtrl := if_neg hmodel
      rw [if_neg fun hep => hmodel hep.2.2, if_neg hmodel, Prog.when_of_pos hcond, Prog.wp_bind,
        ← hctl]
      refine Prog.wp_mono (h.checkRead (by simp) hc) ?_ fun _ _ hno => hno
      rintro data c1 ⟨rfl, h1⟩
      rw [hc.uncore]
      exact h.writeUncore _ h1
  · rw [if_neg hcond, if_neg fun hep => hcond ⟨hep.1, hep.2.1⟩, Prog.when_of_neg hcond]
    exact hc

end ControlPair

/-! ## Paused reads -/

section Paused

variable {α : Type} {pause : Prog Int (Core × List Slot) α}
  {loop : Prog Int (Core × List Slot) Unit} {resume : α → Prog Int (Core × List Slot) Unit}
  {g' u' g'' u'' : Word} {Saved : α → Prop} {p : Core × List Slot}

/-- A read that completes has resumed. One that returns early leaves the counters paused. -/
theorem pausedRead_controls
    (hpause : pause.wp (fun a q => Saved a ∧ Controls M cpu ctl g' u' q.1) (fun _ _ => False) p)
    (hloop : Prog.Respects (ControlKept.flow M cpu (· ∈ [msrPerfGlobalCtrl, ctl])).fst loop)
    (hresume : ∀ a q, Saved a → Controls M cpu ctl g' u' q.1 →
      (resume a).wp (fun _ q' => Controls M cpu ctl g'' u'' q'.1) (fun _ _ => False) q) :
    (do let a ← pause; loop; resume a : Prog Int (Core × List Slot) Unit).wp
      (fun _ q => ¬CountingFails pause loop p ∧ Controls M cpu ctl g'' u'' q.1)
      (fun _ q => CountingFails pause loop p ∧ Controls M cpu ctl g' u' q.1) p := by
  have hkept : ∀ {q q' : Core × List Slot}, Controls M cpu ctl g' u' q.1 →
      ControlKept M cpu (· ∈ [msrPerfGlobalCtrl, ctl]) q.1 q'.1 → Controls M cpu ctl g' u' q'.1 :=
    fun hc hk => ⟨hk.accessible.mpr hc.accessible, (hk.reg _ (by simp)).trans hc.global,
      (hk.reg _ (by simp)).trans hc.uncore⟩
  rw [Prog.wp_bind]
  refine Prog.wp_mono (Prog.wp_and hpause (Prog.wp_outcome pause)) ?_ fun _ _ hno => hno.1.elim
  rintro a q ⟨⟨hsaved, hq⟩, hpaused⟩
  rw [Prog.wp_bind]
  refine Prog.wp_mono (Prog.wp_and (hloop q) (Prog.wp_outcome loop)) ?_ ?_
  · rintro _ q1 ⟨hk, hcounted⟩
    refine Prog.wp_mono (hresume a q1 hsaved (hkept hq hk)) (fun _ q2 h2 => ⟨?_, h2⟩)
      fun _ _ hno => hno.elim
    rintro ⟨a', q', r, q3, hpaused', hfailed⟩
    obtain ⟨-, rfl⟩ := Prog.Outcome.done.inj (hpaused.symm.trans hpaused')
    cases hcounted.symm.trans hfailed
  · rintro r q1 ⟨hk, hreturned⟩
    exact ⟨⟨a, q, r, q1, hpaused, hreturned⟩, hkept hq hk⟩

end Paused

section Read

variable {p : Core × List Slot}

theorem StatusApart.countAllowed (h : StatusApart M)
    (hctl : ctl = uncoreControl M ∨ ctl = msrUncorePerfGlobalCtrl) :
    CountAllowed M (fun dev reg => ¬(dev = msrDev ∧ reg ∈ [msrPerfGlobalCtrl, ctl])) false where
  common reg hreg hK := by
    have hne : ctl ∉ [msrPerfGlobalOvfCtrl, msrUncV3UPmonGlobalStatus,
        msrUncorePerfGlobalOvfCtrl] := by
      rcases hctl with rfl | rfl
      · unfold uncoreControl
        split <;> decide
      · decide
    have hmem := hK.2
    simp only [List.mem_cons, List.not_mem_nil, or_false] at hmem
    rcases hmem with rfl | rfl
    · revert hreg
      decide
    · exact hne hreg
  status row hrow hK := by
    have hno := h row hrow hK.1
    have hmem := hK.2
    simp only [enableRegisters, List.mem_cons, List.not_mem_nil, or_false, not_or] at hno hmem
    rcases hmem with heq | heq
    · exact hno.1 heq
    · rcases hctl with rfl | rfl
      · exact hno.2.1 heq
      · exact hno.2.2 heq
  counter hclear := nomatch hclear

theorem controls_self {c : Core} (hc : Accessible M cpu c) :
    Controls M cpu ctl (c.regs cpu msrDev msrPerfGlobalCtrl) (c.regs cpu msrDev ctl) c :=
  ⟨hc, rfl, rfl⟩

theorem haswellRead_paused (hlock : haveLock M p.1 cpu = lock) :
    perfmonReadCountersThreadHaswell M thread cpu mask n p =
      (do
        let flags ← haswellPause M cpu mask lock
        Prog.forCells (haswellReadEvent M thread cpu mask lock) n ()
        Prog.onFst (hasepUnfreezeUncore M cpu mask lock)
        Prog.when (hasCore mask)
          (Prog.onFst (checkWrite M cpu msrDev msrPerfGlobalCtrl flags)) :
        Prog Int (Core × List Slot) Unit) p := by
  unfold perfmonReadCountersThreadHaswell haswellPause
  simp only [Prog.bind_assoc, Prog.bind_pure_left]
  rw [Prog.bind_of_done (Prog.get_apply p), hlock]

theorem nehalemRead_paused (hlock : haveLock M p.1 cpu = lock) :
    perfmonReadCountersThreadNehalem M thread cpu mask n p =
      (do
        let flags ← nehalemPause M cpu mask lock
        Prog.forCells (nehalemCountEvent M thread cpu mask lock) n ()
        Prog.onFst (Prog.when (hasCore mask)
          (checkWrite M cpu msrDev msrPerfGlobalCtrl flags.1))
        Prog.onFst (Prog.when (lock = true ∧ hasUncoreNehalem mask)
          (checkWrite M cpu msrDev msrUncorePerfGlobalCtrl flags.2)) :
        Prog Int (Core × List Slot) Unit) p := by
  unfold perfmonReadCountersThreadNehalem nehalemPause
  simp only [Prog.bind_assoc, Prog.bind_pure_left]
  rw [Prog.bind_of_done (Prog.get_apply p), hlock]

/-- What the Haswell read leaves in the control registers -/
theorem haswellRead_controls (h : ControlPair M cpu (uncoreControl M)) (htab : StatusApart M)
    (hlock : haveLock M p.1 cpu = lock) (hc : Controls M cpu (uncoreControl M) g u p.1) :
    (perfmonReadCountersThreadHaswell M thread cpu mask n).wp
      (fun _ q => ¬HaswellCountingFails M thread cpu mask n p ∧
        Controls M cpu (uncoreControl M) g
          (unfrozenUncore M mask lock (frozenUncore M mask lock u)) q.1)
      (fun _ q => HaswellCountingFails M thread cpu mask n p ∧
        Controls M cpu (uncoreControl M) (if hasCore mask then 0 else g)
          (frozenUncore M mask lock u) q.1) p := by
  unfold Prog.wp HaswellCountingFails
  rw [haswellRead_paused hlock, hlock]
  have hpause : (haswellPause M cpu mask lock).wp
      (fun flags q => (hasCore mask → flags = g) ∧
        Controls M cpu (uncoreControl M) (if hasCore mask then 0 else g)
          (frozenUncore M mask lock u) q.1) (fun _ _ => False) p := by
    unfold haswellPause
    rw [Prog.wp_bind, Prog.wp_zoom]
    refine Prog.wp_mono (h.pauseCore hc) ?_ fun _ _ hno => hno
    rintro flags c1 ⟨hflags, h1⟩
    rw [Prog.wp_bind, Prog.wp_zoom]
    exact Prog.wp_mono (h.freeze h1) (fun _ c2 h2 => ⟨hflags, h2⟩) fun _ _ hno => hno
  refine pausedRead_controls hpause (.forCells_fst (fun u =>
    ControlKept.logic.haswellReadEvent (htab.countAllowed (Or.inl rfl)) u) n ())
    fun flags q hflags hq => ?_
  rw [Prog.wp_bind, Prog.wp_zoom]
  refine Prog.wp_mono (h.unfreeze hq) (fun _ c1 h1 => ?_) fun _ _ hno => hno
  have hrestore := h.restoreCore hflags h1
  rw [Prog.wp_when] at hrestore ⊢
  exact ⟨fun hcore => Prog.wp_zoom.mpr (hrestore.1 hcore), hrestore.2⟩

/-- What the Nehalem read leaves there -/
theorem nehalemRead_controls (h : ControlPair M cpu msrUncorePerfGlobalCtrl) (htab : StatusApart M)
    (hlock : haveLock M p.1 cpu = lock) (hc : Controls M cpu msrUncorePerfGlobalCtrl g u p.1) :
    (perfmonReadCountersThreadNehalem M thread cpu mask n).wp
      (fun _ q => ¬NehalemCountingFails M thread cpu mask n p ∧
        Controls M cpu msrUncorePerfGlobalCtrl g u q.1)
      (fun _ q => NehalemCountingFails M thread cpu mask n p ∧
        Controls M cpu msrUncorePerfGlobalCtrl (if hasCore mask then 0 else g)
          (if lock = true ∧ hasUncoreNehalem mask then 0 else u) q.1) p := by
  unfold Prog.wp NehalemCountingFails
  rw [nehalemRead_paused hlock, hlock]
  have hpause : (nehalemPause M cpu mask lock).wp
      (fun flags q => ((hasCore mask → flags.1 = g) ∧
          (lock = true ∧ hasUncoreNehalem mask → flags.2 = u)) ∧
        Controls M cpu msrUncorePerfGlobalCtrl (if hasCore mask then 0 else g)
          (if lock = true ∧ hasUncoreNehalem mask then 0 else u) q.1) (fun _ _ => False) p := by
    unfold nehalemPause
    rw [Prog.wp_bind, Prog.wp_zoom]
    refine Prog.wp_mono (h.pauseCore hc) ?_ fun _ _ hno => hno
    rintro pmcFlags c1 ⟨hpmc, h1⟩
    rw [Prog.wp_bind, Prog.wp_zoom]
    refine Prog.wp_mono (ControlPair.pauseUncoreNehalem h h1) ?_ fun _ _ hno => hno
    rintro uncoreFlags c2 ⟨huncore, h2⟩
    exact ⟨⟨hpmc, huncore⟩, h2⟩
  refine pausedRead_controls hpause (.forCells_fst (fun u =>
    ControlKept.logic.nehalemCountEvent (htab.countAllowed (Or.inr rfl)) u) n ())
    fun flags q hflags hq => ?_
  rw [Prog.wp_bind, Prog.wp_zoom]
  refine Prog.wp_mono (h.restoreCore hflags.1 hq) (fun _ c1 h1 => ?_) fun _ _ hno => hno
  rw [Prog.wp_zoom]
  exact Prog.wp_mono (ControlPair.restoreUncore h hflags.2 h1) (fun _ c2 h2 => h2)
    fun _ _ hno => hno

/-- Where nothing can be accessed, nothing is changed. -/
theorem haswellRead_inaccessible :
    Prog.Respects (ControlKept.flow M cpu fun _ => False).fst
      (perfmonReadCountersThreadHaswell M thread cpu mask n) := by
  have hC : CountAllowed M (fun dev _ => ¬(dev = msrDev ∧ False)) false := by
    constructor <;> simp
  have hL : FrameLogic M cpu (fun dev _ => ¬(dev = msrDev ∧ False)) (fun _ => True) _ _ _ :=
    ControlKept.logic
  have hwrite : ∀ reg data, Prog.Respects (ControlKept.flow M cpu fun _ => False)
      (checkWrite M cpu msrDev reg data) :=
    fun reg data => hL.checkWrite data fun hno => hno.2
  refine .bind .get fun q => .bind (.onFst ?_) fun flags => .bind (.onFst ?_) fun _ =>
    .bind (.forCells_fst (fun u => hL.haswellReadEvent hC u) n ()) fun _ => .bind (.onFst ?_)
      fun _ => .when fun _ => .onFst (hwrite _ _)
  · exact .ite (fun _ => .bind (hL.checkRead _ _) fun _ => .bind (hwrite _ _) fun _ => .pure _)
      fun _ => .pure _
  · exact hL.hasepFreezeUncore mask _ (fun hno => hno.2) fun hno => hno.2
  · exact .ite (fun _ => hwrite _ _) fun _ => .when fun _ =>
      .bind (hL.checkRead _ _) fun _ => hwrite _ _

theorem nehalemRead_inaccessible :
    Prog.Respects (ControlKept.flow M cpu fun _ => False).fst
      (perfmonReadCountersThreadNehalem M thread cpu mask n) := by
  have hC : CountAllowed M (fun dev _ => ¬(dev = msrDev ∧ False)) false := by
    constructor <;> simp
  have hL : FrameLogic M cpu (fun dev _ => ¬(dev = msrDev ∧ False)) (fun _ => True) _ _ _ :=
    ControlKept.logic
  have hwrite : ∀ reg data, Prog.Respects (ControlKept.flow M cpu fun _ => False)
      (checkWrite M cpu msrDev reg data) :=
    fun reg data => hL.checkWrite data fun hno => hno.2
  refine .bind .get fun q => .bind (.onFst ?_) fun _ => .bind (.onFst ?_) fun _ =>
    .bind (.forCells_fst (fun u => hL.nehalemCountEvent hC u) n ()) fun _ =>
      .bind (.onFst (.when fun _ => hwrite _ _)) fun _ => .onFst (.when fun _ => hwrite _ _)
  · exact .ite (fun _ => .bind (hL.checkRead _ _) fun _ => .bind (hwrite _ _) fun _ => .pure _)
      fun _ => .pure _
  · exact .ite (fun _ => .bind (hL.checkRead _ _) fun _ => .bind (hwrite _ _) fun _ => .pure _)
      fun _ => .pure _

theorem EndsIn.of_respects {F : Core → Core → Prop} {hr : ∀ c, F c c}
    {ht : ∀ a b c, F a b → F b c → F a c} {m : Prog Int (Core × List Slot) Unit}
    {p' : Core × List Slot} (hm : Prog.Respects (Prog.Flow.of F hr ht).fst m)
    (hend : EndsIn m p p') : F p.1 p'.1 := by
  rcases hend with hdone | ⟨r, hret⟩
  · have hdone' := Prog.wp_done (hm p) hdone
    exact hdone'
  · have hret' := Prog.wp_returned (hm p) hret
    exact hret'

theorem frozenUncore_getLsbD :
    (frozenUncore M mask lock u).getLsbD 29 = true ↔
      ¬(lock = true ∧ hasUncore mask ∧ M.model = haswellEP) ∧ u.getLsbD 29 = true := by
  unfold frozenUncore
  by_cases hep : lock = true ∧ hasUncore mask ∧ M.model = haswellEP
  · rw [if_pos hep]
    exact iff_of_false (by decide) fun h => h.1 hep
  · rw [if_neg hep]
    exact ⟨fun hu => ⟨hep, hu⟩, fun h => h.2⟩

theorem unfrozenUncore_getLsbD :
    (unfrozenUncore M mask lock u).getLsbD 29 = true ↔
      (lock = true ∧ hasUncore mask) ∨ u.getLsbD 29 = true := by
  unfold unfrozenUncore
  by_cases hcond : lock = true ∧ hasUncore mask
  · rw [if_pos hcond]
    refine iff_of_true ?_ (Or.inl hcond)
    split
    · decide
    · rw [BitVec.getLsbD_or, show (bit 29).getLsbD 29 = true from by decide, Bool.or_true]
  · rw [if_neg hcond]
    exact ⟨Or.inr, fun h => h.resolve_left hcond⟩

theorem haswellReadKeeps_iff (hpair : ControlPair M cpu (uncoreControl M)) (htab : StatusApart M)
    {p' : Core × List Slot}
    (hend : EndsIn (perfmonReadCountersThreadHaswell M thread cpu mask n) p p') :
    HaswellEnablesKept M cpu p.1 p'.1 ↔ HaswellPauseHarmless M thread cpu mask n p := by
  by_cases hacc : Accessible M cpu p.1
  · have hspec := @haswellRead_controls M thread cpu n mask _ _ _ p hpair htab rfl
      (controls_self hacc)
    unfold HaswellEnablesKept HaswellPauseHarmless Unfrozen
    rcases hend with hdone | ⟨r, hret⟩
    · obtain ⟨hcounted, hctl⟩ := Prog.wp_done hspec hdone
      rw [hctl.global, hctl.uncore, unfrozenUncore_getLsbD, frozenUncore_getLsbD]
      constructor
      · rintro ⟨-, hsame⟩ -
        exact ⟨fun _ hlock huncore => hsame.mp (Or.inl ⟨hlock, huncore⟩),
          fun hfails => absurd hfails hcounted⟩
      · intro hharm
        have hused := (hharm hacc).1 hcounted
        refine ⟨rfl, ?_, ?_⟩
        · rintro (⟨hlock, huncore⟩ | ⟨-, hu⟩)
          · exact hused hlock huncore
          · exact hu
        · intro hu
          by_cases hcond : haveLock M p.1 cpu = true ∧ hasUncore mask
          · exact Or.inl hcond
          · exact Or.inr ⟨fun hep => hcond ⟨hep.1, hep.2.1⟩, hu⟩
    · obtain ⟨hfails, hctl⟩ := Prog.wp_returned hspec hret
      rw [hctl.global, hctl.uncore, frozenUncore_getLsbD]
      constructor
      · rintro ⟨hglobal, hsame⟩ -
        refine ⟨fun hno => absurd hfails hno, fun _ => ⟨fun hcore => ?_, ?_⟩⟩
        · rw [if_pos hcore] at hglobal
          exact hglobal.symm
        · intro hlock huncore hep hu
          exact (hsame.mpr hu).1 ⟨hlock, huncore, hep⟩
      · intro hharm
        obtain ⟨hglobal, huncore⟩ := (hharm hacc).2 hfails
        refine ⟨?_, fun h => h.2, fun hu => ⟨fun hep => ?_, hu⟩⟩
        · split
          · next hcore => exact (hglobal hcore).symm
          · rfl
        · exact huncore hep.1 hep.2.1 hep.2.2 hu
  · have hsame := (EndsIn.of_respects haswellRead_inaccessible hend).inaccessible hacc
    refine iff_of_true ?_ fun h => absurd h hacc
    unfold HaswellEnablesKept Unfrozen
    rw [hsame]
    exact ⟨rfl, Iff.rfl⟩

theorem nehalemReadKeeps_iff (hpair : ControlPair M cpu msrUncorePerfGlobalCtrl)
    (htab : StatusApart M) {p' : Core × List Slot}
    (hend : EndsIn (perfmonReadCountersThreadNehalem M thread cpu mask n) p p') :
    NehalemEnablesKept cpu p.1 p'.1 ↔ NehalemPauseHarmless M thread cpu mask n p := by
  by_cases hacc : Accessible M cpu p.1
  · have hspec := @nehalemRead_controls M thread cpu n mask _ _ _ p hpair htab rfl
      (controls_self hacc)
    unfold NehalemEnablesKept NehalemPauseHarmless
    rcases hend with hdone | ⟨r, hret⟩
    · obtain ⟨hcounted, hctl⟩ := Prog.wp_done hspec hdone
      exact iff_of_true ⟨hctl.global, hctl.uncore⟩ fun _ hfails => absurd hfails hcounted
    · obtain ⟨hfails, hctl⟩ := Prog.wp_returned hspec hret
      rw [hctl.global, hctl.uncore]
      constructor
      · rintro ⟨hglobal, huncore⟩ - -
        refine ⟨fun hcore => ?_, fun hlock hun => ?_⟩
        · rw [if_pos hcore] at hglobal
          exact hglobal.symm
        · rw [if_pos ⟨hlock, hun⟩] at huncore
          exact huncore.symm
      · intro hharm
        obtain ⟨hglobal, huncore⟩ := hharm hacc hfails
        constructor
        · split
          · next hcore => exact (hglobal hcore).symm
          · rfl
        · split
          · next hcond => exact (huncore hcond.1 hcond.2).symm
          · rfl
  · have hsame := (EndsIn.of_respects nehalemRead_inaccessible hend).inaccessible hacc
    refine iff_of_true ?_ fun h => absurd h hacc
    unfold NehalemEnablesKept
    rw [hsame]
    exact ⟨rfl, rfl⟩

/-- **A read leaves the enable registers as it found them** if and only if no counter fails to be
read while counters are enabled and, on Haswell, an uncore it unfreezes was enabled. -/
theorem readKeepsEnables_iff (hans : ControlAnswers M cpu (· ∈ enableRegisters M))
    (htab : StatusApart M) (p p' : Core × List Slot) :
    (EndsIn (perfmonReadCountersThreadHaswell M thread cpu mask n) p p' →
      (HaswellEnablesKept M cpu p.1 p'.1 ↔ HaswellPauseHarmless M thread cpu mask n p)) ∧
    (EndsIn (perfmonReadCountersThreadNehalem M thread cpu mask n) p p' →
      (NehalemEnablesKept cpu p.1 p'.1 ↔ NehalemPauseHarmless M thread cpu mask n p)) := by
  have hpair : ∀ ctl, ctl ≠ msrPerfGlobalCtrl → ctl ∈ enableRegisters M →
      ControlPair M cpu ctl := by
    intro ctl hne hmem
    refine ⟨hne, fun k reg hreg => hans k reg ?_⟩
    rcases List.mem_cons.mp hreg with rfl | hreg
    · exact List.mem_cons_self
    · exact List.mem_singleton.mp hreg ▸ hmem
  constructor
  · exact haswellReadKeeps_iff
      (hpair _ (uncoreControl_ne M).1 (List.mem_cons_of_mem _ List.mem_cons_self)) htab
  · exact nehalemReadKeeps_iff
      (hpair _ (by decide) (List.mem_cons_of_mem _ (List.mem_cons_of_mem _ List.mem_cons_self)))
      htab

end Read

/-! ## A counter that cannot be read -/

/-- CPU 0 counts on its first core counter. -/
def runningCore : Core :=
  { ownerCore with
    regs := fun _ dev reg => if dev = msrDev ∧ reg = msrPerfGlobalCtrl then 1 else 0 }

def runningSlots : List Slot := [some (pmcEntry.setInit 0 true)]

theorem readKeepsEnables_haswell : ∃ p',
    EndsIn (perfmonReadCountersThreadHaswell haswellMachine 0 0 (regTypeMaskOf .pmc) 1)
      (runningCore, runningSlots) p' ∧
    HaswellEnablesKept haswellMachine 0 runningCore p'.1 := by
  have hans : ControlAnswers haswellMachine 0 (· ∈ enableRegisters haswellMachine) :=
    fun _ _ _ => ⟨rfl, fun _ => rfl, fun _ => rfl⟩
  have htab : StatusApart haswellMachine := by
    unfold StatusApart
    decide
  let m := perfmonReadCountersThreadHaswell haswellMachine 0 0 (regTypeMaskOf .pmc) 1
  have hsome : (m.result? (runningCore, runningSlots)).isSome := by decide +kernel
  obtain ⟨⟨⟨⟩, p'⟩, hp'⟩ := Option.isSome_iff_exists.mp hsome
  have hend : EndsIn m (runningCore, runningSlots) p' := Or.inl (Prog.result?_eq_some.mp hp')
  refine ⟨p', hend, ?_⟩
  refine ((readKeepsEnables_iff hans htab (runningCore, runningSlots) p').1 hend).mpr
    fun _ => ⟨?_, ?_⟩
  · intro _ _ huncore
    exact absurd huncore (by decide)
  · rintro ⟨flags, q, r, q', hpause, hloop⟩
    let pause := haswellPause haswellMachine 0 (regTypeMaskOf .pmc) true
    let loop := Prog.forCells (haswellReadEvent haswellMachine 0 0 (regTypeMaskOf .pmc) true) 1 ()
    have hcounted : ((pause >>= fun _ => loop).result? (runningCore, runningSlots)).isSome := by
      decide +kernel
    have hstep : (pause >>= fun _ => loop) (runningCore, runningSlots) = loop q :=
      Prog.bind_of_done hpause
    obtain ⟨x, hx⟩ := Option.isSome_iff_exists.mp hcounted
    have hdone := hstep.symm.trans (Prog.result?_eq_some.mp hx)
    cases hdone.symm.trans hloop

/-- The first core counter cannot be read. -/
def pmcReadFailing : Machine :=
  { haswellMachine with
    accessRead := fun _ _ _ reg => if reg = msrPmc0 then -eio else 0
    errno := fun _ => 5 }

/-- The read returns early, and the counter does not count any more. -/
theorem not_readKeepsEnables_pmc : ∃ p',
    EndsIn (perfmonReadCountersThreadHaswell pmcReadFailing 0 0 (regTypeMaskOf .pmc) 1)
      (runningCore, runningSlots) p' ∧
    ¬HaswellEnablesKept pmcReadFailing 0 runningCore p'.1 := by
  refine ⟨_, Or.inr ⟨5, rfl⟩, ?_⟩
  rintro ⟨hglobal, -⟩
  revert hglobal
  decide +kernel

end Likwid
