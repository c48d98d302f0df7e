import Likwid.Perfmon
import Mathlib.Algebra.Order.Field.Basic
import Mathlib.Algebra.Order.Field.Rat
import Mathlib.Data.Int.Cast.Lemmas

/-!
# The timer (`timer.c`)

`timer_init` measures the cycles that a reading of the time stamp counter costs and keeps the
least as `baseline`. An interval is the difference of two readings less the baseline, and zero
where that is negative; the test for this subtracts the baseline from the later reading, which
wraps around for a reading that is smaller than the baseline.
-/

namespace Likwid

/-! ## The module -/

/-- The static variables of the file -/
structure TimerModule where
  baseline : Word
  cpuClock : Word
  timerInitialized : Bool

/-- What a calibration reads: the counter, and the microseconds of its last interval -/
structure Calibration where
  tsc : ℕ → Word
  elapsed : Word

/-- `MIN` -/
def minWord (a b : Word) : Word := if a < b then a else b

namespace TimerModule

/-- `_timer_printCycles`; `_timer_print` has the same test. -/
def cycles (m : TimerModule) (time : TimerData) : Word :=
  if time.stop - m.baseline < time.start ∨ time.start = time.stop then 0
  else time.stop - time.start - m.baseline

/-- The least of the intervals of the first ten pairs of readings -/
def leastCycles (m : TimerModule) (r : Calibration) : Word :=
  (List.range 10).foldl
    (fun result i => minWord result (m.cycles ⟨r.tsc (2 * i), r.tsc (2 * i + 1)⟩))
    0xFFFFFFFFFFFFFFFF

/-- The least difference of the two pairs around the sleeps -/
def leastDelay (r : Calibration) : Word :=
  (List.range 2).foldl
    (fun result i => minWord result (r.tsc (2 * (10 + i) + 1) - r.tsc (2 * (10 + i))))
    0xFFFFFFFFFFFFFFFF

/-- `getCpuSpeed`, which also sets `baseline`; a division by zero ends the process. -/
def getCpuSpeed (m : TimerModule) (r : Calibration) : Option TimerModule :=
  if r.elapsed = 0 then none
  else some { m with
    baseline := m.leastCycles r
    cpuClock := leastDelay r * 1000000 / r.elapsed }

def timerInit (m : TimerModule) (r : Calibration) : Option TimerModule :=
  if m.timerInitialized then some m
  else
    (if m.cpuClock = 0 then m.getCpuSpeed r else some m).map fun m =>
      { m with timerInitialized := true }

def timerFinalize (m : TimerModule) : TimerModule :=
  if m.timerInitialized then { baseline := 0, cpuClock := 0, timerInitialized := false } else m

def timerPrintCycles (m : TimerModule) (time : TimerData) : Word :=
  if m.timerInitialized then m.cycles time else 0

/-- `timer_print`, for a rounding `fl` to a `double` -/
def timerPrint (m : TimerModule) (fl : ℚ → ℚ) (time : TimerData) : ℚ :=
  if m.timerInitialized then fl (fl (m.cycles time).toNat / fl m.cpuClock.toNat) else 0

/-- The states of the module in any order of its calls -/
inductive Reachable : TimerModule → Prop
  | load : Reachable { baseline := 0, cpuClock := 0, timerInitialized := false }
  | init {m m' : TimerModule} (r : Calibration) (h : Reachable m)
      (hinit : m.timerInit r = some m') : Reachable m'
  | finalize {m : TimerModule} (h : Reachable m) : Reachable m.timerFinalize

/-! ## Calibration -/

section Calibrated

variable {m m' : TimerModule} {r : Calibration}

/-- Before a calibration nothing is subtracted. -/
def Fresh (m : TimerModule) : Prop :=
  m.timerInitialized = false → m.baseline = 0 ∧ m.cpuClock = 0

/-- Before a calibration an interval is the difference of its readings. -/
theorem Fresh.cycles (h : m.Fresh) (hm : m.timerInitialized = false) (time : TimerData) :
    (m.cycles time).toNat = time.stop.toNat - time.start.toNat := by
  have hstart := time.start.isLt
  have hstop := time.stop.isLt
  have hzero : ∀ w : Word, w - 0 = w := fun w => BitVec.sub_zero w
  unfold TimerModule.cycles
  rw [(h hm).1, hzero, hzero]
  by_cases hclamp : time.stop < time.start ∨ time.start = time.stop
  · rw [if_pos hclamp]
    show 0 = _
    rcases hclamp with hlt | heq
    · exact (Nat.sub_eq_zero_of_le (Nat.le_of_lt hlt)).symm
    · rw [heq, Nat.sub_self]
  · rw [if_neg hclamp]
    rw [not_or, BitVec.lt_def] at hclamp
    rw [BitVec.toNat_sub]
    omega

theorem foldl_minWord_self {α : Type} (f : α → Word) (b : Word) (l : List α)
    (h : ∀ a ∈ l, f a = b) : l.foldl (fun result a => minWord result (f a)) b = b := by
  induction l with
  | nil => rfl
  | cons a l ih =>
      have hmin : minWord b (f a) = b := by
        rw [h a List.mem_cons_self]
        exact ite_self b
      rw [List.foldl_cons, hmin]
      exact ih fun a' ha' => h a' (List.mem_cons_of_mem _ ha')

/-- The readings of a machine where each interval is `b` -/
def steady (b elapsed : Word) : Calibration :=
  { tsc := fun n => if n % 2 = 0 then 0 else b, elapsed := elapsed }

theorem leastCycles_steady (b elapsed : Word) :
    (TimerModule.mk 0 0 false).leastCycles (steady b elapsed) = b := by
  have hcycles : ∀ i, (TimerModule.mk 0 0 false).cycles
      ⟨(steady b elapsed).tsc (2 * i), (steady b elapsed).tsc (2 * i + 1)⟩ = b := by
    intro i
    have hstart : (steady b elapsed).tsc (2 * i) = 0 := if_pos (by omega)
    have hstop : (steady b elapsed).tsc (2 * i + 1) = b := if_neg (by omega)
    have hfresh : (TimerModule.mk 0 0 false).Fresh := fun _ => ⟨rfl, rfl⟩
    rw [hstart, hstop]
    refine BitVec.eq_of_toNat_eq ?_
    rw [hfresh.cycles rfl]
    rfl
  have hrange : List.range 10 = 0 :: (List.range 9).map (· + 1) := rfl
  have hmin : minWord 0xFFFFFFFFFFFFFFFF b = b := by
    unfold minWord
    by_cases hlt : (0xFFFFFFFFFFFFFFFF : Word) < b
    · have hb := b.isLt
      rw [BitVec.lt_def] at hlt
      have hall : (0xFFFFFFFFFFFFFFFF : Word).toNat = 2 ^ 64 - 1 := rfl
      omega
    · exact if_neg hlt
  unfold leastCycles
  rw [hrange, List.foldl_cons, hcycles, hmin]
  exact foldl_minWord_self _ b _ fun i _ => hcycles i

theorem exists_calibrated (b : Word) : ∃ m, Reachable m ∧ m.timerInitialized = true ∧
    m.baseline = b :=
  ⟨_, Reachable.init (steady b 1) Reachable.load rfl, rfl, leastCycles_steady b 1⟩

end Calibrated

/-! ## Intervals -/

/-- What is to be measured: the readings' difference less the baseline, or nothing -/
def interval (m : TimerModule) (time : TimerData) : Int :=
  max 0 (time.stop.toNat - time.start.toNat - m.baseline.toNat)

/-- The two functions that report an interval. A clock of 0 Hz divides by zero. -/
structure MeasuresInterval (m : TimerModule) (fl : ℚ → ℚ) (time : TimerData) : Prop where
  cycles : ((m.timerPrintCycles time).toNat : Int) = m.interval time
  seconds : m.cpuClock ≠ 0 →
    m.timerPrint fl time = fl (fl (m.interval time) / fl m.cpuClock.toNat) ∧
      0 ≤ m.timerPrint fl time ∧
      m.timerPrint fl time ≤
        fl (fl (time.stop.toNat - time.start.toNat) / fl m.cpuClock.toNat)

section Intervals

variable {m : TimerModule} {time : TimerData} {fl : ℚ → ℚ}

theorem interval_nonneg : 0 ≤ m.interval time := Int.le_max_left ..

theorem interval_le (h : time.start ≤ time.stop) :
    m.interval time ≤ time.stop.toNat - time.start.toNat := by
  have hle : time.start.toNat ≤ time.stop.toNat := h
  unfold interval
  omega

/-- The clamp is right as long as the later reading is not smaller than the baseline. -/
theorem cycles_eq (h : time.start ≤ time.stop)
    (hb : time.start = time.stop ∨ m.baseline ≤ time.stop) :
    ((m.cycles time).toNat : Int) = m.interval time := by
  have hle : time.start.toNat ≤ time.stop.toNat := h
  have hstop := time.stop.isLt
  unfold TimerModule.cycles interval
  rcases hb with heq | hbase
  · rw [if_pos (Or.inr heq), heq]
    show ((0 : ℕ) : Int) = _
    omega
  · have hbase' : m.baseline.toNat ≤ time.stop.toNat := hbase
    have hsub : (time.stop - m.baseline).toNat = time.stop.toNat - m.baseline.toNat :=
      BitVec.toNat_sub_of_le hbase
    by_cases hclamp : time.stop - m.baseline < time.start ∨ time.start = time.stop
    · rw [if_pos hclamp]
      show ((0 : ℕ) : Int) = _
      rcases hclamp with hlt | heq
      · rw [BitVec.lt_def, hsub] at hlt
        omega
      · rw [heq]
        omega
    · have hdiff : (time.stop - time.start).toNat = time.stop.toNat - time.start.toNat :=
        BitVec.toNat_sub_of_le h
      rw [if_neg hclamp, BitVec.toNat_sub, hdiff]
      rw [not_or, BitVec.lt_def, hsub] at hclamp
      omega

/-- Behind the baseline the subtraction of the test wraps around, and so does the result. -/
theorem cycles_wraps (h : time.start < time.stop) (hb : time.stop < m.baseline) :
    (m.cycles time).toNat =
      2 ^ 64 + (time.stop.toNat - time.start.toNat) - m.baseline.toNat := by
  have hlt : time.start.toNat < time.stop.toNat := h
  have hbase : time.stop.toNat < m.baseline.toNat := hb
  have hm := m.baseline.isLt
  have hdiff : (time.stop - time.start).toNat = time.stop.toNat - time.start.toNat :=
    BitVec.toNat_sub_of_le hlt.le
  have hsub : (time.stop - m.baseline).toNat =
      2 ^ 64 + time.stop.toNat - m.baseline.toNat := by
    rw [BitVec.toNat_sub]
    omega
  have hno : ¬(time.stop - m.baseline < time.start ∨ time.start = time.stop) := by
    rintro (hclamp | heq)
    · rw [BitVec.lt_def, hsub] at hclamp
      omega
    · rw [heq] at hlt
      exact Nat.lt_irrefl _ hlt
  unfold TimerModule.cycles
  rw [if_neg hno, BitVec.toNat_sub, hdiff]
  omega

theorem cycles_eq_iff (h : time.start ≤ time.stop) :
    ((m.cycles time).toNat : Int) = m.interval time ↔
      time.start = time.stop ∨ m.baseline ≤ time.stop := by
  constructor
  · intro hcycles
    by_contra hno
    rw [not_or] at hno
    have hlt : time.start < time.stop := BitVec.lt_of_le_ne h hno.1
    have hbase : time.stop < m.baseline := BitVec.not_le.mp hno.2
    have hwraps := cycles_wraps hlt hbase
    have hstop : time.stop.toNat < m.baseline.toNat := hbase
    have hm := m.baseline.isLt
    rw [hwraps] at hcycles
    unfold interval at hcycles
    omega
  · exact cycles_eq h

/-- For every baseline, which is one of a calibration (`exists_calibrated`) -/
theorem timerPrintCycles_iff (hfl : Monotone fl) (hzero : fl 0 = 0)
    (hinit : m.timerInitialized = true) (h : time.start ≤ time.stop) :
    m.MeasuresInterval fl time ↔ time.start = time.stop ∨ m.baseline ≤ time.stop := by
  have hcount : m.timerPrintCycles time = m.cycles time := if_pos hinit
  have hprint : m.timerPrint fl time = fl (fl (m.cycles time).toNat / fl m.cpuClock.toNat) :=
    if_pos hinit
  have hpos : ∀ x, 0 ≤ x → 0 ≤ fl x := fun x hx => hzero ▸ hfl hx
  have hclock : 0 ≤ fl m.cpuClock.toNat := hpos _ (Nat.cast_nonneg _)
  constructor
  · intro hmeasures
    have hcycles := hmeasures.cycles
    rw [hcount] at hcycles
    exact (cycles_eq_iff h).mp hcycles
  · intro hbase
    have hcycles := (cycles_eq_iff h).mpr hbase
    have hvalue : (((m.cycles time).toNat : ℕ) : ℚ) = (m.interval time : ℚ) := by
      rw [← hcycles, Int.cast_natCast]
    have hnonneg : (0 : ℚ) ≤ m.interval time := by
      exact_mod_cast interval_nonneg
    have hle : (m.interval time : ℚ) ≤ time.stop.toNat - time.start.toNat := by
      have hint : m.interval time ≤ _ := interval_le h
      exact_mod_cast hint
    constructor
    case cycles => rw [hcount, hcycles]
    case seconds =>
      intro _
      rw [hprint, hvalue]
      refine ⟨rfl, hpos _ (div_nonneg (hpos _ hnonneg) hclock), hfl ?_⟩
      exact div_le_div_of_nonneg_right (hfl hle) hclock

theorem timerPrintCycles_iff_steady :
    ∃ m : TimerModule, m.baseline = 100 ∧ m.MeasuresInterval id ⟨1000, 5000⟩ := by
  have hbase : (1000 : Word) = 5000 ∨
      (TimerModule.mk 0 0 false).leastCycles (steady 100 1) ≤ 5000 := by
    rw [leastCycles_steady]
    exact Or.inr (by decide)
  exact ⟨{ baseline := (TimerModule.mk 0 0 false).leastCycles (steady 100 1),
           cpuClock := 2000000000,
           timerInitialized := true }, leastCycles_steady 100 1,
    (timerPrintCycles_iff monotone_id rfl rfl (by decide)).mpr hbase⟩

/-- An interval of 10 cycles with a baseline of 100 -/
theorem timerPrintCycles_wraps : ∃ m : TimerModule, Reachable m ∧ m.timerInitialized = true ∧
    ¬m.MeasuresInterval id ⟨10, 20⟩ := by
  obtain ⟨m, hm, hinit, hb⟩ := exists_calibrated 100
  refine ⟨m, hm, hinit, fun hmeasures => ?_⟩
  have hcycles := hmeasures.cycles
  have hcount : m.timerPrintCycles ⟨10, 20⟩ = m.cycles ⟨10, 20⟩ := if_pos hinit
  have hbase : (20 : Word) < m.baseline := by
    rw [hb]
    decide
  have hwraps : (m.cycles ⟨10, 20⟩).toNat = _ := cycles_wraps (by decide) hbase
  rw [hcount, hwraps, interval, hb] at hcycles
  exact absurd hcycles (by decide)

end Intervals

end TimerModule

end Likwid
