import Likwid.CounterFlow
import Likwid.Interlagos
import Likwid.SandyBridge.Count
import Likwid.UncoreReset

/-!
# Reading and stopping alike

A read and a stop of the same state, on Sandy Bridge and on Interlagos. Each has a switch of its
own, and what the two record differs for the counters that one of them reads without asking for the
lock, and for those whose `case` in the read has no `break` (`readStopAlike_iff`).
-/

namespace Likwid

variable {M : Machine} {thread cpu n : ℕ} {mask : BitVec 128} {lock : Bool}
  {content : PciDeviceIndex → ℕ → Word} {row : RegisterMap} {e e' : PerfmonEventSetEntry}
  {c c' : Core}

/-! ## What the counters hold -/

/-- Whenever `cpu` reads the register, it finds `x`. -/
def FindsIn (M : Machine) (cpu : ℕ) (dev : PciDeviceIndex) (reg : ℕ) (x : Word) : Prop :=
  ∀ n v, M.accessData n dev cpu reg v = x

/-- The counters of the table and the status register hold `content`, as far as `cpu` can see. -/
structure Holds (M : Machine) (cpu : ℕ) (content : PciDeviceIndex → ℕ → Word) : Prop where
  counter : ∀ row ∈ M.counterMap, ∀ dev,
    FindsIn M cpu dev row.counterRegister (content dev row.counterRegister)
  counter2 : ∀ row ∈ M.counterMap, ∀ dev,
    FindsIn M cpu dev row.counterRegister2 (content dev row.counterRegister2)
  status : FindsIn M cpu msrDev msrPerfGlobalStatus (content msrDev msrPerfGlobalStatus)

theorem checkRead_finds {dev : PciDeviceIndex} {reg : ℕ} {x : Word}
    (h : FindsIn M cpu dev reg x) :
    (checkRead M cpu dev reg).wp (fun v _ => v = x) (fun _ _ => True) c := by
  show Prog.wp (do
    checkAndReturnError M (readAnswer M c cpu dev reg).1
    pure (readAnswer M c cpu dev reg).2) _ _ (c.log _)
  unfold checkAndReturnError
  simp only [Prog.wp_bind, Prog.wp_get, Prog.wp_when, Prog.wp_ret, Prog.wp_pure]
  refine ⟨fun _ => trivial, fun hnonneg => ?_⟩
  -- an access that is refused returns a negative code
  unfold readAnswer at hnonneg ⊢
  by_cases hdev : maxNumPciDevices ≤ dev
  · rw [if_pos hdev] at hnonneg
    exact absurd (by decide) hnonneg
  rw [if_neg hdev] at hnonneg ⊢
  by_cases hcpu : M.numHWThreads ≤ cpu
  · rw [if_pos hcpu] at hnonneg
    exact absurd (by decide) hnonneg
  rw [if_neg hcpu] at hnonneg ⊢
  by_cases hreg : c.registeredCpuList cpu = false
  · rw [if_pos hreg] at hnonneg
    exact absurd (by decide) hnonneg
  rw [if_neg hreg]
  exact h _ _

/-! ## One round -/

/-- `e'` is `e` with `k` more overflows. -/
def Tallied (thread k : ℕ) (e e' : PerfmonEventSetEntry) : Prop :=
  e'.threadCounter thread =
    { e.threadCounter thread with overflows := (e.threadCounter thread).overflows + k }

theorem Tallied.refl (e : PerfmonEventSetEntry) : Tallied thread 0 e e := by
  simp [Tallied]

theorem Tallied.addOverflow {k : ℕ} (h : Tallied thread k e e') :
    Tallied thread (k + 1) e (e'.addOverflow thread) := by
  unfold Tallied at *
  rw [PerfmonEventSetEntry.addOverflow, PerfmonEventSetEntry.onCounter_self, h]
  simp [Int.add_assoc]

theorem Tallied.counterData {k : ℕ} (h : Tallied thread k e e') :
    (e'.threadCounter thread).counterData = (e.threadCounter thread).counterData := by
  rw [h]

/-- What a switch makes of an event: the value it takes for the count, and how often it counts an
overflow -/
def Takes (thread : ℕ) (switch : EventProg Word) (c : Core) (e : PerfmonEventSetEntry) (x : Word)
    (k : ℕ) : Prop :=
  switch.wp (fun v q => v = x ∧ Tallied thread k e q.2) (fun _ _ => True) (c, e)

/-- The counter goes backwards. -/
def Recedes (thread : ℕ) (x : Word) (e : PerfmonEventSetEntry) : Prop :=
  x < (e.threadCounter thread).counterData

instance (x : Word) : Decidable (Recedes thread x e) := inferInstanceAs (Decidable (_ < _))

theorem snbCheckOverflow_tallied {x : Word} {k : ℕ} {e₀ : PerfmonEventSetEntry}
    (h : Tallied thread k e₀ e) :
    (snbCheckOverflow thread x).wp
      (fun _ q => Tallied thread (k + if Recedes thread x e₀ then 1 else 0) e₀ q.2)
      (fun _ _ => True) (c, e) := by
  unfold snbCheckOverflow
  rw [Prog.wp_bind, Prog.wp_get, Prog.wp_when, h.counterData]
  constructor
  · intro hless
    rw [if_pos (show Recedes thread x e₀ from hless)]
    exact Prog.wp_zoom.mpr h.addOverflow
  · intro hnot
    rw [if_neg (show ¬Recedes thread x e₀ from hnot)]
    exact h

theorem takes_checked {m : Prog Int Core Word} {x : Word}
    (h : m.wp (fun v _ => v = x) (fun _ _ => True) c) :
    Takes thread (do
      let result ← Prog.onFst m
      snbCheckOverflow thread result
      pure result) c e x (if Recedes thread x e then 1 else 0) := by
  unfold Takes
  rw [Prog.wp_bind, Prog.wp_zoom]
  refine Prog.wp_mono h (fun v c₁ hv => ?_) fun _ _ _ => trivial
  subst hv
  rw [Prog.wp_bind]
  refine Prog.wp_mono (snbCheckOverflow_tallied (Tallied.refl e)) (fun _ q hq => ?_)
    fun _ _ _ => trivial
  rw [Nat.zero_add] at hq
  exact ⟨rfl, hq⟩

theorem snbReadBox_finds {id : RegisterType} {reg : ℕ} {result x : Word}
    (hx : FindsIn M cpu msrDev reg x) :
    (snbReadBox M cpu mask lock id reg result).wp
      (fun v _ => v = if lock = true ∧ hasType mask id then x else result) (fun _ _ => True) c := by
  unfold snbReadBox
  split
  · exact checkRead_finds hx
  · rfl

theorem snbReadPciBox_finds {id : RegisterType} {dev : PciDeviceIndex} {reg1 reg2 : ℕ}
    {x y : Word} (hx : FindsIn M cpu dev reg1 x) (hy : FindsIn M cpu dev reg2 y) :
    (snbReadPciBox M cpu mask lock id dev reg1 reg2 0).wp
      (fun v _ => v = if lock = true ∧ hasType mask id ∧ hpmCheck M c dev cpu ≠ 0 then
        (x <<< 32) + y else 0) (fun _ _ => True) c := by
  unfold snbReadPciBox
  rw [Prog.wp_bind, Prog.wp_get]
  split
  · rw [Prog.wp_bind]
    refine Prog.wp_mono (checkRead_finds hx) (fun v c₁ hv => ?_) fun _ _ _ => trivial
    rw [Prog.wp_bind]
    refine Prog.wp_mono (checkRead_finds hy) (fun w c₂ hw => ?_) fun _ _ _ => trivial
    rw [hv, hw]
    rfl
  · rfl

theorem snbCoreCounter_takes {reg offset : ℕ} {x status : Word}
    (hx : FindsIn M cpu msrDev reg x) (hstatus : FindsIn M cpu msrDev msrPerfGlobalStatus status) :
    Takes thread (snbCoreCounter M thread cpu reg offset) c e x
      (if Recedes thread x e ∧ status &&& bit offset ≠ 0 then 1 else 0) := by
  unfold Takes snbCoreCounter
  rw [Prog.wp_bind, Prog.wp_zoom]
  refine Prog.wp_mono (checkRead_finds hx) (fun v c₁ hv => ?_) fun _ _ _ => trivial
  subst hv
  rw [Prog.wp_bind, Prog.wp_get, Prog.wp_bind, Prog.wp_when]
  constructor
  · intro hless
    rw [Prog.wp_bind, Prog.wp_zoom]
    refine Prog.wp_mono (checkRead_finds hstatus) (fun ovf c₂ hovf => ?_) fun _ _ _ => trivial
    subst hovf
    rw [Prog.wp_when]
    constructor
    · intro hset
      rw [if_pos ⟨show Recedes thread v e from hless, hset⟩, Prog.wp_bind, Prog.wp_zoom]
      refine Prog.wp_zoom.mpr (Prog.wp_mono (Prog.wp_trivial _) (fun _ _ _ => ?_)
        fun _ _ _ => trivial)
      exact ⟨rfl, (Tallied.refl e).addOverflow⟩
    · intro hclear
      rw [if_neg fun h => hclear h.2]
      exact ⟨rfl, Tallied.refl e⟩
  · intro hnot
    rw [if_neg fun h => hnot h.1]
    exact ⟨rfl, Tallied.refl e⟩

/-! ## The switches of Sandy Bridge -/

/-- The units the switches count in -/
def SandyBridgeUnit.Counts (unit : SandyBridgeUnit) : Prop :=
  unit ∉ [.power, .thermal, .sboxfix, .other]

instance (unit : SandyBridgeUnit) : Decidable unit.Counts := inferInstanceAs (Decidable (_ ∉ _))

/-- What the read (`stop` off), or the stop, takes for the count -/
def snbCount (M : Machine) (cpu : ℕ) (content : PciDeviceIndex → ℕ → Word) (c : Core)
    (lock stop : Bool) (row : RegisterMap) : SandyBridgeUnit → Word
  | .mbox | .mboxfix | .sbox0 | .sbox1 | .bbox0 | .rbox | .pbox =>
      if lock = true ∧ hpmCheck M c row.device cpu ≠ 0 then
        (content row.device row.counterRegister <<< 32) + content row.device row.counterRegister2
      else 0
  | .cbox | .wbox | .wboxfix => if lock = true then content msrDev row.counterRegister else 0
  | .ubox | .uboxfix =>
      if lock = true ∨ stop = true then content msrDev row.counterRegister else 0
  | _ => content msrDev row.counterRegister

/-- How often it counts an overflow if the count is `x` -/
def snbWraps (M : Machine) (thread : ℕ) (content : PciDeviceIndex → ℕ → Word) (lock stop : Bool)
    (e : PerfmonEventSetEntry) (x : Word) : SandyBridgeUnit → ℕ
  | .pmc =>
      if Recedes thread x e ∧
        content msrDev msrPerfGlobalStatus &&& bit (e.index - M.perfNumFixedCtr) ≠ 0 then 1 else 0
  | .fixed =>
      if Recedes thread x e ∧ content msrDev msrPerfGlobalStatus &&& bit (e.index + 32) ≠ 0 then 1
      else 0
  | .ubox | .uboxfix =>
      if Recedes thread x e then (if lock = true ∧ stop = false then 2 else 1) else 0
  | _ => if Recedes thread x e then 1 else 0

section SandyBridge

variable (hM : Holds M cpu content) (hrow : row ∈ M.counterMap)

include hM hrow

theorem snbBox_takes (hmask : hasType mask e.type) :
    Takes thread (do
      let result ← Prog.onFst (snbReadBox M cpu mask lock e.type row.counterRegister 0)
      snbCheckOverflow thread result
      pure result) c e (if lock = true then content msrDev row.counterRegister else 0)
      (if Recedes thread (if lock = true then content msrDev row.counterRegister else 0) e then 1
        else 0) := by
  refine takes_checked (Prog.wp_mono (snbReadBox_finds (hM.counter row hrow msrDev))
    (fun v _ hv => ?_) fun _ _ _ => trivial)
  simpa only [hmask, and_true] using hv

theorem snbPciBox_takes (hmask : hasType mask e.type) (stop : Bool) :
    Takes thread (do
      let result ← Prog.onFst (snbReadPciBox M cpu mask lock e.type row.device
        row.counterRegister row.counterRegister2 0)
      snbCheckOverflow thread result
      pure result) c e (snbCount M cpu content c lock stop row .mbox)
      (if Recedes thread (snbCount M cpu content c lock stop row .mbox) e then 1 else 0) := by
  refine takes_checked (Prog.wp_mono (snbReadPciBox_finds (hM.counter row hrow row.device)
    (hM.counter2 row hrow row.device)) (fun v _ hv => ?_) fun _ _ _ => trivial)
  simpa only [snbCount, hmask, true_and] using hv

theorem snbUboxStop_takes :
    Takes thread (do
      let result ← Prog.onFst (checkRead M cpu msrDev row.counterRegister)
      snbCheckOverflow thread result
      pure result) c e (content msrDev row.counterRegister)
      (if Recedes thread (content msrDev row.counterRegister) e then 1 else 0) :=
  takes_checked (checkRead_finds (hM.counter row hrow msrDev))

/-- The read checks them, runs on into the case of `CBOX0` and checks them again. -/
theorem snbUboxRead_takes :
    Takes thread (sandyBridgeReadCase M thread cpu mask lock e row .ubox) c e
      (snbCount M cpu content c lock false row .ubox)
      (snbWraps M thread content lock false e (snbCount M cpu content c lock false row .ubox)
        .ubox) := by
  unfold Takes
  show Prog.wp (do
    let result ←
      if lock = true then do
        let result ← Prog.onFst (checkRead M cpu msrDev row.counterRegister)
        snbCheckOverflow thread result
        pure result
      else pure 0
    let result ← Prog.onFst (snbReadBox M cpu mask lock .cbox0 row.counterRegister result)
    snbCheckOverflow thread result
    pure result) _ _ (c, e)
  have hfinds := hM.counter row hrow msrDev
  cases lock with
  | true =>
    rw [if_pos rfl, Prog.wp_bind, Prog.wp_zoom]
    refine Prog.wp_mono (checkRead_finds hfinds) (fun v c₁ hv => ?_) fun _ _ _ => trivial
    subst hv
    rw [Prog.wp_bind]
    refine Prog.wp_mono (snbCheckOverflow_tallied (Tallied.refl e)) (fun _ q htally => ?_)
      fun _ _ _ => trivial
    rw [Nat.zero_add] at htally
    rw [Prog.bind_pure_left, Prog.wp_bind, Prog.wp_zoom]
    refine Prog.wp_mono (snbReadBox_finds hfinds) (fun v c₂ hv => ?_) fun _ _ _ => trivial
    rw [ite_self] at hv
    subst hv
    rw [Prog.wp_bind]
    refine Prog.wp_mono (snbCheckOverflow_tallied htally) (fun _ r hr => ?_) fun _ _ _ => trivial
    refine ⟨by simp [snbCount], ?_⟩
    simp only [snbCount, snbWraps, true_or, if_true, and_self]
    split at hr
    · rwa [if_pos ‹_›]
    · rwa [if_neg ‹_›]
  | false =>
    rw [if_neg (by decide), Prog.bind_pure_left, Prog.wp_bind, Prog.wp_zoom]
    refine Prog.wp_mono (snbReadBox_finds hfinds) (fun v c₂ hv => ?_) fun _ _ _ => trivial
    rw [if_neg (by simp)] at hv
    subst hv
    rw [Prog.wp_bind]
    refine Prog.wp_mono (snbCheckOverflow_tallied (Tallied.refl e)) (fun _ r hr => ?_)
      fun _ _ _ => trivial
    rw [Nat.zero_add] at hr
    refine ⟨by simp [snbCount], ?_⟩
    simpa [snbCount, snbWraps] using hr

theorem sandyBridgeReadCase_takes (hmask : hasType mask e.type) (unit : SandyBridgeUnit)
    (hunit : unit.Counts) :
    Takes thread (sandyBridgeReadCase M thread cpu mask lock e row unit) c e
      (snbCount M cpu content c lock false row unit)
      (snbWraps M thread content lock false e (snbCount M cpu content c lock false row unit)
        unit) := by
  cases unit with
  | pmc | fixed => exact snbCoreCounter_takes (hM.counter row hrow msrDev) hM.status
  | mbox | mboxfix | sbox0 | sbox1 | bbox0 | rbox | pbox =>
    exact snbPciBox_takes hM hrow hmask false
  | cbox | wbox | wboxfix => exact snbBox_takes hM hrow hmask
  | ubox | uboxfix => exact snbUboxRead_takes hM hrow
  | power | thermal | sboxfix | other => exact absurd hunit (by decide)

theorem sandyBridgeStopCase_takes (hmask : hasType mask e.type) (unit : SandyBridgeUnit)
    (hunit : unit.Counts) :
    Takes thread (sandyBridgeStopCase M thread cpu mask lock e row unit) c e
      (snbCount M cpu content c lock true row unit)
      (snbWraps M thread content lock true e (snbCount M cpu content c lock true row unit)
        unit) := by
  cases unit with
  | pmc | fixed => exact snbCoreCounter_takes (hM.counter row hrow msrDev) hM.status
  | mbox | mboxfix | sbox0 | sbox1 | bbox0 | rbox | pbox =>
    exact snbPciBox_takes hM hrow hmask true
  | cbox | wbox | wboxfix => exact snbBox_takes hM hrow hmask
  | ubox | uboxfix =>
    have htakes := @snbUboxStop_takes M thread cpu content row e c hM hrow
    simp only [snbCount, snbWraps, or_true, if_true, Bool.true_eq_false, and_false, if_false]
    exact htakes
  | power | thermal | sboxfix | other => exact absurd hunit (by decide)

end SandyBridge

/-! ## The two architectures -/

/-- The architectures whose read and stop are two switches -/
inductive CountArch where
  | sandybridge
  | interlagos
deriving DecidableEq, Repr

namespace CountArch

def start (M : Machine) : CountArch → ThreadRoutine
  | .sandybridge => perfmonStartCountersThreadSandybridge M
  | .interlagos => perfmonStartCountersThreadInterlagos M

def read (M : Machine) : CountArch → ThreadRoutine
  | .sandybridge => perfmonReadCountersThreadSandybridge M
  | .interlagos => perfmonReadCountersThreadInterlagos M

def stop (M : Machine) : CountArch → ThreadRoutine
  | .sandybridge => perfmonStopCountersThreadSandybridge M
  | .interlagos => perfmonStopCountersThreadInterlagos M

def coreTypes : CountArch → List RegisterType
  | .sandybridge => [.pmc, .fixed]
  | .interlagos => [.pmc]

/-- The counters of the uncore. The rate of a link, in `SBOX0FIX` and `SBOX1FIX`, is no count. -/
def uncoreTypes : CountArch → List RegisterType
  | .sandybridge =>
      [.cbox0, .cbox1, .cbox2, .cbox3, .cbox4, .cbox5, .cbox6, .cbox7, .ubox, .uboxfix,
       .mbox0, .mbox1, .mbox2, .mbox3, .mbox0fix, .mbox1fix, .mbox2fix, .mbox3fix, .bbox0,
       .sbox0, .sbox1, .rbox0, .rbox1, .pbox, .wbox, .wbox0fix, .wbox1fix]
  | .interlagos => [.uncore]

/-- The types that the read checks twice -/
def recheckedTypes : CountArch → List RegisterType
  | .sandybridge => [.ubox, .uboxfix]
  | .interlagos => []

/-- The types that the stop, or the read, reads without the lock -/
def unguardedTypes : CountArch → List RegisterType
  | .sandybridge => [.ubox, .uboxfix]
  | .interlagos => [.uncore]

/-- What the read (`stop` off), or the stop, takes for the count -/
def count (M : Machine) (cpu : ℕ) (content : PciDeviceIndex → ℕ → Word) (c : Core)
    (lock stop : Bool) (row : RegisterMap) (type : RegisterType) : CountArch → Word
  | .sandybridge => snbCount M cpu content c lock stop row (sandyBridgeUnit type)
  | .interlagos =>
      if type = .pmc ∨ lock = true ∨ stop = false then content msrDev row.counterRegister else 0

def wraps (M : Machine) (thread : ℕ) (content : PciDeviceIndex → ℕ → Word) (lock stop : Bool)
    (e : PerfmonEventSetEntry) (x : Word) : CountArch → ℕ
  | .sandybridge => snbWraps M thread content lock stop e x (sandyBridgeUnit e.type)
  | .interlagos => 0

/-- One round of the loop -/
def round (M : Machine) (thread cpu : ℕ) (mask : BitVec 128) (lock stop : Bool) :
    CountArch → Unit → EventProg Unit
  | .sandybridge => sandyBridgeCountEvent M thread mask
      (if stop = true then sandyBridgeStopCase M thread cpu mask lock
        else sandyBridgeReadCase M thread cpu mask lock)
  | .interlagos => interlagosCountEvent M thread mask
      (if stop = true then interlagosStopCase M cpu lock else interlagosReadCase M cpu)

end CountArch

/-- The record of `e'` is that of `e` with the count `x` and `k` more overflows. -/
def Records (thread : ℕ) (e e' : PerfmonEventSetEntry) (x : Word) (k : ℕ) : Prop :=
  e'.threadCounter thread =
    { e.threadCounter thread with
      overflows := (e.threadCounter thread).overflows + k
      counterData := x }

theorem Tallied.records {k : ℕ} (h : Tallied thread k e e') (x : Word) :
    Records thread e (e'.setCounter thread x) x k := by
  unfold Tallied Records at *
  rw [PerfmonEventSetEntry.setCounter, PerfmonEventSetEntry.onCounter_self, h]

section Rounds

variable (hrow : M.counterMap[e.index]? = some row)
  (hevent : (e.threadCounter thread).init = true ∧ hasType mask e.type)

include hrow hevent

theorem sandyBridgeCountEvent_records {x : Word} {k : ℕ}
    {switch : PerfmonEventSetEntry → RegisterMap → SandyBridgeUnit → EventProg Word}
    (htakes : Takes thread (switch e row (sandyBridgeUnit e.type)) c e x k) :
    (sandyBridgeCountEvent M thread mask switch ()).wp
      (fun _ q => Records thread e q.2 (field64 x 0 (M.boxMap e.type).regWidth) k)
      (fun _ _ => True) (c, e) := by
  unfold sandyBridgeCountEvent counterMap
  rw [Prog.wp_bind, Prog.wp_get, Prog.when_of_pos hevent, Prog.wp_bind, Prog.wp_orUndefined]
  intro row' hrow'
  obtain rfl : row = row' := Option.some.inj (hrow.symm.trans hrow')
  rw [Prog.wp_bind]
  refine Prog.wp_mono htakes (fun v q hq => ?_) fun _ _ _ => trivial
  obtain ⟨rfl, htally⟩ := hq
  exact Prog.wp_zoom.mpr (htally.records _)

theorem interlagosCountEvent_records {x : Word}
    {switch : RegisterMap → InterlagosUnit → Prog Int Core Word}
    (htakes : (switch row (interlagosUnit e.type)).wp (fun v _ => v = x) (fun _ _ => True) c) :
    (interlagosCountEvent M thread mask switch ()).wp
      (fun _ q => Records thread e q.2 (field64 x 0 (M.boxMap e.type).regWidth) 0)
      (fun _ _ => True) (c, e) := by
  unfold interlagosCountEvent counterMap
  rw [Prog.wp_bind, Prog.wp_get, Prog.when_of_pos hevent, Prog.wp_bind, Prog.wp_orUndefined]
  intro row' hrow'
  obtain rfl : row = row' := Option.some.inj (hrow.symm.trans hrow')
  rw [Prog.wp_bind, Prog.wp_zoom]
  refine Prog.wp_mono htakes (fun v q hq => ?_) fun _ _ _ => trivial
  subst hq
  exact Prog.wp_zoom.mpr ((Tallied.refl e).records _)

end Rounds

theorem interlagosStopCounter_finds {x : Word} (h : FindsIn M cpu msrDev row.counterRegister x) :
    (interlagosStopCounter M cpu row).wp (fun v _ => v = x) (fun _ _ => True) c := by
  unfold interlagosStopCounter
  rw [Prog.wp_bind]
  refine Prog.wp_mono (Prog.wp_trivial _) (fun _ _ _ => ?_) fun _ _ _ => trivial
  rw [Prog.wp_bind]
  refine Prog.wp_mono (Prog.wp_trivial _) (fun _ _ _ => ?_) fun _ _ _ => trivial
  exact checkRead_finds h

namespace CountArch

variable {A : CountArch}

/-- **One round** records what the switch of the architecture takes. -/
theorem round_records {stop : Bool} (hM : Holds M cpu content)
    (hrow : M.counterMap[e.index]? = some row)
    (hevent : (e.threadCounter thread).init = true ∧ hasType mask e.type)
    (htype : e.type ∈ A.coreTypes ++ A.uncoreTypes) :
    (A.round M thread cpu mask lock stop ()).wp
      (fun _ q => Records thread e q.2
        (field64 (A.count M cpu content c lock stop row e.type) 0 (M.boxMap e.type).regWidth)
        (A.wraps M thread content lock stop e (A.count M cpu content c lock stop row e.type)))
      (fun _ _ => True) (c, e) := by
  have hmem := List.mem_of_getElem? hrow
  cases A with
  | sandybridge =>
    have hunit : (sandyBridgeUnit e.type).Counts := by
      revert htype
      cases e.type <;> decide
    refine sandyBridgeCountEvent_records hrow hevent ?_
    cases stop with
    | false => exact sandyBridgeReadCase_takes hM hmem hevent.2 _ hunit
    | true => exact sandyBridgeStopCase_takes hM hmem hevent.2 _ hunit
  | interlagos =>
    refine interlagosCountEvent_records hrow hevent ?_
    have hfinds := hM.counter row hmem msrDev
    have hcases : e.type = .pmc ∨ e.type = .uncore := by
      simpa [coreTypes, uncoreTypes] using htype
    unfold count
    rcases hcases with hpmc | huncore
    · rw [if_pos (Or.inl hpmc), hpmc]
      cases stop with
      | false => exact checkRead_finds hfinds
      | true => exact interlagosStopCounter_finds hfinds
    · rw [huncore]
      cases stop with
      | false =>
        rw [if_pos (Or.inr (Or.inr rfl))]
        exact checkRead_finds hfinds
      | true =>
        cases lock with
        | false => rfl
        | true =>
          rw [if_pos (Or.inr (Or.inl rfl))]
          exact interlagosStopCounter_finds hfinds

end CountArch

/-! ## The loops -/

/-- The CPUs that are registered, and the locks, stay as they are. -/
abbrev StandingKept (M : Machine) (cpu : ℕ) : Core → Core → Prop :=
  ControlKept M cpu fun _ => False

section Kept

variable {W : PciDeviceIndex → ℕ → Prop} {S : RegisterIndex → Prop} {R : Core → Core → Prop}
  {hr : ∀ c, R c c} {ht : ∀ a b c, R a b → R b c → R a c}

theorem snbChecked_respects {m : Prog Int Core Word}
    (hm : Prog.Respects (Prog.Flow.of R hr ht) m) :
    Prog.Respects (Prog.Flow.of R hr ht).fst (do
      let result ← Prog.onFst m
      snbCheckOverflow thread result
      pure result : EventProg Word) :=
  .bind (.onFst hm) fun _ => .bind (.bind .get fun _ => .when fun _ => counting_record _)
    fun _ => .pure _

variable (L : FrameLogic M cpu W S R hr ht)

include L

namespace CoreLogic

theorem snbReadBox (id : RegisterType) (reg : ℕ) (result : Word) :
    Prog.Respects (Prog.Flow.of R hr ht) (snbReadBox M cpu mask lock id reg result) :=
  .ite (fun _ => L.checkRead _ _) fun _ => .pure _

theorem snbReadPciBox (id : RegisterType) (dev : PciDeviceIndex) (reg1 reg2 : ℕ) (result : Word) :
    Prog.Respects (Prog.Flow.of R hr ht)
      (snbReadPciBox M cpu mask lock id dev reg1 reg2 result) :=
  .bind .get fun _ => .ite (fun _ => .bind (L.checkRead _ _) fun _ => .bind (L.checkRead _ _)
    fun _ => .pure _) fun _ => .pure _

theorem snbPower (reg : ℕ) :
    Prog.Respects (Prog.Flow.of R hr ht).fst (snbPower M thread cpu lock reg) :=
  .ite (fun _ => .bind (.onFst (L.powerRead _)) fun _ => .bind (.onFst (L.check _)) fun _ =>
    .bind (.bind .get fun _ => .when fun _ => counting_record _) fun _ => .pure _) fun _ => .pure _

theorem snbThermal : Prog.Respects (Prog.Flow.of R hr ht).fst (snbThermal M cpu) :=
  .bind (.onFst L.thermalRead) fun _ => .bind (.onFst (L.check _)) fun _ => .pure _

section Status

variable (hW : W msrDev msrPerfGlobalOvfCtrl)

include hW

theorem snbCoreCounter (reg offset : ℕ) :
    Prog.Respects (Prog.Flow.of R hr ht).fst (snbCoreCounter M thread cpu reg offset) :=
  .bind (.onFst (L.checkRead _ _)) fun _ => .bind .get fun _ => .bind (.when fun _ =>
    .bind (.onFst (L.checkRead _ _)) fun _ => .when fun _ => .bind (counting_record _)
      fun _ => .onFst (L.checkWrite _ hW)) fun _ => .pure _

theorem sandyBridgeStopCase (unit : SandyBridgeUnit) :
    Prog.Respects (Prog.Flow.of R hr ht).fst
      (sandyBridgeStopCase M thread cpu mask lock e row unit) := by
  cases unit with
  | pmc | fixed => exact L.snbCoreCounter hW _ _
  | power => exact L.snbPower _
  | thermal => exact L.snbThermal
  | mbox | mboxfix | sbox0 | sbox1 | bbox0 | rbox | pbox =>
    exact snbChecked_respects (L.snbReadPciBox _ _ _ _ _)
  | sboxfix =>
    exact .bind .get fun _ => .ite (fun _ => .bind (.onFst (L.read _ _)) fun _ => .pure _)
      fun _ => .pure _
  | cbox | wbox | wboxfix => exact snbChecked_respects (L.snbReadBox _ _ _)
  | ubox | uboxfix => exact snbChecked_respects (L.checkRead _ _)
  | other => exact .pure _

theorem sandyBridgeReadCase (unit : SandyBridgeUnit) :
    Prog.Respects (Prog.Flow.of R hr ht).fst
      (sandyBridgeReadCase M thread cpu mask lock e row unit) := by
  cases unit with
  | pmc | fixed => exact L.snbCoreCounter hW _ _
  | power => exact L.snbPower _
  | thermal => exact L.snbThermal
  | mbox | mboxfix | sbox0 | sbox1 | bbox0 | rbox | pbox =>
    exact snbChecked_respects (L.snbReadPciBox _ _ _ _ _)
  | sboxfix =>
    exact .bind (.onFst (L.read _ _)) fun _ => .bind (counting_record _) fun _ => .pure _
  | cbox | wbox | wboxfix => exact snbChecked_respects (L.snbReadBox _ _ _)
  | ubox | uboxfix =>
    have hlast : ∀ result, Prog.Respects (Prog.Flow.of R hr ht).fst (do
        let result ← Prog.onFst (Likwid.snbReadBox M cpu mask lock .cbox0 row.counterRegister
          result)
        snbCheckOverflow thread result
        pure result : EventProg Word) :=
      fun result => snbChecked_respects (L.snbReadBox _ _ result)
    exact .ite (fun _ => .bind (.onFst (L.checkRead _ _)) fun _ => .bind
      (.bind .get fun _ => .when fun _ => counting_record _) fun _ => .bind (.pure _) hlast)
      fun _ => .bind (.pure _) hlast
  | other => exact .pure _

end Status

variable (hW : ∀ dev reg, W dev reg)

include hW

theorem interlagosStopCounter :
    Prog.Respects (Prog.Flow.of R hr ht) (interlagosStopCounter M cpu row) :=
  .bind (L.checkRead _ _) fun _ => .bind (L.checkWrite _ (hW _ _)) fun _ => L.checkRead _ _

theorem countArchRound (A : CountArch) (stop : Bool) (u : Unit) :
    Prog.Respects (Prog.Flow.of R hr ht).fst (A.round M thread cpu mask lock stop u) := by
  cases A with
  | sandybridge =>
    refine .bind .get fun _ => .when fun _ => counting_row fun row _ => .bind ?_ fun _ =>
      counting_record _
    cases stop with
    | false => exact L.sandyBridgeReadCase (hW _ _) _
    | true => exact L.sandyBridgeStopCase (hW _ _) _
  | interlagos =>
    refine .bind .get fun _ => .when fun _ => counting_row fun row _ => .bind (.onFst ?_) fun _ =>
      counting_record _
    cases stop with
    | false =>
      cases interlagosUnit _ with
      | pmc | uncore => exact L.checkRead _ _
      | other => exact .pure _
    | true =>
      cases interlagosUnit _ with
      | pmc => exact L.interlagosStopCounter hW
      | uncore => exact .ite (fun _ => L.interlagosStopCounter hW) fun _ => .pure _
      | other => exact .pure _

end CoreLogic

end Kept

namespace CountArch

variable {A : CountArch} {p p' : Core × List Slot} {i : ℕ}

/-- The routine that reads, or that stops -/
def sample (M : Machine) (A : CountArch) (stop : Bool) : ThreadRoutine :=
  if stop = true then A.stop M else A.read M

theorem standing_onFst {α : Type} {m : Prog Int Core α} {a : α}
    (hm : Prog.Respects (ControlKept.flow M cpu fun _ => False) m)
    (h : (Prog.onFst m : Prog Int (Core × List Slot) α) p = .done a p') :
    StandingKept M cpu p.1 p'.1 ∧ p'.2 = p.2 := by
  obtain ⟨c₁, hdone, rfl⟩ := Prog.zoom_eq_done.mp h
  have hkept : StandingKept M cpu p.1 c₁ :=
    Prog.wp_done (Q := fun _ c' => StandingKept M cpu p.1 c') (hm p.1) hdone
  exact ⟨hkept, rfl⟩

theorem snbBoxes_kept {boxes : List BoxWrite} (reg : ℕ) (data : Word) :
    Prog.Respects (ControlKept.flow M cpu fun _ => False)
      (snbBoxes M cpu mask lock boxes reg data) := by
  have L : FrameLogic M cpu _ _ (StandingKept M cpu) _ _ := ControlKept.logic
  refine .ite (fun _ => .foldlM (fun _ b _ => .bind .get fun _ => .when fun _ => ?_) ()) fun _ => ?_
  · exact L.checkWrite _ fun h => h.2
  · exact L.checkWrite _ fun h => h.2

/-- A routine that completes has completed its loop, which it entered with the slots as they
were. -/
theorem sample_loop (stop : Bool) (h : A.sample M stop thread cpu mask n p = .done () p') :
    ∃ c₁ c₂, StandingKept M cpu p.1 c₁ ∧
      Prog.forCells (A.round M thread cpu mask (haveLock M p.1 cpu) stop) n () (c₁, p.2) =
        .done () (c₂, p'.2) := by
  have L : FrameLogic M cpu _ _ (StandingKept M cpu) _ _ := ControlKept.logic
  have hpause : Prog.Respects (ControlKept.flow M cpu fun _ => False) (pauseCore M cpu mask) :=
    .ite (fun _ => .bind (L.checkRead _ _) fun _ => .bind (L.checkWrite _ fun h => h.2) fun _ =>
      .pure _) fun _ => .pure _
  cases A with
  | interlagos =>
    cases stop with
    | false => exact ⟨p.1, p'.1, ControlKept.refl _, h⟩
    | true => exact ⟨p.1, p'.1, ControlKept.refl _, h⟩
  | sandybridge =>
    cases stop with
    | false =>
      obtain ⟨_, _, hget, h⟩ := Prog.bind_eq_done.mp h
      cases hget
      obtain ⟨flags, p₁, hfirst, h⟩ := Prog.bind_eq_done.mp h
      obtain ⟨⟨⟩, p₂, hloop, hlast⟩ := Prog.bind_eq_done.mp h
      have hkept := standing_onFst (.bind hpause fun _ => .bind (snbBoxes_kept _ _) fun _ =>
        .pure _) hfirst
      obtain ⟨c₃, -, rfl⟩ := Prog.zoom_eq_done.mp hlast
      obtain ⟨c₁, slots₁⟩ := p₁
      obtain rfl : slots₁ = p.2 := hkept.2
      exact ⟨c₁, p₂.1, hkept.1, hloop⟩
    | true =>
      obtain ⟨_, _, hget, h⟩ := Prog.bind_eq_done.mp h
      cases hget
      obtain ⟨⟨⟩, p₁, hfirst, hloop⟩ := Prog.bind_eq_done.mp h
      have hkept := standing_onFst (.bind (.when fun _ => L.checkWrite _ fun h => h.2) fun _ =>
        snbBoxes_kept _ _) hfirst
      obtain ⟨c₁, slots₁⟩ := p₁
      obtain rfl : slots₁ = p.2 := hkept.2
      exact ⟨c₁, p'.1, hkept.1, hloop⟩

theorem count_congr (hkept : StandingKept M cpu c c') (stop : Bool) (type : RegisterType) :
    A.count M cpu content c' lock stop row type = A.count M cpu content c lock stop row type := by
  have hcheck : ∀ dev, hpmCheck M c' dev cpu = hpmCheck M c dev cpu := by
    intro dev
    unfold hpmCheck
    rw [hkept.registered]
  cases A with
  | sandybridge =>
    unfold count snbCount
    simp only [hcheck]
  | interlagos => rfl

theorem counterMap_row {ρ σ α : Type} {index : RegisterIndex} {f : RegisterMap → Prog ρ σ α}
    {t : σ} : (counterMap M index >>= f).wp (fun _ _ => ∃ row, M.counterMap[index]? = some row)
      (fun _ _ => True) t := by
  unfold counterMap
  rw [Prog.wp_bind, Prog.wp_orUndefined]
  intro row hrow
  exact Prog.wp_mono (Prog.wp_trivial _) (fun _ _ _ => ⟨row, hrow⟩) fun _ _ _ => trivial

theorem round_row {stop : Bool} {u u' : Unit}
    (hevent : (e.threadCounter thread).init = true ∧ hasType mask e.type)
    (h : A.round M thread cpu mask lock stop u (c, e) = .done u' (c', e')) :
    ∃ row, M.counterMap[e.index]? = some row := by
  cases A with
  | sandybridge =>
    obtain ⟨_, _, hget, h⟩ := Prog.bind_eq_done.mp h
    cases hget
    rw [Prog.when_of_pos hevent] at h
    exact Prog.wp_done (Q := fun _ _ => ∃ row, M.counterMap[e.index]? = some row)
      counterMap_row h
  | interlagos =>
    obtain ⟨_, _, hget, h⟩ := Prog.bind_eq_done.mp h
    cases hget
    rw [Prog.when_of_pos hevent] at h
    exact Prog.wp_done (Q := fun _ _ => ∃ row, M.counterMap[e.index]? = some row)
      counterMap_row h

theorem sample_row (stop : Bool) (h : A.sample M stop thread cpu mask n p = .done () p')
    (hi : i < n) (hslot : p.2[i]? = some (some e))
    (hevent : (e.threadCounter thread).init = true ∧ hasType mask e.type) :
    ∃ row, M.counterMap[e.index]? = some row := by
  obtain ⟨c₁, c₂, -, hloop⟩ := sample_loop stop h
  obtain ⟨_, c₃, e₁, _, c₄, e', -, hcell, hround, -⟩ := Prog.forCells_reaches hi hloop
  obtain rfl : e = e₁ := by simpa [hslot] using hcell
  exact round_row hevent hround

/-- **A whole routine** records of each event what the switch takes from the state before it. -/
theorem sample_records (hM : Holds M cpu content) (stop : Bool)
    (h : A.sample M stop thread cpu mask n p = .done () p') (hi : i < n)
    (hslot : p.2[i]? = some (some e)) (hrow : M.counterMap[e.index]? = some row)
    (hevent : (e.threadCounter thread).init = true ∧ hasType mask e.type)
    (htype : e.type ∈ A.coreTypes ++ A.uncoreTypes) :
    ∃ e', p'.2[i]? = some (some e') ∧ Records thread e e'
      (field64 (A.count M cpu content p.1 (haveLock M p.1 cpu) stop row e.type) 0
        (M.boxMap e.type).regWidth)
      (A.wraps M thread content (haveLock M p.1 cpu) stop e
        (A.count M cpu content p.1 (haveLock M p.1 cpu) stop row e.type)) := by
  have L : FrameLogic M cpu _ _ (StandingKept M cpu) _ _ := ControlKept.logic
  obtain ⟨c₁, c₂, hkept, hloop⟩ := sample_loop stop h
  obtain ⟨_, c₃, e₁, _, c₄, e', hreach, hcell, hround, hcell'⟩ := Prog.forCells_reaches hi hloop
  obtain rfl : e = e₁ := by simpa [hslot] using hcell
  have hkept₃ : StandingKept M cpu c₁ c₃ :=
    Prog.reaches_flow (F := ControlKept.flow M cpu fun _ => False)
      (fun b => L.countArchRound (fun _ _ h => h.2) A stop b) hreach
  have hrecords := Prog.wp_done (round_records hM hrow hevent htype) hround
  rw [count_congr (hkept.trans _ _ _ hkept₃)] at hrecords
  exact ⟨e', hcell', hrecords⟩

/-! ## After a start -/

/-- The record's count stays 0. -/
def StaysZero (thread : ℕ) (e e' : PerfmonEventSetEntry) : Prop :=
  (e.threadCounter thread).counterData = 0 → (e'.threadCounter thread).counterData = 0

abbrev staysZeroFlow (thread : ℕ) : Prog.Flow PerfmonEventSetEntry :=
  Prog.Flow.of (StaysZero thread) (fun _ h => h) fun _ _ _ h h' hz => h' (h hz)

theorem setStart_staysZero (v : Word) :
    Prog.Respects (staysZeroFlow thread).snd
      (Prog.onSnd (Prog.modify (·.setStart thread v)) : EventProg Unit) :=
  .onSnd_modify fun e hz => by
    simpa only [PerfmonEventSetEntry.setStart, PerfmonEventSetEntry.onCounter_self] using hz

theorem sandyBridgeStartCase_staysZero (unit : SandyBridgeUnit) :
    Prog.Respects (staysZeroFlow thread).snd
      (sandyBridgeStartCase M thread cpu mask lock e row unit) := by
  cases unit with
  | pmc | fixed | sbox0 | sbox1 | sboxfix | cbox | ubox | wbox =>
    exact .bind (.onFst_snd _) fun _ => .pure _
  | power =>
    exact .bind (.when fun _ => .bind (.onFst_snd _) fun _ => .bind (.onFst_snd _) fun _ =>
      setStart_staysZero _) fun _ => .pure _
  | mbox | bbox0 => exact .bind .get fun _ => .bind (.onFst_snd _) fun _ => .pure _
  | uboxfix => exact .bind (.onFst_snd _) fun _ => .bind (.onFst_snd _) fun _ => .pure _
  | wboxfix =>
    exact .bind (.when fun _ => .bind (.onFst_snd _) fun _ => setStart_staysZero _) fun _ =>
      .pure _
  | thermal | mboxfix | rbox | pbox | other => exact .pure _

/-- A record whose event takes part is clear. -/
def Cleared (thread : ℕ) (mask : BitVec 128) (e : PerfmonEventSetEntry) : Prop :=
  (e.threadCounter thread).init = true ∧ hasType mask e.type →
    (e.threadCounter thread).counterData = 0

/-- An event that takes no part is left as it is, and one that does is cleared. -/
theorem start_clears_round {α : Type} {m : RegisterMap → EventProg α} (a : α)
    (hm : ∀ row, Prog.Respects (staysZeroFlow thread).snd (m row)) :
    (if (e.threadCounter thread).init = true ∧ hasType mask e.type then do
      let row ← counterMap M e.index
      Prog.onSnd (Prog.modify (·.clearData thread))
      m row
    else pure a : EventProg α).wp (fun _ q => Cleared thread mask q.2) (fun _ _ => True)
      (c, e) := by
  by_cases hevent : (e.threadCounter thread).init = true ∧ hasType mask e.type
  · rw [if_pos hevent]
    unfold counterMap
    rw [Prog.wp_bind, Prog.wp_orUndefined]
    intro row _
    rw [Prog.wp_bind, Prog.wp_zoom, Prog.wp_modify]
    refine Prog.wp_mono (hm row _) (fun _ q hq _ => hq ?_) fun _ _ _ => trivial
    simp [PerfmonEventSetEntry.clearData]
  · rw [if_neg hevent]
    exact fun hcounts => absurd hcounts hevent

theorem start_cleared {p₀ : Core × List Slot} (h : A.start M thread cpu mask n p₀ = .done () p)
    (hi : i < n) (hslot : p.2[i]? = some (some e)) : Cleared thread mask e := by
  cases A with
  | sandybridge =>
    obtain ⟨_, _, hget, h⟩ := Prog.bind_eq_done.mp h
    cases hget
    obtain ⟨flags, p₁, hloop, h⟩ := Prog.bind_eq_done.mp h
    obtain ⟨⟨⟩, p₂, hcore, hlast⟩ := Prog.bind_eq_done.mp h
    obtain ⟨c₂, -, rfl⟩ := Prog.zoom_eq_done.mp hcore
    obtain ⟨c₃, -, rfl⟩ := Prog.zoom_eq_done.mp hlast
    obtain ⟨b, c₄, e₁, _, c₅, e', -, -, hround, hcell⟩ := Prog.forCells_reaches hi hloop
    obtain rfl : e = e' := by simpa [hslot] using hcell
    exact Prog.wp_done (Q := fun _ q => Cleared thread mask q.2) (start_clears_round b fun row =>
      .bind (sandyBridgeStartCase_staysZero _) fun _ => .pure _) hround
  | interlagos =>
    obtain ⟨_, _, hget, hloop⟩ := Prog.bind_eq_done.mp h
    cases hget
    obtain ⟨b, c₄, e₁, _, c₅, e', -, -, hround, hcell⟩ := Prog.forCells_reaches hi hloop
    obtain rfl : e = e' := by simpa [hslot] using hcell
    exact Prog.wp_done (Q := fun _ q => Cleared thread mask q.2)
      (start_clears_round () fun row => .onFst_snd _) hround

end CountArch

/-! ## When the two record alike -/

/-- The two records have the same count, and neither or both count one more overflow. -/
structure RecordsAlike (thread : ℕ) (e e₁ e₂ : PerfmonEventSetEntry) : Prop where
  counterData : (e₁.threadCounter thread).counterData = (e₂.threadCounter thread).counterData
  overflows : ∃ k : ℕ, k ≤ 1 ∧
    (e₁.threadCounter thread).overflows = (e.threadCounter thread).overflows + k ∧
    (e₂.threadCounter thread).overflows = (e.threadCounter thread).overflows + k

/-- The record is left as it is by both, and 0 if it is one after a start. -/
structure RecordUntouched (thread : ℕ) (started : Prop) (e e₁ e₂ : PerfmonEventSetEntry) :
    Prop where
  read : e₁.threadCounter thread = e.threadCounter thread
  stop : e₂.threadCounter thread = e.threadCounter thread
  zero : started → (e₁.threadCounter thread).counterData = 0 ∧
    (e₂.threadCounter thread).counterData = 0

/-- What the read makes of `p` (`p₁`) and what the stop makes of it (`p₂`) is the same for every
counter, and without the lock it is nothing for those of the uncore. -/
def ReadStopAlike (M : Machine) (A : CountArch) (thread cpu : ℕ) (mask : BitVec 128) (n : ℕ)
    (p p₁ p₂ : Core × List Slot) : Prop :=
  ∀ i < n, ∀ e, p.2[i]? = some (some e) →
    (e.threadCounter thread).init = true ∧ hasType mask e.type →
    e.type ∈ A.coreTypes ++ A.uncoreTypes →
    ∃ e₁ e₂, p₁.2[i]? = some (some e₁) ∧ p₂.2[i]? = some (some e₂) ∧
      RecordsAlike thread e e₁ e₂ ∧
      (haveLock M p.1 cpu = false → e.type ∈ A.uncoreTypes →
        RecordUntouched thread (∃ p₀, A.start M thread cpu mask n p₀ = .done () p) e e₁ e₂)

/-- With the lock, a counter that is checked twice does not go backwards. Without it, the record of
an uncore counter is 0, and so is the count of one that is read all the same. -/
def EventMatches (M : Machine) (A : CountArch) (thread : ℕ) (content : PciDeviceIndex → ℕ → Word)
    (lock : Bool) (row : RegisterMap) (e : PerfmonEventSetEntry) : Prop :=
  (lock = true → e.type ∈ A.recheckedTypes →
    ¬Recedes thread (content msrDev row.counterRegister) e) ∧
  (lock = false → e.type ∈ A.uncoreTypes →
    (e.threadCounter thread).counterData = 0 ∧
    (e.type ∈ A.unguardedTypes →
      field64 (content msrDev row.counterRegister) 0 (M.boxMap e.type).regWidth = 0))

def ReadStopMatches (M : Machine) (A : CountArch) (thread cpu : ℕ) (mask : BitVec 128) (n : ℕ)
    (content : PciDeviceIndex → ℕ → Word) (p : Core × List Slot) : Prop :=
  ∀ i < n, ∀ e row, p.2[i]? = some (some e) → M.counterMap[e.index]? = some row →
    (e.threadCounter thread).init = true ∧ hasType mask e.type →
    e.type ∈ A.coreTypes ++ A.uncoreTypes →
    EventMatches M A thread content (haveLock M p.1 cpu) row e

section Alike

variable {e₁ e₂ : PerfmonEventSetEntry} {x₁ x₂ x : Word} {k₁ k₂ k : ℕ}

theorem recordsAlike_iff (h₁ : Records thread e e₁ x₁ k₁) (h₂ : Records thread e e₂ x₂ k₂) :
    RecordsAlike thread e e₁ e₂ ↔ x₁ = x₂ ∧ k₁ = k₂ ∧ k₁ ≤ 1 := by
  unfold Records at h₁ h₂
  constructor
  · rintro ⟨hdata, k, hk, hk₁, hk₂⟩
    rw [h₁, h₂] at hdata
    rw [h₁] at hk₁
    rw [h₂] at hk₂
    dsimp only at hdata hk₁ hk₂
    exact ⟨hdata, by omega, by omega⟩
  · rintro ⟨rfl, rfl, hk⟩
    exact ⟨by rw [h₁, h₂], k₁, hk, by rw [h₁], by rw [h₂]⟩

theorem record_eq_iff (h : Records thread e e' x k) :
    e'.threadCounter thread = e.threadCounter thread ↔
      x = (e.threadCounter thread).counterData ∧ k = 0 := by
  unfold Records at h
  rw [h]
  constructor
  · intro heq
    have hdata := congrArg PerfmonCounter.counterData heq
    have hover := congrArg PerfmonCounter.overflows heq
    dsimp only at hdata hover
    exact ⟨hdata, by omega⟩
  · rintro ⟨rfl, rfl⟩
    simp

end Alike

/-! ### Event by event -/

theorem field64_zero (start length : ℕ) : field64 0 start length = 0 := by
  simp [field64]

theorem pos_iff_ne_zero (x : Word) : (0 : Word) < x ↔ x ≠ 0 := by
  rw [BitVec.lt_def, ne_eq, ← BitVec.toNat_inj]
  simp [Nat.pos_iff_ne_zero]

section Events

/-- What the read (`stop` off) and the stop make of the event -/
def CountArch.shown (M : Machine) (cpu : ℕ) (content : PciDeviceIndex → ℕ → Word) (c : Core)
    (lock : Bool) (row : RegisterMap) (e : PerfmonEventSetEntry) (A : CountArch) (stop : Bool) :
    Word :=
  field64 (A.count M cpu content c lock stop row e.type) 0 (M.boxMap e.type).regWidth

def CountArch.added (M : Machine) (thread cpu : ℕ) (content : PciDeviceIndex → ℕ → Word) (c : Core)
    (lock : Bool) (row : RegisterMap) (e : PerfmonEventSetEntry) (A : CountArch) (stop : Bool) :
    ℕ :=
  A.wraps M thread content lock stop e (A.count M cpu content c lock stop row e.type)

/-- They make the same of it, and nothing without the lock. -/
structure SamplesAlike (M : Machine) (thread cpu : ℕ) (content : PciDeviceIndex → ℕ → Word)
    (c : Core) (lock : Bool) (row : RegisterMap) (e : PerfmonEventSetEntry) (A : CountArch) :
    Prop where
  shown : A.shown M cpu content c lock row e false = A.shown M cpu content c lock row e true
  added : A.added M thread cpu content c lock row e false =
    A.added M thread cpu content c lock row e true
  once : A.added M thread cpu content c lock row e false ≤ 1
  untouched : lock = false → e.type ∈ A.uncoreTypes → ∀ stop,
    A.shown M cpu content c lock row e stop = (e.threadCounter thread).counterData ∧
      A.added M thread cpu content c lock row e stop = 0

theorem samplesAlike_interlagos
    (htype : e.type ∈ CountArch.interlagos.coreTypes ++ CountArch.interlagos.uncoreTypes) :
    SamplesAlike M thread cpu content c lock row e .interlagos ↔
      EventMatches M .interlagos thread content lock row e := by
  have hcases : e.type = .pmc ∨ e.type = .uncore := by
    simpa [CountArch.coreTypes, CountArch.uncoreTypes] using htype
  rcases hcases with hpmc | huncore
  · have hnot : e.type ∉ CountArch.interlagos.uncoreTypes := by
      rw [hpmc]
      decide
    refine iff_of_true ⟨?_, rfl, Nat.zero_le 1, fun _ h => absurd h hnot⟩
      ⟨fun _ h => absurd h List.not_mem_nil, fun _ h => absurd h hnot⟩
    simp only [CountArch.shown, CountArch.count, hpmc, true_or, if_true]
  · have hne : e.type ≠ .pmc := by
      rw [huncore]
      nofun
    have hmem : e.type ∈ CountArch.interlagos.uncoreTypes := by
      rw [huncore]
      decide
    cases lock with
    | true =>
      refine iff_of_true ⟨?_, rfl, Nat.zero_le 1, nofun⟩
        ⟨fun _ h => absurd h List.not_mem_nil, nofun⟩
      simp only [CountArch.shown, CountArch.count, true_or, or_true, if_true]
    | false =>
      have hread : CountArch.interlagos.shown M cpu content c false row e false =
          field64 (content msrDev row.counterRegister) 0 (M.boxMap e.type).regWidth := by
        simp only [CountArch.shown, CountArch.count, or_true, if_true]
      have hstop : CountArch.interlagos.shown M cpu content c false row e true = 0 := by
        simp only [CountArch.shown, CountArch.count]
        rw [if_neg (by simp [hne])]
        exact field64_zero _ _
      constructor
      · rintro ⟨hshown, -, -, huntouched⟩
        have hzero := (huntouched rfl hmem true).1
        rw [hstop] at hshown hzero
        refine ⟨nofun, fun _ _ => ⟨hzero.symm, fun _ => ?_⟩⟩
        rw [← hread, hshown]
      · rintro ⟨-, hmatches⟩
        obtain ⟨hdata, hcontent⟩ := hmatches rfl hmem
        have hboth : ∀ stop, CountArch.interlagos.shown M cpu content c false row e stop = 0 := by
          intro stop
          cases stop with
          | false => exact hread.trans (hcontent hmem)
          | true => exact hstop
        refine ⟨(hboth false).trans (hboth true).symm, rfl, Nat.zero_le 1, fun _ _ stop => ?_⟩
        exact ⟨(hboth stop).trans hdata.symm, rfl⟩

/-- The units of Sandy Bridge fall into those of the core, those that ask for the lock, and `UBOX`
and `UBOXFIX`. -/
theorem sandybridge_kinds
    (htype : e.type ∈ CountArch.sandybridge.coreTypes ++ CountArch.sandybridge.uncoreTypes) :
    (sandyBridgeUnit e.type ∈ [.pmc, .fixed] ∧ e.type ∉ CountArch.sandybridge.uncoreTypes ∧
      e.type ∉ CountArch.sandybridge.recheckedTypes) ∨
    (sandyBridgeUnit e.type ∈ [.mbox, .mboxfix, .sbox0, .sbox1, .bbox0, .rbox, .pbox, .cbox, .wbox,
        .wboxfix] ∧ e.type ∈ CountArch.sandybridge.uncoreTypes ∧
      e.type ∉ CountArch.sandybridge.recheckedTypes) ∨
    (sandyBridgeUnit e.type ∈ [.ubox, .uboxfix] ∧ e.type ∈ CountArch.sandybridge.uncoreTypes ∧
      e.type ∈ CountArch.sandybridge.recheckedTypes) := by
  revert htype
  cases e.type <;> decide

theorem samplesAlike_core (hunit : sandyBridgeUnit e.type ∈ [.pmc, .fixed])
    (hnot : e.type ∉ CountArch.sandybridge.uncoreTypes) :
    SamplesAlike M thread cpu content c lock row e .sandybridge := by
  have hunit' : sandyBridgeUnit e.type = .pmc ∨ sandyBridgeUnit e.type = .fixed := by
    simpa using hunit
  have hadded : ∀ stop, CountArch.sandybridge.added M thread cpu content c lock row e stop =
      CountArch.sandybridge.added M thread cpu content c lock row e false := by
    intro stop
    rcases hunit' with hu | hu
    · simp only [CountArch.added, CountArch.wraps, CountArch.count, hu, snbWraps, snbCount]
    · simp only [CountArch.added, CountArch.wraps, CountArch.count, hu, snbWraps, snbCount]
  refine ⟨?_, (hadded true).symm, ?_, fun _ h => absurd h hnot⟩
  · rcases hunit' with hu | hu
    · simp only [CountArch.shown, CountArch.count, hu, snbCount]
    · simp only [CountArch.shown, CountArch.count, hu, snbCount]
  · rcases hunit' with hu | hu
    · simp only [CountArch.added, CountArch.wraps, CountArch.count, hu, snbWraps]
      split <;> omega
    · simp only [CountArch.added, CountArch.wraps, CountArch.count, hu, snbWraps]
      split <;> omega

theorem recedes_zero : Recedes thread 0 e ↔ (e.threadCounter thread).counterData ≠ 0 :=
  pos_iff_ne_zero _

theorem samplesAlike_guarded
    (hunit : sandyBridgeUnit e.type ∈ [.mbox, .mboxfix, .sbox0, .sbox1, .bbox0, .rbox, .pbox,
      .cbox, .wbox, .wboxfix]) (hmem : e.type ∈ CountArch.sandybridge.uncoreTypes) :
    SamplesAlike M thread cpu content c lock row e .sandybridge ↔
      (lock = false → (e.threadCounter thread).counterData = 0) := by
  have hwraps : ∀ stop y, CountArch.sandybridge.wraps M thread content lock stop e y =
      if Recedes thread y e then 1 else 0 := by
    intro stop y
    revert hunit
    simp only [CountArch.wraps]
    cases sandyBridgeUnit e.type <;> simp [snbWraps]
  have hcount : ∃ x, (lock = false → x = 0) ∧
      ∀ stop, CountArch.sandybridge.count M cpu content c lock stop row e.type = x := by
    refine ⟨CountArch.sandybridge.count M cpu content c lock false row e.type, ?_, ?_⟩
    · rintro rfl
      revert hunit
      simp only [CountArch.count]
      cases sandyBridgeUnit e.type <;> simp [snbCount]
    · intro stop
      revert hunit
      simp only [CountArch.count]
      cases sandyBridgeUnit e.type <;> simp [snbCount]
  obtain ⟨x, hzero, hall⟩ := hcount
  have hshown : ∀ stop, CountArch.sandybridge.shown M cpu content c lock row e stop =
      field64 x 0 (M.boxMap e.type).regWidth := by
    intro stop
    rw [CountArch.shown, hall]
  have hadded : ∀ stop, CountArch.sandybridge.added M thread cpu content c lock row e stop =
      if Recedes thread x e then 1 else 0 := by
    intro stop
    rw [CountArch.added, hwraps, hall]
  constructor
  · intro halike hlock
    have hdata := (halike.untouched hlock hmem false).1
    rw [hshown, hzero hlock, field64_zero] at hdata
    exact hdata.symm
  · intro hdata
    refine ⟨(hshown false).trans (hshown true).symm, (hadded false).trans (hadded true).symm, ?_,
      fun hlock _ stop => ?_⟩
    · rw [hadded]
      split <;> omega
    · have hcleared := hdata hlock
      rw [hshown, hadded, hzero hlock, field64_zero, hcleared,
        if_neg fun h => recedes_zero.mp h hcleared]
      exact ⟨rfl, rfl⟩

theorem samplesAlike_ubox (hunit : sandyBridgeUnit e.type ∈ [.ubox, .uboxfix])
    (hmem : e.type ∈ CountArch.sandybridge.uncoreTypes) :
    SamplesAlike M thread cpu content c lock row e .sandybridge ↔
      (lock = true → ¬Recedes thread (content msrDev row.counterRegister) e) ∧
      (lock = false → (e.threadCounter thread).counterData = 0 ∧
        field64 (content msrDev row.counterRegister) 0 (M.boxMap e.type).regWidth = 0) := by
  have hcount : ∀ stop, CountArch.sandybridge.count M cpu content c lock stop row e.type =
      if lock = true ∨ stop = true then content msrDev row.counterRegister else 0 := by
    intro stop
    revert hunit
    simp only [CountArch.count]
    cases sandyBridgeUnit e.type <;> simp [snbCount]
  have hwraps : ∀ stop x, CountArch.sandybridge.wraps M thread content lock stop e x =
      if Recedes thread x e then (if lock = true ∧ stop = false then 2 else 1) else 0 := by
    intro stop x
    revert hunit
    simp only [CountArch.wraps]
    cases sandyBridgeUnit e.type <;> simp [snbWraps]
  cases lock with
  | true =>
    have hshown : ∀ stop, CountArch.sandybridge.shown M cpu content c true row e stop =
        field64 (content msrDev row.counterRegister) 0 (M.boxMap e.type).regWidth := by
      intro stop
      rw [CountArch.shown, hcount, if_pos (Or.inl rfl)]
    have hadded : ∀ stop, CountArch.sandybridge.added M thread cpu content c true row e stop =
        if Recedes thread (content msrDev row.counterRegister) e then
          (if stop = false then 2 else 1) else 0 := by
      intro stop
      rw [CountArch.added, hcount, if_pos (Or.inl rfl), hwraps]
      simp only [true_and]
    constructor
    · rintro ⟨-, -, honce, -⟩
      refine ⟨fun _ hrecedes => ?_, nofun⟩
      rw [hadded, if_pos hrecedes] at honce
      exact absurd honce (by decide)
    · rintro ⟨hnot, -⟩
      have hnone : ∀ stop, CountArch.sandybridge.added M thread cpu content c true row e stop = 0 :=
        fun stop => (hadded stop).trans (if_neg (hnot rfl))
      exact ⟨(hshown false).trans (hshown true).symm, (hnone false).trans (hnone true).symm,
        (hnone false).trans_le (Nat.zero_le 1), nofun⟩
  | false =>
    have hread : CountArch.sandybridge.shown M cpu content c false row e false = 0 := by
      rw [CountArch.shown, hcount, if_neg (by decide)]
      exact field64_zero _ _
    have hstop : CountArch.sandybridge.shown M cpu content c false row e true =
        field64 (content msrDev row.counterRegister) 0 (M.boxMap e.type).regWidth := by
      rw [CountArch.shown, hcount, if_pos (Or.inr rfl)]
    constructor
    · rintro ⟨hshown, -, -, huntouched⟩
      have hdata := (huntouched rfl hmem false).1
      rw [hread] at hshown hdata
      rw [hstop] at hshown
      exact ⟨nofun, fun _ => ⟨hdata.symm, hshown.symm⟩⟩
    · rintro ⟨-, hboth⟩
      obtain ⟨hdata, hcontent⟩ := hboth rfl
      have hshown : ∀ stop, CountArch.sandybridge.shown M cpu content c false row e stop = 0 := by
        intro stop
        cases stop with
        | false => exact hread
        | true => exact hstop.trans hcontent
      -- nothing is less than a count of 0
      have hadded : ∀ stop, CountArch.sandybridge.added M thread cpu content c false row e stop =
          0 := by
        intro stop
        rw [CountArch.added, hwraps, if_neg]
        unfold Recedes
        rw [hdata]
        exact BitVec.not_lt_zero
      exact ⟨(hshown false).trans (hshown true).symm, (hadded false).trans (hadded true).symm,
        (hadded false).trans_le (Nat.zero_le 1),
        fun _ _ stop => ⟨(hshown stop).trans hdata.symm, hadded stop⟩⟩

/-- **One event.** -/
theorem samplesAlike_iff {A : CountArch} (htype : e.type ∈ A.coreTypes ++ A.uncoreTypes) :
    SamplesAlike M thread cpu content c lock row e A ↔
      EventMatches M A thread content lock row e := by
  cases A with
  | interlagos => exact samplesAlike_interlagos htype
  | sandybridge =>
    rcases sandybridge_kinds htype with
      ⟨hunit, huncore, hrechecked⟩ | ⟨hunit, huncore, hrechecked⟩ | ⟨hunit, huncore, hrechecked⟩
    · exact iff_of_true (samplesAlike_core hunit huncore)
        ⟨fun _ h => absurd h hrechecked, fun _ h => absurd h huncore⟩
    · rw [samplesAlike_guarded hunit huncore]
      constructor
      · intro hdata
        exact ⟨fun _ h => absurd h hrechecked,
          fun hlock _ => ⟨hdata hlock, fun h => absurd h hrechecked⟩⟩
      · rintro ⟨-, hmatches⟩ hlock
        exact (hmatches hlock huncore).1
    · rw [samplesAlike_ubox hunit huncore]
      constructor
      · rintro ⟨howner, hother⟩
        exact ⟨fun hlock _ => howner hlock,
          fun hlock _ => ⟨(hother hlock).1, fun _ => (hother hlock).2⟩⟩
      · rintro ⟨howner, hother⟩
        refine ⟨fun hlock => howner hlock hrechecked, fun hlock => ?_⟩
        obtain ⟨hdata, hcontent⟩ := hother hlock huncore
        exact ⟨hdata, hcontent hrechecked⟩

end Events

/-- **A read and a stop record alike, and leave the uncore alone without the lock**, if and only if,
with the lock, no `UBOX` or `UBOXFIX` goes backwards, and without it the records of the uncore are 0
and those counters that are read all the same have counted nothing. -/
theorem readStopAlike_iff {A : CountArch} {p p₁ p₂ : Core × List Slot} (hM : Holds M cpu content)
    (hread : A.read M thread cpu mask n p = .done () p₁)
    (hstop : A.stop M thread cpu mask n p = .done () p₂) :
    ReadStopAlike M A thread cpu mask n p p₁ p₂ ↔
      ReadStopMatches M A thread cpu mask n content p := by
  have hevent : ∀ {i e row}, i < n → p.2[i]? = some (some e) →
      (e.threadCounter thread).init = true ∧ hasType mask e.type →
      e.type ∈ A.coreTypes ++ A.uncoreTypes → M.counterMap[e.index]? = some row →
      ∃ e₁ e₂, p₁.2[i]? = some (some e₁) ∧ p₂.2[i]? = some (some e₂) ∧
        Records thread e e₁ (A.shown M cpu content p.1 (haveLock M p.1 cpu) row e false)
          (A.added M thread cpu content p.1 (haveLock M p.1 cpu) row e false) ∧
        Records thread e e₂ (A.shown M cpu content p.1 (haveLock M p.1 cpu) row e true)
          (A.added M thread cpu content p.1 (haveLock M p.1 cpu) row e true) := by
    intro i e row hi hslot hcounts htype hrow
    obtain ⟨e₁, hslot₁, hrecords₁⟩ :=
      CountArch.sample_records hM false hread hi hslot hrow hcounts htype
    obtain ⟨e₂, hslot₂, hrecords₂⟩ :=
      CountArch.sample_records hM true hstop hi hslot hrow hcounts htype
    exact ⟨e₁, e₂, hslot₁, hslot₂, hrecords₁, hrecords₂⟩
  constructor
  · intro halike i hi e row hslot hrow hcounts htype
    obtain ⟨e₁, e₂, hslot₁, hslot₂, hrecords₁, hrecords₂⟩ := hevent hi hslot hcounts htype hrow
    obtain ⟨e₁', e₂', hslot₁', hslot₂', hsame, huntouched⟩ := halike i hi e hslot hcounts htype
    obtain rfl : e₁ = e₁' := by simpa [hslot₁] using hslot₁'
    obtain rfl : e₂ = e₂' := by simpa [hslot₂] using hslot₂'
    obtain ⟨hshown, hadded, honce⟩ := (recordsAlike_iff hrecords₁ hrecords₂).mp hsame
    refine (samplesAlike_iff htype).mp ⟨hshown, hadded, honce, fun hlock hmem stop => ?_⟩
    have hleft := huntouched hlock hmem
    cases stop with
    | false => exact (record_eq_iff hrecords₁).mp hleft.read
    | true => exact (record_eq_iff hrecords₂).mp hleft.stop
  · intro hmatches i hi e hslot hcounts htype
    obtain ⟨row, hrow⟩ := CountArch.sample_row false hread hi hslot hcounts
    obtain ⟨e₁, e₂, hslot₁, hslot₂, hrecords₁, hrecords₂⟩ := hevent hi hslot hcounts htype hrow
    have halike : SamplesAlike M thread cpu content p.1 (haveLock M p.1 cpu) row e A :=
      (samplesAlike_iff htype).mpr (hmatches i hi e row hslot hrow hcounts htype)
    refine ⟨e₁, e₂, hslot₁, hslot₂, (recordsAlike_iff hrecords₁ hrecords₂).mpr
      ⟨halike.shown, halike.added, halike.once⟩, fun hlock hmem => ?_⟩
    have hleft₁ := (record_eq_iff hrecords₁).mpr (halike.untouched hlock hmem false)
    have hleft₂ := (record_eq_iff hrecords₂).mpr (halike.untouched hlock hmem true)
    refine ⟨hleft₁, hleft₂, ?_⟩
    rintro ⟨p₀, hstart⟩
    have hzero := CountArch.start_cleared hstart hi hslot hcounts
    exact ⟨hleft₁ ▸ hzero, hleft₂ ▸ hzero⟩

/-! ## `UBOX0` -/

/-- A client whose counter of `UBOX0` stands at 5, and its other counters at 0 -/
def uboxContent (_ : PciDeviceIndex) (reg : ℕ) : Word := if reg = 0x3B0 then 5 else 0

def sandyBridgeMachine : Machine :=
  { haswellMachine with
    model := sandybridge, accessData := fun _ dev _ reg _ => uboxContent dev reg }

theorem sandyBridgeMachine_holds : Holds sandyBridgeMachine 0 uboxContent :=
  ⟨fun _ _ _ _ _ => rfl, fun _ _ _ _ _ => rfl, fun _ _ => rfl⟩

/-- An event of `UBOX0` that counts, and stood at `x` when it was read last -/
def uboxEntry (x : Word) : PerfmonEventSetEntry where
  event := { name := "UBOX_EVENT", limit := "UBOX0", eventId := 0x42, umask := 0x08 }
  index := 20
  type := .ubox
  threadCounter := fun _ => { PerfmonCounter.fresh with init := true, counterData := x }

/-- From 3 on it has advanced. -/
theorem readStopAlike_advanced : ∃ p₁ p₂,
    CountArch.sandybridge.read sandyBridgeMachine 0 0 (regTypeMaskOf .ubox) 1
      (ownerCore, [some (uboxEntry 3)]) = .done () p₁ ∧
    CountArch.sandybridge.stop sandyBridgeMachine 0 0 (regTypeMaskOf .ubox) 1
      (ownerCore, [some (uboxEntry 3)]) = .done () p₂ ∧
    ReadStopAlike sandyBridgeMachine .sandybridge 0 0 (regTypeMaskOf .ubox) 1
      (ownerCore, [some (uboxEntry 3)]) p₁ p₂ := by
  refine ⟨_, _, rfl, rfl, (readStopAlike_iff sandyBridgeMachine_holds rfl rfl).mpr ?_⟩
  rintro (_ | i) hi e row hslot hrow - -
  · cases hslot
    cases hrow
    exact ⟨fun _ _ => by decide, nofun⟩
  · omega

/-- From 7 on it has wrapped, which the read counts twice. -/
theorem not_readStopAlike_wrapped : ∃ p₁ p₂,
    CountArch.sandybridge.read sandyBridgeMachine 0 0 (regTypeMaskOf .ubox) 1
      (ownerCore, [some (uboxEntry 7)]) = .done () p₁ ∧
    CountArch.sandybridge.stop sandyBridgeMachine 0 0 (regTypeMaskOf .ubox) 1
      (ownerCore, [some (uboxEntry 7)]) = .done () p₂ ∧
    ¬ReadStopAlike sandyBridgeMachine .sandybridge 0 0 (regTypeMaskOf .ubox) 1
      (ownerCore, [some (uboxEntry 7)]) p₁ p₂ := by
  refine ⟨_, _, rfl, rfl, fun halike => ?_⟩
  obtain ⟨e₁, e₂, hslot₁, hslot₂, hrecords, -⟩ :=
    halike 0 (by decide) (uboxEntry 7) rfl ⟨rfl, by decide⟩ (by decide)
  cases hslot₁
  cases hslot₂
  obtain ⟨k, hk, hread, -⟩ := hrecords.overflows
  have htwice : (2 : Int) = 0 + (k : Int) := hread
  omega

end Likwid
