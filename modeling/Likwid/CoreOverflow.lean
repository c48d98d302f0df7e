import Likwid.PausedRead
import Likwid.FreeRunning

/-!
# The overflows of the core counters

A core counter that shows less than at the read before has wrapped. The read then looks for its bit
in the status register, counts an overflow if the bit is set, and acknowledges the bit. The bit
belongs to the register but the record to an event of a thread. Where two of them share a counter,
the first to be read acknowledges the bit and the other one misses the wrap
(`wrapsCounted_iff`).
-/

namespace Likwid

variable {M : Machine} {thread cpu offset n i w : ℕ} {mask : BitVec 128} {row : RegisterMap}
  {e e' : PerfmonEventSetEntry} {c c' : Core} {slots slots' : List Slot}

/-! ## A counter in the hardware -/

/-- How far a counter has come since it was cleared, and its bit in the status register -/
structure HwCounter where
  count : ℕ
  status : Bool

/-- What happens to a counter between two reads: how far it comes, and whether somebody
acknowledges its bit after it has wrapped. -/
structure Stretch where
  before : HwCounter
  advance : ℕ
  acknowledged : Bool

namespace Stretch

variable (w : ℕ) (v : Stretch)

def count : ℕ := v.before.count + v.advance

def Wraps : Prop := v.before.count / 2 ^ w < v.count / 2 ^ w

instance : Decidable (v.Wraps w) := inferInstanceAs (Decidable (_ < _))

/-- The read finds the bit set if the counter has wrapped and nobody has acknowledged it. -/
def found : HwCounter where
  count := v.count
  status := (v.before.status || decide (v.Wraps w)) && !v.acknowledged

/-- A wrap whose bit is acknowledged before the read -/
def Hidden : Prop := v.Wraps w ∧ v.acknowledged = true

instance : Decidable (v.Hidden w) := inferInstanceAs (Decidable (_ ∧ _))

end Stretch

/-- The accesses from `c` to `c'` acknowledge the bit. -/
def acknowledges (cpu offset : ℕ) (c c' : Core) : Bool :=
  (newAccesses c c').any fun a => a.kind = .write ∧ a.cpu = cpu ∧ a.dev = msrDev ∧
    a.reg = msrPerfGlobalOvfCtrl ∧ a.data.getLsbD offset = true ∧ a.err = 0

def HwCounter.after (hw : HwCounter) (acknowledged : Bool) : HwCounter :=
  { hw with status := hw.status && !acknowledged }

/-! ## A measurement -/

/-- The position of a counter in `MSR_PERF_GLOBAL_STATUS` and `MSR_PERF_GLOBAL_OVF_CTRL` -/
def overflowBit (M : Machine) (e : PerfmonEventSetEntry) : ℕ :=
  if e.type = .pmc then e.index - M.perfNumFixedCtr else e.index + 32

/-- An event that is set up on a core counter, and part of its group -/
structure CoreCounter (M : Machine) (thread : ℕ) (mask : BitVec 128) (row : RegisterMap)
    (e : PerfmonEventSetEntry) : Prop where
  type : e.type = .pmc ∨ e.type = .fixed
  row_eq : M.counterMap[e.index]? = some row
  init : (e.threadCounter thread).init = true
  mem : hasType mask e.type
  width_le : (M.boxMap e.type).regWidth ≤ 64
  bit_lt : overflowBit M e < 64

/-- What reading the counter, and then the status register, delivers from `c` on -/
def Shows (M : Machine) (cpu reg w offset : ℕ) (hw : HwCounter) (c : Core) : Prop :=
  ∀ x c₁, checkRead M cpu msrDev reg c = .done x c₁ → x.toNat = hw.count % 2 ^ w ∧
    ∀ ovf c₂, checkRead M cpu msrDev msrPerfGlobalStatus c₁ = .done ovf c₂ →
      ovf.getLsbD offset = hw.status

/-- The loop over the events completes its round on event `i`, which takes it from `c` to `c'`. -/
def Visits {β : Type} (i : ℕ) (body : β → EventProg β) (b : β) (p : Core × List Slot)
    (c c' : Core) : Prop :=
  ∃ b₁ e b₂ e', Prog.reaches body i b p = some (b₁, c, e) ∧ e.type ≠ .notype ∧
    body b₁ (c, e) = .done b₂ (c', e')

/-- A start of a thread and reads after it, in which event `i` is read: the counter in the hardware,
what it did from read to read, and the slots. The state of the machine is any at every routine,
except for what the counter shows. -/
inductive CountedSession (M : Machine) (thread cpu : ℕ) (mask : BitVec 128) (n i : ℕ)
    (row : RegisterMap) (w offset : ℕ) (slots : List Slot) :
    HwCounter → List Stretch → List Slot → Prop
  | start {c c₁ c₂ c' : Core} {status : Bool} {slots' : List Slot}
      (hvisit : Visits i (haswellStartEvent M thread cpu mask (haveLock M c cpu)) 0 (c, slots)
        c₁ c₂)
      (hclear : c₂.regs cpu msrDev row.counterRegister = 0)
      (hend : EndsIn (perfmonStartCountersThreadHaswell M thread cpu mask n) (c, slots)
        (c', slots')) :
      CountedSession M thread cpu mask n i row w offset slots ⟨0, status⟩ [] slots'
  | read {c c₀ c₁ c₂ c₃ c' : Core} {flags : Word} {v : Stretch} {vs : List Stretch}
      {slots₁ slots₂ : List Slot}
      (h : CountedSession M thread cpu mask n i row w offset slots v.before vs slots₁)
      (hadvance : v.advance < 2 ^ w)
      (hpause : pauseCore M cpu mask c = .done flags c₀)
      (hfreeze : hasepFreezeUncore M cpu mask (haveLock M c cpu) c₀ = .done () c₁)
      (hvisit : Visits i (haswellReadEvent M thread cpu mask (haveLock M c cpu)) () (c₁, slots₁)
        c₂ c₃)
      (hshows : Shows M cpu row.counterRegister w offset (v.found w) c₂)
      (hend : EndsIn (perfmonReadCountersThreadHaswell M thread cpu mask n) (c, slots₁)
        (c', slots₂)) :
      CountedSession M thread cpu mask n i row w offset slots
        ((v.found w).after (acknowledges cpu offset c₂ c₃)) (vs ++ [v]) slots₂
  | other {hw : HwCounter} {vs : List Stretch} {slots₁ slots₂ : List Slot}
      (h : CountedSession M thread cpu mask n i row w offset slots hw vs slots₁)
      (hkept : RecordKept thread i slots₁ slots₂) :
      CountedSession M thread cpu mask n i row w offset slots hw vs slots₂

/-! ## Wraps -/

theorem Stretch.div_eq {v : Stretch} (h : v.advance < 2 ^ w) :
    v.count / 2 ^ w = v.before.count / 2 ^ w + if v.Wraps w then 1 else 0 := by
  have hdiv : v.count / 2 ^ w = v.before.count / 2 ^ w +
      if 2 ^ w ≤ v.before.count % 2 ^ w + v.advance then 1 else 0 := by
    rw [Stretch.count, Nat.add_div (Nat.two_pow_pos w), Nat.div_eq_of_lt h, Nat.mod_eq_of_lt h,
      Nat.add_zero]
  by_cases hwraps : v.Wraps w
  · rw [if_pos hwraps]
    unfold Stretch.Wraps at hwraps
    split at hdiv <;> omega
  · rw [if_neg hwraps]
    unfold Stretch.Wraps at hwraps
    split at hdiv <;> omega

/-- Less than at the read before, the counter shows exactly after a wrap. -/
theorem Stretch.mod_lt_iff {v : Stretch} (h : v.advance < 2 ^ w) :
    v.count % 2 ^ w < v.before.count % 2 ^ w ↔ v.Wraps w := by
  have hdiv := Stretch.div_eq h
  have hcount := Nat.div_add_mod v.count (2 ^ w)
  have hbefore := Nat.div_add_mod v.before.count (2 ^ w)
  have hlt := Nat.mod_lt v.before.count (Nat.two_pow_pos w)
  rw [hdiv] at hcount
  have hsum : v.count = v.before.count + v.advance := rfl
  by_cases hwraps : v.Wraps w
  · rw [if_pos hwraps, Nat.mul_add, Nat.mul_one] at hcount
    exact iff_of_true (by omega) hwraps
  · rw [if_neg hwraps, Nat.add_zero] at hcount
    exact iff_of_false (by omega) hwraps

/-! ## One round -/

/-- The entry after a read -/
def PerfmonEventSetEntry.counted (e : PerfmonEventSetEntry) (thread : ℕ) (x : Word)
    (overflow : Bool) : PerfmonEventSetEntry :=
  (if overflow = true then e.addOverflow thread else e).setCounter thread x

theorem counted_index (x : Word) (overflow : Bool) :
    (e.counted thread x overflow).index = e.index := by
  cases overflow <;> rfl

theorem counted_type (x : Word) (overflow : Bool) :
    (e.counted thread x overflow).type = e.type := by
  cases overflow <;> rfl

theorem counted_threadCounter (x : Word) (overflow : Bool) :
    (e.counted thread x overflow).threadCounter thread =
      { e.threadCounter thread with
        overflows := (e.threadCounter thread).overflows + if overflow = true then 1 else 0
        counterData := x } := by
  cases overflow <;>
    simp [PerfmonEventSetEntry.counted, PerfmonEventSetEntry.setCounter,
      PerfmonEventSetEntry.addOverflow]

theorem hasepCheckCoreOverflow_done (hoffset : offset < 64) {x : Word} {status : Bool}
    (hstatus : ∀ ovf c₂, checkRead M cpu msrDev msrPerfGlobalStatus c = .done ovf c₂ →
      ovf.getLsbD offset = status)
    (hrun : hasepCheckCoreOverflow M thread cpu offset x (c, e) = .done () (c', e')) :
    e' = if x < (e.threadCounter thread).counterData ∧ status = true then e.addOverflow thread
      else e := by
  obtain ⟨p, _, hget, hrun⟩ := Prog.bind_eq_done.mp hrun
  cases hget
  by_cases hless : x < (e.threadCounter thread).counterData
  · rw [Prog.when_of_pos hless] at hrun
    obtain ⟨ovf, _, hzoom, hrun⟩ := Prog.bind_eq_done.mp hrun
    obtain ⟨c₁, hread, rfl⟩ := Prog.zoom_eq_done.mp hzoom
    obtain ⟨⟨⟩, p, hcount, hrun⟩ := Prog.bind_eq_done.mp hrun
    obtain ⟨c₂, -, hstate⟩ := Prog.zoom_eq_done.mp hrun
    obtain ⟨-, rfl⟩ := Prod.mk.inj hstate
    have hbit : ovf &&& bit offset ≠ 0 ↔ status = true := by
      rw [and_bit_ne_zero hoffset, hstatus ovf c₁ hread]
    by_cases hset : status = true
    · rw [Prog.when_of_pos (hbit.mpr hset)] at hcount
      cases hcount
      rw [if_pos ⟨hless, hset⟩]
    · rw [Prog.when_of_neg fun h => hset (hbit.mp h)] at hcount
      cases hcount
      rw [if_neg fun h => hset h.2]
  · rw [Prog.when_of_neg hless] at hrun
    cases hrun
    rw [if_neg fun h => hless h.1]

theorem haswellReadEvent_core (he : CoreCounter M thread mask row e) {lock : Bool} :
    haswellReadEvent M thread cpu mask lock () (c, e) =
      (do
        let x ← Prog.onFst (checkRead M cpu msrDev row.counterRegister)
        hasepCheckCoreOverflow M thread cpu (overflowBit M e) x
        Prog.onSnd (Prog.modify
          (·.setCounter thread (field64 x 0 (M.boxMap e.type).regWidth))) : EventProg Unit)
        (c, e) := by
  have hcounted : (e.threadCounter thread).init = true ∧ hasType mask e.type := ⟨he.init, he.mem⟩
  have hrow : (counterMap M e.index : EventProg RegisterMap) = pure row := by
    rw [counterMap, he.row_eq]
    rfl
  show Prog.when ((e.threadCounter thread).init = true ∧ hasType mask e.type) (do
    let row ← counterMap M e.index
    haswellCountCase M thread cpu mask lock false e row (haswellUnit e.type)) (c, e) = _
  rw [Prog.when_of_pos hcounted, hrow]
  show haswellCountCase M thread cpu mask lock false e row (haswellUnit e.type) (c, e) = _
  rcases he.type with ht | ht
  · rw [overflowBit, if_pos ht, show haswellUnit e.type = .pmc by rw [ht]; rfl]
    rfl
  · rw [overflowBit, if_neg (by simp [ht]), show haswellUnit e.type = .fixed by rw [ht]; rfl]
    rfl

theorem haswellReadEvent_shows (he : CoreCounter M thread mask row e) {hw : HwCounter}
    (hw_width : w = (M.boxMap e.type).regWidth) {lock : Bool} {b b' : Unit}
    (hshows : Shows M cpu row.counterRegister w (overflowBit M e) hw c)
    (hround : haswellReadEvent M thread cpu mask lock b (c, e) = .done b' (c', e')) :
    ∃ x : Word, x.toNat = hw.count % 2 ^ w ∧
      e' = e.counted thread x
        (decide (x < (e.threadCounter thread).counterData) && hw.status) := by
  rw [show b = () from rfl, haswellReadEvent_core he] at hround
  obtain ⟨x, _, hzoom, hround⟩ := Prog.bind_eq_done.mp hround
  obtain ⟨c₁, hread, rfl⟩ := Prog.zoom_eq_done.mp hzoom
  obtain ⟨⟨⟩, ⟨c₂, e₁⟩, hcheck, hround⟩ := Prog.bind_eq_done.mp hround
  obtain ⟨hx, hstatus⟩ := hshows x c₁ hread
  have he₁ := hasepCheckCoreOverflow_done he.bit_lt hstatus hcheck
  have hfield : field64 x 0 (M.boxMap e.type).regWidth = x :=
    field64_of_lt he.width_le (by
      rw [hx, ← hw_width]
      exact Nat.mod_lt _ (Nat.two_pow_pos w))
  rw [hfield] at hround
  cases hround
  refine ⟨x, hx, ?_⟩
  simp only [PerfmonEventSetEntry.counted, Bool.and_eq_true, decide_eq_true_eq]
  rw [he₁]

/-- A start clears the record and keeps the overflows. -/
theorem haswellStartEvent_core (he : CoreCounter M thread mask row e) {lock : Bool}
    {flags flags' : Word}
    (hround : haswellStartEvent M thread cpu mask lock flags (c, e) = .done flags' (c', e')) :
    e' = e.clearData thread := by
  have hstarted : (e.threadCounter thread).init = true ∧ hasType mask e.type := ⟨he.init, he.mem⟩
  have hrow : (counterMap M e.index : EventProg RegisterMap) = pure row := by
    rw [counterMap, he.row_eq]
    rfl
  rw [haswellStartEvent] at hround
  obtain ⟨p, _, hget, hround⟩ := Prog.bind_eq_done.mp hround
  cases hget
  rw [if_pos hstarted, hrow] at hround
  obtain ⟨flag, p, hcase, hround⟩ := Prog.bind_eq_done.mp
    (show (haswellStartCase M thread cpu lock e row (haswellUnit e.type) >>= fun flag =>
      pure (flags ||| flag)) (c, e.clearData thread) = .done flags' (c', e') from hround)
  have hcore : ∃ data flag, haswellStartCase M thread cpu lock e row (haswellUnit e.type) =
      Prog.onFst (checkWrite M cpu row.device row.counterRegister data) >>= fun _ => pure flag := by
    rcases he.type with ht | ht
    · rw [show haswellUnit e.type = .pmc by rw [ht]; rfl]
      exact ⟨_, _, rfl⟩
    · rw [show haswellUnit e.type = .fixed by rw [ht]; rfl]
      exact ⟨_, _, rfl⟩
  obtain ⟨data, flag', hcore⟩ := hcore
  rw [hcore] at hcase
  obtain ⟨⟨⟩, _, hwrite, hdone⟩ := Prog.bind_eq_done.mp hcase
  obtain ⟨c₁, -, rfl⟩ := Prog.zoom_eq_done.mp hwrite
  cases hdone
  cases hround
  rfl

/-! ## A whole session -/

theorem CoreCounter.of_eq (he : CoreCounter M thread mask row e) (htype : e'.type = e.type)
    (hindex : e'.index = e.index) (hinit : (e'.threadCounter thread).init = true) :
    CoreCounter M thread mask row e' where
  type := htype ▸ he.type
  row_eq := hindex ▸ he.row_eq
  init := hinit
  mem := htype ▸ he.mem
  width_le := htype ▸ he.width_le
  bit_lt := by
    have hbit : overflowBit M e' = overflowBit M e := by
      rw [overflowBit, overflowBit, htype, hindex]
    exact hbit ▸ he.bit_lt

def hiddenWraps (w : ℕ) (vs : List Stretch) : ℕ := vs.countP fun v => v.Hidden w

/-- The record of an event that was `e` before the start -/
structure Counted (thread w : ℕ) (e : PerfmonEventSetEntry) (hw : HwCounter) (vs : List Stretch)
    (e' : PerfmonEventSetEntry) : Prop where
  index : e'.index = e.index
  type : e'.type = e.type ∨ e'.type = .notype
  init : (e'.threadCounter thread).init = true
  counterData : (e'.threadCounter thread).counterData.toNat = hw.count % 2 ^ w
  overflows : (e'.threadCounter thread).overflows + hiddenWraps w vs =
    (e.threadCounter thread).overflows + (hw.count / 2 ^ w : ℕ)

theorem Counted.clearData (hinit : (e.threadCounter thread).init = true) (status : Bool) :
    Counted thread w e ⟨0, status⟩ [] (e.clearData thread) where
  index := rfl
  type := Or.inl rfl
  init := by simpa [PerfmonEventSetEntry.clearData] using hinit
  counterData := by simp [PerfmonEventSetEntry.clearData]
  overflows := by simp [PerfmonEventSetEntry.clearData, hiddenWraps]

theorem Counted.of_kept {e'' : PerfmonEventSetEntry} {hw : HwCounter} {vs : List Stretch}
    (h : Counted thread w e hw vs e') (hindex : e''.index = e'.index)
    (htype : e''.type = e'.type ∨ e''.type = .notype)
    (hrecord : e''.threadCounter thread = e'.threadCounter thread) :
    Counted thread w e hw vs e'' where
  index := hindex.trans h.index
  type := by
    rcases htype with heq | hnone
    · rw [heq]
      exact h.type
    · exact Or.inr hnone
  init := hrecord ▸ h.init
  counterData := hrecord ▸ h.counterData
  overflows := hrecord ▸ h.overflows

theorem hiddenWraps_append (vs : List Stretch) (v : Stretch) :
    hiddenWraps w (vs ++ [v]) = hiddenWraps w vs + if v.Hidden w then 1 else 0 := by
  rw [hiddenWraps, hiddenWraps, List.countP_append, List.countP_singleton]
  simp

/-- What a read adds -/
theorem Counted.read {v : Stretch} {vs : List Stretch} {x : Word} (acknowledged : Bool)
    (h : Counted thread w e v.before vs e') (hadvance : v.advance < 2 ^ w)
    (hx : x.toNat = v.count % 2 ^ w) :
    Counted thread w e ((v.found w).after acknowledged) (vs ++ [v])
      (e'.counted thread x
        (decide (x < (e'.threadCounter thread).counterData) && (v.found w).status)) := by
  have hless : x < (e'.threadCounter thread).counterData ↔ v.Wraps w := by
    rw [BitVec.lt_def, hx, h.counterData, Stretch.mod_lt_iff hadvance]
  have hdiv := Stretch.div_eq hadvance
  have hover := h.overflows
  have happend := hiddenWraps_append (w := w) vs v
  have hdec : decide (x < (e'.threadCounter thread).counterData) = decide (v.Wraps w) :=
    decide_eq_decide.mpr hless
  rw [hdec]
  refine ⟨(counted_index ..).trans h.index, ?_, ?_, ?_, ?_⟩
  · rw [counted_type]
    exact h.type
  · rw [counted_threadCounter]
    exact h.init
  · rw [counted_threadCounter]
    exact hx
  · rw [counted_threadCounter, happend]
    show _ = (e.threadCounter thread).overflows + (v.count / 2 ^ w : ℕ)
    rw [hdiv]
    dsimp only
    by_cases hwraps : v.Wraps w
    · by_cases hack : v.acknowledged = true
      · simp only [hwraps, hack, Stretch.found, Stretch.Hidden, decide_true, Bool.not_true,
          Bool.and_false, Bool.false_eq_true, if_false, if_true, and_self]
        omega
      · simp only [hwraps, hack, Stretch.found, Stretch.Hidden, decide_true, Bool.or_true,
          Bool.not_false, Bool.and_self, Bool.false_eq_true, if_true, and_false, if_false]
        omega
    · simp only [hwraps, Stretch.Hidden, decide_false, Bool.false_and, Bool.false_eq_true, if_false,
        false_and]
      omega

theorem EndsIn.of_wp {σ : Type} {m : Prog Int σ Unit} {p p' : σ} {P : σ → Prop}
    (hend : EndsIn m p p') (h : m.wp (fun _ q => P q) (fun _ q => P q) p) : P p' := by
  rcases hend with hdone | ⟨r, hret⟩
  · exact Prog.wp_done h hdone
  · exact Prog.wp_returned h hret

theorem counted_start {c₁ c₂ : Core} {status : Bool} (he : CoreCounter M thread mask row e)
    (hslot : slots[i]? = some (some e)) (hi : i < n)
    (hvisit : Visits i (haswellStartEvent M thread cpu mask (haveLock M c cpu)) 0 (c, slots) c₁ c₂)
    (hend : EndsIn (perfmonStartCountersThreadHaswell M thread cpu mask n) (c, slots)
      (c', slots')) :
    ∃ e', slots'[i]? = some (some e') ∧ Counted thread w e ⟨0, status⟩ [] e' := by
  obtain ⟨flags, e₁, flags', e₂, hreach, -, hround⟩ := hvisit
  have hcell := Prog.reaches_cell hreach
  obtain rfl : e = e₁ := by simpa [hslot] using hcell
  have hcleared := haswellStartEvent_core he hround
  -- after the loop the event can only be dropped
  have hspec : (perfmonStartCountersThreadHaswell M thread cpu mask n).wp
      (fun _ q => ∃ e', q.2[i]? = some (some e') ∧ MaybeDropped e₂ e')
      (fun _ q => ∃ e', q.2[i]? = some (some e') ∧ MaybeDropped e₂ e') (c, slots) := by
    unfold perfmonStartCountersThreadHaswell
    rw [Prog.wp_bind, Prog.wp_get, Prog.wp_bind]
    refine Prog.wp_mono (Prog.forCells_left hi hreach hround) (fun flags q hq => ?_)
      fun _ _ hq => ⟨e₂, hq, Or.inl rfl⟩
    exact Prog.wp_mono (startTail_dropped M cpu mask n (haveLock M c cpu) flags q)
      (fun _ _ hcells => Prog.CellsRel.get_left hcells hq)
      fun _ _ hcells => Prog.CellsRel.get_left hcells hq
  obtain ⟨e', hslot', hdrop⟩ := hend.of_wp hspec
  have hcounted : Counted thread w e ⟨0, status⟩ [] e₂ := hcleared ▸ .clearData he.init status
  rcases hdrop with rfl | rfl
  · exact ⟨_, hslot', hcounted⟩
  · exact ⟨_, hslot', hcounted.of_kept rfl (Or.inr rfl) rfl⟩

theorem counted_read {c₀ c₁ c₂ c₃ : Core} {flags : Word} {v : Stretch} {vs : List Stretch}
    (he : CoreCounter M thread mask row e) (hwidth : w = (M.boxMap e.type).regWidth)
    (hoffset : offset = overflowBit M e) (hi : i < n)
    (hslot : slots[i]? = some (some e')) (h : Counted thread w e v.before vs e')
    (hadvance : v.advance < 2 ^ w) (hpause : pauseCore M cpu mask c = .done flags c₀)
    (hfreeze : hasepFreezeUncore M cpu mask (haveLock M c cpu) c₀ = .done () c₁)
    (hvisit : Visits i (haswellReadEvent M thread cpu mask (haveLock M c cpu)) () (c₁, slots) c₂ c₃)
    (hshows : Shows M cpu row.counterRegister w offset (v.found w) c₂)
    (hend : EndsIn (perfmonReadCountersThreadHaswell M thread cpu mask n) (c, slots)
      (c', slots')) (acknowledged : Bool) :
    ∃ e'', slots'[i]? = some (some e'') ∧
      Counted thread w e ((v.found w).after acknowledged) (vs ++ [v]) e'' := by
  obtain ⟨_, e₁, _, e₂, hreach, hne, hround⟩ := hvisit
  have hcell := Prog.reaches_cell hreach
  obtain rfl : e' = e₁ := by simpa [hslot] using hcell
  have htype : e'.type = e.type := h.type.resolve_right hne
  have he' : CoreCounter M thread mask row e' := he.of_eq htype h.index h.init
  have hbit : overflowBit M e' = offset := by
    rw [hoffset, overflowBit, overflowBit, htype, h.index]
  obtain ⟨x, hx, hcounted⟩ := haswellReadEvent_shows he' (htype ▸ hwidth) (hbit ▸ hshows) hround
  have hspec : (perfmonReadCountersThreadHaswell M thread cpu mask n).wp
      (fun _ q => q.2[i]? = some (some e₂)) (fun _ q => q.2[i]? = some (some e₂)) (c, slots) := by
    have hget : (Prog.get : Prog Int (Core × List Slot) _) (c, slots) =
        .done (c, slots) (c, slots) := rfl
    unfold Prog.wp perfmonReadCountersThreadHaswell
    rw [Prog.bind_of_done hget, Prog.bind_of_done (Prog.zoom_of_done hpause),
      Prog.bind_of_done (Prog.zoom_of_done hfreeze)]
    refine Prog.wp_bind.mpr (Prog.wp_mono (Prog.forCells_left hi hreach hround)
      (fun _ q hq => ?_) fun _ _ hq => hq)
    refine Prog.wp_mono (readTail_slots M cpu mask (haveLock M c cpu) flags q)
      (fun _ q' hsame => ?_) fun _ q' hsame => ?_
    · have hslots : q.2 = q'.2 := hsame
      rw [← hslots]
      exact hq
    · have hslots : q.2 = q'.2 := hsame
      rw [← hslots]
      exact hq
  exact ⟨e₂, hend.of_wp hspec, hcounted ▸ h.read acknowledged hadvance hx⟩

theorem counted_session {hw : HwCounter} {vs : List Stretch}
    (he : CoreCounter M thread mask row e) (hslot : slots[i]? = some (some e)) (hi : i < n)
    (h : CountedSession M thread cpu mask n i row (M.boxMap e.type).regWidth (overflowBit M e)
      slots hw vs slots') :
    ∃ e', slots'[i]? = some (some e') ∧
      Counted thread (M.boxMap e.type).regWidth e hw vs e' := by
  induction h with
  | start hvisit hclear hend => exact counted_start he hslot hi hvisit hend
  | read _ hadvance hpause hfreeze hvisit hshows hend ih =>
      obtain ⟨e₁, hslot₁, hcounted⟩ := ih
      exact counted_read he rfl rfl hi hslot₁ hcounted hadvance hpause hfreeze hvisit hshows hend _
  | other _ hkept ih =>
      obtain ⟨e₁, hslot₁, hcounted⟩ := ih
      obtain ⟨e₂, hslot₂, hindex, htype, hrecord⟩ := hkept e₁ hslot₁
      exact ⟨e₂, hslot₂, hcounted.of_kept hindex htype hrecord⟩

/-- Since the start, the record has counted every wrap of the counter. -/
def WrapsCounted (thread w : ℕ) (e e' : PerfmonEventSetEntry) (hw : HwCounter) : Prop :=
  (e'.threadCounter thread).overflows =
    (e.threadCounter thread).overflows + (hw.count / 2 ^ w : ℕ)

/-- **The record counts every wrap of its counter** if and only if nobody else acknowledged the
bit of one before it was read, in every session of a thread on a core counter. -/
theorem wrapsCounted_iff {hw : HwCounter} {vs : List Stretch}
    (he : CoreCounter M thread mask row e) (hslot : slots[i]? = some (some e)) (hi : i < n)
    (h : CountedSession M thread cpu mask n i row (M.boxMap e.type).regWidth (overflowBit M e)
      slots hw vs slots') (hslot' : slots'[i]? = some (some e')) :
    WrapsCounted thread (M.boxMap e.type).regWidth e e' hw ↔
      ∀ v ∈ vs, ¬v.Hidden (M.boxMap e.type).regWidth := by
  obtain ⟨e'', hslot'', hcounted⟩ := counted_session he hslot hi h
  obtain rfl : e' = e'' := by simpa [hslot'] using hslot''
  have hover := hcounted.overflows
  have hnone : hiddenWraps (M.boxMap e.type).regWidth vs = 0 ↔
      ∀ v ∈ vs, ¬v.Hidden (M.boxMap e.type).regWidth := by
    rw [hiddenWraps, List.countP_eq_zero]
    simp only [decide_eq_true_eq]
  rw [← hnone, WrapsCounted]
  constructor
  · intro hall
    omega
  · intro hzero
    rw [hzero] at hover
    omega

/-! ## Two events on one counter -/

/-- `UOPS_ISSUED_ANY:PMC0`, set up and started -/
def startedPmc : PerfmonEventSetEntry := (pmcEntry.setInit 0 true).clearData 0

/-- The status register delivers the bit of `PMC0` until it is acknowledged, with the fifth access
of a read. -/
def acknowledging : Machine :=
  { haswellMachine with
    accessData := fun n _ _ reg v =>
      if reg = msrPerfGlobalStatus ∧ 4 < n then v &&& ~~~bit 0 else v }

/-- `PMC0` holds `x`, and the status register `status`. -/
def showing (x status : Word) : Core :=
  { ownerCore with
    regs := fun _ dev reg =>
      if dev = msrDev ∧ reg = msrPmc0 then x
      else if dev = msrDev ∧ reg = msrPerfGlobalStatus then status else 0 }

def pmc0 : RegisterMap := ⟨"PMC0", 3, .pmc, 0x186, 0x0C1, 0, msrDev, hasValidOptionsPmc⟩

theorem coreCounter_pmc : CoreCounter acknowledging 0 (regTypeMaskOf .pmc) pmc0
    (pmcEntry.setInit 0 true) where
  type := Or.inl rfl
  row_eq := rfl
  init := rfl
  mem := by decide
  width_le := by decide
  bit_lt := by decide

def halfway : Stretch := ⟨⟨0, false⟩, 2 ^ 47, false⟩

def wrapping (acknowledged : Bool) : Stretch := ⟨⟨2 ^ 47, false⟩, 2 ^ 47 + 5, acknowledged⟩

/-- The entry of the event at `2 ^ 47`, and after the wrap -/
def halfwayPmc : PerfmonEventSetEntry := startedPmc.counted 0 (BitVec.ofNat 64 (2 ^ 47)) false

def wrappedPmc (overflow : Bool) : PerfmonEventSetEntry := halfwayPmc.counted 0 5 overflow

theorem shows_of_done {reg : ℕ} {hw : HwCounter} {x ovf : Word} {c₁ c₂ : Core}
    (hread : checkRead M cpu msrDev reg c = .done x c₁) (hx : x.toNat = hw.count % 2 ^ w)
    (hstatus : checkRead M cpu msrDev msrPerfGlobalStatus c₁ = .done ovf c₂)
    (hovf : ovf.getLsbD offset = hw.status) : Shows M cpu reg w offset hw c := by
  intro y c₁' hread'
  cases hread.symm.trans hread'
  refine ⟨hx, fun ovf' c₂' hstatus' => ?_⟩
  cases hstatus.symm.trans hstatus'
  exact hovf

theorem countedSession_alone :
    CountedSession acknowledging 0 0 (regTypeMaskOf .pmc) 1 0 pmc0 48 0
      [some (pmcEntry.setInit 0 true)] ⟨2 ^ 48 + 5, false⟩ [halfway, wrapping false]
      [some (wrappedPmc true)] := by
  have hstart : CountedSession acknowledging 0 0 (regTypeMaskOf .pmc) 1 0 pmc0 48 0
      [some (pmcEntry.setInit 0 true)] ⟨0, false⟩ [] [some startedPmc] :=
    .start (c := showing 0 0) ⟨_, _, _, _, rfl, by decide, rfl⟩ rfl (Or.inl rfl)
  have hhalf : CountedSession acknowledging 0 0 (regTypeMaskOf .pmc) 1 0 pmc0 48 0
      [some (pmcEntry.setInit 0 true)] ⟨2 ^ 47, false⟩ [halfway] [some halfwayPmc] :=
    .read (c := showing (BitVec.ofNat 64 (2 ^ 47)) 0) (v := halfway) hstart (by decide) rfl rfl
      ⟨_, _, _, _, rfl, by decide, rfl⟩
      (shows_of_done rfl (by decide +kernel) rfl (by decide +kernel)) (Or.inl rfl)
  exact .read (c := showing 5 1) (v := wrapping false) hhalf (by decide) rfl rfl
    ⟨_, _, _, _, rfl, by decide, rfl⟩
    (shows_of_done rfl (by decide +kernel) rfl (by decide +kernel)) (Or.inl rfl)

theorem wrapsCounted_alone :
    WrapsCounted 0 48 (pmcEntry.setInit 0 true) (wrappedPmc true) ⟨2 ^ 48 + 5, false⟩ :=
  (wrapsCounted_iff coreCounter_pmc rfl (by decide) countedSession_alone rfl).mpr (by decide)

/-- The overflows of the events of a group, after a routine -/
def overflowsAfter (m : Prog Int (Core × List Slot) Unit) (p : Core × List Slot) :
    Option (List (Option Int)) :=
  (m.result? p).map fun r => r.2.2.map (Option.map fun e => (e.threadCounter 0).overflows)

/-- The event is twice in the group. A read counts the wrap for the first one, acknowledges the bit
and misses the wrap for the second one. -/
theorem not_wrapsCounted_shared : ∃ slots' e₀ e₁,
    CountedSession acknowledging 0 0 (regTypeMaskOf .pmc) 2 1 pmc0 48 0
      (List.replicate 2 (some (pmcEntry.setInit 0 true))) ⟨2 ^ 48 + 5, false⟩
      [halfway, wrapping true] slots' ∧
    slots'[0]? = some (some e₀) ∧ slots'[1]? = some (some e₁) ∧
    WrapsCounted 0 48 (pmcEntry.setInit 0 true) e₀ ⟨2 ^ 48 + 5, false⟩ ∧
    ¬WrapsCounted 0 48 (pmcEntry.setInit 0 true) e₁ ⟨2 ^ 48 + 5, false⟩ := by
  have hstart : CountedSession acknowledging 0 0 (regTypeMaskOf .pmc) 2 1 pmc0 48 0
      (List.replicate 2 (some (pmcEntry.setInit 0 true))) ⟨0, false⟩ []
      (List.replicate 2 (some startedPmc)) :=
    .start (c := showing 0 0) ⟨_, _, _, _, rfl, by decide, rfl⟩ rfl (Or.inl rfl)
  have hhalf : CountedSession acknowledging 0 0 (regTypeMaskOf .pmc) 2 1 pmc0 48 0
      (List.replicate 2 (some (pmcEntry.setInit 0 true))) ⟨2 ^ 47, false⟩ [halfway]
      (List.replicate 2 (some halfwayPmc)) :=
    .read (c := showing (BitVec.ofNat 64 (2 ^ 47)) 0) (v := halfway) hstart (by decide) rfl rfl
      ⟨_, _, _, _, rfl, by decide, rfl⟩
      (shows_of_done rfl (by decide +kernel) rfl (by decide +kernel)) (Or.inl rfl)
  let m := perfmonReadCountersThreadHaswell acknowledging 0 0 (regTypeMaskOf .pmc) 2
  let p := (showing 5 1, List.replicate 2 (some halfwayPmc))
  have hover : overflowsAfter m p = some [some 1, some 0] := by decide +kernel
  obtain ⟨⟨⟨⟩, c', slots'⟩, hresult, hslots⟩ := Option.map_eq_some_iff.mp hover
  have hdone : m p = .done () (c', slots') := Prog.result?_eq_some.mp hresult
  have hentry : ∀ (i : ℕ) (k : Int), [some (1 : Int), some 0][i]? = some (some k) →
      ∃ e : PerfmonEventSetEntry, slots'[i]? = some (some e) ∧
        (e.threadCounter 0).overflows = k := by
    intro i k hk
    have hi := congrArg (fun l => l[i]?) hslots
    simp only [List.getElem?_map, hk, Option.map_eq_some_iff] at hi
    obtain ⟨_, hget, e, rfl, hk⟩ := hi
    exact ⟨e, hget, hk⟩
  obtain ⟨e₀, hslot₀, hover₀⟩ := hentry 0 1 rfl
  obtain ⟨e₁, hslot₁, hover₁⟩ := hentry 1 0 rfl
  refine ⟨slots', e₀, e₁, ?_, hslot₀, hslot₁, ?_, ?_⟩
  · exact .read (c := showing 5 1) (v := wrapping true) hhalf (by decide) rfl rfl
      ⟨_, _, _, _, rfl, by decide, rfl⟩
      (shows_of_done rfl (by decide +kernel) rfl (by decide +kernel)) (Or.inl hdone)
  · rw [WrapsCounted, hover₀]
    decide +kernel
  · rw [WrapsCounted, hover₁]
    decide +kernel

end Likwid
