import Likwid.CoreOverflow
import Likwid.IvyBridge

/-!
# The overflows of the core counters on Ivy Bridge

The hardware reports a wrap of fixed counter `i` in bit `32 + i` of the status register, and one of
`PMC i` in bit `i`. The read and the stop select the bit with a shift of an `int`, which takes the
count modulo 32. For a fixed counter they look at the bit of `PMC i`, and count its wraps only as
far as that bit is set as well (`ivyBridgeOverflows_iff`).
-/

namespace Likwid

variable {M : Machine} {thread cpu n i w own : ℕ} {mask : BitVec 128} {row : RegisterMap}
  {e e' : PerfmonEventSetEntry} {c c' : Core} {slots slots' : List Slot} {stop lock : Bool}

/-! ## A measurement -/

/-- How far a counter comes between two samples, and the status register the second one finds -/
structure StatusSample where
  before : ℕ
  advance : ℕ
  status : Word

namespace StatusSample

variable (w tested : ℕ) (v : StatusSample)

def count : ℕ := v.before + v.advance

/-- The sample as one of a counter whose bit is bit `tested` -/
def stretch : Stretch := ⟨⟨v.before, false⟩, v.advance, !v.status.getLsbD tested⟩

def Wraps : Prop := v.before / 2 ^ w < v.count / 2 ^ w

instance : Decidable (v.Wraps w) := inferInstanceAs (Decidable (_ < _))

/-- Reading the counter, and then the status register, delivers the sample from `c` on. -/
def ShownBy (M : Machine) (cpu reg : ℕ) (c : Core) : Prop :=
  ∀ x c₁, checkRead M cpu msrDev reg c = .done x c₁ → x.toNat = v.count % 2 ^ w ∧
    ∀ ovf c₂, checkRead M cpu msrDev msrPerfGlobalStatus c₁ = .done ovf c₂ → ovf = v.status

end StatusSample

/-- An event that is set up on a core counter of Ivy Bridge, and part of its group -/
structure IvyBridgeCounter (M : Machine) (thread : ℕ) (mask : BitVec 128) (row : RegisterMap)
    (e : PerfmonEventSetEntry) : Prop extends CoreCounter M thread mask row e where
  row_type : row.type = e.type
  device : row.device = msrDev
  pmc_lt : e.type = .pmc → overflowBit M e < 8

/-- The part of a read, or of a stop, before its loop -/
def ivyBridgePause (M : Machine) (cpu : ℕ) (mask : BitVec 128) : Bool → Prog Int Core Word
  | false => do
      let flags ← pauseCore M cpu mask
      ignoring (ivbUncoreFreeze M cpu mask .onlyFreeze)
      pure flags
  | true => do
      Prog.when (hasCore mask) (checkWrite M cpu msrDev msrPerfGlobalCtrl 0)
      ignoring (ivbUncoreFreeze M cpu mask .clearCtl)
      pure 0

def ivyBridgeSample (M : Machine) (thread cpu : ℕ) (mask : BitVec 128) (n : ℕ) :
    Bool → Prog Int (Core × List Slot) Unit
  | false => perfmonReadCountersThreadIvybridge M thread cpu mask n
  | true => perfmonStopCountersThreadIvybridge M thread cpu mask n

/-- A start of a thread, reads after it and the stop, in which event `i` is sampled: whether it
runs, how far its counter has come, the samples, and the slots. The hardware sets bit `own` of the
status register when the counter wraps. Otherwise the state of the machine is any at every routine,
except for what the counter shows. -/
inductive IvyBridgeSession (M : Machine) (thread cpu : ℕ) (mask : BitVec 128) (n i : ℕ)
    (row : RegisterMap) (w own : ℕ) (slots : List Slot) :
    Bool → ℕ → List StatusSample → List Slot → Prop
  | start {c c₁ c₂ c' : Core} {slots' : List Slot}
      (hvisit : Visits i (ivyBridgeStartEvent M thread cpu mask (haveLock M c cpu)) 0 (c, slots)
        c₁ c₂)
      (hclear : c₂.regs cpu msrDev row.counterRegister = 0)
      (hend : EndsIn (perfmonStartCountersThreadIvybridge M thread cpu mask n) (c, slots)
        (c', slots')) :
      IvyBridgeSession M thread cpu mask n i row w own slots true 0 [] slots'
  | sample {c c₁ c₂ c₃ c' : Core} {flags : Word} {v : StatusSample} {vs : List StatusSample}
      {slots₁ slots₂ : List Slot} (stop : Bool)
      (h : IvyBridgeSession M thread cpu mask n i row w own slots true v.before vs slots₁)
      (hadvance : v.advance < 2 ^ w) (hset : v.Wraps w → v.status.getLsbD own = true)
      (hpause : ivyBridgePause M cpu mask stop c = .done flags c₁)
      (hvisit : Visits i (ivyBridgeCountEvent M thread cpu mask (haveLock M c cpu) stop) ()
        (c₁, slots₁) c₂ c₃)
      (hshown : v.ShownBy w M cpu row.counterRegister c₂)
      (hend : EndsIn (ivyBridgeSample M thread cpu mask n stop) (c, slots₁) (c', slots₂)) :
      IvyBridgeSession M thread cpu mask n i row w own slots (!stop) v.count (vs ++ [v]) slots₂
  | other {running : Bool} {k : ℕ} {vs : List StatusSample} {slots₁ slots₂ : List Slot}
      (h : IvyBridgeSession M thread cpu mask n i row w own slots running k vs slots₁)
      (hkept : RecordKept thread i slots₁ slots₂) :
      IvyBridgeSession M thread cpu mask n i row w own slots running k vs slots₂

/-! ## The bit that is looked at -/

/-- The position the shift selects -/
def testedBit (M : Machine) (e : PerfmonEventSetEntry) : ℕ := overflowBit M e % 32

namespace IvyBridgeCounter

variable (he : IvyBridgeCounter M thread mask row e)

include he

theorem fixed_lt (hfixed : e.type = .fixed) : e.index < 8 := by
  have hmem := List.mem_of_getElem? he.row_eq
  have hindex := M.index_eq e.index row he.row_eq
  have hlt := (M.fixed_row row hmem (he.row_type.trans hfixed)).2
  exact hindex ▸ hlt

/-- For a `PMC` it is the bit of the counter, and for a fixed counter that of a `PMC`. -/
theorem testedBit_eq :
    testedBit M e = if e.type = .fixed then e.index else overflowBit M e := by
  unfold testedBit
  rcases he.type with hpmc | hfixed
  · have hlt := he.pmc_lt hpmc
    rw [if_neg (by rw [hpmc]; decide)]
    omega
  · have hlt := he.fixed_lt hfixed
    rw [if_pos hfixed, overflowBit, if_neg (by rw [hfixed]; decide), Nat.add_mod_right]
    exact Nat.mod_eq_of_lt (hlt.trans (by decide))

theorem testedBit_lt : testedBit M e < 31 := by
  rw [he.testedBit_eq]
  rcases he.type with hpmc | hfixed
  · have hlt := he.pmc_lt hpmc
    rw [if_neg (by rw [hpmc]; decide)]
    omega
  · have hlt := he.fixed_lt hfixed
    rw [if_pos hfixed]
    exact hlt.trans (by decide)

end IvyBridgeCounter

/-! ## One round -/

theorem ivbCoreCounter_shown {reg offset : ℕ} {v : StatusSample} {x : Word}
    (hoffset : offset % 32 < 31) (hshown : v.ShownBy w M cpu reg c)
    (hrun : ivbCoreCounter M thread cpu msrDev reg offset (c, e) = .done x (c', e')) :
    x.toNat = v.count % 2 ^ w ∧
      e' = if x < (e.threadCounter thread).counterData ∧ v.status.getLsbD (offset % 32) = true
        then e.addOverflow thread else e := by
  obtain ⟨y, _, hzoom, hrun⟩ := Prog.bind_eq_done.mp hrun
  obtain ⟨c₁, hread, rfl⟩ := Prog.zoom_eq_done.mp hzoom
  obtain ⟨hx, hstatus⟩ := hshown y c₁ hread
  obtain ⟨p, _, hget, hrun⟩ := Prog.bind_eq_done.mp hrun
  cases hget
  obtain ⟨⟨⟩, p, hcount, hdone⟩ := Prog.bind_eq_done.mp hrun
  cases hdone
  refine ⟨hx, ?_⟩
  by_cases hless : x < (e.threadCounter thread).counterData
  · rw [Prog.when_of_pos hless] at hcount
    obtain ⟨ovf, _, hzoom, hcount⟩ := Prog.bind_eq_done.mp hcount
    obtain ⟨c₂, hread₂, rfl⟩ := Prog.zoom_eq_done.mp hzoom
    obtain rfl := hstatus ovf c₂ hread₂
    have hbit : v.status &&& intBit32 offset ≠ 0 ↔ v.status.getLsbD (offset % 32) = true := by
      rw [intBit32_eq_bit hoffset, and_bit_ne_zero (by omega)]
    by_cases hset : v.status.getLsbD (offset % 32) = true
    · rw [Prog.when_of_pos (hbit.mpr hset)] at hcount
      cases hcount
      rw [if_pos ⟨hless, hset⟩]
    · rw [Prog.when_of_neg fun h => hset (hbit.mp h)] at hcount
      cases hcount
      rw [if_neg fun h => hset h.2]
  · rw [Prog.when_of_neg hless] at hcount
    cases hcount
    rw [if_neg fun h => hless h.1]

/-- The round of the read, or of the stop, on a core counter -/
theorem ivyBridgeCountEvent_core (he : IvyBridgeCounter M thread mask row e) :
    ivyBridgeCountEvent M thread cpu mask lock stop () (c, e) =
      (do
        let x ← ivbCoreCounter M thread cpu msrDev row.counterRegister (overflowBit M e)
        Prog.onSnd (Prog.modify
          (·.setCounter thread (field64 x 0 (M.boxMap e.type).regWidth)))
        Prog.when (stop = true) (Prog.onSnd (Prog.modify (·.setInit thread false))) :
          EventProg Unit) (c, e) := by
  have hcounted : (e.threadCounter thread).init = true ∧ hasType mask e.type := ⟨he.init, he.mem⟩
  have hrow : (counterMap M e.index : EventProg RegisterMap) = pure row := by
    rw [counterMap, he.row_eq]
    rfl
  have hlast : ∀ m : EventProg Unit, Prog.when (stop = true ∧
      ¬((e.threadCounter thread).init = true ∧ ¬hasType mask e.type)) m =
        Prog.when (stop = true) m := by
    intro m
    by_cases hstop : stop = true
    · rw [Prog.when_of_pos ⟨hstop, fun hno => hno.2 he.mem⟩, Prog.when_of_pos hstop]
    · rw [Prog.when_of_neg fun h => hstop h.1, Prog.when_of_neg hstop]
  have hdev : (if stop = true then row.device else msrDev) = msrDev := by
    rw [he.device, ite_self]
  have hcase : ivyBridgeCountCase M thread cpu mask lock stop e row (ivyBridgeUnit e.type) =
      ivbCoreCounter M thread cpu msrDev row.counterRegister (overflowBit M e) := by
    rcases he.type with ht | ht
    · rw [overflowBit, if_pos ht, show ivyBridgeUnit e.type = .pmc by rw [ht]; rfl]
      simp only [ivyBridgeCountCase, hdev]
    · rw [overflowBit, if_neg (by rw [ht]; decide),
        show ivyBridgeUnit e.type = .fixed by rw [ht]; rfl]
      simp only [ivyBridgeCountCase, hdev]
  unfold ivyBridgeCountEvent
  rw [Prog.bind_of_done (Prog.get_apply (c, e)), Prog.when_of_pos hcounted, hrow,
    Prog.bind_pure_left, hcase, Prog.bind_assoc]
  simp only [hlast]

/-- What a read, or a stop, makes of an event whose counter it samples -/
theorem ivyBridgeCountEvent_shown (he : IvyBridgeCounter M thread mask row e)
    {v : StatusSample} (hwidth : w = (M.boxMap e.type).regWidth) {b b' : Unit}
    (hshown : v.ShownBy w M cpu row.counterRegister c)
    (hround : ivyBridgeCountEvent M thread cpu mask lock stop b (c, e) = .done b' (c', e')) :
    ∃ x : Word, x.toNat = v.count % 2 ^ w ∧
      e' = if stop = true then
          (e.counted thread x (decide (x < (e.threadCounter thread).counterData) &&
            v.status.getLsbD (testedBit M e))).setInit thread false
        else e.counted thread x (decide (x < (e.threadCounter thread).counterData) &&
            v.status.getLsbD (testedBit M e)) := by
  rw [show b = () from rfl, ivyBridgeCountEvent_core he] at hround
  obtain ⟨x, ⟨c₁, e₁⟩, hcount, hround⟩ := Prog.bind_eq_done.mp hround
  obtain ⟨hx, he₁⟩ := ivbCoreCounter_shown he.testedBit_lt hshown hcount
  have hfield : field64 x 0 (M.boxMap e.type).regWidth = x :=
    field64_of_lt he.width_le (by
      rw [hx, ← hwidth]
      exact Nat.mod_lt _ (Nat.two_pow_pos w))
  have hcounted : e₁.setCounter thread x = e.counted thread x
      (decide (x < (e.threadCounter thread).counterData) &&
        v.status.getLsbD (testedBit M e)) := by
    simp only [PerfmonEventSetEntry.counted, Bool.and_eq_true, decide_eq_true_eq]
    rw [he₁]
    rfl
  rw [hfield] at hround
  refine ⟨x, hx, ?_⟩
  rw [← hcounted]
  cases stop with
  | false =>
    cases hround
    rfl
  | true =>
    cases hround
    rfl

/-- A start clears the record and keeps the overflows. -/
theorem ivyBridgeStartEvent_core (he : IvyBridgeCounter M thread mask row e) {flags flags' : Word}
    (hround : ivyBridgeStartEvent M thread cpu mask lock flags (c, e) = .done flags' (c', e')) :
    e' = e.clearData thread := by
  have hstarted : (e.threadCounter thread).init = true ∧ hasType mask e.type := ⟨he.init, he.mem⟩
  have hrow : (counterMap M e.index : EventProg RegisterMap) = pure row := by
    rw [counterMap, he.row_eq]
    rfl
  have hcore : ∃ flag, ivyBridgeStartCase M thread cpu lock e row (ivyBridgeUnit e.type) =
      Prog.onFst (checkWrite M cpu msrDev row.counterRegister 0) >>= fun _ => pure flag := by
    rcases he.type with ht | ht
    · rw [show ivyBridgeUnit e.type = .pmc by rw [ht]; rfl]
      exact ⟨_, rfl⟩
    · rw [show ivyBridgeUnit e.type = .fixed by rw [ht]; rfl]
      exact ⟨_, rfl⟩
  obtain ⟨flag, hcore⟩ := hcore
  unfold ivyBridgeStartEvent at hround
  rw [Prog.bind_of_done (Prog.get_apply (c, e)), if_pos hstarted, hrow, Prog.bind_pure_left,
    hcore] at hround
  obtain ⟨⟨⟩, _, hclear, hround⟩ := Prog.bind_eq_done.mp hround
  cases hclear
  obtain ⟨_, _, hwrite, hround⟩ := Prog.bind_eq_done.mp hround
  obtain ⟨⟨⟩, _, hzoom, hflag⟩ := Prog.bind_eq_done.mp hwrite
  obtain ⟨c₁, -, rfl⟩ := Prog.zoom_eq_done.mp hzoom
  cases hflag
  cases hround
  rfl

/-! ## A whole session -/

theorem IvyBridgeCounter.of_eq (he : IvyBridgeCounter M thread mask row e)
    (htype : e'.type = e.type) (hindex : e'.index = e.index)
    (hinit : (e'.threadCounter thread).init = true) :
    IvyBridgeCounter M thread mask row e' where
  toCoreCounter := he.toCoreCounter.of_eq htype hindex hinit
  row_type := he.row_type.trans htype.symm
  device := he.device
  pmc_lt := by
    have hbit : overflowBit M e' = overflowBit M e := by
      rw [overflowBit, overflowBit, htype, hindex]
    rw [hbit, htype]
    exact he.pmc_lt

/-- The record of an event that was `e` before the start: what it has counted, and whether the
event still runs -/
structure Sampled (thread w tested : ℕ) (e : PerfmonEventSetEntry) (running : Bool) (k : ℕ)
    (vs : List StatusSample) (e' : PerfmonEventSetEntry) : Prop where
  counted : Counted thread w e ⟨k, false⟩ (vs.map (StatusSample.stretch tested))
    (e'.setInit thread true)
  running : (e'.threadCounter thread).init = running

namespace Sampled

variable {tested k : ℕ} {running : Bool} {vs : List StatusSample}

theorem setInit_record (hinit : (e.threadCounter thread).init = true) :
    (e.setInit thread true).threadCounter thread = e.threadCounter thread := by
  simp only [PerfmonEventSetEntry.setInit, PerfmonEventSetEntry.onCounter_self, ← hinit]

theorem start (hinit : (e.threadCounter thread).init = true) :
    Sampled thread w tested e true 0 [] (e.clearData thread) := by
  have hrun : ((e.clearData thread).threadCounter thread).init = true := by
    simpa [PerfmonEventSetEntry.clearData] using hinit
  exact ⟨(Counted.clearData hinit false).of_kept rfl (Or.inl rfl) (setInit_record hrun), hrun⟩

theorem of_kept {e'' : PerfmonEventSetEntry} (h : Sampled thread w tested e running k vs e')
    (hindex : e''.index = e'.index) (htype : e''.type = e'.type ∨ e''.type = .notype)
    (hrecord : e''.threadCounter thread = e'.threadCounter thread) :
    Sampled thread w tested e running k vs e'' where
  counted := h.counted.of_kept hindex htype (by
    simp only [PerfmonEventSetEntry.setInit, PerfmonEventSetEntry.onCounter_self, hrecord])
  running := hrecord ▸ h.running

/-- What a sample adds -/
theorem sample {e'' : PerfmonEventSetEntry} {v : StatusSample} {x : Word} (stop : Bool)
    (h : Sampled thread w tested e true v.before vs e') (hadvance : v.advance < 2 ^ w)
    (hx : x.toNat = v.count % 2 ^ w) (he : e'' = if stop = true then
        (e'.counted thread x (decide (x < (e'.threadCounter thread).counterData) &&
          v.status.getLsbD tested)).setInit thread false
      else e'.counted thread x (decide (x < (e'.threadCounter thread).counterData) &&
          v.status.getLsbD tested)) :
    Sampled thread w tested e (!stop) v.count (vs ++ [v]) e'' := by
  have hbefore : Counted thread w e (v.stretch tested).before
      (vs.map (StatusSample.stretch tested)) e' :=
    h.counted.of_kept rfl (Or.inl rfl) (setInit_record h.running).symm
  -- the bit that is looked at takes the part of a bit that nobody has acknowledged
  have hflag : (decide (x < (e'.threadCounter thread).counterData) &&
      v.status.getLsbD tested) = (decide (x < (e'.threadCounter thread).counterData) &&
        ((v.stretch tested).found w).status) := by
    have hless : x < (e'.threadCounter thread).counterData ↔ (v.stretch tested).Wraps w := by
      rw [BitVec.lt_def, hx, hbefore.counterData]
      exact Stretch.mod_lt_iff (v := v.stretch tested) hadvance
    have hdec : decide (x < (e'.threadCounter thread).counterData) =
        decide ((v.stretch tested).Wraps w) := decide_eq_decide.mpr hless
    rw [hdec]
    show _ = (decide ((v.stretch tested).Wraps w) &&
      ((false || decide ((v.stretch tested).Wraps w)) && !!v.status.getLsbD tested))
    rw [Bool.false_or, Bool.not_not, ← Bool.and_assoc, Bool.and_self]
  have hread := hbefore.read true hadvance hx
  have hhw : ((v.stretch tested).found w).after true = ⟨v.count, false⟩ := by
    simp [Stretch.found, HwCounter.after, Stretch.count, StatusSample.stretch, StatusSample.count]
  rw [hhw, ← hflag, ← List.map_singleton, ← List.map_append] at hread
  subst he
  cases stop with
  | false => exact ⟨hread.of_kept rfl (Or.inl rfl) (setInit_record hread.init), hread.init⟩
  | true =>
    refine ⟨hread.of_kept rfl (Or.inl rfl) ?_, ?_⟩
    · have hrecord := setInit_record hread.init
      simpa [PerfmonEventSetEntry.setInit] using hrecord
    · simp [PerfmonEventSetEntry.setInit]

end Sampled

theorem sampled_start {c₁ c₂ : Core} (he : IvyBridgeCounter M thread mask row e)
    (hslot : slots[i]? = some (some e)) (hi : i < n)
    (hvisit : Visits i (ivyBridgeStartEvent M thread cpu mask (haveLock M c cpu)) 0 (c, slots)
      c₁ c₂)
    (hend : EndsIn (perfmonStartCountersThreadIvybridge M thread cpu mask n) (c, slots)
      (c', slots')) {tested : ℕ} :
    ∃ e', slots'[i]? = some (some e') ∧ Sampled thread w tested e true 0 [] e' := by
  obtain ⟨flags, e₁, flags', e₂, hreach, -, hround⟩ := hvisit
  have hcell := Prog.reaches_cell hreach
  obtain rfl : e = e₁ := by simpa [hslot] using hcell
  have hspec : (perfmonStartCountersThreadIvybridge M thread cpu mask n).wp
      (fun _ q => q.2[i]? = some (some e₂)) (fun _ q => q.2[i]? = some (some e₂)) (c, slots) := by
    unfold perfmonStartCountersThreadIvybridge
    rw [Prog.wp_bind, Prog.wp_get, Prog.wp_bind]
    refine Prog.wp_mono (Prog.forCells_left hi hreach hround) (fun flags q hq => ?_)
      fun _ _ hq => hq
    exact Prog.wp_zoom.mpr (Prog.wp_mono (Prog.wp_trivial _) (fun _ _ _ => hq) fun _ _ _ => hq)
  have hcleared := ivyBridgeStartEvent_core he hround
  exact ⟨e₂, hend.of_wp hspec, hcleared ▸ .start he.init⟩

/-- The read and the stop: a pause, the loop, and a rest that leaves the slots alone -/
theorem ivyBridgeSample_left {c₁ c₂ c₃ : Core} {flags : Word} {e₂ : PerfmonEventSetEntry}
    {b b' : Unit} (hi : i < n) (hpause : ivyBridgePause M cpu mask stop c = .done flags c₁)
    (hreach : Prog.reaches (ivyBridgeCountEvent M thread cpu mask (haveLock M c cpu) stop) i ()
      (c₁, slots) = some (b, c₂, e))
    (hround : ivyBridgeCountEvent M thread cpu mask (haveLock M c cpu) stop b (c₂, e) =
      .done b' (c₃, e₂)) :
    (ivyBridgeSample M thread cpu mask n stop).wp (fun _ q => q.2[i]? = some (some e₂))
      (fun _ q => q.2[i]? = some (some e₂)) (c, slots) := by
  have hloop := Prog.forCells_left hi hreach hround
  cases stop with
  | false =>
    show (perfmonReadCountersThreadIvybridge M thread cpu mask n).wp _ _ _
    unfold Prog.wp perfmonReadCountersThreadIvybridge
    rw [Prog.bind_of_done (Prog.get_apply (c, slots)), Prog.bind_of_done (Prog.zoom_of_done hpause)]
    refine Prog.wp_bind.mpr (Prog.wp_mono hloop (fun _ q hq => ?_) fun _ _ hq => hq)
    exact Prog.wp_zoom.mpr (Prog.wp_mono (Prog.wp_trivial _) (fun _ _ _ => hq) fun _ _ _ => hq)
  | true =>
    have hstopped : (do
        Prog.when (hasCore mask) (checkWrite M cpu msrDev msrPerfGlobalCtrl 0)
        ignoring (ivbUncoreFreeze M cpu mask .clearCtl) : Prog Int Core Unit) c = .done () c₁ := by
      obtain ⟨⟨⟩, c₄, hwrite, hrest⟩ := Prog.bind_eq_done.mp hpause
      obtain ⟨⟨⟩, c₅, hfreeze, hdone⟩ := Prog.bind_eq_done.mp hrest
      cases hdone
      rw [Prog.bind_of_done hwrite, hfreeze]
    show (perfmonStopCountersThreadIvybridge M thread cpu mask n).wp _ _ _
    unfold Prog.wp perfmonStopCountersThreadIvybridge
    rw [Prog.bind_of_done (Prog.get_apply (c, slots)),
      Prog.bind_of_done (Prog.zoom_of_done hstopped)]
    exact hloop

theorem sampled_sample {c₁ c₂ c₃ : Core} {flags : Word} {v : StatusSample}
    {vs : List StatusSample} (he : IvyBridgeCounter M thread mask row e)
    (hwidth : w = (M.boxMap e.type).regWidth) (hi : i < n) (hslot : slots[i]? = some (some e'))
    (h : Sampled thread w (testedBit M e) e true v.before vs e') (hadvance : v.advance < 2 ^ w)
    (hpause : ivyBridgePause M cpu mask stop c = .done flags c₁)
    (hvisit : Visits i (ivyBridgeCountEvent M thread cpu mask (haveLock M c cpu) stop) ()
      (c₁, slots) c₂ c₃)
    (hshown : v.ShownBy w M cpu row.counterRegister c₂)
    (hend : EndsIn (ivyBridgeSample M thread cpu mask n stop) (c, slots) (c', slots')) :
    ∃ e'', slots'[i]? = some (some e'') ∧
      Sampled thread w (testedBit M e) e (!stop) v.count (vs ++ [v]) e'' := by
  obtain ⟨_, e₁, _, e₂, hreach, hne, hround⟩ := hvisit
  have hcell := Prog.reaches_cell hreach
  obtain rfl : e' = e₁ := by simpa [hslot] using hcell
  have htype : e'.type = e.type := h.counted.type.resolve_right hne
  have he' : IvyBridgeCounter M thread mask row e' :=
    he.of_eq htype h.counted.index h.running
  have hbit : testedBit M e' = testedBit M e := by
    have hindex : e'.index = e.index := h.counted.index
    rw [testedBit, testedBit, overflowBit, overflowBit, htype, hindex]
  obtain ⟨x, hx, hnew⟩ := ivyBridgeCountEvent_shown he' (htype ▸ hwidth) hshown hround
  rw [hbit] at hnew
  exact ⟨e₂, hend.of_wp (ivyBridgeSample_left hi hpause hreach hround),
    h.sample stop hadvance hx hnew⟩

theorem sampled_session {running : Bool} {k : ℕ} {vs : List StatusSample}
    (he : IvyBridgeCounter M thread mask row e) (hslot : slots[i]? = some (some e)) (hi : i < n)
    (h : IvyBridgeSession M thread cpu mask n i row (M.boxMap e.type).regWidth own slots running k
      vs slots') :
    ∃ e', slots'[i]? = some (some e') ∧
      Sampled thread (M.boxMap e.type).regWidth (testedBit M e) e running k vs e' := by
  induction h with
  | start hvisit _ hend => exact sampled_start he hslot hi hvisit hend
  | sample stop _ hadvance _ hpause hvisit hshown hend ih =>
    obtain ⟨e₁, hslot₁, hsampled⟩ := ih
    exact sampled_sample he rfl hi hslot₁ hsampled hadvance hpause hvisit hshown hend
  | other _ hkept ih =>
    obtain ⟨e₁, hslot₁, hsampled⟩ := ih
    obtain ⟨e₂, hslot₂, hindex, htype, hrecord⟩ := hkept e₁ hslot₁
    exact ⟨e₂, hslot₂, hsampled.of_kept hindex htype hrecord⟩

/-- The bit of the counter is set at every sample after a wrap. -/
theorem IvyBridgeSession.own_set {running : Bool} {k : ℕ} {vs : List StatusSample}
    (h : IvyBridgeSession M thread cpu mask n i row w own slots running k vs slots')
    (v : StatusSample) (hv : v ∈ vs) (hwraps : v.Wraps w) : v.status.getLsbD own = true := by
  induction h with
  | start => cases hv
  | sample _ _ _ hset _ _ _ _ ih =>
    rcases List.mem_append.mp hv with hold | hnew
    · exact ih hold
    · obtain rfl := List.mem_singleton.mp hnew
      exact hset hwraps
  | other _ _ ih => exact ih hv

/-- **The record counts every wrap of a `PMC`.** It counts every wrap of fixed counter `i` if and
only if bit `i` of the status register, which is that of `PMC i`, is set at each sample after a
wrap. -/
theorem ivyBridgeOverflows_iff {running : Bool} {k : ℕ} {vs : List StatusSample}
    (he : IvyBridgeCounter M thread mask row e) (hslot : slots[i]? = some (some e)) (hi : i < n)
    (h : IvyBridgeSession M thread cpu mask n i row (M.boxMap e.type).regWidth (overflowBit M e)
      slots running k vs slots') (hslot' : slots'[i]? = some (some e')) :
    (e'.threadCounter thread).overflows =
        (e.threadCounter thread).overflows + (k / 2 ^ (M.boxMap e.type).regWidth : ℕ) ↔
      (e.type = .fixed → ∀ v ∈ vs, v.Wraps (M.boxMap e.type).regWidth →
        v.status.getLsbD e.index = true) := by
  obtain ⟨e'', hslot'', hsampled⟩ := sampled_session he hslot hi h
  obtain rfl : e' = e'' := by simpa [hslot'] using hslot''
  have hover : (e'.threadCounter thread).overflows +
      hiddenWraps (M.boxMap e.type).regWidth (vs.map (StatusSample.stretch (testedBit M e))) =
        (e.threadCounter thread).overflows + (k / 2 ^ (M.boxMap e.type).regWidth : ℕ) := by
    simpa [PerfmonEventSetEntry.setInit] using hsampled.counted.overflows
  have hnone : hiddenWraps (M.boxMap e.type).regWidth
      (vs.map (StatusSample.stretch (testedBit M e))) = 0 ↔
        ∀ v ∈ vs, v.Wraps (M.boxMap e.type).regWidth →
          v.status.getLsbD (testedBit M e) = true := by
    rw [hiddenWraps, List.countP_eq_zero]
    simp only [List.forall_mem_map, decide_eq_true_eq]
    refine forall₂_congr fun v _ => ?_
    constructor
    · intro hseen hwraps
      by_contra hclear
      exact hseen ⟨hwraps, by simpa [StatusSample.stretch] using hclear⟩
    · rintro hset ⟨hwraps, hhidden⟩
      have hon := hset hwraps
      simp [StatusSample.stretch, hon] at hhidden
  have htested : (∀ v ∈ vs, v.Wraps (M.boxMap e.type).regWidth →
      v.status.getLsbD (testedBit M e) = true) ↔
        (e.type = .fixed → ∀ v ∈ vs, v.Wraps (M.boxMap e.type).regWidth →
          v.status.getLsbD e.index = true) := by
    rw [he.testedBit_eq]
    by_cases hfixed : e.type = .fixed
    · rw [if_pos hfixed]
      exact ⟨fun hall _ => hall, fun hall => hall hfixed⟩
    · rw [if_neg hfixed]
      exact iff_of_true h.own_set fun hyes => absurd hyes hfixed
  rw [← htested, ← hnone]
  constructor
  · intro hall
    omega
  · intro hzero
    rw [hzero] at hover
    omega

/-! ## A fixed counter that wraps -/

/-- The client parts number their core counters alike. -/
def ivyBridgeMachine : Machine := { haswellMachine with model := 0x3A }

def fixc0 : RegisterMap :=
  ⟨"FIXC0", 0, .fixed, msrPerfFixedCtrCtrl, msrPerfFixedCtr0, 0, msrDev, hasValidOptionsFixed⟩

/-- `INSTR_RETIRED_ANY:FIXC0`, set up -/
def fixedEntry : PerfmonEventSetEntry where
  event := { name := "INSTR_RETIRED_ANY", limit := "FIXC0", eventId := 0x00, umask := 0x00 }
  index := 0
  type := .fixed
  threadCounter := fun _ => { PerfmonCounter.fresh with init := true }

/-- `FIXC0` holds `x`, and the status register `status`. -/
def fixedShowing (x status : Word) : Core :=
  { ownerCore with
    regs := fun _ dev reg =>
      if dev = msrDev ∧ reg = msrPerfFixedCtr0 then x
      else if dev = msrDev ∧ reg = msrPerfGlobalStatus then status else 0 }

theorem ivyBridgeCounter_fixed :
    IvyBridgeCounter ivyBridgeMachine 0 (regTypeMaskOf .fixed) fixc0 fixedEntry where
  type := Or.inr rfl
  row_eq := rfl
  init := rfl
  mem := by decide
  width_le := by decide
  bit_lt := by decide
  row_type := rfl
  device := rfl
  pmc_lt := nofun

theorem StatusSample.ShownBy.of_done {reg : ℕ} {v : StatusSample} {x ovf : Word} {c₁ c₂ : Core}
    (hread : checkRead M cpu msrDev reg c = .done x c₁) (hx : x.toNat = v.count % 2 ^ w)
    (hstatus : checkRead M cpu msrDev msrPerfGlobalStatus c₁ = .done ovf c₂)
    (hovf : ovf = v.status) : v.ShownBy w M cpu reg c := by
  intro y c₁' hread'
  cases hread.symm.trans hread'
  refine ⟨hx, fun ovf' c₂' hstatus' => ?_⟩
  cases hstatus.symm.trans hstatus'
  exact hovf

def halfwaySample : StatusSample := ⟨0, 2 ^ 47, 0⟩

/-- The wrap of `FIXC0`, with what the status register shows -/
def wrappingSample (status : Word) : StatusSample := ⟨2 ^ 47, 2 ^ 47 + 5, status⟩

/-- The entry after the start, after the read at `2 ^ 47`, and after the stop -/
def startedFixed : PerfmonEventSetEntry := fixedEntry.clearData 0

def halfwayFixed : PerfmonEventSetEntry := startedFixed.counted 0 (BitVec.ofNat 64 (2 ^ 47)) false

def stoppedFixed (overflow : Bool) : PerfmonEventSetEntry :=
  (halfwayFixed.counted 0 5 overflow).setInit 0 false

theorem session_halfway :
    IvyBridgeSession ivyBridgeMachine 0 0 (regTypeMaskOf .fixed) 1 0 fixc0 48 32
      [some fixedEntry] true (2 ^ 47) [halfwaySample] [some halfwayFixed] := by
  have hstart : IvyBridgeSession ivyBridgeMachine 0 0 (regTypeMaskOf .fixed) 1 0 fixc0 48 32
      [some fixedEntry] true 0 [] [some startedFixed] :=
    .start (c := fixedShowing 0 0) ⟨_, _, _, _, rfl, by decide, rfl⟩ rfl (Or.inl rfl)
  exact .sample (c := fixedShowing (BitVec.ofNat 64 (2 ^ 47)) 0) (v := halfwaySample) false hstart
    (by decide) (by decide) rfl ⟨_, _, _, _, rfl, by decide, rfl⟩
    (.of_done rfl (by decide +kernel) rfl (by decide +kernel)) (Or.inl rfl)

/-- The stop finds the bit of `PMC0` as well, and counts the wrap. -/
theorem session_both :
    IvyBridgeSession ivyBridgeMachine 0 0 (regTypeMaskOf .fixed) 1 0 fixc0 48 32
      [some fixedEntry] false (2 ^ 48 + 5) [halfwaySample, wrappingSample (bit 32 ||| bit 0)]
      [some (stoppedFixed true)] :=
  .sample (c := fixedShowing 5 (bit 32 ||| bit 0)) (v := wrappingSample (bit 32 ||| bit 0)) true
    session_halfway (by decide) (by decide) rfl ⟨_, _, _, _, rfl, by decide, rfl⟩
    (.of_done rfl (by decide +kernel) rfl (by decide +kernel)) (Or.inl rfl)

theorem ivyBridgeOverflows_both : ((stoppedFixed true).threadCounter 0).overflows =
    (fixedEntry.threadCounter 0).overflows + ((2 ^ 48 + 5) / 2 ^ 48 : ℕ) :=
  (ivyBridgeOverflows_iff ivyBridgeCounter_fixed rfl (by decide) session_both rfl).mpr
    (by decide)

/-- With its own bit alone, the wrap is not counted. -/
theorem not_ivyBridgeOverflows_own :
    IvyBridgeSession ivyBridgeMachine 0 0 (regTypeMaskOf .fixed) 1 0 fixc0 48 32
      [some fixedEntry] false (2 ^ 48 + 5) [halfwaySample, wrappingSample (bit 32)]
      [some (stoppedFixed false)] ∧
    ((stoppedFixed false).threadCounter 0).overflows ≠
      (fixedEntry.threadCounter 0).overflows + ((2 ^ 48 + 5) / 2 ^ 48 : ℕ) := by
  constructor
  · exact .sample (c := fixedShowing 5 (bit 32)) (v := wrappingSample (bit 32)) true
      session_halfway (by decide) (by decide) rfl ⟨_, _, _, _, rfl, by decide, rfl⟩
      (.of_done rfl (by decide +kernel) rfl (by decide +kernel)) (Or.inl rfl)
  · decide +kernel

end Likwid
