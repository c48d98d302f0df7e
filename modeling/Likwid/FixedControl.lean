import Likwid.Backends
import Likwid.Calls
import Likwid.Tables
import Likwid.Frames

/-!
# The control register of the fixed counters

Each fixed event contributes its bits to `MSR_PERF_FIXED_CTR_CTRL`, unless its
configuration is cached unchanged; what is written to the register is the union
of the contributions. `setup_fixedControl_iff` says when that is the union of
the bits of all fixed events of the set, for the Haswell and the Nehalem
routine.
-/

namespace Likwid

variable {M : Machine} {thread cpu : ℕ} {mask : BitVec 128} {lock : Bool}

/-! ## What a set asks for -/

/-- The counter and the bits of a fixed event of the set. -/
def fixedEvent (mask : BitVec 128) (e : PerfmonEventSetEntry) : Option (RegisterIndex × Word) :=
  if e.type = .fixed ∧ hasType mask e.type then
    some (e.index, (fixedFlags e.index e.event).setWidth 64)
  else none

/-- The fixed events among the first `n` slots. -/
def fixedEvents (mask : BitVec 128) (n : ℕ) (slots : List Slot) :
    List (RegisterIndex × Word) :=
  (slots.take n).filterMap fun slot => slot.bind (fixedEvent mask)

def unionOf (flags : List Word) : Word := flags.foldr (· ||| ·) 0

/-- The events whose configuration is not the cached one when their turn comes:
an earlier event of the set may have changed the cache. -/
def uncached (cache : RegisterIndex → Word) :
    List (RegisterIndex × Word) → List (RegisterIndex × Word)
  | [] => []
  | (j, flags) :: rest =>
      if flags = cache j then uncached cache rest
      else (j, flags) :: uncached (Function.update cache j flags) rest

/-- The bits of every fixed event of the set. -/
def fixedBits (events : List (RegisterIndex × Word)) : Word := unionOf (events.map Prod.snd)

theorem getLsbD_unionOf (flags : List Word) (b : ℕ) :
    (unionOf flags).getLsbD b = true ↔ ∃ f ∈ flags, f.getLsbD b = true := by
  induction flags with
  | nil => simp [unionOf]
  | cons f flags ih =>
      have hcons : unionOf (f :: flags) = f ||| unionOf flags := rfl
      simp [hcons, ih]

theorem uncached_congr {cache cache' : RegisterIndex → Word} :
    ∀ {events : List (RegisterIndex × Word)},
      (∀ j ∈ events.map Prod.fst, cache j = cache' j) →
      uncached cache events = uncached cache' events
  | [], _ => rfl
  | (j, flags) :: rest, h => by
      have hj : cache j = cache' j := h j (by simp)
      have hrest : ∀ i ∈ rest.map Prod.fst, cache i = cache' i :=
        fun i hi => h i (by simp only [List.map_cons, List.mem_cons]; exact Or.inr hi)
      rw [uncached, uncached, hj]
      split
      · exact uncached_congr hrest
      · refine congrArg _ (uncached_congr fun i hi => ?_)
        by_cases hij : i = j
        · simp [hij]
        · simp [Function.update_of_ne hij, hrest i hi]

theorem uncached_subset {f : RegisterIndex → Word} :
    ∀ {events : List (RegisterIndex × Word)}, uncached f events ⊆ events
  | [] => List.Subset.refl _
  | (j, flags) :: rest => by
      rw [uncached]
      split
      · exact fun _ h => List.mem_cons_of_mem _ (uncached_subset h)
      · exact List.cons_subset_cons _ uncached_subset

/-! ## One event -/

/-- The index of a fixed counter. -/
def IsFixed (M : Machine) (j : RegisterIndex) : Prop :=
  ∃ row, M.counterMap[j]? = some row ∧ row.type = .fixed

/-- The control register and the cached configurations of the fixed counters
are kept. -/
abbrev FixedKept (M : Machine) (cpu : ℕ) (c c' : Core) : Prop :=
  Keeps cpu (· = msrPerfFixedCtrCtrl) (IsFixed M) c c'

/-- What a round of the event loop does to the loop variable, the control
register and the fixed configurations. -/
structure FixedRound (M : Machine) (cpu : ℕ) (mask : BitVec 128) (e : PerfmonEventSetEntry)
    (flags : Word) (c : Core) (flags' : Word) (c' : Core) : Prop where
  reg : c'.regs cpu msrDev msrPerfFixedCtrCtrl = c.regs cpu msrDev msrPerfFixedCtrCtrl
  other : fixedEvent mask e = none →
    flags' = flags ∧ ∀ i, IsFixed M i → c'.currentConfig cpu i = c.currentConfig cpu i
  fixed : ∀ j f, fixedEvent mask e = some (j, f) →
    flags' = (if f = c.currentConfig cpu j then flags else flags ||| f) ∧
      c'.currentConfig cpu = Function.update (c.currentConfig cpu) j f

/-- The set-up of any other counter may write nothing that a fixed one uses. -/
theorem boxAllowed_fixed {index : RegisterIndex} {row : RegisterMap}
    (hrow : M.counterMap[index]? = some row) (ht : row.type ≠ .fixed) :
    BoxAllowed M index (fun dev reg => ¬(dev = msrDev ∧ reg = msrPerfFixedCtrCtrl))
      (fun j => ¬IsFixed M j) := by
  have hmem : ∀ row', M.counterMap[index]? = some row' → row' = row := by
    intro row' h
    rw [hrow] at h
    exact (Option.some.inj h).symm
  have hconfig := M.fixed_private row (List.mem_of_getElem? hrow) ht
  constructor
  · rintro row' h
    obtain rfl := hmem row' h
    exact ⟨fun h' => hconfig h'.2, fun h' => hconfig h'.2⟩
  · intro row' _
    exact ⟨fun h' => (M.fixed_filter row'.type).1 h'.2, fun h' => (M.fixed_filter row'.type).2 h'.2⟩
  · rintro dev reg hreg ⟨-, rfl⟩
    revert hreg
    decide
  · rintro ⟨row', h, hfixed⟩
    obtain rfl := hmem row' h
    exact ht hfixed

theorem fixedSetup_spec (index : RegisterIndex) (event : PerfmonEvent) (c : Core) :
    (fixedSetup cpu index event).wp
      (fun flags c' =>
        flags.setWidth 64 =
            (if (fixedFlags index event).setWidth 64 = c.currentConfig cpu index then (0 : Word)
            else (fixedFlags index event).setWidth 64) ∧
          c'.regs = c.regs ∧
          c'.currentConfig cpu =
            Function.update (c.currentConfig cpu) index ((fixedFlags index event).setWidth 64))
      (fun _ _ => False) c := by
  unfold fixedSetup
  simp only [Prog.wp_bind, Prog.wp_get]
  by_cases h : (fixedFlags index event).setWidth 64 = c.currentConfig cpu index
  · simp [h]
  · simp only [ne_eq, h, not_false_eq_true, if_true, Prog.wp_bind, saveConfig, Prog.wp_modify,
      Prog.wp_pure, if_false, Core.setConfig_regs, true_and]
    funext i
    by_cases hi : i = index <;> simp [hi, Function.update]

theorem FixedRound.of_keeps {e : PerfmonEventSetEntry} (h : fixedEvent mask e = none)
    {flags flags' : Word} {c c' : Core} (hflags : flags' = flags) (hk : FixedKept M cpu c c') :
    FixedRound M cpu mask e flags c flags' c' where
  reg := hk.reg _ rfl
  other _ := ⟨hflags, hk.config⟩
  fixed j f hf := by simp [h] at hf

theorem FixedRound.of_fixed {e : PerfmonEventSetEntry} (ht : e.type = .fixed)
    (hmask : hasType mask e.type) {flags : Word} {c c' : Core} {added : BitVec 32}
    (hadded : added.setWidth 64 =
      (if (fixedFlags e.index e.event).setWidth 64 = c.currentConfig cpu e.index then (0 : Word)
      else (fixedFlags e.index e.event).setWidth 64))
    (hregs : c'.regs = c.regs)
    (hconfig : c'.currentConfig cpu = Function.update (c.currentConfig cpu) e.index
      ((fixedFlags e.index e.event).setWidth 64)) :
    FixedRound M cpu mask e flags c (flags ||| added.setWidth 64) c' where
  reg := by rw [hregs]
  other h := by simp [fixedEvent, ht, ht ▸ hmask] at h
  fixed j f hf := by
    simp only [fixedEvent, ht, ht ▸ hmask, and_self, if_true, Option.some.injEq,
      Prod.mk.injEq] at hf
    obtain ⟨rfl, rfl⟩ := hf
    refine ⟨?_, hconfig⟩
    rw [hadded]
    split <;> simp

section Rounds

variable {e : PerfmonEventSetEntry} (hty : e.Typed M) (flags : Word) (c : Core)

include hty

theorem haswellSetupEvent_round :
    (haswellSetupEvent M thread cpu mask lock flags).wp
      (fun flags' p => FixedRound M cpu mask e flags c flags' p.1) (fun _ _ => True) (c, e) := by
  unfold haswellSetupEvent
  simp only [Prog.wp_bind, Prog.wp_get]
  by_cases hmask : hasType mask e.type
  · simp only [hmask, if_true, Prog.wp_bind, counterMap, Prog.wp_orUndefined, Prog.wp_zoom,
      Prog.wp_modify, Prog.wp_pure]
    intro row hrow
    by_cases ht : e.type = .fixed
    · simp only [haswellUnit_eq_fixed.mpr ht, haswellSetupCase, hasepFixedSetup]
      refine Prog.wp_mono (fixedSetup_spec e.index e.event c) ?_ fun _ _ _ => trivial
      rintro added c' ⟨hadded, hregs, hconfig⟩
      exact FixedRound.of_fixed ht hmask hadded hregs hconfig
    · have hnone : fixedEvent mask e = none := by simp [fixedEvent, ht]
      have hne : e.type ≠ .notype := fun h => not_hasType_notype mask (h ▸ hmask)
      obtain ⟨row', hrow', htype⟩ := hty hne
      have hrow_eq : row' = row := Option.some.inj (hrow'.symm.trans hrow)
      have hB := boxAllowed_fixed hrow (by rw [← hrow_eq, htype]; exact ht)
      have hkeeps := (Keeps.logic : CoreLogic M cpu _ _ _).haswellSetupCase hB lock hrow e.event
        (haswellUnit e.type) c
      have hvalue := haswellSetupCase_value M (u := haswellUnit e.type)
        (fun h => ht (haswellUnit_eq_fixed.mp h)) cpu lock e.index row e.event c
      refine Prog.wp_mono (Prog.wp_and hkeeps hvalue) ?_ fun _ _ _ => trivial
      rintro added c' ⟨hk, rfl⟩
      exact FixedRound.of_keeps hnone (by simp) hk
  · have hnone : fixedEvent mask e = none := by simp [fixedEvent, hmask]
    simp only [hmask, if_false, Prog.wp_pure]
    exact FixedRound.of_keeps hnone rfl (Keeps.refl c)

theorem nehalemSetupEvent_round :
    (nehalemSetupEvent M thread cpu mask lock flags).wp
      (fun flags' p => FixedRound M cpu mask e flags c flags' p.1) (fun _ _ => True) (c, e) := by
  unfold nehalemSetupEvent
  simp only [Prog.wp_bind, Prog.wp_get]
  by_cases hmask : hasType mask e.type
  · simp only [hmask, if_true, Prog.wp_bind, Prog.wp_zoom, Prog.wp_modify, Prog.wp_pure]
    by_cases ht : e.type = .fixed
    · simp only [ht, nehalemSetupCase, nehFixedSetup]
      refine Prog.wp_mono (fixedSetup_spec e.index e.event c) ?_ fun _ _ _ => trivial
      rintro added c' ⟨hadded, hregs, hconfig⟩
      exact FixedRound.of_fixed ht hmask hadded hregs hconfig
    · have hnone : fixedEvent mask e = none := by simp [fixedEvent, ht]
      have hne : e.type ≠ .notype := fun h => not_hasType_notype mask (h ▸ hmask)
      obtain ⟨row, hrow, htype⟩ := hty hne
      have hB := boxAllowed_fixed hrow (by rw [htype]; exact ht)
      have hkeeps := (Keeps.logic : CoreLogic M cpu _ _ _).nehalemSetupCase hB
        (fun h => absurd h.2 (by decide)) (fun h => absurd h.2 (by decide)) lock e.event e.type c
      have hvalue := nehalemSetupCase_value M ht cpu lock e.index e.event c
      refine Prog.wp_mono (Prog.wp_and hkeeps hvalue) ?_ fun _ _ _ => trivial
      rintro added c' ⟨hk, rfl⟩
      exact FixedRound.of_keeps hnone (by simp) hk
  · have hnone : fixedEvent mask e = none := by simp [fixedEvent, hmask]
    simp only [hmask, if_false, Prog.wp_pure]
    exact FixedRound.of_keeps hnone rfl (Keeps.refl c)

end Rounds

/-! ## The event loop -/

/-- The fixed events of a set whose entries have the types of their rows sit on
fixed counters. -/
theorem isFixed_of_mem {n : ℕ} {slots : List Slot}
    (hty : ∀ e, some e ∈ slots → e.Typed M) {j : RegisterIndex}
    (hj : j ∈ (fixedEvents mask n slots).map Prod.fst) : IsFixed M j := by
  obtain ⟨⟨j', f⟩, hmem, rfl⟩ := List.mem_map.mp hj
  obtain ⟨slot, hslot, hbind⟩ := List.mem_filterMap.mp hmem
  rcases slot with _ | e
  · cases hbind
  have htyped := hty e (List.mem_of_mem_take hslot)
  simp only [Option.bind_some, fixedEvent, Option.ite_none_right_eq_some, Option.some.injEq,
    Prod.mk.injEq] at hbind
  obtain ⟨⟨ht, -⟩, rfl, -⟩ := hbind
  obtain ⟨row, hrow, htype⟩ := htyped (by rw [ht]; decide)
  exact ⟨row, hrow, by rw [htype, ht]⟩

/-- **What the loop returns**: the contributions of the events that are not
cached, with the control register as it was. -/
theorem forCells_fixed {body : Word → EventProg Word}
    (hbody : ∀ flags c e, e.Typed M → (body flags).wp
      (fun flags' p => FixedRound M cpu mask e flags c flags' p.1) (fun _ _ => True) (c, e)) :
    ∀ (n : ℕ) (flags : Word) (c : Core) (slots : List Slot),
      (∀ e, some e ∈ slots → e.Typed M) →
      (Prog.forCells body n flags).wp
        (fun flags' p =>
          flags' = flags ||| fixedBits (uncached (c.currentConfig cpu) (fixedEvents mask n slots)) ∧
            p.1.regs cpu msrDev msrPerfFixedCtrCtrl = c.regs cpu msrDev msrPerfFixedCtrCtrl)
        (fun _ _ => True) (c, slots) := by
  intro n
  induction n with
  | zero =>
      intro flags c slots _
      exact ⟨by simp [fixedEvents, uncached, fixedBits, unionOf], rfl⟩
  | succ n ih =>
      rintro flags c (_ | ⟨_ | e, slots⟩) hty
      · trivial
      · trivial
      have htail : ∀ e', some e' ∈ slots → e'.Typed M :=
        fun e' he' => hty e' (List.mem_cons_of_mem _ he')
      rw [Prog.forCells, Prog.wp_bind, Prog.wp_head_some]
      refine Prog.wp_mono (hbody flags c e (hty e (List.mem_cons_self ..))) ?_ fun _ _ _ => trivial
      rintro flags' ⟨c', e'⟩ hround
      rw [Prog.wp_tail_cons]
      refine Prog.wp_mono (ih flags' c' slots htail) ?_ fun _ _ _ => trivial
      rintro flags'' ⟨c'', slots''⟩ ⟨hflags, hreg⟩
      refine ⟨?_, hreg.trans hround.reg⟩
      cases hfix : fixedEvent mask e with
      | none =>
          -- the round changes no fixed configuration, so the rest is cached as before
          obtain ⟨rfl, hcache⟩ := hround.other hfix
          have hevents : fixedEvents mask (n + 1) (some e :: slots) = fixedEvents mask n slots := by
            simp [fixedEvents, hfix]
          rw [hflags, hevents, uncached_congr fun j hj => hcache j (isFixed_of_mem htail hj)]
      | some jf =>
          obtain ⟨j, f⟩ := jf
          obtain ⟨hadd, hcache⟩ := hround.fixed j f hfix
          have hevents : fixedEvents mask (n + 1) (some e :: slots) =
              (j, f) :: fixedEvents mask n slots := by
            simp [fixedEvents, hfix]
          rw [hflags, hevents, hcache, hadd, uncached]
          split
          · next hf => rw [hf, Function.update_eq_self]
          · simp only [fixedBits, List.map_cons, unionOf, List.foldr_cons]
            exact BitVec.or_assoc _ _ _

/-! ## The whole set-up -/

/-- The enable bit of a fixed event is always among its bits. -/
theorem fixedFlags_enable {j : ℕ} (hj : j < 8) (event : PerfmonEvent) :
    (fixedFlags j event).getLsbD (1 + j * 4) = true := by
  have hstart : ((bit (1 + j * 4)).setWidth 32).getLsbD (1 + j * 4) = true := by
    have hlt : 1 + j * 4 < 32 := by omega
    simp [hlt]
  unfold fixedFlags
  generalize (bit (1 + j * 4)).setWidth 32 = flags at hstart
  induction event.optionList generalizing flags with
  | nil => exact hstart
  | cons option options ih =>
      refine ih _ ?_
      dsimp only
      split <;> simp [hstart]

theorem fixedFlags_ne_zero {j : ℕ} (h : IsFixed M j) (event : PerfmonEvent) :
    (fixedFlags j event).setWidth 64 ≠ 0 := by
  obtain ⟨row, hrow, ht⟩ := h
  have hlt : j < 8 := M.index_eq j row hrow ▸ (M.fixed_row row (List.mem_of_getElem? hrow) ht).2
  intro hzero
  have henable := congrArg (fun w : Word => w.getLsbD (1 + j * 4)) hzero
  have hwide : 1 + j * 4 < 64 := by omega
  simp [hwide, fixedFlags_enable hlt event] at henable

theorem checkWrite_spec (dev : PciDeviceIndex) (reg : ℕ) (data : Word) (c : Core) :
    (checkWrite M cpu dev reg data).wp
      (fun _ c' => ∃ a : Access, c'.trace = a :: c.trace ∧
        (a.err = 0 → c'.regs = (c.setReg (regOwner M cpu dev) dev reg (stored dev data)).regs))
      (fun _ _ => True) c := by
  unfold checkWrite checkAndReturnError
  simp only [Prog.wp_bind, Prog.wp_get, Prog.wp_when, Prog.wp_ret, implies_true, true_and]
  show ¬writeError M c cpu dev reg data < 0 → _
  refine fun _ => ⟨⟨.write, cpu, dev, reg, data, writeError M c cpu dev reg data⟩, ?_, ?_⟩
  · split <;> rfl
  · intro herr
    dsimp only at herr
    simp [herr]

/-- What the set-up leaves in the control register: the contributions of the
uncached events if there are any, else what was there. -/
def fixedControlAfter (cache : RegisterIndex → Word) (old : Word)
    (events : List (RegisterIndex × Word)) : Word :=
  if fixedBits (uncached cache events) = 0 then old else fixedBits (uncached cache events)

/-- A set-up: a freeze, the event loop, and the write of the flags it returned. -/
theorem setup_fixedControl {freeze : Prog Int Core Unit} {body : Word → EventProg Word}
    {P : Word → Prop} [DecidablePred P] (hP : ∀ flags, P flags ↔ flags ≠ 0)
    (hfreeze : Prog.Respects (Keeps.flow cpu (· = msrPerfFixedCtrCtrl) (fun _ => True)) freeze)
    (hfreezeGrows : Prog.Respects Grows.flow freeze)
    (hbody : ∀ flags c e, e.Typed M → (body flags).wp
      (fun flags' p => FixedRound M cpu mask e flags c flags' p.1) (fun _ _ => True) (c, e))
    (hbodyGrows : ∀ flags, Prog.Respects Grows.flow.fst (body flags))
    {n : ℕ} {c : Core} {slots : List Slot} (hty : ∀ e, some e ∈ slots → e.Typed M) :
    (do
      Prog.onFst freeze
      let flags ← Prog.forCells body n 0
      Prog.when (P flags)
        (Prog.onFst (checkWrite M cpu msrDev msrPerfFixedCtrCtrl flags)) :
      Prog Int (Core × List Slot) Unit).wp
      (fun _ p => Answered c p.1 →
        p.1.regs cpu msrDev msrPerfFixedCtrCtrl =
          fixedControlAfter (c.currentConfig cpu) (c.regs cpu msrDev msrPerfFixedCtrCtrl)
            (fixedEvents mask n slots))
      (fun _ _ => True) (c, slots) := by
  rw [Prog.wp_bind, Prog.wp_zoom]
  refine Prog.wp_mono (Prog.wp_and (hfreeze c) (hfreezeGrows c)) ?_ fun _ _ _ => trivial
  rintro _ c1 ⟨hk, hg1⟩
  rw [Prog.wp_bind]
  refine Prog.wp_mono (Prog.wp_and (forCells_fixed hbody n 0 c1 slots hty)
    (Prog.Respects.forCells_fst hbodyGrows n 0 (c1, slots))) ?_ fun _ _ _ => trivial
  rintro flags ⟨c2, slots2⟩ ⟨⟨hflags, hreg⟩, hg2⟩
  -- neither the freeze nor the loop touches the register or the cache it started from
  have hcache : c1.currentConfig cpu = c.currentConfig cpu := funext fun j => hk.config j trivial
  have hflags : flags = fixedBits (uncached (c.currentConfig cpu) (fixedEvents mask n slots)) := by
    simpa [hcache] using hflags
  have hold : c2.regs cpu msrDev msrPerfFixedCtrCtrl = c.regs cpu msrDev msrPerfFixedCtrCtrl :=
    hreg.trans (hk.reg _ rfl)
  unfold fixedControlAfter
  rw [← hflags, Prog.wp_when, hP]
  refine ⟨fun hne => ?_, fun heq _ => ?_⟩
  · rw [Prog.wp_zoom]
    refine Prog.wp_mono (checkWrite_spec _ _ _ c2) ?_ fun _ _ _ => trivial
    rintro _ c3 ⟨a, htrace, hset⟩ hans
    have hg3 : Grows c2 c3 := ⟨[a], htrace.symm⟩
    have hnew : a ∈ newAccesses c c3 := by
      rw [newAccesses_trans (Grows.trans c c1 c2 hg1 hg2) hg3]
      exact List.mem_append_left _ (by simp [newAccesses_append (l := [a]) htrace])
    rw [if_neg hne, hset (hans a hnew)]
    simp [regOwner, stored]
  · rw [if_pos (not_not.mp heq)]
    exact hold

/-- The bits that no cached configuration keeps out of the register, when there
are some, are those of all fixed events. -/
def FixedControlFits (cache : RegisterIndex → Word) (old : Word)
    (events : List (RegisterIndex × Word)) : Prop :=
  (uncached cache events ≠ [] ∧
      ∀ jf ∈ events, ∀ b, jf.2.getLsbD b = true →
        ∃ jf' ∈ uncached cache events, jf'.2.getLsbD b = true) ∨
    (uncached cache events = [] ∧ old = fixedBits events)

theorem getLsbD_fixedBits (events : List (RegisterIndex × Word)) (b : ℕ) :
    (fixedBits events).getLsbD b = true ↔ ∃ jf ∈ events, jf.2.getLsbD b = true := by
  rw [fixedBits, getLsbD_unionOf]
  constructor
  · rintro ⟨f, hf, hb⟩
    obtain ⟨jf, hjf, rfl⟩ := List.mem_map.mp hf
    exact ⟨jf, hjf, hb⟩
  · rintro ⟨jf, hjf, hb⟩
    exact ⟨jf.2, List.mem_map_of_mem hjf, hb⟩

theorem fixedBits_eq_zero {events : List (RegisterIndex × Word)} (h : ∀ jf ∈ events, jf.2 ≠ 0) :
    fixedBits events = 0 ↔ events = [] := by
  constructor
  · rintro hzero
    rcases events with _ | ⟨jf, rest⟩
    · rfl
    refine absurd (BitVec.eq_of_getLsbD_eq fun b _ => ?_) (h jf (List.mem_cons_self ..))
    have hzero_b : (0 : Word).getLsbD b = false := BitVec.getLsbD_zero
    rw [hzero_b, ← Bool.not_eq_true]
    intro hb
    have := (getLsbD_fixedBits (jf :: rest) b).mpr ⟨jf, List.mem_cons_self .., hb⟩
    rw [hzero, hzero_b] at this
    exact Bool.false_ne_true this
  · rintro rfl
    rfl

/-- The uncached contributions are never more than the whole. -/
theorem fixedBits_uncached_eq {cache : RegisterIndex → Word}
    {events : List (RegisterIndex × Word)} :
    fixedBits (uncached cache events) = fixedBits events ↔
      ∀ jf ∈ events, ∀ b, jf.2.getLsbD b = true →
        ∃ jf' ∈ uncached cache events, jf'.2.getLsbD b = true := by
  constructor
  · intro heq jf hjf b hb
    exact (getLsbD_fixedBits _ b).mp (heq ▸ (getLsbD_fixedBits _ b).mpr ⟨jf, hjf, hb⟩)
  · intro h
    refine BitVec.eq_of_getLsbD_eq fun b _ => Bool.eq_iff_iff.mpr ?_
    rw [getLsbD_fixedBits, getLsbD_fixedBits]
    constructor
    · rintro ⟨jf, hjf, hb⟩
      exact ⟨jf, uncached_subset hjf, hb⟩
    · rintro ⟨jf, hjf, hb⟩
      exact h jf hjf b hb

theorem fixedControlAfter_eq_iff {cache : RegisterIndex → Word} {old : Word}
    {events : List (RegisterIndex × Word)} (h : ∀ jf ∈ events, jf.2 ≠ 0) :
    fixedControlAfter cache old events = fixedBits events ↔
      FixedControlFits cache old events := by
  have hun := fixedBits_eq_zero fun jf hjf => h jf (uncached_subset (f := cache) hjf)
  unfold fixedControlAfter FixedControlFits
  by_cases hnil : uncached cache events = []
  · simp [hnil, fixedBits, unionOf]
  · rw [if_neg fun h0 => hnil (hun.mp h0), fixedBits_uncached_eq]
    simp [hnil]

theorem fixedEvents_ne_zero {n : ℕ} {slots : List Slot}
    (hty : ∀ e, some e ∈ slots → e.Typed M) :
    ∀ jf ∈ fixedEvents mask n slots, jf.2 ≠ 0 := by
  rintro ⟨j, f⟩ hmem
  have hfixed := isFixed_of_mem hty (List.mem_map_of_mem (f := Prod.fst) hmem)
  obtain ⟨slot, -, hbind⟩ := List.mem_filterMap.mp hmem
  rcases slot with _ | e
  · cases hbind
  simp only [Option.bind_some, fixedEvent, Option.ite_none_right_eq_some, Option.some.injEq,
    Prod.mk.injEq] at hbind
  obtain ⟨-, rfl, rfl⟩ := hbind
  exact fixedFlags_ne_zero hfixed e.event

/-! ## Haswell and Nehalem -/

section Routines

variable {n : ℕ} {slots : List Slot}

theorem haswellSetupEvent_grows (flags : Word) :
    Prog.Respects Grows.flow.fst (haswellSetupEvent M thread cpu mask lock flags) := by
  refine Prog.Respects.bind Prog.Respects.get fun p => Prog.Respects.ite (fun _ => ?_) fun _ =>
    Prog.Respects.pure _
  rintro ⟨c, e⟩
  simp only [Prog.wp_bind, counterMap, Prog.wp_orUndefined, Prog.wp_zoom, Prog.wp_modify,
    Prog.wp_pure]
  exact fun row hrow => Grows.logic.haswellSetupCase (boxAllowed_true _) lock hrow _ _ c

theorem nehalemSetupEvent_grows (flags : Word) :
    Prog.Respects Grows.flow.fst (nehalemSetupEvent M thread cpu mask lock flags) := by
  refine Prog.Respects.bind Prog.Respects.get fun p => Prog.Respects.ite (fun _ => ?_) fun _ =>
    Prog.Respects.pure _
  rintro ⟨c, e⟩
  simp only [Prog.wp_bind, Prog.wp_zoom, Prog.wp_modify, Prog.wp_pure]
  exact Grows.logic.nehalemSetupCase (boxAllowed_true _) trivial trivial lock _ _ c

theorem haswellSetup_fixedControl {c : Core} (hty : ∀ e, some e ∈ slots → e.Typed M) :
    (perfmonSetupCounterThreadHaswell M thread cpu mask n).wp
      (fun _ p => Answered c p.1 →
        p.1.regs cpu msrDev msrPerfFixedCtrCtrl =
          fixedControlAfter (c.currentConfig cpu) (c.regs cpu msrDev msrPerfFixedCtrCtrl)
            (fixedEvents mask n slots))
      (fun _ _ => True) (c, slots) := by
  unfold perfmonSetupCounterThreadHaswell
  rw [Prog.wp_bind, Prog.wp_get]
  exact setup_fixedControl (fun flags => BitVec.pos_iff_ne_zero flags)
    (Keeps.logic.haswellSetupFreeze _ _ (by decide) (by decide) (by decide))
    (Grows.logic.haswellSetupFreeze _ _ (fun _ _ => trivial) trivial trivial)
    (fun flags c _ hty => haswellSetupEvent_round hty flags c)
    haswellSetupEvent_grows hty

theorem nehalemSetup_fixedControl {c : Core} (hty : ∀ e, some e ∈ slots → e.Typed M) :
    (perfmonSetupCounterThreadNehalem M thread cpu mask n).wp
      (fun _ p => Answered c p.1 →
        p.1.regs cpu msrDev msrPerfFixedCtrCtrl =
          fixedControlAfter (c.currentConfig cpu) (c.regs cpu msrDev msrPerfFixedCtrCtrl)
            (fixedEvents mask n slots))
      (fun _ _ => True) (c, slots) := by
  unfold perfmonSetupCounterThreadNehalem
  rw [Prog.wp_bind, Prog.wp_get]
  exact setup_fixedControl (fun _ => Iff.rfl)
    (Keeps.logic.nehalemSetupFreeze _ _ (by decide) (by decide))
    (Grows.logic.nehalemSetupFreeze _ _ (fun _ _ => trivial) trivial)
    (fun flags c _ hty => nehalemSetupEvent_round hty flags c)
    nehalemSetupEvent_grows hty

/-- **The control register holds the bits of all fixed events exactly when the
cached ones add nothing to the rest**, after every successful set-up of a thread
from every state, with either routine. -/
theorem setup_fixedControl_iff {routine : ThreadRoutine}
    (hr : routine = perfmonSetupCounterThreadHaswell M ∨
      routine = perfmonSetupCounterThreadNehalem M)
    (hty : ∀ e, some e ∈ slots → e.Typed M) {c c' : Core} {slots' : List Slot}
    (hdone : routine thread cpu mask n (c, slots) = .done () (c', slots'))
    (hans : Answered c c') :
    c'.regs cpu msrDev msrPerfFixedCtrCtrl = fixedBits (fixedEvents mask n slots) ↔
      FixedControlFits (c.currentConfig cpu) (c.regs cpu msrDev msrPerfFixedCtrCtrl)
        (fixedEvents mask n slots) := by
  rw [← fixedControlAfter_eq_iff (fixedEvents_ne_zero hty)]
  rcases hr with rfl | rfl
  · rw [Prog.wp_done (haswellSetup_fixedControl hty) hdone hans]
  · rw [Prog.wp_done (nehalemSetup_fixedControl hty) hdone hans]

end Routines

/-- The first two fixed counters, and again with the second one counting the
kernel as well. -/
def kernelSecond : List Call :=
  [.init [0], .addEventSet "INSTR_RETIRED_ANY:FIXC0,CPU_CLK_UNHALTED_CORE:FIXC1".toList 0,
    .setupCounters 0,
    .addEventSet "INSTR_RETIRED_ANY:FIXC0,CPU_CLK_UNHALTED_CORE:FIXC1:KERNEL".toList 0]

/-- The set-up of the first set, when nothing is cached yet. -/
theorem setup_fixedControl_first :
    ∃ (es : PerfmonEventSet) (c c' : Core) (slots' : List Slot),
      perfmonSetupCounterThreadHaswell haswellMachine 0 0 es.regTypeMask es.numberOfEvents
        (c, es.events) = .done () (c', slots') ∧
      Answered c c' ∧
      (c'.regs 0 msrDev msrPerfFixedCtrCtrl =
          fixedBits (fixedEvents es.regTypeMask es.numberOfEvents es.events) ↔
        FixedControlFits (c.currentConfig 0) (c.regs 0 msrDev msrPerfFixedCtrCtrl)
          (fixedEvents es.regTypeMask es.numberOfEvents es.events)) := by
  have hrun : ((Perfmon.after haswellMachine (haswell haswellMachine) (kernelSecond.take 2)
      Perfmon.boot).bind fun s => (s.group? 0).bind fun es =>
        ((perfmonSetupCounterThreadHaswell haswellMachine 0 0 es.regTypeMask
          es.numberOfEvents).result? (s.core, es.events)).map fun p =>
        decide ((∀ e, some e ∈ es.events → e.Typed haswellMachine) ∧ Answered s.core p.2.1)) =
      some true := by decide +kernel
  obtain ⟨s, -, hrun⟩ := Option.bind_eq_some_iff.mp hrun
  obtain ⟨es, -, hrun⟩ := Option.bind_eq_some_iff.mp hrun
  obtain ⟨p, hp, hholds⟩ := Option.map_eq_some_iff.mp hrun
  obtain ⟨hty, hans⟩ := of_decide_eq_true hholds
  have hdone : perfmonSetupCounterThreadHaswell haswellMachine 0 0 es.regTypeMask
      es.numberOfEvents (s.core, es.events) = .done () (p.2.1, p.2.2) :=
    Prog.result?_eq_some.mp hp
  exact ⟨es, s.core, p.2.1, p.2.2, hdone, hans, setup_fixedControl_iff (Or.inl rfl) hty hdone hans⟩

/-- The set-up of the second set writes only what it adds to the first one: the
counter whose configuration is cached is off afterwards. -/
theorem not_setup_fixedControl :
    ∃ (s : Perfmon) (es : PerfmonEventSet) (c' : Core) (slots' : List Slot),
      Run (Step haswellMachine (haswell haswellMachine)) (fun _ _ => True) Perfmon.boot s ∧
      s.group? 1 = some es ∧
      perfmonSetupCounterThreadHaswell haswellMachine 0 0 es.regTypeMask es.numberOfEvents
        (s.core, es.events) = .done () (c', slots') ∧
      Answered s.core c' ∧
      c'.regs 0 msrDev msrPerfFixedCtrCtrl ≠
        fixedBits (fixedEvents es.regTypeMask es.numberOfEvents es.events) := by
  have hrun : ((Perfmon.after haswellMachine (haswell haswellMachine) kernelSecond
      Perfmon.boot).bind fun s => (s.group? 1).bind fun es =>
        ((perfmonSetupCounterThreadHaswell haswellMachine 0 0 es.regTypeMask
          es.numberOfEvents).result? (s.core, es.events)).map fun p =>
        decide (Answered s.core p.2.1 ∧ p.2.1.regs 0 msrDev msrPerfFixedCtrCtrl ≠
          fixedBits (fixedEvents es.regTypeMask es.numberOfEvents es.events))) =
      some true := by decide +kernel
  obtain ⟨s, hs, hrun⟩ := Option.bind_eq_some_iff.mp hrun
  obtain ⟨es, hes, hrun⟩ := Option.bind_eq_some_iff.mp hrun
  obtain ⟨p, hp, hholds⟩ := Option.map_eq_some_iff.mp hrun
  obtain ⟨hans, hne⟩ := of_decide_eq_true hholds
  exact ⟨s, es, p.2.1, p.2.2, Run.of_afterIf hs, hes, Prog.result?_eq_some.mp hp, hans, hne⟩

end Likwid
