import Likwid.Moves
import Likwid.UncoreFreeze

/-!
# What a start leaves of a set-up

A start runs from the state that its set-up left. It writes some registers at will, and in others it
adds enable bits to what it reads there. `Gained` is the judgement along such a routine.
-/

namespace Likwid

variable {M : Machine} {cpu : ℕ} {W W' : PciDeviceIndex → ℕ → Prop}
  {E : PciDeviceIndex → ℕ → Word} {a b c : Core}

/-- The register was written on the way from `c` to `c'`. -/
def WroteTo (c c' : Core) (dev : PciDeviceIndex) (reg : ℕ) : Prop :=
  ∃ x ∈ newAccesses c c', x.kind = .write ∧ x.dev = dev ∧ x.reg = reg

theorem WroteTo.of_made {dev : PciDeviceIndex} {reg : ℕ} (h : WroteTo a b dev reg)
    (hmade : Made (WritesIn W) a b) : W dev reg := by
  obtain ⟨x, hx, hkind, rfl, rfl⟩ := h
  exact hmade.2 x hx hkind

/-- `w` is `v` with bits of `bits` added. -/
structure AddsBits (bits v w : Word) : Prop where
  kept : ∀ i, v.getLsbD i = true → w.getLsbD i = true
  others : ∀ i, bits.getLsbD i = false → w.getLsbD i = v.getLsbD i

namespace AddsBits

variable {bits u v w added : Word}

theorem refl (bits v : Word) : AddsBits bits v v := ⟨fun _ h => h, fun _ _ => rfl⟩

theorem trans (h : AddsBits bits u v) (h' : AddsBits bits v w) : AddsBits bits u w where
  kept i hi := h'.kept i (h.kept i hi)
  others i hi := (h'.others i hi).trans (h.others i hi)

theorem or (h : ∀ i, added.getLsbD i = true → bits.getLsbD i = true) :
    AddsBits bits v (v ||| added) where
  kept i hi := by rw [BitVec.getLsbD_or, hi, Bool.true_or]
  others i hi := by
    have hclear : added.getLsbD i = false := by
      rw [Bool.eq_false_iff]
      intro hset
      rw [h i hset] at hi
      cases hi
    rw [BitVec.getLsbD_or, hclear, Bool.or_false]

theorem eq_of_zero (h : AddsBits 0 v w) : w = v :=
  BitVec.eq_of_getLsbD_eq fun i _ => h.others i BitVec.getLsbD_zero

end AddsBits

/-- Outside `W`, registers gained bits in `E` only. -/
def Gained (W : PciDeviceIndex → ℕ → Prop) (E : PciDeviceIndex → ℕ → Word) (c c' : Core) : Prop :=
  ∀ owner dev reg, ¬W dev reg → AddsBits (E dev reg) (c.regs owner dev reg) (c'.regs owner dev reg)

namespace Gained

theorem refl (c : Core) : Gained W E c c := fun _ _ _ _ => AddsBits.refl _ _

theorem trans (a b c : Core) (h : Gained W E a b) (h' : Gained W E b c) : Gained W E a c :=
  fun owner dev reg hno => (h owner dev reg hno).trans (h' owner dev reg hno)

theorem mono (h : Gained W E a b) (hW : ∀ dev reg, W dev reg → W' dev reg) : Gained W' E a b :=
  fun owner dev reg hno => h owner dev reg fun hyes => hno (hW dev reg hyes)

theorem eq (h : Gained W E a b) {dev : PciDeviceIndex} {reg : ℕ} (hW : ¬W dev reg)
    (hE : E dev reg = 0) (owner : ℕ) : b.regs owner dev reg = a.regs owner dev reg := by
  have hadds := h owner dev reg hW
  rw [hE] at hadds
  exact hadds.eq_of_zero

abbrev flow (W : PciDeviceIndex → ℕ → Prop) (E : PciDeviceIndex → ℕ → Word) : Prog.Flow Core :=
  Prog.Flow.of (Gained W E) refl trans

theorem of_regs (h : b.regs = a.regs) : Gained W E a b := by
  intro owner dev reg _
  rw [h]
  exact AddsBits.refl _ _

theorem logic : FrameLogic M cpu W (fun _ => True) (Gained W E) refl trans where
  toClosed := Prog.Respects.closed
  read _ _ := fun _ => of_regs rfl
  write dev reg data hW := by
    intro c
    show Gained W E c
      ((if writeError M c cpu dev reg data = 0 then
        c.setReg (regOwner M cpu dev) dev reg (stored dev data) else c).log _)
    split
    · intro owner d r hno
      have hne : ¬(owner = regOwner M cpu dev ∧ d = dev ∧ r = reg) := by
        rintro ⟨-, rfl, rfl⟩
        exact hno hW
      simp only [Core.log_regs, Core.setReg_regs, if_neg hne]
      exact AddsBits.refl _ _
    · exact of_regs rfl
  save _ _ _ := fun _ => of_regs rfl

theorem enable {reg : ℕ} {added : Word} (hF : FaithfulControl M cpu reg)
    (h : ∀ i, added.getLsbD i = true → (E msrDev reg).getLsbD i = true) :
    Prog.Respects (flow W E) (do
      let tmp ← checkRead M cpu msrDev reg
      checkWrite M cpu msrDev reg (tmp ||| added)) := by
  intro c
  rw [Prog.wp_bind]
  refine Prog.wp_mono (checkRead_control hF c) ?_ fun _ _ hsame => of_regs hsame
  rintro tmp c1 ⟨rfl, hsame⟩
  refine Prog.wp_mono (checkWrite_sets hF c1 _) (fun _ c2 hset => ?_)
    fun _ _ hsame2 => of_regs (hsame2.trans hsame)
  intro owner dev r hno
  rw [hset, Core.setReg_regs, hsame]
  show AddsBits (E dev r) (c.regs owner dev r)
    (if owner = cpu ∧ dev = msrDev ∧ r = reg then c.regs cpu msrDev reg ||| added
      else c.regs owner dev r)
  split
  · next heq =>
      obtain ⟨rfl, rfl, rfl⟩ := heq
      exact AddsBits.or h
  · exact AddsBits.refl _ _

end Gained

/-- The events of the set, in their order -/
def setEvents (n : ℕ) (slots : List Slot) : List PerfmonEventSetEntry :=
  (slots.take n).filterMap id

section Slots

variable {S : PerfmonEventSetEntry → PerfmonEventSetEntry → Prop} {n : ℕ} {slots slots' : List Slot}
  {e : PerfmonEventSetEntry}

theorem setEvents_mem : e ∈ setEvents n slots ↔ ∃ i, i < n ∧ slots[i]? = some (some e) := by
  unfold setEvents
  rw [List.mem_filterMap]
  constructor
  · rintro ⟨_, hmem, rfl⟩
    obtain ⟨i, hi⟩ := List.mem_iff_getElem?.mp hmem
    rw [List.getElem?_take] at hi
    split at hi
    · next hlt => exact ⟨i, hlt, hi⟩
    · cases hi
  · rintro ⟨i, hlt, hi⟩
    refine ⟨some e, List.mem_iff_getElem?.mpr ⟨i, ?_⟩, rfl⟩
    rw [List.getElem?_take, if_pos hlt, hi]

theorem setEvents_done (h : Prog.CellsDone S n slots slots')
    (he : e ∈ setEvents n slots) :
    ∃ e' ∈ setEvents n slots', S e e' := by
  obtain ⟨i, hlt, hi⟩ := setEvents_mem.mp he
  obtain ⟨e₁, e', he₁, he', hS⟩ := h.get_lt hlt
  obtain rfl : e = e₁ := by simpa [hi] using he₁
  exact ⟨e', setEvents_mem.mpr ⟨i, hlt, he'⟩, hS⟩

end Slots

end Likwid
