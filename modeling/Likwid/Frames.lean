import Likwid.Nehalem

/-!
# What the routines leave alone

Two instances of the judgement along the set-up routines: `Keeps` (some model
specific registers and some cached configurations stay as they are) and `Grows`
(the trace only gets longer). Both hold of every box helper by its one proof.
-/

namespace Likwid

variable {M : Machine} {cpu : ℕ}

/-! ## Registers and configurations kept -/

/-- The model specific registers in `P` and the cached configurations in `I` of
`cpu`, and all those of other CPUs, are kept. -/
structure Keeps (cpu : ℕ) (P : ℕ → Prop) (I : RegisterIndex → Prop) (c c' : Core) : Prop where
  reg : ∀ r, P r → c'.regs cpu msrDev r = c.regs cpu msrDev r
  config : ∀ j, I j → c'.currentConfig cpu j = c.currentConfig cpu j
  others : ∀ cpu', cpu' ≠ cpu →
    (∀ r, c'.regs cpu' msrDev r = c.regs cpu' msrDev r) ∧
      ∀ j, c'.currentConfig cpu' j = c.currentConfig cpu' j

namespace Keeps

variable {P : ℕ → Prop} {I : RegisterIndex → Prop}

theorem refl (c : Core) : Keeps cpu P I c c :=
  ⟨fun _ _ => rfl, fun _ _ => rfl, fun _ _ => ⟨fun _ => rfl, fun _ => rfl⟩⟩

theorem trans (a b c : Core) (h : Keeps cpu P I a b) (h' : Keeps cpu P I b c) :
    Keeps cpu P I a c where
  reg r hr := (h'.reg r hr).trans (h.reg r hr)
  config j hj := (h'.config j hj).trans (h.config j hj)
  others p hp :=
    ⟨fun r => ((h'.others p hp).1 r).trans ((h.others p hp).1 r),
      fun j => ((h'.others p hp).2 j).trans ((h.others p hp).2 j)⟩

theorem log {c c' : Core} (h : Keeps cpu P I c c') (a : Access) : Keeps cpu P I c (c'.log a) :=
  ⟨h.reg, h.config, h.others⟩

theorem setReg {c : Core} {dev : PciDeviceIndex} {reg : ℕ} (v : Word)
    (h : ¬(dev = msrDev ∧ P reg)) :
    Keeps cpu P I c (c.setReg (regOwner M cpu dev) dev reg v) where
  reg r hr := by
    have hne : ¬(cpu = regOwner M cpu dev ∧ msrDev = dev ∧ r = reg) := by
      rintro ⟨-, rfl, rfl⟩
      exact h ⟨rfl, hr⟩
    simp [hne]
  config _ _ := rfl
  others p hp := by
    refine ⟨fun r => ?_, fun _ => rfl⟩
    have hne : ¬(p = regOwner M cpu dev ∧ msrDev = dev ∧ r = reg) := by
      rintro ⟨ho, rfl, -⟩
      exact hp (by simpa [regOwner] using ho)
    simp [hne]

theorem setConfig {c : Core} {index : RegisterIndex} (v : Word) (h : ¬I index) :
    Keeps cpu P I c (c.setConfig cpu index v) where
  reg _ _ := rfl
  config j hj := by
    have hne : j ≠ index := fun he => h (he ▸ hj)
    simp [hne]
  others p hp := ⟨fun _ => rfl, fun j => by simp [hp]⟩

/-- The flow of a routine that keeps `P` and `I`. -/
abbrev flow (cpu : ℕ) (P : ℕ → Prop) (I : RegisterIndex → Prop) : Prog.Flow Core :=
  Prog.Flow.of (Keeps cpu P I) Keeps.refl Keeps.trans

/-- Reads keep everything, writes outside `P` and configurations outside `I` may
change. -/
theorem logic : CoreLogic M cpu (fun dev reg => ¬(dev = msrDev ∧ P reg)) (fun j => ¬I j)
    (fun (α : Type) (m _ : Prog Int Core α) => Prog.Respects (flow cpu P I) m) where
  toClosed := Prog.Respects.closed
  read dev reg := fun c => (refl c).log _
  write dev reg data h := by
    intro c
    show Keeps cpu P I c _
    refine Keeps.log ?_ _
    split
    · exact setReg _ h
    · exact refl c
  save index flags h := fun c => setConfig flags h

end Keeps

/-! ## The trace -/

/-- The accesses made between two states are on top of the trace. -/
def Grows (c c' : Core) : Prop := c.trace <:+ c'.trace

namespace Grows

theorem refl (c : Core) : Grows c c := List.suffix_refl _

theorem trans (a b c : Core) (h : Grows a b) (h' : Grows b c) : Grows a c :=
  List.IsSuffix.trans h h'

abbrev flow : Prog.Flow Core := Prog.Flow.of Grows Grows.refl Grows.trans

theorem logic : CoreLogic M cpu (fun _ _ => True) (fun _ => True)
    (fun (α : Type) (m _ : Prog Int Core α) => Prog.Respects flow m) where
  toClosed := Prog.Respects.closed
  read _ _ := fun _ => List.suffix_cons _ _
  write dev reg data _ := by
    intro c
    show c.trace <:+ _ :: Core.trace _
    split
    · exact List.suffix_cons _ _
    · exact List.suffix_cons _ _
  save _ _ _ := fun _ => List.suffix_refl _

end Grows

theorem boxAllowed_true (index : RegisterIndex) :
    BoxAllowed M index (fun _ _ => True) (fun _ => True) := by
  constructor <;> simp

/-- The accesses made on the way from `c` to `c'`, the last one first. -/
def newAccesses (c c' : Core) : List Access := c'.trace.take (c'.trace.length - c.trace.length)

/-- Every access on the way from `c` to `c'` succeeded. -/
def Answered (c c' : Core) : Prop := ∀ a ∈ newAccesses c c', a.err = 0

instance (c c' : Core) : Decidable (Answered c c') :=
  inferInstanceAs (Decidable (∀ a ∈ newAccesses c c', a.err = 0))

theorem newAccesses_append {c c' : Core} {l : List Access} (h : c'.trace = l ++ c.trace) :
    newAccesses c c' = l := by
  simp [newAccesses, h]

theorem Grows.newAccesses_append {c c' : Core} (h : Grows c c') :
    newAccesses c c' ++ c.trace = c'.trace := by
  obtain ⟨new, hnew⟩ := h
  rw [Likwid.newAccesses_append hnew.symm, hnew]

theorem newAccesses_trans {a b c : Core} (h : Grows a b) (h' : Grows b c) :
    newAccesses a c = newAccesses b c ++ newAccesses a b := by
  refine Likwid.newAccesses_append ?_
  rw [List.append_assoc, h.newAccesses_append, h'.newAccesses_append]

end Likwid
