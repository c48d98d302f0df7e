import Likwid.CboxFilters
import Likwid.Lib.Total

/-!
# What a routine of the lock owner changes

A third judgement along the routines, for a CPU that is registered and holds the socket lock and
whose accesses succeed: the routine does not halt, and writes no registers but those that it may
write. It returns early only where that is said. `Moved.logic` is the judgement of the routines that
may fail.
-/

namespace Likwid

variable {M : Machine} {cpu : ℕ} {α β : Type} {W W' : PciDeviceIndex → ℕ → Prop} {early : Prop}

/-- The accesses of `cpu` to the device succeed. -/
structure Serves (M : Machine) (cpu : ℕ) (dev : PciDeviceIndex) : Prop where
  valid : dev < maxNumPciDevices
  read : ∀ n reg, M.accessRead n dev cpu reg = 0
  write : ∀ n reg data, M.accessWrite n dev cpu reg data = 0

/-- An access that writes, if anything, a register in `W` -/
def WritesIn (W : PciDeviceIndex → ℕ → Prop) (a : Access) : Prop := a.kind = .write → W a.dev a.reg

/-- Only registers in `W` were written, and only they have changed. -/
structure Moved (W : PciDeviceIndex → ℕ → Prop) (c c' : Core) : Prop where
  made : Made (WritesIn W) c c'
  regs : ∀ owner dev reg, ¬W dev reg → c'.regs owner dev reg = c.regs owner dev reg
  registered : c'.registeredCpuList = c.registeredCpuList
  socketLock : c'.socketLock = c.socketLock

namespace Moved

variable {a b c c' : Core}

theorem refl (c : Core) : Moved W c c := ⟨Made.refl c, fun _ _ _ _ => rfl, rfl, rfl⟩

theorem trans (h : Moved W a b) (h' : Moved W b c) : Moved W a c where
  made := h.made.trans h'.made
  regs owner dev reg hno := (h'.regs owner dev reg hno).trans (h.regs owner dev reg hno)
  registered := h'.registered.trans h.registered
  socketLock := h'.socketLock.trans h.socketLock

theorem owns (h : Moved W c c') (ho : OwnsSocket M cpu c) : OwnsSocket M cpu c' where
  accessible := by
    unfold Accessible
    rw [h.registered]
    exact ho.accessible
  lock := by
    unfold haveLock
    rw [h.socketLock]
    exact ho.lock

theorem write {ρ : Type} {dev : PciDeviceIndex} {reg : ℕ} (hW : W dev reg) (data : Word) :
    Prog.Respects (Prog.Flow.of (Moved W) refl fun _ _ _ => trans)
      (hpmWrite M cpu dev reg data : Prog ρ Core Int) := by
  intro c
  let err := writeError M c cpu dev reg data
  let x : Access := ⟨.write, cpu, dev, reg, data, err⟩
  show Moved W c
    ((if err = 0 then c.setReg (regOwner M cpu dev) dev reg (stored dev data) else c).log x)
  by_cases herr : err = 0
  · rw [if_pos herr]
    refine ⟨Made.single (x := x) rfl fun _ => hW, fun owner d r hno => ?_, rfl, rfl⟩
    have hne : ¬(owner = regOwner M cpu dev ∧ d = dev ∧ r = reg) := by
      rintro ⟨-, rfl, rfl⟩
      exact hno hW
    simp only [Core.log_regs, Core.setReg_regs, if_neg hne]
  · rw [if_neg herr]
    exact ⟨Made.single (x := x) rfl fun _ => hW, fun _ _ _ _ => rfl, rfl, rfl⟩

theorem logic : FrameLogic M cpu W (fun _ => True) (Moved W) refl fun _ _ _ => trans where
  toClosed := Prog.Respects.closed
  read _ _ := fun _ => ⟨Made.single rfl nofun, fun _ _ _ _ => rfl, rfl, rfl⟩
  write _ _ data hW := write hW data
  save _ _ _ := fun c => ⟨Made.refl c, fun _ _ _ _ => rfl, rfl, rfl⟩

end Moved

/-- The routine of the lock owner ends, changes registers in `W` only, and returns early only if
`early` holds. -/
def Moves (M : Machine) (cpu : ℕ) (W : PciDeviceIndex → ℕ → Prop) (early : Prop)
    (m : Prog Int Core α) : Prop :=
  ∀ c, OwnsSocket M cpu c →
    m.twp (fun _ c' => Moved W c c') (fun _ c' => early ∧ Moved W c c') c

namespace Moves

theorem pure (a : α) : Moves M cpu W early (Pure.pure a : Prog Int Core α) :=
  fun c _ => Moved.refl c

theorem bind {m : Prog Int Core β} {f : β → Prog Int Core α} (hm : Moves M cpu W early m)
    (hf : ∀ b, Moves M cpu W early (f b)) : Moves M cpu W early (m >>= f) := by
  intro c ho
  rw [Prog.twp_bind]
  refine Prog.twp_mono (hm c ho) (fun b c1 h1 => ?_) fun _ _ hr => hr
  exact Prog.twp_mono (hf b c1 (h1.owns ho)) (fun _ _ h2 => h1.trans h2)
    fun _ _ hr => ⟨hr.1, h1.trans hr.2⟩

theorem get_bind {f : Core → Prog Int Core α}
    (hf : ∀ c, OwnsSocket M cpu c → Moves M cpu W early (f c)) :
    Moves M cpu W early (Prog.get >>= f) := by
  intro c ho
  rw [Prog.twp_bind, Prog.twp_get]
  exact hf c ho c ho

theorem ite {p : Prop} [Decidable p] {m m' : Prog Int Core α} (h : p → Moves M cpu W early m)
    (h' : ¬p → Moves M cpu W early m') : Moves M cpu W early (if p then m else m') := by
  by_cases hp : p
  · rw [if_pos hp]
    exact h hp
  · rw [if_neg hp]
    exact h' hp

theorem when {p : Prop} [Decidable p] {m : Prog Int Core Unit} (h : p → Moves M cpu W early m) :
    Moves M cpu W early (Prog.when p m) :=
  ite h fun _ => pure ()

theorem orUndefined {o : Option α} (h : o.isSome) :
    Moves M cpu W early (Prog.orUndefined o : Prog Int Core α) := by
  obtain ⟨a, rfl⟩ := Option.isSome_iff_exists.mp h
  exact pure a

theorem foldlM {ε : Type} {f : β → ε → Prog Int Core β} {l : List ε}
    (h : ∀ b, ∀ e ∈ l, Moves M cpu W early (f b e)) (b : β) :
    Moves M cpu W early (l.foldlM f b) := by
  induction l generalizing b with
  | nil => exact pure b
  | cons e l ih =>
      rw [List.foldlM_cons]
      exact bind (h b e List.mem_cons_self) fun b' =>
        ih (fun b'' e' he' => h b'' e' (List.mem_cons_of_mem _ he')) b'

theorem call {zero : Int} {m : Prog Int Core Unit} (h : Moves M cpu W True m) :
    Moves M cpu W early (Prog.call zero m : Prog Int Core Int) := by
  intro c ho
  rw [Prog.twp_call]
  exact Prog.twp_mono (h c ho) (fun _ _ h1 => h1) fun _ _ h1 => h1.2

theorem done {m : Prog Int Core α} (h : Moves M cpu W False m) {c : Core}
    (ho : OwnsSocket M cpu c) : ∃ a c', m c = .done a c' ∧ Moved W c c' := by
  refine Prog.exists_done (Prog.twp_mono (h c ho) (fun _ _ h1 => h1) fun _ _ h1 => h1.1)

/-! ## The accesses -/

theorem saveConfig (index : RegisterIndex) (flags : Word) :
    Moves M cpu W early (saveConfig cpu index flags) :=
  fun c _ => ⟨Made.refl c, fun _ _ _ _ => rfl, rfl, rfl⟩

theorem counterMap_bind {index : RegisterIndex} {row : RegisterMap}
    (hrow : M.counterMap[index]? = some row) {f : RegisterMap → Prog Int Core α}
    (hf : Moves M cpu W early (f row)) : Moves M cpu W early (counterMap M index >>= f) := by
  unfold counterMap
  rw [hrow]
  exact hf

theorem requireLock : Moves M cpu W early (requireLock M cpu) := by
  refine get_bind fun c ho => when fun hno => ?_
  rw [ho.lock] at hno
  cases hno

section Serving

variable {dev : PciDeviceIndex} (hs : Serves M cpu dev)

include hs

theorem checkRead (reg : ℕ) : Moves M cpu W early (checkRead M cpu dev reg) := by
  intro c ho
  have hanswer : (readAnswer M c cpu dev reg).1 = 0 := by
    have hacc := ho.accessible
    unfold readAnswer
    rw [if_neg (Nat.not_le.mpr hs.valid), if_neg (Nat.not_le.mpr hacc.1), if_neg (by simp [hacc.2])]
    exact hs.read _ _
  have hdone : Likwid.checkRead M cpu dev reg c = .done (readAnswer M c cpu dev reg).2
      (c.log ⟨.read, cpu, dev, reg, (readAnswer M c cpu dev reg).2,
        (readAnswer M c cpu dev reg).1⟩) := by
    have hpos : ¬(readAnswer M c cpu dev reg).1 < 0 := by simp [hanswer]
    show ((checkAndReturnError M (readAnswer M c cpu dev reg).1 >>= fun _ =>
      Pure.pure (readAnswer M c cpu dev reg).2) : Prog Int Core Word) _ = _
    unfold checkAndReturnError
    simp only [Prog.bind_apply, Prog.get_apply, Prog.when_apply, if_neg hpos, Prog.pure_apply]
  refine Prog.twp_of_done hdone ⟨Made.single rfl fun hw => ?_, fun _ _ _ _ => rfl, rfl, rfl⟩
  cases hw

theorem checkWrite {reg : ℕ} (hW : W dev reg) (data : Word) :
    Moves M cpu W early (checkWrite M cpu dev reg data) := by
  intro c ho
  refine Prog.twp_of_done (checkWrite_done ho.accessible hs.valid fun n => hs.write n reg data)
    ⟨Made.single rfl fun _ => hW, fun owner d r hno => ?_, rfl, rfl⟩
  have hne : ¬(owner = regOwner M cpu dev ∧ d = dev ∧ r = reg) := by
    rintro ⟨-, rfl, rfl⟩
    exact hno hW
  simp only [Core.log_regs, Core.setReg_regs, if_neg hne]

end Serving

section Msr

variable (hs : Serves M cpu msrDev)

include hs

theorem orFilter {reg : ℕ} (hW : W msrDev reg) (bits : Word) :
    Moves M cpu W early (orFilter M cpu reg bits) :=
  bind (checkRead hs reg) fun _ => checkWrite hs hW _

theorem writeConfig {index : RegisterIndex} {row : RegisterMap}
    (hrow : M.counterMap[index]? = some row) (hW : W msrDev row.configRegister) (flags : Word) :
    Moves M cpu W early (writeConfig M cpu index flags) :=
  get_bind fun _ _ => when fun _ => counterMap_bind hrow <|
    bind (checkWrite hs hW flags) fun _ => saveConfig index flags

end Msr

theorem fixedSetup (index : RegisterIndex) (event : PerfmonEvent) :
    Moves M cpu W early (fixedSetup cpu index event) :=
  get_bind fun _ _ => ite (fun _ => bind (saveConfig _ _) fun _ => pure _) fun _ => pure _

end Moves

/-- The shifts of an offcore event have a meaning. -/
def OffcoreDefined (event : PerfmonEvent) : Prop :=
  event.cfgBits ≠ 0xFF ∧ event.cmask ≠ 0xFF → event.cfgBits.toNat < 64 ∧ event.cmask.toNat < 64

theorem Moves.offcoreFlags {event : PerfmonEvent} (h : OffcoreDefined event) (options : Word) :
    Moves M cpu W early (offcoreFlags event options) := by
  refine Moves.ite (fun hshift => ?_) fun _ => Moves.pure _
  obtain ⟨hcfg, hcmask⟩ := h hshift
  refine Moves.bind (Moves.orUndefined ?_) fun _ =>
    Moves.bind (Moves.orUndefined ?_) fun _ => Moves.pure _
  · simp [shiftBit, hcfg]
  · simp [shiftBit, hcmask]

end Likwid
