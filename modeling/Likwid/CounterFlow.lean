import Likwid.StartThread

/-!
# What counting writes

The judgement of the set-up routines (`CoreLogic`), carried along the routines that start, read and
stop counters, and its instance `ControlKept`: registers that no table names stay as they are. The
control registers that pause the counters are such registers (`TablesApart`).
-/

namespace Likwid

variable {M : Machine} {thread cpu : ℕ} {mask : BitVec 128} {lock clear : Bool}

/-! ## Counting along a judgement -/

section Logic

variable {W : PciDeviceIndex → ℕ → Prop} {S : RegisterIndex → Prop} {R : Core → Core → Prop}
  {hr : ∀ c, R c c} {ht : ∀ a b c, R a b → R b c → R a c}

/-- A preorder that the accesses of `cpu` to registers in `W` respect -/
abbrev FrameLogic (M : Machine) (cpu : ℕ) (W : PciDeviceIndex → ℕ → Prop)
    (S : RegisterIndex → Prop) (R : Core → Core → Prop) (hr : ∀ c, R c c)
    (ht : ∀ a b c, R a b → R b c → R a c) : Prop :=
  CoreLogic M cpu W S fun (α : Type) (m _ : Prog Int Core α) =>
    Prog.Respects (Prog.Flow.of R hr ht) m

/-- What counting may write: the status registers, and the counters themselves if it clears them -/
structure CountAllowed (M : Machine) (W : PciDeviceIndex → ℕ → Prop) (clear : Bool) : Prop where
  common : ∀ reg ∈ [msrPerfGlobalOvfCtrl, msrUncV3UPmonGlobalStatus, msrUncorePerfGlobalOvfCtrl],
    W msrDev reg
  status : ∀ row ∈ M.counterMap, W row.device (M.boxMap row.type).statusRegister
  counter : clear = true → ∀ row ∈ M.counterMap,
    W row.device row.counterRegister ∧ W row.device row.counterRegister2

theorem counting_record (f : PerfmonEventSetEntry → PerfmonEventSetEntry) :
    Prog.Respects (Prog.Flow.of R hr ht).fst
      (Prog.onSnd (Prog.modify f) : EventProg Unit) :=
  .zoom fun p => hr p.1

theorem counting_row {α τ : Type} {index : RegisterIndex} {f : RegisterMap → Prog Int (Core × τ) α}
    (h : ∀ row, M.counterMap[index]? = some row →
      Prog.Respects (Prog.Flow.of R hr ht).fst (f row)) :
    Prog.Respects (Prog.Flow.of R hr ht).fst (counterMap M index >>= f) := by
  intro p
  unfold counterMap
  rw [Prog.wp_bind, Prog.wp_orUndefined]
  exact fun row hrow => h row hrow p

theorem counting_sample (result stored : Word) :
    Prog.Respects (Prog.Flow.of R hr ht).fst (sampleCounter thread result stored) :=
  .bind .get fun _ => .bind (.when fun _ => counting_record _) fun _ => counting_record _

variable (L : FrameLogic M cpu W S R hr ht)

include L

namespace CoreLogic

theorem powerRead (reg : ℕ) :
    Prog.Respects (Prog.Flow.of R hr ht) (powerRead M cpu reg : Prog Int Core (Int × Word)) := by
  refine .ite (fun _ => ?_) fun _ => .pure _
  split
  · exact .ite (fun _ => .bind (L.read _ _) fun _ => .bind .get fun _ =>
      .ite (fun _ => .pure _) fun _ => .pure _) fun _ => .pure _
  · exact .halt _

theorem thermalRead :
    Prog.Respects (Prog.Flow.of R hr ht) (thermalRead M cpu : Prog Int Core (Int × Word)) :=
  .bind (L.read _ _) fun _ => .ite (fun _ => .pure _) fun _ => .pure _

theorem uncoreCounter {row : RegisterMap}
    (hrow : clear = true → W row.device row.counterRegister ∧ W row.device row.counterRegister2) :
    Prog.Respects (Prog.Flow.of R hr ht) (uncoreCounter M cpu row clear) := by
  refine .bind (L.checkRead _ _) fun _ => .bind (.when fun h => L.checkWrite _ (hrow h).1)
    fun _ => .ite (fun _ => ?_) fun _ => .pure _
  exact .bind (L.checkRead _ _) fun _ => .bind (.when fun h => L.checkWrite _ (hrow h).2)
    fun _ => .pure _

theorem uncoreGlobalOverflow (hW : W msrDev msrUncV3UPmonGlobalStatus) (type : RegisterType) :
    Prog.Respects (Prog.Flow.of R hr ht) (uncoreGlobalOverflow M cpu type) :=
  .ite (fun _ => .bind (L.checkRead _ _) fun _ => .ite
    (fun _ => .bind (L.checkWrite _ hW) fun _ => .pure _) fun _ => .pure _) fun _ => .pure _

theorem hasUncoreRead (hC : CountAllowed M W clear) (index : RegisterIndex) (boxOffset : ℕ) :
    Prog.Respects (Prog.Flow.of R hr ht).fst
      (hasUncoreRead M thread cpu index clear boxOffset) := by
  refine counting_row fun row hrow => .bind (.onFst L.requireLock) fun _ =>
    .bind (.onFst (L.uncoreCounter fun h => hC.counter h row (List.mem_of_getElem? hrow)))
      fun counter => .bind .get fun p => .bind (.when fun _ => ?_) fun _ => counting_record _
  refine .bind (.onFst (L.uncoreGlobalOverflow (hC.common _ (by simp)) _)) fun _ =>
    .when fun _ => .bind (.onFst (L.checkRead _ _)) fun _ => .when fun _ => ?_
  exact .bind (counting_record _) fun _ =>
    .onFst (L.checkWrite _ (hC.status row (List.mem_of_getElem? hrow)))

theorem hasepCheckCoreOverflow (hC : CountAllowed M W clear) (offset : ℕ) (result : Word) :
    Prog.Respects (Prog.Flow.of R hr ht).fst
      (hasepCheckCoreOverflow M thread cpu offset result) :=
  .bind .get fun _ => .when fun _ => .bind (.onFst (L.checkRead _ _)) fun _ =>
    .bind (.when fun _ => counting_record _) fun _ =>
      .onFst (L.checkWrite _ (hC.common _ (by simp)))

theorem haswellCountCase (hC : CountAllowed M W clear) (e : PerfmonEventSetEntry)
    (row : RegisterMap) (unit : HaswellUnit) :
    Prog.Respects (Prog.Flow.of R hr ht).fst
      (haswellCountCase M thread cpu mask lock clear e row unit) := by
  have huncore : ∀ offset, Prog.Respects (Prog.Flow.of R hr ht).fst
      (haswellCountCase.uncore M thread cpu clear e offset) :=
    fun offset => .bind (.call fun s => L.hasUncoreRead hC _ _ s) fun _ => .pure _
  have hset : ∀ result, Prog.Respects (Prog.Flow.of R hr ht).fst (Prog.onSnd (Prog.modify
      (PerfmonEventSetEntry.setCounter · thread result)) : EventProg Unit) :=
    fun _ => counting_record _
  cases unit with
  | pmc | fixed =>
      exact .bind (.onFst (L.checkRead _ _)) fun _ =>
        .bind (L.hasepCheckCoreOverflow hC _ _) fun _ => hset _
  | power =>
      exact .when fun _ => .bind (.onFst (L.powerRead _)) fun _ =>
        .bind (.onFst (L.check _)) fun _ => counting_sample _ _
  | thermal =>
      exact .bind (.onFst L.thermalRead) fun _ => .bind (.onFst (L.check _)) fun _ => hset _
  | wbox0fix =>
      exact .when fun _ => .bind (.onFst (L.checkRead _ _)) fun _ => counting_sample _ _
  | qboxfix =>
      unfold Likwid.haswellCountCase
      refine .ite (fun _ => ?_) fun _ => .ite (fun _ => ?_) fun _ => hset _
      · exact .bind (.onFst (L.read _ _)) fun _ => hset _
      · exact .bind (.onFst (L.read _ _)) fun _ => hset _
  | other => exact .pure _
  | _ => exact huncore _

theorem haswellReadEvent (hC : CountAllowed M W false) (u : Unit) :
    Prog.Respects (Prog.Flow.of R hr ht).fst (haswellReadEvent M thread cpu mask lock u) :=
  .bind .get fun _ => .when fun _ => counting_row fun _ _ => L.haswellCountCase hC _ _ _

theorem haswellStopEvent (hC : CountAllowed M W true) (u : Unit) :
    Prog.Respects (Prog.Flow.of R hr ht).fst (haswellStopEvent M thread cpu mask lock u) :=
  .bind .get fun _ => .bind
    (.when fun _ => counting_row fun _ _ => L.haswellCountCase hC _ _ _) fun _ =>
      .when fun _ => counting_record _

theorem haswellStartCase {row : RegisterMap} (hW : W row.device row.counterRegister)
    (e : PerfmonEventSetEntry) (unit : HaswellUnit) :
    Prog.Respects (Prog.Flow.of R hr ht).fst
      (haswellStartCase M thread cpu lock e row unit) := by
  have hset : ∀ v, Prog.Respects (Prog.Flow.of R hr ht).fst
      (Prog.onSnd (Prog.modify (·.setStart thread v)) : EventProg Unit) :=
    fun _ => counting_record _
  cases unit with
  | pmc | fixed => exact .bind (.onFst (L.checkWrite _ hW)) fun _ => .pure _
  | power =>
      exact .bind (.when fun _ => .bind (.onFst (L.powerRead _)) fun _ =>
        .bind (.onFst (L.check _)) fun _ => hset _) fun _ => .pure _
  | wbox0fix =>
      exact .bind (.when fun _ => .bind (.onFst (L.checkRead _ _)) fun _ => hset _)
        fun _ => .pure _
  | qboxfix =>
      exact .bind .get fun _ => .bind (.when fun _ => .bind (.onFst (L.checkRead _ _))
        fun _ => hset _) fun _ => .pure _
  | _ => exact .pure _

theorem haswellStartEvent (hC : CountAllowed M W true) (flags : Word) :
    Prog.Respects (Prog.Flow.of R hr ht).fst (haswellStartEvent M thread cpu mask lock flags) := by
  refine .bind .get fun p => .ite (fun _ => ?_) fun _ => .pure _
  refine counting_row fun row hrow => .bind (counting_record _) fun _ => .bind ?_ fun _ => .pure _
  exact L.haswellStartCase (hC.counter rfl row (List.mem_of_getElem? hrow)).1 _ _

theorem hasepResetCtr (hC : CountAllowed M W true) (i : ℕ) :
    Prog.Respects (Prog.Flow.of R hr ht).fst (hasepResetCtr M cpu i) := by
  have hmark : ∀ index, Prog.Respects (Prog.Flow.of R hr ht).fst (markNotype index) := by
    intro index p
    unfold markNotype Prog.wp
    by_cases hlt : index < p.2.length
    · simp only [hlt, if_true]
      exact hr p.1
    · simp [hlt]
  refine .bind .get fun p => .bind (.orOutOfBounds _) fun e => counting_row fun row hrow =>
    .when fun _ => ?_
  obtain ⟨h1, h2⟩ := hC.counter rfl row (List.mem_of_getElem? hrow)
  refine .bind (.onFst (L.write _ _ _ h1)) fun _ => .ite (fun _ => hmark _) fun _ =>
    .when fun _ => .bind (.onFst (L.write _ _ _ h2)) fun _ => .when fun _ => hmark _

theorem haswellSetupEvent (hB : ∀ index, BoxAllowed M index W S) (flags : Word) :
    Prog.Respects (Prog.Flow.of R hr ht).fst (haswellSetupEvent M thread cpu mask lock flags) := by
  refine .bind .get fun p => .ite (fun _ => ?_) fun _ => .pure _
  exact counting_row fun row hrow => .bind (counting_record _) fun _ =>
    .bind (.onFst (L.haswellSetupCase (hB _) lock hrow _ _)) fun _ => .pure _

theorem nehCheckOverflow {ovfCtrl : ℕ} (hW : W msrDev ovfCtrl) (status offset : ℕ)
    (result : Word) :
    Prog.Respects (Prog.Flow.of R hr ht).fst
      (nehCheckOverflow M thread cpu status ovfCtrl offset result) :=
  .bind .get fun _ => .when fun _ => .bind (.onFst (L.checkRead _ _)) fun _ => .when fun _ =>
    .bind (counting_record _) fun _ => .onFst (L.checkWrite _ hW)

theorem nehalemCountEvent (hC : CountAllowed M W clear) (u : Unit) :
    Prog.Respects (Prog.Flow.of R hr ht).fst (nehalemCountEvent M thread cpu mask lock u) := by
  refine .bind .get fun p => .when fun _ => counting_row fun row _ => .bind ?_ fun _ =>
    counting_record _
  have hread : ∀ status ovfCtrl offset, W msrDev ovfCtrl →
      Prog.Respects (Prog.Flow.of R hr ht).fst
        (do
          let result ← Prog.onFst (Likwid.checkRead M cpu msrDev row.counterRegister)
          Likwid.nehCheckOverflow M thread cpu status ovfCtrl offset result
          pure result : EventProg Word) :=
    fun _ _ _ hW => .bind (.onFst (L.checkRead _ _)) fun _ =>
      .bind (L.nehCheckOverflow hW _ _ _) fun _ => .pure _
  unfold Likwid.nehalemCountCase
  cases p.2.type with
  | pmc | fixed => exact hread _ _ _ (hC.common _ (by simp))
  | uncore => exact .ite (fun _ => hread _ _ _ (hC.common _ (by simp))) fun _ => .pure _
  | _ => exact .pure _

end CoreLogic

end Logic

/-! ## Control registers -/

/-- `cpu` may be accessed: it exists and is registered. -/
def Accessible (M : Machine) (cpu : ℕ) (c : Core) : Prop :=
  cpu < M.numHWThreads ∧ c.registeredCpuList cpu = true

instance (M : Machine) (cpu : ℕ) (c : Core) : Decidable (Accessible M cpu c) :=
  inferInstanceAs (Decidable (_ ∧ _))

theorem checkWrite_done {c : Core} {dev : PciDeviceIndex} {reg : ℕ} {data : Word}
    (hacc : Accessible M cpu c) (hdev : dev < maxNumPciDevices)
    (hans : ∀ n, M.accessWrite n dev cpu reg data = 0) :
    checkWrite M cpu dev reg data c = .done ()
      ((c.setReg (regOwner M cpu dev) dev reg (stored dev data)).log
        ⟨.write, cpu, dev, reg, data, 0⟩) := by
  have herr : writeError M c cpu dev reg data = 0 := by
    unfold writeError
    rw [if_neg (Nat.not_le.mpr hdev), if_neg (Nat.not_le.mpr hacc.1), if_neg (by simp [hacc.2])]
    exact hans _
  have hwrite : (hpmWrite M cpu dev reg data : Prog Int Core Int) c = .done 0
      ((c.setReg (regOwner M cpu dev) dev reg (stored dev data)).log
        ⟨.write, cpu, dev, reg, data, 0⟩) := by
    unfold hpmWrite
    simp only [herr, if_true]
  exact (Prog.bind_of_done hwrite).trans rfl

theorem checkRead_done {c : Core} {dev : PciDeviceIndex} {reg : ℕ} (hacc : Accessible M cpu c)
    (hdev : dev < maxNumPciDevices) (hread : ∀ n, M.accessRead n dev cpu reg = 0)
    (hdata : ∀ n v, M.accessData n dev cpu reg v = v) :
    checkRead M cpu dev reg c = .done (c.regs (regOwner M cpu dev) dev reg)
      (c.log ⟨.read, cpu, dev, reg, c.regs (regOwner M cpu dev) dev reg, 0⟩) := by
  have hanswer : readAnswer M c cpu dev reg = (0, c.regs (regOwner M cpu dev) dev reg) := by
    unfold readAnswer
    rw [if_neg (Nat.not_le.mpr hdev), if_neg (Nat.not_le.mpr hacc.1), if_neg (by simp [hacc.2]),
      hread, hdata]
  have hdone : (hpmRead M cpu dev reg : Prog Int Core (Int × Word)) c =
      .done (0, c.regs (regOwner M cpu dev) dev reg)
        (c.log ⟨.read, cpu, dev, reg, c.regs (regOwner M cpu dev) dev reg, 0⟩) := by
    unfold hpmRead
    rw [hanswer]
  exact (Prog.bind_of_done hdone).trans rfl

/-- An access that leaves the registers in `K` alone -/
def Sparing (K : ℕ → Prop) (a : Access) : Prop := a.kind = .write → ¬(a.dev = msrDev ∧ K a.reg)

/-- The registers in `K` of `cpu` were not written, and no register was if `cpu` cannot be
accessed. -/
structure ControlKept (M : Machine) (cpu : ℕ) (K : ℕ → Prop) (c c' : Core) : Prop where
  made : Made (Sparing K) c c'
  reg : ∀ r, K r → c'.regs cpu msrDev r = c.regs cpu msrDev r
  registered : c'.registeredCpuList = c.registeredCpuList
  socketLock : c'.socketLock = c.socketLock
  inaccessible : ¬Accessible M cpu c → c'.regs = c.regs

namespace ControlKept

variable {K : ℕ → Prop}

theorem refl (c : Core) : ControlKept M cpu K c c :=
  ⟨Made.refl c, fun _ _ => rfl, rfl, rfl, fun _ => rfl⟩

theorem accessible {c c' : Core} (h : ControlKept M cpu K c c') :
    Accessible M cpu c' ↔ Accessible M cpu c := by
  unfold Accessible
  rw [h.registered]

theorem trans (a b c : Core) (h : ControlKept M cpu K a b) (h' : ControlKept M cpu K b c) :
    ControlKept M cpu K a c where
  made := h.made.trans h'.made
  reg r hr := (h'.reg r hr).trans (h.reg r hr)
  registered := h'.registered.trans h.registered
  socketLock := h'.socketLock.trans h.socketLock
  inaccessible hno := (h'.inaccessible fun hb => hno (h.accessible.mp hb)).trans
    (h.inaccessible hno)

abbrev flow (M : Machine) (cpu : ℕ) (K : ℕ → Prop) : Prog.Flow Core :=
  Prog.Flow.of (ControlKept M cpu K) refl trans

theorem write {ρ : Type} {dev : PciDeviceIndex} {reg : ℕ} (hreg : ¬(dev = msrDev ∧ K reg))
    (data : Word) :
    Prog.Respects (flow M cpu K) (hpmWrite M cpu dev reg data : Prog ρ Core Int) := by
  intro c
  let err := writeError M c cpu dev reg data
  let a : Access := ⟨.write, cpu, dev, reg, data, err⟩
  show ControlKept M cpu K c
    ((if err = 0 then c.setReg (regOwner M cpu dev) dev reg (stored dev data) else c).log a)
  by_cases herr : err = 0
  · rw [if_pos herr]
    refine ⟨Made.single (x := a) rfl fun _ => hreg, fun r hr => ?_, rfl, rfl, fun hno => ?_⟩
    · have hne : ¬(cpu = regOwner M cpu dev ∧ msrDev = dev ∧ r = reg) := by
        rintro ⟨-, rfl, rfl⟩
        exact hreg ⟨rfl, hr⟩
      simp only [Core.log_regs, Core.setReg_regs, if_neg hne]
    · refine absurd herr ?_
      show writeError M c cpu dev reg data ≠ 0
      unfold writeError Accessible at *
      split
      · decide
      · split
        · decide
        · next hlt =>
          have hfalse : c.registeredCpuList cpu = false := by
            cases hreg : c.registeredCpuList cpu with
            | false => rfl
            | true => exact absurd ⟨Nat.lt_of_not_le hlt, hreg⟩ hno
          rw [if_pos hfalse]
          decide
  · rw [if_neg herr]
    exact ⟨Made.single (x := a) rfl fun _ => hreg, fun _ _ => rfl, rfl, rfl, fun _ => rfl⟩

theorem logic : FrameLogic M cpu (fun dev reg => ¬(dev = msrDev ∧ K reg)) (fun _ => True)
    (ControlKept M cpu K) refl trans where
  toClosed := Prog.Respects.closed
  read _ _ := fun _ => ⟨Made.single rfl nofun, fun _ _ => rfl, rfl, rfl, fun _ => rfl⟩
  write _ _ data hreg := write hreg data
  save _ _ _ := fun c => ⟨Made.refl c, fun _ _ => rfl, rfl, rfl, fun _ => rfl⟩

end ControlKept

/-- No table names a register in `K` as one that is written. -/
structure TablesApart (M : Machine) (K : ℕ → Prop) : Prop where
  config : ∀ row ∈ M.counterMap, ¬K row.configRegister
  counter : ∀ row ∈ M.counterMap, row.device = msrDev →
    ¬K row.counterRegister ∧ ¬K row.counterRegister2
  status : ∀ row ∈ M.counterMap, row.device = msrDev → ¬K (M.boxMap row.type).statusRegister
  filter : ∀ row ∈ M.counterMap, ¬K (M.boxMap row.type).filterRegister1 ∧
    ¬K (M.boxMap row.type).filterRegister2

namespace TablesApart

variable {K : ℕ → Prop}

theorem countAllowed (h : TablesApart M K)
    (hcommon : ∀ reg ∈ [msrPerfGlobalOvfCtrl, msrUncV3UPmonGlobalStatus,
      msrUncorePerfGlobalOvfCtrl], ¬K reg) (clear : Bool) :
    CountAllowed M (fun dev reg => ¬(dev = msrDev ∧ K reg)) clear where
  common reg hreg hK := hcommon reg hreg hK.2
  status row hrow hK := h.status row hrow hK.1 hK.2
  counter _ row hrow :=
    ⟨fun hK => (h.counter row hrow hK.1).1 hK.2, fun hK => (h.counter row hrow hK.1).2 hK.2⟩

theorem boxAllowed (h : TablesApart M K) (hbox : ∀ reg ∈ boxRegisters, ¬K reg)
    (index : RegisterIndex) :
    BoxAllowed M index (fun dev reg => ¬(dev = msrDev ∧ K reg)) fun _ => True where
  config row hrow := by
    have hno := h.config row (List.mem_of_getElem? hrow)
    exact ⟨fun hK => hno hK.2, fun hK => hno hK.2⟩
  filter row hrow := by
    have hno := h.filter row (List.mem_of_getElem? hrow)
    exact ⟨fun hK => hno.1 hK.2, fun hK => hno.2 hK.2⟩
  common _ reg hreg hK := hbox reg hreg hK.2
  save := trivial

end TablesApart

end Likwid
