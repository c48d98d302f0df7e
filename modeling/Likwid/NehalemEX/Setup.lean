import Likwid.Moves
import Likwid.NehalemEX.Boxes

/-!
# Nehalem EX: setting up the counters of a thread

`perfmon_setupCounterThread_nehalemEX`. The registers behind the control registers of the memory
and router boxes are cleared before the loop; the helpers' return codes are dropped; the type mask
of the set grows by `WBOX` when its fixed counter is set up.
-/

namespace Likwid

attribute [local instance] neZero_two neZero_four

variable (M : Machine)

/-! ## Clearing -/

/-- Write 0 to some registers, in their order. -/
def clearRegisters (cpu : ℕ) (regs : List ℕ) : Prog Int Core Unit :=
  regs.foldlM (fun _ reg => checkWrite M cpu msrDev reg 0) ()

/-- `MSR_Mx_PMON_TIMESTAMP` to `MSR_Mx_PMON_ZDP` -/
def nexMboxRegisters (number : Fin 2) : List ℕ :=
  (if number = 0 then 0xCA4 else 0xCE4) ::
    [MboxReg.dsp, .iss, .map, .thr, .pgt, .pld, .zdp].map (nexWexMboxRegs number)

/-- `MSR_Rx_PMON_IPERF0_P0` to `MSR_Rx_PMON_QLX_P3` -/
def nexRboxRegisters (number : Fin 2) : List ℕ :=
  [RboxRegType.iperf0, .iperf1, .qlx].flatMap fun type =>
    [0, 1, 2, 3].map (nexWexRboxRegs number type)

/-- What comes before the loop over the events -/
def nexSetupClear (cpu : ℕ) (mask : BitVec 128) (lock : Bool) : Prog Int Core Unit := do
  Prog.when (hasCore mask) (checkWrite M cpu msrDev msrPerfGlobalCtrl 0)
  Prog.when (lock = true ∧ hasUncore mask) (checkWrite M cpu msrDev msrUPmonGlobalCtrl 0)
  Prog.when (lock = true ∧ hasType mask .mbox0) (clearRegisters M cpu (nexMboxRegisters 0))
  Prog.when (lock = true ∧ hasType mask .mbox1) (clearRegisters M cpu (nexMboxRegisters 1))
  Prog.when (lock = true ∧ hasType mask .rbox0) (clearRegisters M cpu (nexRboxRegisters 0))
  Prog.when (lock = true ∧ hasType mask .rbox1) (clearRegisters M cpu (nexRboxRegisters 1))

/-! ## The loop -/

/-- `regTypeMask`, `fixed_flags` and `ubox_flags` -/
structure NexSetup where
  mask : BitVec 128
  fixedFlags : Word
  uboxFlags : Word

/-- `flags` of an event of the UBOX: the first `EDGE` ends the loop over the options. -/
def nexUboxFlags (event : PerfmonEvent) : Word :=
  (bit 22 ||| event.eventId.setWidth 64) |||
    if ∃ o ∈ event.optionList, o.type = .edge then bit 18 else 0

/-- The switch of the loop -/
def nexSetupCase (cpu : ℕ) (lock : Bool) (index : RegisterIndex) (row : RegisterMap)
    (event : PerfmonEvent) (st : NexSetup) : RegisterType → Prog Int Core NexSetup
  | .pmc => called (nexPmcSetup M cpu index event)
  | .fixed => do
      let flags ← nexFixedSetup cpu index event
      pure { st with fixedFlags := st.fixedFlags ||| flags.setWidth 64 }
  | .mbox0 | .mbox1 => called (nexMboxSetup M cpu index event)
  | .bbox0 | .bbox1 => called (nexBboxSetup M cpu index event)
  | .rbox0 | .rbox1 => called (nexRboxSetup M cpu index event)
  | .cbox0 | .cbox1 | .cbox2 | .cbox3 | .cbox4 | .cbox5 | .cbox6 | .cbox7 | .cbox8 | .cbox9 =>
      called (nexCboxSetup M cpu index event)
  | .sbox0 | .sbox1 => called (nexSboxSetup M cpu index event)
  | .wbox => called (nexWboxSetup M cpu index event)
  | .wbox0fix =>
      if lock = true ∧ hasType st.mask .wbox0fix then do
        checkWrite M cpu msrDev row.configRegister 0x1
        pure { st with mask := st.mask ||| regTypeMaskOf .wbox }
      else pure st
  | .ubox =>
      if lock = true ∧ hasType st.mask .ubox then do
        checkWrite M cpu msrDev row.configRegister (nexUboxFlags event)
        pure { st with uboxFlags := 0x1 }
      else pure st
  | _ => pure st
where
  /-- Call a helper and drop what it returns. -/
  called (m : Prog Int Core Unit) : Prog Int Core NexSetup := do
    let _ ← Prog.call (0 : Int) m
    pure st

def nexSetupEvent (thread cpu : ℕ) (lock : Bool) (st : NexSetup) :
    Prog Int (Core × PerfmonEventSetEntry) NexSetup := do
  let p ← Prog.get
  let e := p.2
  if hasType st.mask e.type then do
    let row ← counterMap M e.index
    Prog.onSnd (Prog.modify (·.setInit thread true))
    Prog.onFst (nexSetupCase M cpu lock e.index row e.event st e.type)
  else pure st

/-- The value is the type mask that the set has afterwards. -/
def perfmonSetupCounterThreadNehalemEX (thread cpu : ℕ) (mask : BitVec 128)
    (numberOfEvents : ℕ) : Prog Int (Core × List Slot) (BitVec 128) := do
  let p ← Prog.get
  let lock := haveLock M p.1 cpu
  Prog.onFst (nexSetupClear M cpu mask lock)
  let st ← Prog.forCells (nexSetupEvent M thread cpu lock) numberOfEvents ⟨mask, 0, 0⟩
  Prog.when (st.fixedFlags ≠ 0)
    (Prog.onFst (checkWrite M cpu msrDev msrPerfFixedCtrCtrl st.fixedFlags))
  Prog.when (st.uboxFlags ≠ 0)
    (Prog.onFst (checkWrite M cpu msrDev msrUPmonGlobalCtrl st.uboxFlags))
  pure st.mask

/-! ## The type mask -/

theorem hasType_iff {mask : BitVec 128} {type : RegisterType} :
    hasType mask type ↔
      type.toNat < RegisterType.numUnits.toNat ∧ mask.getLsbD type.toNat = true := by
  unfold hasType regTypeMaskOf
  by_cases ht : type.toNat < RegisterType.numUnits.toNat
  · have hlt : type.toNat < 64 := ht
    rw [if_pos ht]
    simp only [ht, true_and]
    constructor
    · intro hne
      by_contra hno
      refine hne (BitVec.eq_of_getLsbD_eq fun i hi => ?_)
      rw [BitVec.getLsbD_and, BitVec.getLsbD_shiftLeft, BitVec.getLsbD_one, BitVec.getLsbD_zero]
      by_cases heq : i = type.toNat
      · rw [heq, Bool.eq_false_iff.mpr hno, Bool.false_and]
      · have hone : (decide (i < 128) && !decide (i < type.toNat) &&
            (decide (0 < 128) && decide (i - type.toNat = 0))) = false := by
          rw [Bool.eq_false_iff]
          intro hyes
          simp only [Bool.and_eq_true, decide_eq_true_eq, Bool.not_eq_true',
            decide_eq_false_iff_not] at hyes
          omega
        rw [hone, Bool.and_false]
    · intro hbit h0
      have hzero := congrArg (fun v => v.getLsbD type.toNat) h0
      simp only [BitVec.getLsbD_and, hbit, BitVec.getLsbD_shiftLeft, BitVec.getLsbD_one,
        BitVec.getLsbD_zero, Nat.sub_self, Nat.lt_irrefl] at hzero
      simp [show type.toNat < 128 by omega] at hzero
  · rw [if_neg ht]
    simp [ht]

/-- Only `WBOX` is new in a mask to which it was added. -/
theorem hasType_or_wbox {mask : BitVec 128} {type : RegisterType} (hne : type ≠ .wbox) :
    hasType (mask ||| regTypeMaskOf .wbox) type ↔ hasType mask type := by
  have hnumber : type.toNat ≠ RegisterType.wbox.toNat := by
    revert hne
    cases type <;> decide
  have hbit : (regTypeMaskOf .wbox).getLsbD type.toNat = false := by
    unfold regTypeMaskOf
    rw [if_pos (by decide), BitVec.getLsbD_shiftLeft, BitVec.getLsbD_one, Bool.eq_false_iff]
    intro hyes
    simp only [Bool.and_eq_true, decide_eq_true_eq, Bool.not_eq_true',
      decide_eq_false_iff_not] at hyes
    omega
  rw [hasType_iff, hasType_iff, BitVec.getLsbD_or, hbit, Bool.or_false]

/-- The switch may add `WBOX` to the mask. -/
theorem nexSetupCase_mask (cpu : ℕ) (lock : Bool) (index : RegisterIndex) (row : RegisterMap)
    (event : PerfmonEvent) (st : NexSetup) (type : RegisterType) (c : Core) :
    (nexSetupCase M cpu lock index row event st type).wp
      (fun st' _ => st'.mask = st.mask ∨ st'.mask = st.mask ||| regTypeMaskOf .wbox)
      (fun _ _ => True) c := by
  have hcalled : ∀ m, (nexSetupCase.called st m).wp
      (fun st' _ => st'.mask = st.mask ∨ st'.mask = st.mask ||| regTypeMaskOf .wbox)
      (fun _ _ => True) c := by
    intro m
    unfold nexSetupCase.called
    rw [Prog.wp_bind]
    exact Prog.wp_mono (Prog.wp_trivial _) (fun _ _ _ => Or.inl rfl) fun _ _ _ => trivial
  have hkept : ∀ st' : NexSetup, st'.mask = st.mask →
      (pure st' : Prog Int Core NexSetup).wp
        (fun st' _ => st'.mask = st.mask ∨ st'.mask = st.mask ||| regTypeMaskOf .wbox)
        (fun _ _ => True) c := fun _ h => Or.inl h
  cases type with
  | pmc | mbox0 | mbox1 | bbox0 | bbox1 | rbox0 | rbox1 | sbox0 | sbox1 | wbox => exact hcalled _
  | cbox0 | cbox1 | cbox2 | cbox3 | cbox4 | cbox5 | cbox6 | cbox7 | cbox8 | cbox9 =>
      exact hcalled _
  | fixed =>
      unfold nexSetupCase
      rw [Prog.wp_bind]
      exact Prog.wp_mono (Prog.wp_trivial _) (fun _ _ _ => Or.inl rfl) fun _ _ _ => trivial
  | wbox0fix =>
      simp only [nexSetupCase]
      split
      · rw [Prog.wp_bind]
        exact Prog.wp_mono (Prog.wp_trivial _) (fun _ _ _ => Or.inr rfl) fun _ _ _ => trivial
      · exact Or.inl rfl
  | ubox =>
      simp only [nexSetupCase]
      split
      · rw [Prog.wp_bind]
        exact Prog.wp_mono (Prog.wp_trivial _) (fun _ _ _ => Or.inl rfl) fun _ _ _ => trivial
      · exact Or.inl rfl
  | _ => exact hkept st rfl

/-! ## What the helpers change -/

/-- What the set-up of the counter in `row` must be allowed to write -/
structure NexAllowed (row : RegisterMap) (W : PciDeviceIndex → ℕ → Prop) : Prop where
  config : W msrDev row.configRegister
  filter : W msrDev (M.boxMap row.type).filterRegister1 ∧
    W msrDev (M.boxMap row.type).filterRegister2
  offcore : W msrDev msrOffcoreResp0
  mmCfg : W msrDev msrS0PmonMmCfg ∧ W msrDev msrS1PmonMmCfg
  mbox : ∀ number reg, W msrDev (nexWexMboxRegs number reg)
  rbox : row.type = .rbox0 ∨ row.type = .rbox1 →
    (rboxNumber row.configRegister).isSome ∧
      ∀ number type port, W msrDev (nexWexRboxRegs number type port)

section Logic

variable {M} {cpu : ℕ} {W : PciDeviceIndex → ℕ → Prop} {S : RegisterIndex → Prop}
  {R : Core → Core → Prop} {hr : ∀ c, R c c} {ht : ∀ a b c, R a b → R b c → R a c}
  (L : FrameLogic M cpu W S R hr ht) {index : RegisterIndex} (event : PerfmonEvent)

include L

namespace CoreLogic

theorem clearRegisters {regs : List ℕ} (hW : ∀ reg ∈ regs, W msrDev reg) :
    Prog.Respects (Prog.Flow.of R hr ht) (clearRegisters M cpu regs) :=
  .foldlM (fun _ _ hreg => L.checkWrite _ (hW _ hreg)) ()

theorem nexMboxSub (hW : ∀ number reg, W msrDev (nexWexMboxRegs number reg)) (number : Fin 2) :
    Prog.Respects (Prog.Flow.of R hr ht) (nexMboxSub M cpu number event) := by
  have hthr : ∀ shift, Prog.Respects (Prog.Flow.of R hr ht)
      (nexMboxThr M cpu number event shift) :=
    fun shift => .bind (L.checkRead _ _) fun _ => L.checkWrite _ (hW number _)
  refine .ite (fun _ => ?_) fun _ => .ite (fun _ => hthr 9) fun _ =>
    .ite (fun _ => hthr 7) fun _ => ?_
  · exact .bind (L.checkRead _ _) fun _ => .bind (L.checkRead _ _) fun _ =>
      .bind (L.checkWrite _ (hW number _)) fun _ => L.checkWrite _ (hW number _)
  · cases nexMboxBits event with
    | none => exact .pure _
    | some p => exact .bind (L.checkRead _ _) fun _ => L.checkWrite _ (hW number p.1)

theorem counterMap_row {α : Type} {f : RegisterMap → Prog Int Core α}
    (h : ∀ row, M.counterMap[index]? = some row → Prog.Respects (Prog.Flow.of R hr ht) (f row)) :
    Prog.Respects (Prog.Flow.of R hr ht) (counterMap M index >>= f) :=
  @counterMap_bind M cpu W S _ L α index _ f h

variable (hB : BoxAllowed M index W S)

include hB

theorem nexPmcSetup : Prog.Respects (Prog.Flow.of R hr ht) (nexPmcSetup M cpu index event) :=
  .bind (.when fun _ => .bind (L.offcoreFlags _ _) fun _ =>
    L.checkWrite _ (hB.common _ _ (by decide))) fun _ => L.writeConfig hB _

variable (hA : ∀ row, M.counterMap[index]? = some row → NexAllowed M row W)

include hA

theorem nexMboxSetup : Prog.Respects (Prog.Flow.of R hr ht) (nexMboxSetup M cpu index event) := by
  refine .bind L.requireLock fun _ => L.counterMap_row fun row hrow => ?_
  refine .bind (.when fun _ => .foldlM (fun _ option _ => ?_) ()) fun _ =>
    .bind (L.nexMboxSub event (hA row hrow).mbox _) fun _ => L.writeConfig hB _
  unfold nexMboxOption
  split
  · exact L.checkWrite _ ((hA row hrow).mbox _ _)
  · exact L.checkWrite _ ((hA row hrow).mbox _ _)
  · exact .pure _

theorem nexRboxSetup (hrbox : ∀ row, M.counterMap[index]? = some row →
      row.type = .rbox0 ∨ row.type = .rbox1) :
    Prog.Respects (Prog.Flow.of R hr ht) (nexRboxSetup M cpu index event) := by
  refine .bind L.requireLock fun _ => L.counterMap_row fun row hrow => ?_
  refine .bind ?_ fun _ => L.writeConfig hB _
  unfold nexRboxSub
  cases rboxSub event with
  | none => exact .pure _
  | some p =>
      exact .bind (L.orUndefined _) fun number =>
        L.checkWrite _ (((hA row hrow).rbox (hrbox row hrow)).2 number p.1 p.2.1)

theorem nexBboxSetup : Prog.Respects (Prog.Flow.of R hr ht) (nexBboxSetup M cpu index event) := by
  refine L.counterMap_row fun row hrow => .bind L.requireLock fun _ => ?_
  refine .bind (.foldlM (fun _ option _ => ?_) ()) fun _ => L.writeConfig hB _
  unfold nexBboxOption
  split
  · exact L.checkWrite _ (hA row hrow).filter.1
  · exact L.checkWrite _ (hA row hrow).filter.2
  · exact .pure _

theorem nexSboxSetup : Prog.Respects (Prog.Flow.of R hr ht) (nexSboxSetup M cpu index event) := by
  refine L.counterMap_row fun row hrow => .bind L.requireLock fun _ => ?_
  have hmm : W msrDev (if row.type = .sbox0 then msrS0PmonMmCfg else msrS1PmonMmCfg) := by
    split
    · exact (hA row hrow).mmCfg.1
    · exact (hA row hrow).mmCfg.2
  refine .bind (.when fun _ => L.checkWrite _ hmm) fun _ =>
    .bind (.foldlM (fun _ option _ => ?_) ()) fun _ =>
      .bind (.when fun _ => L.checkWrite _ hmm) fun _ => L.writeConfig hB _
  unfold nexSboxOption
  split
  · exact .when fun _ => L.checkWrite _ (hA row hrow).filter.1
  · exact .when fun _ => L.checkWrite _ (hA row hrow).filter.2
  · exact .pure _

/-- The switch of the set-up, for a routine that may be left anywhere -/
theorem nexSetupCase {row : RegisterMap} (hrow : M.counterMap[index]? = some row) (lock : Bool)
    (st : NexSetup) {type : RegisterType} (htype : row.type = type) :
    Prog.Respects (Prog.Flow.of R hr ht) (nexSetupCase M cpu lock index row event st type) := by
  have hcalled : ∀ {m : Prog Int Core Unit}, Prog.Respects (Prog.Flow.of R hr ht) m →
      Prog.Respects (Prog.Flow.of R hr ht) (nexSetupCase.called st m) :=
    fun h => .bind (.call h) fun _ => .pure _
  have hplain : ∀ flags, Prog.Respects (Prog.Flow.of R hr ht) (do
      Likwid.requireLock M cpu
      Likwid.writeConfig M cpu index flags) :=
    fun flags => .bind L.requireLock fun _ => L.writeConfig hB flags
  have hrbox : type = .rbox0 ∨ type = .rbox1 → ∀ row', M.counterMap[index]? = some row' →
      row'.type = .rbox0 ∨ row'.type = .rbox1 := by
    intro h row' hrow'
    obtain rfl : row = row' := Option.some.inj (hrow.symm.trans hrow')
    rw [htype]
    exact h
  cases type with
  | pmc => exact hcalled (L.nexPmcSetup event hB)
  | fixed => exact .bind (L.fixedSetup hB event) fun _ => .pure _
  | mbox0 | mbox1 => exact hcalled (L.nexMboxSetup event hB hA)
  | bbox0 | bbox1 => exact hcalled (L.nexBboxSetup event hB hA)
  | rbox0 => exact hcalled (L.nexRboxSetup event hB hA (hrbox (Or.inl rfl)))
  | rbox1 => exact hcalled (L.nexRboxSetup event hB hA (hrbox (Or.inr rfl)))
  | cbox0 | cbox1 | cbox2 | cbox3 | cbox4 | cbox5 | cbox6 | cbox7 | cbox8 | cbox9 =>
      exact hcalled (hplain _)
  | sbox0 | sbox1 => exact hcalled (L.nexSboxSetup event hB hA)
  | wbox => exact hcalled (hplain _)
  | wbox0fix | ubox =>
      exact .ite (fun _ => .bind (L.checkWrite _ (hA row hrow).config) fun _ => .pure _)
        fun _ => .pure _
  | _ => exact .pure _

end CoreLogic

end Logic

section Moves

variable {M} {cpu : ℕ} {W : PciDeviceIndex → ℕ → Prop} {early : Prop} (hs : Serves M cpu msrDev)
  {index : RegisterIndex} {row : RegisterMap} (hrow : M.counterMap[index]? = some row)
  (event : PerfmonEvent)

include hs

theorem Moves.clearRegisters {regs : List ℕ} (hW : ∀ reg ∈ regs, W msrDev reg) :
    Moves M cpu W early (clearRegisters M cpu regs) :=
  Moves.foldlM (fun _ _ hreg => Moves.checkWrite hs (hW _ hreg) 0) ()

theorem Moves.nexMboxSub (hW : ∀ number reg, W msrDev (nexWexMboxRegs number reg))
    (number : Fin 2) : Moves M cpu W early (nexMboxSub M cpu number event) := by
  have hthr : ∀ shift, Moves M cpu W early (nexMboxThr M cpu number event shift) :=
    fun shift => Moves.bind (Moves.checkRead hs _) fun _ => Moves.checkWrite hs (hW number _) _
  refine Moves.ite (fun _ => ?_) fun _ => Moves.ite (fun _ => hthr 9) fun _ =>
    Moves.ite (fun _ => hthr 7) fun _ => ?_
  · exact Moves.bind (Moves.checkRead hs _) fun _ => Moves.bind (Moves.checkRead hs _) fun _ =>
      Moves.bind (Moves.checkWrite hs (hW number _) _) fun _ =>
        Moves.checkWrite hs (hW number _) _
  · cases nexMboxBits event with
    | none => exact Moves.pure _
    | some p => exact Moves.orFilter hs (hW number p.1) p.2

include hrow

theorem Moves.nexPmcSetup (hA : NexAllowed M row W) (hdef : OffcoreDefined event) :
    Moves M cpu W early (nexPmcSetup M cpu index event) :=
  Moves.bind (Moves.when fun _ => Moves.bind (Moves.offcoreFlags hdef _) fun _ =>
    Moves.checkWrite hs hA.offcore _) fun _ => Moves.writeConfig hs hrow hA.config _

theorem Moves.nexMboxSetup (hA : NexAllowed M row W) :
    Moves M cpu W early (nexMboxSetup M cpu index event) := by
  refine Moves.bind Moves.requireLock fun _ => Moves.counterMap_bind hrow ?_
  refine Moves.bind (Moves.when fun _ => Moves.foldlM (fun _ option _ => ?_) ()) fun _ =>
    Moves.bind (Moves.nexMboxSub hs event hA.mbox _) fun _ =>
      Moves.writeConfig hs hrow hA.config _
  unfold nexMboxOption
  split
  · exact Moves.checkWrite hs (hA.mbox _ _) _
  · exact Moves.checkWrite hs (hA.mbox _ _) _
  · exact Moves.pure _

theorem Moves.nexRboxSetup (hA : NexAllowed M row W)
    (hrbox : row.type = .rbox0 ∨ row.type = .rbox1) :
    Moves M cpu W early (nexRboxSetup M cpu index event) := by
  obtain ⟨hnumber, hsub⟩ := hA.rbox hrbox
  refine Moves.bind Moves.requireLock fun _ => Moves.counterMap_bind hrow ?_
  refine Moves.bind ?_ fun _ => Moves.writeConfig hs hrow hA.config _
  unfold nexRboxSub
  cases rboxSub event with
  | none => exact Moves.pure _
  | some p =>
      exact Moves.bind (Moves.orUndefined hnumber) fun number =>
        Moves.checkWrite hs (hsub number p.1 p.2.1) _

theorem Moves.nexBboxSetup (hA : NexAllowed M row W) :
    Moves M cpu W early (nexBboxSetup M cpu index event) := by
  refine Moves.counterMap_bind hrow (Moves.bind Moves.requireLock fun _ => ?_)
  refine Moves.bind (Moves.foldlM (fun _ option _ => ?_) ()) fun _ =>
    Moves.writeConfig hs hrow hA.config _
  unfold nexBboxOption
  split
  · exact Moves.checkWrite hs hA.filter.1 _
  · exact Moves.checkWrite hs hA.filter.2 _
  · exact Moves.pure _

theorem Moves.nexSboxSetup (hA : NexAllowed M row W) :
    Moves M cpu W early (nexSboxSetup M cpu index event) := by
  have hmm : W msrDev (if row.type = .sbox0 then msrS0PmonMmCfg else msrS1PmonMmCfg) := by
    split
    · exact hA.mmCfg.1
    · exact hA.mmCfg.2
  refine Moves.counterMap_bind hrow (Moves.bind Moves.requireLock fun _ => ?_)
  refine Moves.bind (Moves.when fun _ => Moves.checkWrite hs hmm _) fun _ =>
    Moves.bind (Moves.foldlM (fun _ option _ => ?_) ()) fun _ =>
      Moves.bind (Moves.when fun _ => Moves.checkWrite hs hmm _) fun _ =>
        Moves.writeConfig hs hrow hA.config _
  unfold nexSboxOption
  split
  · exact Moves.when fun _ => Moves.checkWrite hs hA.filter.1 _
  · exact Moves.when fun _ => Moves.checkWrite hs hA.filter.2 _
  · exact Moves.pure _

/-- The switch of the set-up: each case is a helper, a plain write to the event's own control
register, or nothing. -/
theorem Moves.nexSetupCase (hA : NexAllowed M row W) (hdef : row.type = .pmc → OffcoreDefined event)
    (lock : Bool) (st : NexSetup) {type : RegisterType} (htype : row.type = type) :
    Moves M cpu W False (nexSetupCase M cpu lock index row event st type) := by
  have hcalled : ∀ {m : Prog Int Core Unit}, Moves M cpu W True m →
      Moves M cpu W False (nexSetupCase.called st m) :=
    fun h => Moves.bind (Moves.call h) fun _ => Moves.pure _
  have hconfig : ∀ flags, Moves M cpu W True (Likwid.writeConfig M cpu index flags) :=
    fun flags => Moves.writeConfig hs hrow hA.config flags
  cases type with
  | pmc => exact hcalled (Moves.nexPmcSetup hs hrow event hA (hdef htype))
  | fixed => exact Moves.bind (Moves.fixedSetup _ _) fun _ => Moves.pure _
  | mbox0 | mbox1 => exact hcalled (Moves.nexMboxSetup hs hrow event hA)
  | bbox0 | bbox1 => exact hcalled (Moves.nexBboxSetup hs hrow event hA)
  | rbox0 => exact hcalled (Moves.nexRboxSetup hs hrow event hA (Or.inl htype))
  | rbox1 => exact hcalled (Moves.nexRboxSetup hs hrow event hA (Or.inr htype))
  | cbox0 | cbox1 | cbox2 | cbox3 | cbox4 | cbox5 | cbox6 | cbox7 | cbox8 | cbox9 =>
      exact hcalled (Moves.bind Moves.requireLock fun _ => hconfig _)
  | sbox0 | sbox1 => exact hcalled (Moves.nexSboxSetup hs hrow event hA)
  | wbox => exact hcalled (Moves.bind Moves.requireLock fun _ => hconfig _)
  | wbox0fix | ubox =>
      exact Moves.ite (fun _ => Moves.bind (Moves.checkWrite hs hA.config _) fun _ =>
        Moves.pure _) fun _ => Moves.pure _
  | _ => exact Moves.pure _

end Moves

end Likwid
