import Likwid.Access

/-!
# Counter tables

What `perfmon.c` looks up in `counter_map` and `box_map`, and the judgement
along which routines on the shared state are proved: which registers a
routine may write (`W`) and which cached configurations it may change (`S`).
-/

namespace Likwid

variable (M : Machine)

/-- `counter_map[index]`; beyond the table there is nothing to read. -/
def counterMap {ρ σ : Type} (index : RegisterIndex) : Prog ρ σ RegisterMap :=
  Prog.orUndefined M.counterMap[index]?

/-- The length of the run of table rows of type `t` that ends right before
row `j`: the loop of `getCounterTypeOffset`. -/
def typeRun (t : RegisterType) : ℕ → ℕ
  | 0 => 0
  | j + 1 =>
      match M.counterMap[j]? with
      | some row => if row.type = t then typeRun t j + 1 else 0
      | none => 0

/-- `getCounterTypeOffset` -/
def getCounterTypeOffset (index : RegisterIndex) : ℕ :=
  match M.counterMap[index]? with
  | some row => typeRun M row.type index
  | none => 0

/-- The loop of `perfmon_getMaxCounterValue`: the low `width` bits. -/
def lowBits : ℕ → Word
  | 0 => 0
  | i + 1 => lowBits i ||| bit i

/-- `perfmon_getMaxCounterValue` -/
def perfmonGetMaxCounterValue (type : RegisterType) : Word :=
  lowBits (if 0 < (M.boxMap type).regWidth then (M.boxMap type).regWidth else 48)

/-- The width of a counter type's registers, 48 bits where the box map says
nothing. -/
def counterWidth (type : RegisterType) : ℕ :=
  if 0 < (M.boxMap type).regWidth then (M.boxMap type).regWidth else 48

theorem getLsbD_lowBits (width : ℕ) :
    ∀ j, (lowBits width).getLsbD j = decide (j < width ∧ j < 64) := by
  induction width with
  | zero => simp [lowBits]
  | succ i ih =>
      intro j
      rw [lowBits, BitVec.getLsbD_or, ih]
      by_cases hj : j < 64
      · simp only [BitVec.getLsbD_shiftLeft, BitVec.getLsbD_one, hj]
        grind
      · simp [hj]

theorem lowBits_toNat {width : ℕ} (h : width ≤ 64) : (lowBits width).toNat = 2 ^ width - 1 := by
  refine Nat.eq_of_testBit_eq fun j => ?_
  rw [BitVec.testBit_toNat, getLsbD_lowBits, Nat.testBit_two_pow_sub_one]
  grind

theorem perfmonGetMaxCounterValue_toNat {type : RegisterType} (h : counterWidth M type ≤ 64) :
    (perfmonGetMaxCounterValue M type).toNat = 2 ^ counterWidth M type - 1 :=
  lowBits_toNat h

/-- The entry of an event that was configured has the type of its counter's
row. -/
def PerfmonEventSetEntry.Typed (e : PerfmonEventSetEntry) : Prop :=
  e.type ≠ .notype → ∃ row, M.counterMap[e.index]? = some row ∧ row.type = e.type

instance (e : PerfmonEventSetEntry) : Decidable (e.Typed M) :=
  match h : M.counterMap[e.index]? with
  | some row => decidable_of_iff (e.type ≠ .notype → row.type = e.type)
      (by simp [PerfmonEventSetEntry.Typed, h])
  | none => decidable_of_iff (e.type = .notype) (by simp [PerfmonEventSetEntry.Typed, h])

/-- What holds of every entry is decided slot by slot. -/
instance (P : PerfmonEventSetEntry → Prop) [DecidablePred P] (slots : List Slot) :
    Decidable (∀ e, some e ∈ slots → P e) :=
  decidable_of_iff (∀ e ∈ slots.filterMap id, P e) (by simp)

/-! ## Routines on the shared state -/

/-- The machine that answers like `M` except that no register access fails. -/
def Machine.answering : Machine :=
  { M with
    accessRead := fun _ _ _ _ => 0
    accessWrite := fun _ _ _ _ _ => 0 }

/-- A judgement that holds of the shared state's own steps: any register read,
a write to a register in `W`, a cached configuration in `S`. -/
structure CoreLogic (cpu : ℕ) (W : PciDeviceIndex → ℕ → Prop) (S : RegisterIndex → Prop)
    (J : (α : Type) → Prog Int Core α → Prog Int Core α → Prop) : Prop extends
    Prog.Closed J where
  read : ∀ dev reg, J _ (hpmRead M cpu dev reg) (hpmRead M.answering cpu dev reg)
  write : ∀ dev reg data, W dev reg →
    J _ (hpmWrite M cpu dev reg data) (hpmWrite M.answering cpu dev reg data)
  save : ∀ index flags, S index → J _ (saveConfig cpu index flags) (saveConfig cpu index flags)

namespace CoreLogic

variable {M} {cpu : ℕ} {W : PciDeviceIndex → ℕ → Prop} {S : RegisterIndex → Prop}
  {J : (α : Type) → Prog Int Core α → Prog Int Core α → Prop} (L : CoreLogic M cpu W S J)

include L

theorem check (err : Int) :
    J _ (checkAndReturnError M err) (checkAndReturnError M.answering err) :=
  L.bind L.get fun _ => L.when fun _ => L.ret _

theorem checkRead (dev : PciDeviceIndex) (reg : ℕ) :
    J _ (checkRead M cpu dev reg) (checkRead M.answering cpu dev reg) :=
  L.bind (L.read dev reg) fun _ => L.bind (L.check _) fun _ => L.pure _

theorem checkWrite {dev : PciDeviceIndex} {reg : ℕ} (data : Word) (h : W dev reg) :
    J _ (checkWrite M cpu dev reg data) (checkWrite M.answering cpu dev reg data) :=
  L.bind (L.write dev reg data h) fun _ => L.check _

theorem counterMap_bind {α : Type} {index : RegisterIndex} {f f' : RegisterMap → Prog Int Core α}
    (h : ∀ row, M.counterMap[index]? = some row → J α (f row) (f' row)) :
    J α (counterMap M index >>= f) (counterMap M.answering index >>= f') := by
  have hans : M.answering.counterMap[index]? = M.counterMap[index]? := rfl
  unfold Likwid.counterMap
  rw [hans]
  cases hrow : M.counterMap[index]? with
  | none => exact L.undefined
  | some row => exact h row hrow

end CoreLogic

end Likwid
