import Likwid.Lib.LastWrite
import Likwid.NehalemEX.Setup

/-!
# The sub-event registers of the router boxes

`nex_rbox_setup` writes the port register of an event as a whole, with the configuration in the
half of the event's sub-counter and 0 in the other half. After the set-up of a set each of these
registers holds what was written to it last: two events of one port, on sub-counters of their own,
do not both keep their configuration (`rboxInEffect_iff`).
-/

namespace Likwid

open LastWrite

attribute [local instance] neZero_two neZero_four

/-! ## What the set-up is to leave -/

/-- The router box of a counter -/
def rboxOf : RegisterType → Option (Fin 2)
  | .rbox0 => some 0
  | .rbox1 => some 1
  | _ => none

/-- A register behind the control registers: the box, the register type and the port -/
abbrev RboxKey := Fin 2 × RboxRegType × Fin 4

def rboxReg (k : RboxKey) : ℕ := nexWexRboxRegs k.1 k.2.1 k.2.2

/-- The entry counts in router box `number`, and its type is in the set's mask. -/
def OnRbox (mask : BitVec 128) (number : Fin 2) (e : PerfmonEventSetEntry) : Prop :=
  hasType mask e.type ∧ rboxOf e.type = some number

/-- The configuration of every router event of the set is in its register. -/
structure SubEventsInEffect (cpu : ℕ) (mask : BitVec 128) (es : List PerfmonEventSetEntry)
    (c : Core) : Prop where
  iperf : ∀ e ∈ es, ∀ number, OnRbox mask number e → e.event.eventId = 0x00 →
    ∀ type port, rboxIperf e.event.umask = some (type, port) →
      c.regs cpu msrDev (nexWexRboxRegs number type port) = rboxIperfMask e.event
  qlx0 : ∀ e ∈ es, ∀ number, OnRbox mask number e → e.event.eventId = 0x01 →
    ∀ port, rboxQlx e.event.umask = some (port, 0) →
      field64 (c.regs cpu msrDev (nexWexRboxRegs number .qlx port)) 0 8 = rboxQlxConfig e.event
  qlx1 : ∀ e ∈ es, ∀ number, OnRbox mask number e → e.event.eventId = 0x01 →
    ∀ port, rboxQlx e.event.umask = some (port, 1) →
      field64 (c.regs cpu msrDev (nexWexRboxRegs number .qlx port)) 8 8 = rboxQlxConfig e.event

/-- The set-up of the entries ends in `c'`. -/
def SetUpNehalemEX (M : Machine) (thread cpu : ℕ) (mask : BitVec 128) (rest : List Slot)
    (c : Core) (es : List PerfmonEventSetEntry) (c' : Core) : Prop :=
  ∃ mask' slots', perfmonSetupCounterThreadNehalemEX M thread cpu mask es.length
    (c, es.map some ++ rest) = .done mask' (c', slots')

/-- After the set-up the configuration of every router event is in effect, and it is the same for
every order of the events. -/
def RboxInEffect (M : Machine) (thread cpu : ℕ) (mask : BitVec 128) (rest : List Slot) (c : Core)
    (es : List PerfmonEventSetEntry) : Prop :=
  ∃ c', SetUpNehalemEX M thread cpu mask rest c es c' ∧ SubEventsInEffect cpu mask es c' ∧
    ∀ es' : List PerfmonEventSetEntry, es'.Perm es →
      ∃ c'', SetUpNehalemEX M thread cpu mask rest c es' c'' ∧
        ∀ k, c''.regs cpu msrDev (rboxReg k) = c'.regs cpu msrDev (rboxReg k)

/-- Two events of one box with the same performance event register have the same mask; of two
events of one port, either both are on one sub-counter with one configuration, or both
configurations are 0. -/
structure RboxApart (mask : BitVec 128) (es : List PerfmonEventSetEntry) : Prop where
  iperf : ∀ e ∈ es, ∀ e' ∈ es, ∀ number, OnRbox mask number e → OnRbox mask number e' →
    e.event.eventId = 0x00 → e'.event.eventId = 0x00 →
    ∀ r, rboxIperf e.event.umask = some r → rboxIperf e'.event.umask = some r →
      rboxIperfMask e.event = rboxIperfMask e'.event
  qlx : ∀ e ∈ es, ∀ e' ∈ es, ∀ number, OnRbox mask number e → OnRbox mask number e' →
    e.event.eventId = 0x01 → e'.event.eventId = 0x01 →
    ∀ port sub sub', rboxQlx e.event.umask = some (port, sub) →
      rboxQlx e'.event.umask = some (port, sub') →
      (sub = sub' ∧ rboxQlxConfig e.event = rboxQlxConfig e'.event) ∨
        (rboxQlxConfig e.event = 0 ∧ rboxQlxConfig e'.event = 0)

/-! ## The writes of a set -/

/-- What the set-up of an entry writes behind its control register -/
def rboxWrite (mask : BitVec 128) (e : PerfmonEventSetEntry) : Option (RboxKey × Word) :=
  if hasType mask e.type then
    (rboxOf e.type).bind fun number =>
      (rboxSub e.event).map fun p => ((number, p.1, p.2.1), p.2.2)
  else none

section Writes

variable {mask : BitVec 128} {es : List PerfmonEventSetEntry} {e : PerfmonEventSetEntry}
  {number : Fin 2} {event : PerfmonEvent}

theorem rboxWrite_eq_some {k : RboxKey} {v : Word} :
    rboxWrite mask e = some (k, v) ↔
      OnRbox mask k.1 e ∧ rboxSub e.event = some (k.2.1, k.2.2, v) := by
  unfold rboxWrite OnRbox
  by_cases hmask : hasType mask e.type
  · rw [if_pos hmask]
    simp only [Option.bind_eq_some_iff, Option.map_eq_some_iff, Prod.mk.injEq, hmask, true_and]
    constructor
    · rintro ⟨number, hnumber, ⟨type, port, w⟩, hsub, rfl, rfl⟩
      exact ⟨hnumber, hsub⟩
    · rintro ⟨hnumber, hsub⟩
      exact ⟨k.1, hnumber, _, hsub, rfl, rfl⟩
  · rw [if_neg hmask]
    simp [hmask]

theorem rboxSub_iperf (hid : event.eventId = 0x00) {type : RboxRegType} {port : Fin 4} {v : Word} :
    rboxSub event = some (type, port, v) ↔
      rboxIperf event.umask = some (type, port) ∧ v = rboxIperfMask event := by
  unfold rboxSub
  rw [if_pos hid, Option.map_eq_some_iff]
  constructor
  · rintro ⟨p, hp, heq⟩
    cases heq
    exact ⟨hp, rfl⟩
  · rintro ⟨hp, rfl⟩
    exact ⟨_, hp, rfl⟩

/-- The configuration in the half of the sub-counter -/
def qlxWord (sub : Fin 2) (config : Word) : Word := if sub = 0 then config else config <<< 8

theorem rboxSub_qlx (hid : event.eventId = 0x01) {type : RboxRegType} {port : Fin 4} {v : Word} :
    rboxSub event = some (type, port, v) ↔
      type = .qlx ∧ ∃ sub, rboxQlx event.umask = some (port, sub) ∧
        v = qlxWord sub (rboxQlxConfig event) := by
  have hne : event.eventId ≠ 0x00 := by
    rw [hid]
    decide
  unfold rboxSub
  rw [if_neg hne, if_pos hid, Option.map_eq_some_iff]
  constructor
  · rintro ⟨⟨p, sub⟩, hp, heq⟩
    cases heq
    exact ⟨rfl, sub, hp, rfl⟩
  · rintro ⟨rfl, sub, hp, rfl⟩
    exact ⟨_, hp, rfl⟩

theorem rboxSub_id {p : RboxRegType × Fin 4 × Word} (h : rboxSub event = some p) :
    event.eventId = 0x00 ∨ event.eventId = 0x01 := by
  unfold rboxSub at h
  by_cases h0 : event.eventId = 0x00
  · exact Or.inl h0
  · by_cases h1 : event.eventId = 0x01
    · exact Or.inr h1
    · rw [if_neg h0, if_neg h1] at h
      cases h

theorem rboxIperf_ne_qlx {umask : BitVec 8} {port : Fin 4} :
    rboxIperf umask ≠ some (.qlx, port) := by
  unfold rboxIperf
  split <;> simp

/-- The configuration has eight bits. -/
theorem rboxQlxConfig_lt (event : PerfmonEvent) : (rboxQlxConfig event).toNat < 2 ^ 8 := by
  have hlow : ∀ w : Word, (w &&& 0xF).toNat ≤ 15 := fun w => by
    rw [BitVec.toNat_and]
    exact Nat.and_le_right
  have hcfg := hlow (event.cfgBits.setWidth 64)
  have hcmask := hlow event.cmask
  unfold rboxQlxConfig
  rw [BitVec.toNat_or]
  refine Nat.or_lt_two_pow (Nat.lt_of_le_of_lt hcfg (by decide)) ?_
  split
  · rw [BitVec.toNat_shiftLeft, Nat.shiftLeft_eq]
    omega
  · decide

theorem qlxWord_field (sub sub' : Fin 2) {config : Word} (h : config.toNat < 2 ^ 8) :
    field64 (qlxWord sub config) (8 * sub') 8 = if sub = sub' then config else 0 := by
  have hshift : (config <<< 8).toNat = config.toNat * 256 := by
    rw [BitVec.toNat_shiftLeft, Nat.shiftLeft_eq]
    omega
  unfold qlxWord
  rw [← BitVec.toNat_inj, field64_toNat (by omega)]
  match sub, sub' with
  | 0, 0 => simp; omega
  | 0, 1 => simp; omega
  | 1, 0 => simp [hshift]
  | 1, 1 => simp [hshift]; omega

/-- Two words of one port are the same if they come from the same half with the same
configuration, or are both 0. -/
theorem qlxWord_inj {sub sub' : Fin 2} {config config' : Word} (h : config.toNat < 2 ^ 8)
    (h' : config'.toNat < 2 ^ 8) :
    qlxWord sub config = qlxWord sub' config' ↔
      (sub = sub' ∧ config = config') ∨ (config = 0 ∧ config' = 0) := by
  constructor
  · intro heq
    have hfield := congrArg (fun w => field64 w (8 * sub) 8) heq
    have hfield' := congrArg (fun w => field64 w (8 * sub') 8) heq
    simp only [qlxWord_field _ _ h, qlxWord_field _ _ h', if_true] at hfield hfield'
    by_cases hsub : sub = sub'
    · rw [if_pos hsub.symm] at hfield
      exact Or.inl ⟨hsub, hfield⟩
    · rw [if_neg (Ne.symm hsub)] at hfield
      rw [if_neg hsub] at hfield'
      exact Or.inr ⟨hfield, hfield'.symm⟩
  · rintro (⟨rfl, rfl⟩ | ⟨rfl, rfl⟩)
    · rfl
    · unfold qlxWord
      simp

/-- The writes of a set agree exactly if its router events keep out of each other's way. -/
theorem agree_iff : Agree (es.filterMap (rboxWrite mask)) ↔ RboxApart mask es := by
  constructor
  · intro h
    refine ⟨fun e he e' he' number hon hon' hid hid' r hr hr' => ?_,
      fun e he e' he' number hon hon' hid hid' port sub sub' hp hp' => ?_⟩
    · have hw : rboxWrite mask e = some ((number, r.1, r.2), _) :=
        rboxWrite_eq_some.mpr ⟨hon, (rboxSub_iperf hid).mpr ⟨hr, rfl⟩⟩
      have hw' : rboxWrite mask e' = some ((number, r.1, r.2), _) :=
        rboxWrite_eq_some.mpr ⟨hon', (rboxSub_iperf hid').mpr ⟨hr', rfl⟩⟩
      exact h _ (List.mem_filterMap.mpr ⟨e, he, hw⟩) _ (List.mem_filterMap.mpr ⟨e', he', hw'⟩) rfl
    · have hw : rboxWrite mask e = some ((number, .qlx, port), _) :=
        rboxWrite_eq_some.mpr ⟨hon, (rboxSub_qlx hid).mpr ⟨rfl, sub, hp, rfl⟩⟩
      have hw' : rboxWrite mask e' = some ((number, .qlx, port), _) :=
        rboxWrite_eq_some.mpr ⟨hon', (rboxSub_qlx hid').mpr ⟨rfl, sub', hp', rfl⟩⟩
      exact (qlxWord_inj (rboxQlxConfig_lt _) (rboxQlxConfig_lt _)).mp
        (h _ (List.mem_filterMap.mpr ⟨e, he, hw⟩) _ (List.mem_filterMap.mpr ⟨e', he', hw'⟩) rfl)
  · rintro h ⟨k, v⟩ hw ⟨k', v'⟩ hw' hk
    cases hk
    obtain ⟨number, type, port⟩ := k
    obtain ⟨e, he, hew⟩ := List.mem_filterMap.mp hw
    obtain ⟨e', he', hew'⟩ := List.mem_filterMap.mp hw'
    obtain ⟨hon, hsub⟩ := rboxWrite_eq_some.mp hew
    obtain ⟨hon', hsub'⟩ := rboxWrite_eq_some.mp hew'
    rcases rboxSub_id hsub with hid | hid <;> rcases rboxSub_id hsub' with hid' | hid'
    · obtain ⟨hr, rfl⟩ := (rboxSub_iperf hid).mp hsub
      obtain ⟨hr', rfl⟩ := (rboxSub_iperf hid').mp hsub'
      exact h.iperf e he e' he' number hon hon' hid hid' _ hr hr'
    · -- the two events write to registers of different types
      obtain ⟨hr, -⟩ := (rboxSub_iperf hid).mp hsub
      obtain ⟨hqlx, -⟩ := (rboxSub_qlx hid').mp hsub'
      have htype : type = .qlx := hqlx
      rw [htype] at hr
      exact absurd hr rboxIperf_ne_qlx
    · obtain ⟨hqlx, -⟩ := (rboxSub_qlx hid).mp hsub
      obtain ⟨hr', -⟩ := (rboxSub_iperf hid').mp hsub'
      have htype : type = .qlx := hqlx
      rw [htype] at hr'
      exact absurd hr' rboxIperf_ne_qlx
    · obtain ⟨-, sub, hp, rfl⟩ := (rboxSub_qlx hid).mp hsub
      obtain ⟨-, sub', hp', rfl⟩ := (rboxSub_qlx hid').mp hsub'
      exact (qlxWord_inj (rboxQlxConfig_lt _) (rboxQlxConfig_lt _)).mpr
        (h.qlx e he e' he' number hon hon' hid hid' port sub sub' hp hp')

/-- Where the writes agree, every configuration is in effect. -/
theorem subEventsInEffect {cpu : ℕ} {c : Core} {init : RboxKey → Word}
    (h : Agree (es.filterMap (rboxWrite mask)))
    (hregs : ∀ k, c.regs cpu msrDev (rboxReg k) = store (es.filterMap (rboxWrite mask)) init k) :
    SubEventsInEffect cpu mask es c := by
  have hheld : ∀ e ∈ es, ∀ number, OnRbox mask number e → ∀ type port v,
      rboxSub e.event = some (type, port, v) →
      c.regs cpu msrDev (nexWexRboxRegs number type port) = v := by
    intro e he number hon type port v hsub
    have hw : rboxWrite mask e = some ((number, type, port), v) :=
      rboxWrite_eq_some.mpr ⟨hon, hsub⟩
    exact (hregs (number, type, port)).trans (h.store_eq (List.mem_filterMap.mpr ⟨e, he, hw⟩))
  refine ⟨fun e he number hon hid type port hr => ?_, fun e he number hon hid port hp => ?_,
    fun e he number hon hid port hp => ?_⟩
  · exact hheld e he number hon type port _ ((rboxSub_iperf hid).mpr ⟨hr, rfl⟩)
  · rw [hheld e he number hon _ port _ ((rboxSub_qlx hid).mpr ⟨rfl, 0, hp, rfl⟩)]
    exact qlxWord_field 0 0 (rboxQlxConfig_lt _)
  · rw [hheld e he number hon _ port _ ((rboxSub_qlx hid).mpr ⟨rfl, 1, hp, rfl⟩)]
    exact qlxWord_field 1 1 (rboxQlxConfig_lt _)

end Writes

/-! ## The registers of the tables -/

/-- All registers behind the control registers of the router boxes -/
def rboxRegisters : List ℕ := nexRboxRegisters 0 ++ nexRboxRegisters 1

theorem rboxReg_mem (k : RboxKey) : rboxReg k ∈ rboxRegisters := by
  obtain ⟨number, type, port⟩ := k
  revert number port
  cases type <;> decide

theorem rboxReg_inj {k k' : RboxKey} (h : rboxReg k = rboxReg k') : k = k' := by
  obtain ⟨number, type, port⟩ := k
  obtain ⟨number', type', port'⟩ := k'
  revert number port number' port'
  cases type <;> cases type' <;> decide

theorem rboxReg_update {f : ℕ → Word} {k : RboxKey} {v : Word} :
    (fun k' => if rboxReg k' = rboxReg k then v else f (rboxReg k')) =
      Function.update (fun k' => f (rboxReg k')) k v := by
  funext k'
  by_cases hk : k' = k
  · rw [hk, if_pos rfl, Function.update_self]
  · rw [if_neg fun h => hk (rboxReg_inj h), Function.update_of_ne hk]

/-- Everything but these registers may be written. -/
def OffRbox (dev : PciDeviceIndex) (reg : ℕ) : Prop := ¬(dev = msrDev ∧ reg ∈ rboxRegisters)

theorem offRbox_of_notMem {reg : ℕ} (h : reg ∉ rboxRegisters) : OffRbox msrDev reg :=
  fun hyes => h hyes.2

theorem nehalemEX_config : ∀ row ∈ nehalemEXCounterMap, row.configRegister ∉ rboxRegisters := by
  decide +kernel

theorem nehalemEX_number : ∀ row ∈ nehalemEXCounterMap, rboxOf row.type = none ∨
    rboxNumber row.configRegister = rboxOf row.type := by
  decide +kernel

theorem nehalemEX_filter (type : RegisterType) :
    (nehalemEXBoxMap type).filterRegister1 ∉ rboxRegisters ∧
      (nehalemEXBoxMap type).filterRegister2 ∉ rboxRegisters := by
  cases type <;> decide

/-! ## The run -/

section Run

variable {M : Machine} {thread cpu : ℕ} {mask : BitVec 128} {c : Core} {init : RboxKey → Word}

/-- What the registers of the router boxes hold -/
def rboxValues (cpu : ℕ) (c : Core) (k : RboxKey) : Word := c.regs cpu msrDev (rboxReg k)

theorem Moved.rboxValues_eq {c' : Core} (h : Moved OffRbox c c') :
    rboxValues cpu c' = rboxValues cpu c :=
  funext fun k => h.regs cpu msrDev (rboxReg k) fun hno => hno ⟨rfl, rboxReg_mem k⟩

theorem nexSetupClear_done (hs : Serves M cpu msrDev) (ho : OwnsSocket M cpu c)
    (mask : BitVec 128) (lock : Bool) :
    ∃ c1, nexSetupClear M cpu mask lock c = .done () c1 ∧ OwnsSocket M cpu c1 := by
  have hany : ∀ reg, (fun (_ : PciDeviceIndex) (_ : ℕ) => True) msrDev reg := fun _ => trivial
  have hwrite : ∀ reg, Moves M cpu (fun _ _ => True) False (checkWrite M cpu msrDev reg 0) :=
    fun reg => Moves.checkWrite hs (hany reg) 0
  have hclear : ∀ regs, Moves M cpu (fun _ _ => True) False (clearRegisters M cpu regs) :=
    fun regs => Moves.clearRegisters hs fun reg _ => hany reg
  have hmoves : Moves M cpu (fun _ _ => True) False (nexSetupClear M cpu mask lock) :=
    .bind (.when fun _ => hwrite _) fun _ => .bind (.when fun _ => hwrite _) fun _ =>
      .bind (.when fun _ => hclear _) fun _ => .bind (.when fun _ => hclear _) fun _ =>
        .bind (.when fun _ => hclear _) fun _ => .when fun _ => hclear _
  obtain ⟨_, c1, hdone, hmoved⟩ := hmoves.done ho
  exact ⟨c1, hdone, hmoved.owns ho⟩

variable (hM : M.toTables = nehalemEXTables) (hs : Serves M cpu msrDev)

include hM

theorem nehalemEX_row {index : RegisterIndex} {row : RegisterMap}
    (hrow : M.counterMap[index]? = some row) : row ∈ nehalemEXCounterMap := by
  have hmem := List.mem_of_getElem? hrow
  rw [hM] at hmem
  exact hmem

theorem nexAllowed_offRbox {index : RegisterIndex} {row : RegisterMap}
    (hrow : M.counterMap[index]? = some row) (hno : rboxOf row.type = none) :
    NexAllowed M row OffRbox where
  config := offRbox_of_notMem (nehalemEX_config row (nehalemEX_row hM hrow))
  filter := by
    rw [hM]
    obtain ⟨h1, h2⟩ := nehalemEX_filter row.type
    exact ⟨offRbox_of_notMem h1, offRbox_of_notMem h2⟩
  offcore := offRbox_of_notMem (by decide)
  mmCfg := ⟨offRbox_of_notMem (by decide), offRbox_of_notMem (by decide)⟩
  mbox number reg := by
    refine offRbox_of_notMem ?_
    revert number
    cases reg <;> decide
  rbox hrbox := by
    rcases hrbox with h | h
    · rw [h] at hno
      cases hno
    · rw [h] at hno
      cases hno

include hs

/-- **The helper of the router boxes** makes the one write its event asks for. -/
theorem nexRboxSetup_writes {index : RegisterIndex} {row : RegisterMap} {number : Fin 2}
    (hrow : M.counterMap[index]? = some row) (hbox : rboxOf row.type = some number)
    (ho : OwnsSocket M cpu c) (event : PerfmonEvent) :
    (nexRboxSetup M cpu index event).twp
      (fun _ c' => OwnsSocket M cpu c' ∧ rboxValues cpu c' =
        store (((rboxSub event).map fun p => ((number, p.1, p.2.1), p.2.2)).toList)
          (rboxValues cpu c)) (fun _ _ => False) c := by
  have hmem := nehalemEX_row hM hrow
  have hconfig : OffRbox msrDev row.configRegister := offRbox_of_notMem (nehalemEX_config row hmem)
  have hnumber : rboxNumber row.configRegister = some number := by
    rcases nehalemEX_number row hmem with h | h
    · rw [hbox] at h
      cases h
    · exact h.trans hbox
  have hlock : ¬haveLock M c cpu = false := by simp [ho.lock]
  have hend : ∀ {c1 : Core}, OwnsSocket M cpu c1 →
      (writeConfig M cpu index (rboxFlags event)).twp
        (fun _ c' => OwnsSocket M cpu c' ∧ rboxValues cpu c' = rboxValues cpu c1)
        (fun _ _ => False) c1 := by
    intro c1 h1
    have hmoves : Moves M cpu OffRbox False (writeConfig M cpu index (rboxFlags event)) :=
      Moves.writeConfig hs hrow hconfig _
    exact Prog.twp_mono (hmoves c1 h1) (fun _ c2 h2 => ⟨h2.owns h1, h2.rboxValues_eq⟩)
      fun _ _ h2 => h2.1
  unfold nexRboxSetup requireLock counterMap nexRboxSub
  rw [Prog.twp_bind, Prog.twp_bind, Prog.twp_get, Prog.when_of_neg hlock, Prog.twp_pure, hrow,
    Prog.twp_bind, Prog.twp_orUndefined]
  refine ⟨row, rfl, ?_⟩
  rw [Prog.twp_bind]
  cases rboxSub event with
  | none => exact hend ho
  | some p =>
      simp only [Prog.twp_bind, hnumber, Prog.twp_orUndefined, Option.some.injEq, exists_eq_left']
      refine Prog.twp_of_done (checkWrite_done ho.accessible hs.valid fun n => hs.write n _ _) ?_
      have howns : OwnsSocket M cpu ((c.setReg (regOwner M cpu msrDev) msrDev
          (nexWexRboxRegs number p.1 p.2.1) (stored msrDev p.2.2)).log
          ⟨.write, cpu, msrDev, nexWexRboxRegs number p.1 p.2.1, p.2.2, 0⟩) :=
        ⟨ho.accessible, ho.lock⟩
      refine Prog.twp_mono (hend howns) (fun _ c2 h2 => ⟨h2.1, h2.2.trans ?_⟩) fun _ _ hno => hno
      have howner : regOwner M cpu msrDev = cpu := rfl
      unfold rboxValues
      simp only [Core.log_regs, Core.setReg_regs, howner, true_and]
      exact rboxReg_update (k := (number, p.1, p.2.1))

/-- What holds after some entries were set up -/
structure RboxLoop (M : Machine) (cpu : ℕ) (mask : BitVec 128) (init : RboxKey → Word)
    (seen : List PerfmonEventSetEntry) (st : NexSetup) (c : Core) : Prop where
  owns : OwnsSocket M cpu c
  types : ∀ type, type ≠ .wbox → (hasType st.mask type ↔ hasType mask type)
  values : rboxValues cpu c = store (seen.filterMap (rboxWrite mask)) init

/-- The switch makes the write of its entry. -/
theorem nexSetupCase_writes (lock : Bool) (st : NexSetup) {e : PerfmonEventSetEntry}
    {row : RegisterMap} (hrow : M.counterMap[e.index]? = some row) (htype : row.type = e.type)
    (hmask : hasType mask e.type ∨ rboxOf e.type = none)
    (hdef : e.type = .pmc → OffcoreDefined e.event) (ho : OwnsSocket M cpu c) :
    (nexSetupCase M cpu lock e.index row e.event st e.type).twp
      (fun _ c' => OwnsSocket M cpu c' ∧
        rboxValues cpu c' = store (rboxWrite mask e).toList (rboxValues cpu c))
      (fun _ _ => False) c := by
  cases hbox : rboxOf e.type with
  | none =>
      have hnone : rboxWrite mask e = none := by
        unfold rboxWrite
        rw [hbox]
        exact ite_self _
      have hA : NexAllowed M row OffRbox := nexAllowed_offRbox hM hrow (htype ▸ hbox)
      have hmoves := Moves.nexSetupCase hs hrow e.event hA (fun h => hdef (htype ▸ h)) lock st htype
      rw [hnone]
      exact Prog.twp_mono (hmoves c ho) (fun _ c' h => ⟨h.owns ho, h.rboxValues_eq⟩)
        fun _ _ h => h.1
  | some number =>
      have hwrite : rboxWrite mask e =
          (rboxSub e.event).map fun p => ((number, p.1, p.2.1), p.2.2) := by
        unfold rboxWrite
        rw [hbox, if_pos (hmask.resolve_right (by simp [hbox]))]
        rfl
      have hhelper := nexRboxSetup_writes hM hs hrow (htype ▸ hbox) ho e.event
      have hcalled : (nexSetupCase.called st (nexRboxSetup M cpu e.index e.event)).twp
          (fun _ c' => OwnsSocket M cpu c' ∧
            rboxValues cpu c' = store (rboxWrite mask e).toList (rboxValues cpu c))
          (fun _ _ => False) c := by
        unfold nexSetupCase.called
        rw [Prog.twp_bind, Prog.twp_call, hwrite]
        exact Prog.twp_mono hhelper (fun _ _ h => h) fun _ _ h => h.elim
      cases htype' : e.type with
      | rbox0 | rbox1 => exact hcalled
      | _ =>
          rw [htype'] at hbox
          cases hbox

/-- **One round** -/
theorem rboxLoop_step {lock : Bool} {e : PerfmonEventSetEntry} {seen : List PerfmonEventSetEntry}
    {st : NexSetup} (htyped : e.Typed M) (hdef : e.type = .pmc → OffcoreDefined e.event)
    (h : RboxLoop M cpu mask init seen st c) :
    (nexSetupEvent M thread cpu lock st).twp
      (fun st' p => RboxLoop M cpu mask init (seen ++ [e]) st' p.1 ∧ True) (fun _ _ => False)
      (c, e) := by
  unfold nexSetupEvent
  rw [Prog.twp_bind, Prog.twp_get]
  by_cases hmask : hasType st.mask e.type
  · have hnotype : e.type ≠ .notype := fun heq => not_hasType_notype st.mask (heq ▸ hmask)
    obtain ⟨row, hrow, htype⟩ := htyped hnotype
    have hin : hasType mask e.type ∨ rboxOf e.type = none := by
      by_cases hwbox : e.type = .wbox
      · exact Or.inr (by rw [hwbox]; rfl)
      · exact Or.inl ((h.types _ hwbox).mp hmask)
    have hcase := Prog.twp_and
      (nexSetupCase_writes hM hs lock st hrow htype hin hdef h.owns)
      (nexSetupCase_mask M cpu lock e.index row e.event st e.type c)
    rw [if_pos hmask]
    unfold counterMap
    simp only [Prog.twp_bind, Prog.twp_orUndefined, Prog.twp_zoom, Prog.twp_modify, hrow]
    refine ⟨row, rfl, Prog.twp_mono hcase ?_ fun _ _ h => h.1⟩
    rintro st' c' ⟨⟨howns, hvalues⟩, hst⟩
    refine ⟨⟨howns, fun type hne => ?_, ?_⟩, trivial⟩
    · rcases hst with heq | heq
      · rw [heq]
        exact h.types type hne
      · rw [heq, hasType_or_wbox hne]
        exact h.types type hne
    · rw [hvalues, h.values, List.filterMap_append]
      unfold store
      rw [List.foldl_append]
      rfl
  · rw [if_neg hmask]
    refine ⟨⟨h.owns, h.types, ?_⟩, trivial⟩
    have hnone : rboxWrite mask e = none := by
      unfold rboxWrite
      by_cases hwbox : e.type = .wbox
      · rw [hwbox]
        exact ite_self _
      · exact if_neg fun hyes => hmask ((h.types _ hwbox).mpr hyes)
    rw [List.filterMap_append, List.filterMap_cons_none hnone, List.filterMap_nil, List.append_nil]
    exact h.values

/-- **The set-up** leaves in each register what was written to it last. -/
theorem setUpNehalemEX_values {es : List PerfmonEventSetEntry} (rest : List Slot)
    (htyped : ∀ e ∈ es, e.Typed M) (hdef : ∀ e ∈ es, e.type = .pmc → OffcoreDefined e.event)
    {c1 : Core} (hclear : nexSetupClear M cpu mask (haveLock M c cpu) c = .done () c1)
    (ho : OwnsSocket M cpu c1) :
    ∃ c', SetUpNehalemEX M thread cpu mask rest c es c' ∧
      rboxValues cpu c' = store (es.filterMap (rboxWrite mask)) (rboxValues cpu c1) := by
  have hloop := Prog.twp_forCells (nexSetupEvent M thread cpu (haveLock M c cpu))
    (RboxLoop M cpu mask (rboxValues cpu c1)) (fun _ _ => True) es
    (fun seen e tail st c2 hes h => rboxLoop_step hM hs
      (htyped e (by rw [hes]; simp)) (hdef e (by rw [hes]; simp)) h)
    (b := ⟨mask, 0, 0⟩) (s := c1) rest ⟨ho, fun _ _ => Iff.rfl, rfl⟩
  -- what is written after the loop are registers of other units
  have hlast : ∀ {p : Prop} [Decidable p] {reg : ℕ} (v : Word), reg ∉ rboxRegisters →
      ∀ (c2 : Core) (slots : List Slot), OwnsSocket M cpu c2 →
      (Prog.when p (Prog.onFst (checkWrite M cpu msrDev reg v)) :
        Prog Int (Core × List Slot) Unit).twp
        (fun _ q => OwnsSocket M cpu q.1 ∧ rboxValues cpu q.1 = rboxValues cpu c2)
        (fun _ _ => False) (c2, slots) := by
    intro p _ reg v hreg c2 slots h2
    have hmoves : Moves M cpu OffRbox False (checkWrite M cpu msrDev reg v) :=
      .checkWrite hs (offRbox_of_notMem hreg) v
    rw [Prog.twp_when, Prog.twp_zoom]
    refine ⟨fun _ => ?_, fun _ => ⟨h2, rfl⟩⟩
    exact Prog.twp_mono (hmoves c2 h2) (fun _ c3 h3 => ⟨h3.owns h2, h3.rboxValues_eq⟩)
      fun _ _ h3 => h3.1
  have hrun : (perfmonSetupCounterThreadNehalemEX M thread cpu mask es.length).twp
      (fun _ p => rboxValues cpu p.1 = store (es.filterMap (rboxWrite mask)) (rboxValues cpu c1))
      (fun _ _ => False) (c, es.map some ++ rest) := by
    unfold perfmonSetupCounterThreadNehalemEX
    rw [Prog.twp_bind, Prog.twp_get, Prog.twp_bind, Prog.twp_zoom]
    refine Prog.twp_of_done hclear ?_
    rw [Prog.twp_bind]
    refine Prog.twp_mono hloop ?_ fun _ _ h => h
    rintro st ⟨c2, slots⟩ ⟨h2, -⟩
    rw [Prog.twp_bind]
    refine Prog.twp_mono (hlast st.fixedFlags (by decide) c2 slots h2.owns) ?_ fun _ _ h => h
    rintro - ⟨c3, slots3⟩ ⟨ho3, h3⟩
    rw [Prog.twp_bind]
    refine Prog.twp_mono (hlast st.uboxFlags (by decide) c3 slots3 ho3) ?_ fun _ _ h => h
    rintro - ⟨c4, slots4⟩ ⟨-, h4⟩
    exact (h4.trans h3).trans h2.values
  obtain ⟨mask', ⟨c', slots'⟩, hdone, hvalues⟩ := Prog.exists_done hrun
  exact ⟨c', ⟨mask', slots', hdone⟩, hvalues⟩

/-- **The configurations of all router events are in effect** exactly if no two events of the set
get in each other's way. -/
theorem rboxInEffect_iff {es : List PerfmonEventSetEntry} {rest : List Slot}
    (ho : OwnsSocket M cpu c) (htyped : ∀ e ∈ es, e.Typed M)
    (hdef : ∀ e ∈ es, e.type = .pmc → OffcoreDefined e.event) :
    RboxInEffect M thread cpu mask rest c es ↔ RboxApart mask es := by
  obtain ⟨c1, hclear, ho1⟩ := nexSetupClear_done hs ho mask (haveLock M c cpu)
  have hrun : ∀ es' : List PerfmonEventSetEntry, es'.Perm es →
      ∃ c', SetUpNehalemEX M thread cpu mask rest c es' c' ∧
        rboxValues cpu c' = store (es'.filterMap (rboxWrite mask)) (rboxValues cpu c1) :=
    fun es' hp => setUpNehalemEX_values hM hs rest (fun e he => htyped e (hp.mem_iff.mp he))
      (fun e he => hdef e (hp.mem_iff.mp he)) hclear ho1
  -- the set-up has one result
  have hunique : ∀ {es' : List PerfmonEventSetEntry} {c2 c3 : Core},
      SetUpNehalemEX M thread cpu mask rest c es' c2 →
      SetUpNehalemEX M thread cpu mask rest c es' c3 → c2 = c3 := by
    rintro es' c2 c3 ⟨_, _, h2⟩ ⟨_, _, h3⟩
    have heq := h2.symm.trans h3
    cases heq
    rfl
  rw [← agree_iff]
  constructor
  · rintro ⟨c', hset, -, horder⟩
    refine (store_perm_iff (rboxValues cpu c1)).mp fun es' hp => ?_
    obtain ⟨c2, hset2, hvalues2⟩ := hrun es (List.Perm.refl es)
    obtain ⟨c3, hset3, hvalues3⟩ := hrun es' hp
    obtain ⟨c4, hset4, hsame⟩ := horder es' hp
    rw [← hvalues2, ← hvalues3, hunique hset3 hset4, hunique hset2 hset]
    exact funext hsame
  · intro hagree
    obtain ⟨c', hset, hvalues⟩ := hrun es (List.Perm.refl es)
    refine ⟨c', hset, subEventsInEffect hagree fun k => congrFun hvalues k, fun es' hp => ?_⟩
    obtain ⟨c2, hset2, hvalues2⟩ := hrun es' hp
    refine ⟨c2, hset2, fun k => ?_⟩
    have hsame := hagree.store_perm (rboxValues cpu c1) (hp.filterMap (rboxWrite mask))
    exact congrFun (hvalues2.trans (hsame.trans hvalues.symm)) k

end Run

/-! ## Two events on one box -/

/-- A Nehalem EX on which every access succeeds -/
def nehalemEXMachine : Machine :=
  { haswellMachine with
    toTables := nehalemEXTables
    model := 0x2E
    hasRAPL := false }

theorem serves_nehalemEXMachine : Serves nehalemEXMachine 0 msrDev :=
  ⟨by decide, fun _ _ => rfl, fun _ _ _ => rfl⟩

/-- `GLOBAL_ARB_BID` on a counter of the first router box -/
def arbEntry (index : RegisterIndex) (umask : BitVec 8) : PerfmonEventSetEntry where
  event := { name := "GLOBAL_ARB_BID", limit := "RBOX0", eventId := 0x01, umask := umask,
             cfgBits := 0x02 }
  index := index
  type := .rbox0
  threadCounter := fun _ => PerfmonCounter.fresh

/-- Two ports -/
theorem rboxInEffect_ports :
    RboxInEffect nehalemEXMachine 0 0 (regTypeMaskOf .rbox0) [] ownerCore
      [arbEntry 27 0x02, arbEntry 28 0x08] := by
  have hes : ∀ P : PerfmonEventSetEntry → Prop, P (arbEntry 27 0x02) → P (arbEntry 28 0x08) →
      ∀ e ∈ [arbEntry 27 0x02, arbEntry 28 0x08], P e := by
    intro P h h' e he
    rcases List.mem_cons.mp he with rfl | he
    · exact h
    · rw [List.mem_singleton.mp he]
      exact h'
  refine (rboxInEffect_iff rfl serves_nehalemEXMachine ⟨by decide, by decide⟩
    (hes _ (by decide) (by decide)) (hes _ nofun nofun)).mpr ⟨?_, ?_⟩
  · exact hes _ (fun _ _ _ _ _ hid => absurd hid (by decide))
      fun _ _ _ _ _ hid => absurd hid (by decide)
  · intro e he e' he' number _ _ _ _ port sub sub' hport hport'
    have hsub : ∀ {umask : BitVec 8} {p : Fin 4} {q : Fin 4 × Fin 2}, rboxQlx umask = some (p, 0) →
        rboxQlx umask = some q → q = (p, 0) :=
      fun h h' => Option.some.inj (h'.symm.trans h)
    refine Or.inl ?_
    rcases List.mem_cons.mp he with rfl | he
    · cases hsub (p := 0) rfl hport
      rcases List.mem_cons.mp he' with rfl | he'
      · cases hsub (p := 0) rfl hport'
        exact ⟨rfl, rfl⟩
      · rw [List.mem_singleton.mp he'] at hport'
        cases hsub (p := 1) rfl hport'
    · rw [List.mem_singleton.mp he] at hport ⊢
      cases hsub (p := 1) rfl hport
      rcases List.mem_cons.mp he' with rfl | he'
      · cases hsub (p := 0) rfl hport'
      · rw [List.mem_singleton.mp he'] at hport' ⊢
        cases hsub (p := 1) rfl hport'
        exact ⟨rfl, rfl⟩

/-- The two sub-counters of one port -/
theorem not_rboxInEffect_port :
    ¬RboxInEffect nehalemEXMachine 0 0 (regTypeMaskOf .rbox0) [] ownerCore
      [arbEntry 27 0x02, arbEntry 28 0x03] := by
  rintro ⟨c', ⟨mask', slots', hrun⟩, heff, -⟩
  have hconfig : field64 (c'.regs 0 msrDev (nexWexRboxRegs 0 .qlx 0)) 0 8 = 0x02 :=
    heff.qlx0 (arbEntry 27 0x02) List.mem_cons_self 0 ⟨by decide, rfl⟩ rfl 0 rfl
  have hlost : ((perfmonSetupCounterThreadNehalemEX nehalemEXMachine 0 0 (regTypeMaskOf .rbox0)
      2).result? (ownerCore, [some (arbEntry 27 0x02), some (arbEntry 28 0x03)])).map
      (fun r => field64 (r.2.1.regs 0 msrDev (nexWexRboxRegs 0 .qlx 0)) 0 8) = some 0 := by
    decide +kernel
  have hresult : (perfmonSetupCounterThreadNehalemEX nehalemEXMachine 0 0 (regTypeMaskOf .rbox0)
      2).result? (ownerCore, [some (arbEntry 27 0x02), some (arbEntry 28 0x03)]) =
      some (mask', (c', slots')) := Prog.result?_eq_some.mpr hrun
  rw [hresult] at hlost
  exact absurd (hconfig.symm.trans (Option.some.inj hlost)) (by decide)

end Likwid
