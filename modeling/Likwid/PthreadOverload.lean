import Likwid.AccessDaemon
import Likwid.Lib.Prog
import Likwid.Lib.Text
import Mathlib.Data.List.Rotate

/-!
# Pinning threads (`pthread-overload.c`)

The wrapper of `pthread_create` pins the threads it creates to the CPUs of
`LIKWID_PIN`, one after the other. The counter goes back to zero one step too
late: after the last CPU of the list a thread is pinned to the entry behind it,
which is CPU 0, and the list starts over from there (`pinnedAround_iff`).
-/

namespace Likwid

open Text

/-! ## The wrapper -/

/-- The static variables of `pthread_create`, and the CPU the process itself is
pinned to. -/
structure PthreadWrapper where
  npinned : ℕ := 0
  ncalled : ℕ := 0
  overflow : ℕ := 0
  pinIds : ℕ → ℕ := fun _ => 0
  ncpus : ℕ := 0
  main : Option ℕ := none

abbrev WrapperProg (α : Type) : Type := Prog Unit PthreadWrapper α

/-- `pin_ids[i++] = strtoul(token, &token, 10)`, where `i` is `ncpus` -/
def addPinId (token : List Char) : WrapperProg Unit := do
  let w ← Prog.get
  Prog.when (maxNumThreads ≤ w.ncpus) (Prog.halt .outOfBounds)
  Prog.modify fun w =>
    { w with
      pinIds := fun i => if i = w.ncpus then readNat token else w.pinIds i
      ncpus := w.ncpus + 1 }

/-- On first entry: the tokens of `LIKWID_PIN`. -/
def readPin (pinString : List Char) : WrapperProg Unit := do
  (tokens (· == ',') pinString).foldlM (fun _ token => addPinId token) ()
  let w ← Prog.get
  Prog.when (w.ncpus = 0) (Prog.halt .outOfBounds)
  Prog.modify fun w => { w with main := some (w.pinIds (w.ncpus - 1)), overflow := w.ncpus }

/-- Pin the thread created. -/
def pinThread : WrapperProg ℕ := do
  let w ← Prog.get
  Prog.when (maxNumThreads ≤ w.npinned) (Prog.halt .outOfBounds)
  Prog.modify fun w =>
    { w with npinned := if w.npinned = w.overflow then 0 else w.npinned + 1 }
  return w.pinIds w.npinned

/-- `(ncalled<64) && (skipMask&(1ULL<<(ncalled)))` -/
def skipped (skipMask : Word) (ncalled : ℕ) : Bool := ncalled < 64 && skipMask.getLsbD ncalled

/-- The thread is created, or not: then `ret` is not zero. -/
def afterCreation (skipMask : Word) (ret : Int) : WrapperProg (List ℕ) := do
  let w ← Prog.get
  let cpus ← if ret = 0 ∧ skipped skipMask w.ncalled = false then do
      let cpu ← pinThread
      pure [cpu]
    else pure []
  Prog.modify fun w => { w with ncalled := w.ncalled + 1 }
  return cpus

/-- `pthread_create`, where `ret` is what the function of the library returns: the
CPU of the new thread, if it is pinned. -/
def pthreadCreate (pinString : List Char) (skipMask : Word) (ret : Int) :
    WrapperProg (List ℕ) := do
  let w ← Prog.get
  Prog.when (w.ncalled = 0) (readPin pinString)
  afterCreation skipMask ret

/-- Calls one after the other: the CPUs of the threads pinned, in order. -/
def createThreads (pinString : List Char) (skipMask : Word) : List Int → WrapperProg (List ℕ)
  | [] => pure []
  | ret :: rets => do
      let cpus ← pthreadCreate pinString skipMask ret
      let cpus' ← createThreads pinString skipMask rets
      return cpus ++ cpus'

/-- The value of `LIKWID_PIN`. -/
def pinString (pin : List ℕ) : List Char := join ',' (pin.map decimal)

/-- How many of the calls, from call number `ncalled` on, pin a thread. -/
def pinCount (skipMask : Word) : ℕ → List Int → ℕ
  | _, [] => 0
  | ncalled, ret :: rets =>
      (if ret = 0 ∧ skipped skipMask ncalled = false then 1 else 0) +
        pinCount skipMask (ncalled + 1) rets

/-- **The pinning**: the threads are pinned to the CPUs of the list one after the
other and around again, and the process to the last of them. -/
def PinnedAround (pin : List ℕ) (skipMask : Word) (rets : List Int) : Prop :=
  ∃ w cpus, createThreads (pinString pin) skipMask rets {} = .done cpus w ∧
    cpus.length = pinCount skipMask 0 rets ∧
    (∀ k < cpus.length, cpus[k]? = pin[k % pin.length]?) ∧
    (rets ≠ [] → w.main = pin.getLast?)

/-! ## The environment -/

theorem tokens_pinString (pin : List ℕ) : tokens (· == ',') (pinString pin) = pin.map decimal := by
  refine tokens_join (fun w hw => ?_) rfl
  obtain ⟨cpu, _, rfl⟩ := List.mem_map.mp hw
  refine ⟨fun c hc => ?_, decimal_ne_nil cpu⟩
  have hdigit := isDigit_of_mem_decimal hc
  by_contra hsep
  have hcomma : c = ',' := by simpa using hsep
  subst hcomma
  exact absurd hdigit (by decide)

/-- An entry of `pin_ids`; those behind the list are zero. -/
def pinAt (pin : List ℕ) (i : ℕ) : ℕ := pin[i]?.getD 0

/-- The wrapper after it has read these CPUs. -/
def PthreadWrapper.reading (pin : List ℕ) : PthreadWrapper where
  pinIds := pinAt pin
  ncpus := pin.length

theorem pinAt_concat (pin : List ℕ) (cpu i : ℕ) :
    pinAt (pin ++ [cpu]) i = if i = pin.length then cpu else pinAt pin i := by
  unfold pinAt
  rcases lt_trichotomy i pin.length with hlt | rfl | hgt
  · rw [List.getElem?_append_left hlt, if_neg hlt.ne]
  · simp
  · rw [List.getElem?_eq_none (by simp; omega), List.getElem?_eq_none hgt.le, if_neg hgt.ne']

theorem addPinId_reading {pin : List ℕ} (cpu : ℕ) (h : pin.length < maxNumThreads) :
    addPinId (decimal cpu) (.reading pin) = .done () (.reading (pin ++ [cpu])) := by
  have hroom : ¬maxNumThreads ≤ (PthreadWrapper.reading pin).ncpus := Nat.not_le.mpr h
  have hreading : PthreadWrapper.reading (pin ++ [cpu]) =
      { pinIds := fun i => if i = pin.length then cpu else pinAt pin i
        ncpus := pin.length + 1 } := by
    simp [PthreadWrapper.reading, funext_iff, pinAt_concat]
  unfold addPinId
  rw [Prog.bind_of_done (Prog.get_apply _), Prog.when_of_neg hroom, Prog.bind_pure_left,
    Prog.modify_apply, readNat_decimal, hreading]
  rfl

/-- The tokens are stored as long as there is room. -/
theorem addPinIds_reading (pin rest : List ℕ) :
    (rest.map decimal).foldlM (fun _ token => addPinId token) () (PthreadWrapper.reading pin) =
      if rest = [] ∨ pin.length + rest.length ≤ maxNumThreads then
        .done () (.reading (pin ++ rest))
      else .halt .outOfBounds := by
  induction rest generalizing pin with
  | nil => simp; rfl
  | cons cpu rest ih =>
      rw [List.map_cons, List.foldlM_cons]
      by_cases hroom : pin.length < maxNumThreads
      · rw [Prog.bind_of_done (addPinId_reading cpu hroom), ih]
        by_cases hlast : rest = []
        · subst hlast
          have hle : pin.length + 1 ≤ maxNumThreads := hroom
          simp [hle]
        · simp [hlast, Nat.add_assoc, Nat.add_comm 1]
      · have hfull : addPinId (decimal cpu) (.reading pin) = .halt .outOfBounds := by
          have hge : maxNumThreads ≤ (PthreadWrapper.reading pin).ncpus := Nat.le_of_not_lt hroom
          unfold addPinId
          rw [Prog.bind_of_done (Prog.get_apply _), Prog.when_of_pos hge]
          rfl
        rw [Prog.bind_of_halt hfull, if_neg (by simp; omega)]

/-- The wrapper that has read the list, after `k` threads pinned in `ncalled` calls. -/
def PthreadWrapper.after (pin : List ℕ) (k ncalled : ℕ) : PthreadWrapper where
  npinned := k % (pin.length + 1)
  ncalled := ncalled
  overflow := pin.length
  pinIds := pinAt pin
  ncpus := pin.length
  main := pin.getLast?

theorem some_pinAt_last {pin : List ℕ} (hne : pin ≠ []) :
    some (pinAt pin (pin.length - 1)) = pin.getLast? := by
  have hlast : pin.length - 1 < pin.length :=
    Nat.sub_lt (List.length_pos_iff.mpr hne) Nat.one_pos
  rw [List.getLast?_eq_getElem?, pinAt, List.getElem?_eq_getElem hlast, Option.getD_some]

theorem readPin_eq {pin : List ℕ} (hne : pin ≠ []) :
    readPin (pinString pin) {} =
      if pin.length ≤ maxNumThreads then .done () (.after pin 0 0) else .halt .outOfBounds := by
  have hadd := addPinIds_reading [] pin
  have hblank : PthreadWrapper.reading [] = {} := by
    simp [PthreadWrapper.reading, funext_iff, pinAt]
  rw [hblank] at hadd
  unfold readPin
  rw [tokens_pinString]
  split
  · next hle =>
      rw [if_pos (by simp [hle])] at hadd
      rw [Prog.bind_of_done hadd, Prog.bind_of_done (Prog.get_apply _), List.nil_append,
        Prog.when_of_neg (by simpa [PthreadWrapper.reading] using hne), Prog.bind_pure_left,
        Prog.modify_apply]
      simp only [PthreadWrapper.reading, PthreadWrapper.after, some_pinAt_last hne, Nat.zero_mod]
  · next hgt =>
      rw [if_neg (by simp [hne, hgt])] at hadd
      exact Prog.bind_of_halt hadd

/-! ## The threads pinned -/

variable {pin : List ℕ} {skipMask : Word} {str : List Char} {ret : Int} {rets : List Int}
  {k ncalled : ℕ} {w : PthreadWrapper}

/-- Where the counter goes: one step too far before it is zero again. -/
theorem npinned_succ (n k : ℕ) :
    (k + 1) % (n + 1) = if k % (n + 1) = n then 0 else k % (n + 1) + 1 := by
  have hlt : k % (n + 1) < n + 1 := Nat.mod_lt _ n.succ_pos
  rcases Nat.eq_zero_or_pos n with rfl | hpos
  · rw [if_pos (Nat.mod_one k)]
    exact Nat.mod_one _
  · have hone : 1 % (n + 1) = 1 := Nat.mod_eq_of_lt (Nat.succ_lt_succ hpos)
    rw [Nat.add_mod_eq_ite, hone]
    split_ifs <;> omega

theorem pinThread_after :
    pinThread (.after pin k ncalled) =
      if k % (pin.length + 1) < maxNumThreads then
        .done (pinAt pin (k % (pin.length + 1))) (.after pin (k + 1) ncalled)
      else .halt .outOfBounds := by
  unfold pinThread
  rw [Prog.bind_of_done (Prog.get_apply _)]
  split
  · next hlt =>
      have hroom : ¬maxNumThreads ≤ (PthreadWrapper.after pin k ncalled).npinned :=
        Nat.not_le.mpr hlt
      rw [Prog.when_of_neg hroom, Prog.bind_pure_left]
      simp only [PthreadWrapper.after, npinned_succ]
      rfl
  · next hge =>
      have hfull : maxNumThreads ≤ (PthreadWrapper.after pin k ncalled).npinned :=
        Nat.not_lt.mp hge
      rw [Prog.when_of_pos hfull]
      rfl

/-- The CPUs of `m` threads pinned from the `k`-th on. -/
def pinnedCpus (pin : List ℕ) (k m : ℕ) : List ℕ :=
  (List.range m).map fun j => pinAt pin ((k + j) % (pin.length + 1))

theorem pinnedCpus_succ (pin : List ℕ) (k m : ℕ) :
    pinnedCpus pin k (m + 1) = pinAt pin (k % (pin.length + 1)) :: pinnedCpus pin (k + 1) m := by
  simp [pinnedCpus, List.range_succ_eq_map, Function.comp_def, Nat.add_comm, Nat.add_left_comm]

/-- No thread of `m` from the `k`-th on makes the wrapper read behind `pin_ids`. -/
def InRange (pin : List ℕ) (k m : ℕ) : Prop :=
  ∀ j < m, (k + j) % (pin.length + 1) < maxNumThreads

instance instDecidableInRange (m : ℕ) : Decidable (InRange pin k m) :=
  inferInstanceAs (Decidable (∀ j < m, (k + j) % (pin.length + 1) < maxNumThreads))

theorem InRange.succ_iff (m : ℕ) :
    InRange pin k (m + 1) ↔ k % (pin.length + 1) < maxNumThreads ∧ InRange pin (k + 1) m := by
  unfold InRange
  rw [Nat.forall_lt_succ_left]
  simp only [Nat.add_zero, Nat.add_assoc, Nat.add_comm 1]

theorem afterCreation_after :
    afterCreation skipMask ret (.after pin k ncalled) =
      if ret = 0 ∧ skipped skipMask ncalled = false then
        if k % (pin.length + 1) < maxNumThreads then
          .done [pinAt pin (k % (pin.length + 1))] (.after pin (k + 1) (ncalled + 1))
        else .halt .outOfBounds
      else .done [] (.after pin k (ncalled + 1)) := by
  unfold afterCreation
  rw [Prog.bind_of_done (Prog.get_apply _)]
  change (ite (ret = 0 ∧ skipped skipMask ncalled = false) _ _ : WrapperProg (List ℕ)) _ = _
  by_cases hpin : ret = 0 ∧ skipped skipMask ncalled = false
  · rw [if_pos hpin, if_pos hpin]
    split
    · next hlt =>
        have hthread : pinThread (.after pin k ncalled) = _ := pinThread_after.trans (if_pos hlt)
        rw [Prog.bind_of_done hthread]
        rfl
    · next hge =>
        exact Prog.bind_of_halt (pinThread_after.trans (if_neg hge))
  · rw [if_neg hpin, if_neg hpin]
    rfl

/-- After the first call the list is not read again. -/
theorem pthreadCreate_after (hcalled : ncalled ≠ 0) :
    pthreadCreate str skipMask ret (.after pin k ncalled) =
      afterCreation skipMask ret (.after pin k ncalled) := by
  have hnot : ¬(PthreadWrapper.after pin k ncalled).ncalled = 0 := hcalled
  unfold pthreadCreate
  rw [Prog.bind_of_done (Prog.get_apply _), Prog.when_of_neg hnot, Prog.bind_pure_left]

theorem pthreadCreate_first (hne : pin ≠ []) (skipMask : Word) (ret : Int) :
    pthreadCreate (pinString pin) skipMask ret {} =
      if pin.length ≤ maxNumThreads then afterCreation skipMask ret (.after pin 0 0)
      else .halt .outOfBounds := by
  have hzero : ({} : PthreadWrapper).ncalled = 0 := rfl
  unfold pthreadCreate
  rw [Prog.bind_of_done (Prog.get_apply _), Prog.when_of_pos hzero]
  split
  · next hle =>
      exact Prog.bind_of_done ((readPin_eq hne).trans (if_pos hle))
  · next hgt =>
      exact Prog.bind_of_halt ((readPin_eq hne).trans (if_neg hgt))

/-- How the calls end that pin `m` threads from the `k`-th on. -/
def pinnedRun (pin : List ℕ) (k m calls : ℕ) : Prog.Outcome Unit PthreadWrapper (List ℕ) :=
  if InRange pin k m then .done (pinnedCpus pin k m) (.after pin (k + m) calls)
  else .halt .outOfBounds

theorem createThreads_cons
    (hcreate : pthreadCreate str skipMask ret w =
      afterCreation skipMask ret (.after pin k ncalled))
    (hrest : ∀ k, createThreads str skipMask rets (.after pin k (ncalled + 1)) =
      pinnedRun pin k (pinCount skipMask (ncalled + 1) rets) (ncalled + 1 + rets.length)) :
    createThreads str skipMask (ret :: rets) w =
      pinnedRun pin k (pinCount skipMask ncalled (ret :: rets))
        (ncalled + (ret :: rets).length) := by
  have hcalls : ncalled + (ret :: rets).length = ncalled + 1 + rets.length := by
    rw [List.length_cons, Nat.add_comm rets.length, Nat.add_assoc]
  rw [hcalls, createThreads, pinCount]
  by_cases hpin : ret = 0 ∧ skipped skipMask ncalled = false
  · rw [if_pos hpin, Nat.add_comm 1]
    by_cases hlt : k % (pin.length + 1) < maxNumThreads
    · have hdone := hcreate.trans (afterCreation_after.trans ((if_pos hpin).trans (if_pos hlt)))
      have hrest := hrest (k + 1)
      rw [Prog.bind_of_done hdone]
      by_cases hin : InRange pin (k + 1) (pinCount skipMask (ncalled + 1) rets)
      · have hin' := (InRange.succ_iff _).mpr ⟨hlt, hin⟩
        rw [pinnedRun, if_pos hin] at hrest
        rw [Prog.bind_of_done hrest, pinnedRun, if_pos hin', pinnedCpus_succ, ← Nat.add_assoc,
          Nat.add_right_comm k]
        rfl
      · have hin' := mt (InRange.succ_iff _).mp fun h => hin h.2
        rw [pinnedRun, if_neg hin] at hrest
        rw [Prog.bind_of_halt hrest, pinnedRun, if_neg hin']
    · have hhalt := hcreate.trans (afterCreation_after.trans ((if_pos hpin).trans (if_neg hlt)))
      have hin' := mt (InRange.succ_iff (pinCount skipMask (ncalled + 1) rets)).mp fun h => hlt h.1
      rw [Prog.bind_of_halt hhalt, pinnedRun, if_neg hin']
  · have hdone := hcreate.trans (afterCreation_after.trans (if_neg hpin))
    rw [if_neg hpin, Nat.zero_add, Prog.bind_of_done hdone, Prog.bind_apply, hrest k, pinnedRun]
    by_cases hin : InRange pin k (pinCount skipMask (ncalled + 1) rets)
    · rw [if_pos hin]
      rfl
    · rw [if_neg hin]

theorem createThreads_after (hcalled : ncalled ≠ 0) :
    createThreads str skipMask rets (.after pin k ncalled) =
      pinnedRun pin k (pinCount skipMask ncalled rets) (ncalled + rets.length) := by
  induction rets generalizing k ncalled with
  | nil =>
      have hin : InRange pin k 0 := nofun
      rw [pinCount, pinnedRun, if_pos hin]
      rfl
  | cons ret rets ih =>
      exact createThreads_cons (pthreadCreate_after hcalled) fun _ => ih ncalled.succ_ne_zero

theorem createThreads_first (hne : pin ≠ []) (skipMask : Word) (ret : Int) (rets : List Int) :
    createThreads (pinString pin) skipMask (ret :: rets) {} =
      if pin.length ≤ maxNumThreads then
        pinnedRun pin 0 (pinCount skipMask 0 (ret :: rets)) (ret :: rets).length
      else .halt .outOfBounds := by
  split
  · next hle =>
      have hcreate := (pthreadCreate_first hne skipMask ret).trans (if_pos hle)
      rw [createThreads_cons hcreate fun _ => createThreads_after (Nat.succ_ne_zero 0),
        Nat.zero_add]
  · next hgt =>
      have hcreate := (pthreadCreate_first hne skipMask ret).trans (if_neg hgt)
      exact Prog.bind_of_halt hcreate

/-! ## Around the list -/

theorem inRange_zero_iff {m : ℕ} (hfits : pin.length ≤ maxNumThreads) :
    InRange pin 0 m ↔ m ≤ pin.length ∨ pin.length < maxNumThreads := by
  constructor
  · intro hin
    by_contra hnot
    obtain ⟨hmore, hfull⟩ := not_or.mp hnot
    have hlast := hin pin.length (Nat.not_le.mp hmore)
    rw [Nat.zero_add, Nat.mod_eq_of_lt (Nat.lt_succ_self _)] at hlast
    exact hfull hlast
  · intro h j hj
    rw [Nat.zero_add]
    rcases h with hle | hlt
    · exact (Nat.mod_le _ _).trans_lt (hj.trans_le (hle.trans hfits))
    · exact (Nat.mod_lt _ pin.length.succ_pos).trans_le hlt

/-- Behind the end of the list the wrapper is one entry late. -/
theorem behind_mod {n j : ℕ} (hj : j < n) :
    (n + j) % n = j ∧ (n + (j + 1)) % (n + 1) = j := by
  constructor
  · rw [Nat.add_mod_left, Nat.mod_eq_of_lt hj]
  · have hsum : n + (j + 1) = n + 1 + j := by omega
    rw [hsum, Nat.add_mod_left, Nat.mod_eq_of_lt (hj.trans (Nat.lt_succ_self n))]

theorem cyclic_iff (hne : pin ≠ []) (m : ℕ) :
    (∀ k < m, pinAt pin (k % (pin.length + 1)) = pinAt pin (k % pin.length)) ↔
      ∀ j < min (m - pin.length) pin.length, pinAt pin j = 0 := by
  have hpos : 0 < pin.length := List.length_pos_iff.mpr hne
  have hbehind : pinAt pin pin.length = 0 := by simp [pinAt]
  constructor
  · intro h j hj
    obtain ⟨hm, hn⟩ := Nat.lt_min.mp hj
    clear hj
    induction j with
    | zero =>
        have hk := h pin.length (Nat.lt_of_sub_pos hm)
        rw [Nat.mod_eq_of_lt (Nat.lt_succ_self _), Nat.mod_self, hbehind] at hk
        exact hk.symm
    | succ j ih =>
        have hjn : j < pin.length := (Nat.lt_succ_self j).trans hn
        have hjm : j < m - pin.length := (Nat.lt_succ_self j).trans hm
        have hk := h (pin.length + (j + 1)) (by omega)
        rw [(behind_mod hjn).2, (behind_mod hn).1] at hk
        rw [← hk]
        exact ih hjm hjn
  · intro h k hk
    rcases Nat.lt_or_ge k pin.length with hlt | hge
    · rw [Nat.mod_eq_of_lt hlt, Nat.mod_eq_of_lt (hlt.trans (Nat.lt_succ_self _))]
    · -- either every entry is zero, or `k` is less than twice around
      rcases Nat.lt_or_ge (m - pin.length) pin.length with htwice | hmany
      · obtain ⟨j, rfl⟩ := Nat.exists_eq_add_of_le hge
        have hj : j < m - pin.length := by omega
        have hzero : ∀ i ≤ j, pinAt pin i = 0 := fun i hi =>
          h i (Nat.lt_min.mpr ⟨hi.trans_lt hj, (hi.trans_lt hj).trans htwice⟩)
        rw [(behind_mod (hj.trans htwice)).1, hzero j le_rfl]
        cases j with
        | zero => rwa [Nat.add_zero, Nat.mod_eq_of_lt (Nat.lt_succ_self _)]
        | succ j =>
            have hjn : j < pin.length := (Nat.lt_succ_self j).trans (hj.trans htwice)
            rw [(behind_mod hjn).2, hzero j (Nat.le_succ j)]
      · have hzero : ∀ i, pinAt pin i = 0 := by
          intro i
          rcases Nat.lt_or_ge i pin.length with hi | hi
          · exact h i (Nat.lt_min.mpr ⟨hi.trans_le hmany, hi⟩)
          · simp [pinAt, hi]
        rw [hzero, hzero]

theorem pinAt_eq_zero_iff {j : ℕ} (hj : j < pin.length) : pinAt pin j = 0 ↔ pin[j]? = some 0 := by
  simp [pinAt, hj]

theorem some_pinAt {j : ℕ} (hj : j < pin.length) : some (pinAt pin j) = pin[j]? := by
  simp [pinAt, hj]

theorem length_pinnedCpus (pin : List ℕ) (k m : ℕ) : (pinnedCpus pin k m).length = m := by
  simp [pinnedCpus]

/-- Pinned cyclically, as the entries behind the list have it. -/
theorem pinnedCpus_cyclic_iff (hne : pin ≠ []) (m : ℕ) :
    (∀ k < m, (pinnedCpus pin 0 m)[k]? = pin[k % pin.length]?) ↔
      ∀ j < min (m - pin.length) pin.length, pin[j]? = some 0 := by
  have hpos : 0 < pin.length := List.length_pos_iff.mpr hne
  have hcpus : (∀ k < m, (pinnedCpus pin 0 m)[k]? = pin[k % pin.length]?) ↔
      ∀ k < m, pinAt pin (k % (pin.length + 1)) = pinAt pin (k % pin.length) := by
    refine forall₂_congr fun k hk => ?_
    rw [← some_pinAt (Nat.mod_lt k hpos)]
    simp [pinnedCpus, hk]
  rw [hcpus, cyclic_iff hne]
  exact forall₂_congr fun j hj => pinAt_eq_zero_iff (Nat.lt_min.mp hj).2

/-- The threads are pinned around the list exactly if the list fits into `pin_ids`
and no thread is pinned behind its last CPU, or CPU 0 is meant there anyway. -/
theorem pinnedAround_iff (hne : pin ≠ []) (skipMask : Word) (rets : List Int) :
    PinnedAround pin skipMask rets ↔
      rets = [] ∨ pin.length ≤ maxNumThreads ∧
        (pinCount skipMask 0 rets ≤ pin.length ∨
          pin.length < maxNumThreads ∧
            ∀ j < min (pinCount skipMask 0 rets - pin.length) pin.length, pin[j]? = some 0) := by
  cases rets with
  | nil =>
      have hrun : createThreads (pinString pin) skipMask [] {} = .done [] {} := rfl
      exact iff_of_true ⟨{}, [], hrun, rfl, nofun, fun h => absurd rfl h⟩ (.inl rfl)
  | cons ret rets =>
      have hrun := createThreads_first hne skipMask ret rets
      unfold PinnedAround
      generalize pinCount skipMask 0 (ret :: rets) = m at hrun ⊢
      constructor
      · rintro ⟨w, cpus, hdone, _, haround, _⟩
        rw [hrun] at hdone
        by_cases hfits : pin.length ≤ maxNumThreads
        · rw [if_pos hfits, pinnedRun] at hdone
          by_cases hin : InRange pin 0 m
          · rw [if_pos hin] at hdone
            obtain ⟨rfl, _⟩ := Prog.Outcome.done.inj hdone
            rw [length_pinnedCpus] at haround
            have hzero := (pinnedCpus_cyclic_iff hne m).mp haround
            rcases (inRange_zero_iff hfits).mp hin with hle | hlt
            · exact .inr ⟨hfits, .inl hle⟩
            · exact .inr ⟨hfits, .inr ⟨hlt, hzero⟩⟩
          · rw [if_neg hin] at hdone
            cases hdone
        · rw [if_neg hfits] at hdone
          cases hdone
      · rintro (hnil | ⟨hfits, hpinned⟩)
        · cases hnil
        · have hin : InRange pin 0 m := (inRange_zero_iff hfits).mpr (hpinned.imp_right And.left)
          have hzero : ∀ j < min (m - pin.length) pin.length, pin[j]? = some 0 := by
            rcases hpinned with hle | ⟨_, hzero⟩
            · rw [Nat.sub_eq_zero_of_le hle, Nat.zero_min]
              exact nofun
            · exact hzero
          rw [if_pos hfits, pinnedRun, if_pos hin] at hrun
          have hlen := length_pinnedCpus pin 0 m
          refine ⟨_, _, hrun, hlen, ?_, fun _ => rfl⟩
          rw [hlen]
          exact (pinnedCpus_cyclic_iff hne m).mpr hzero

/-- `likwid-pin -c 1,2`, and one thread more than CPUs. -/
theorem pinnedAround_failing : ¬PinnedAround [2, 1] 0#64 [0, 0, 0] := by
  rintro ⟨w, cpus, hdone, _, haround, _⟩
  have hrun : ∃ w, createThreads (pinString [2, 1]) 0#64 [0, 0, 0] {} = .done [2, 1, 0] w :=
    ⟨_, rfl⟩
  obtain ⟨w', hrun⟩ := hrun
  obtain ⟨rfl, _⟩ := Prog.Outcome.done.inj (hrun.symm.trans hdone)
  exact absurd (haround 2 (by decide)) (by decide)

theorem pinnedAround_twoThreads : PinnedAround [2, 1] 0#64 [0, 0] :=
  (pinnedAround_iff (by decide) 0#64 [0, 0]).mpr (.inr ⟨by decide, .inl (by decide)⟩)

end Likwid
