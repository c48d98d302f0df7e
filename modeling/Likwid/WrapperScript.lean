import Likwid.Lib.Shell
import Mathlib.Data.List.Nodup
import Mathlib.Data.List.Range

/-!
# The wrapper script of `likwid-mpirun`

`writeWrapperScript` writes a shell script that every process of the job runs. The script finds out
which process of its node it is (`LOCALRANK`) and runs the command with the cpu expression of this
number. OpenMPI tells the number; otherwise the script computes it from the global rank, and for the
processes of a last node that is not full it is too large by one (`numbersProcesses_iff`).
-/

namespace Likwid

open Shell

/-! ## The script -/

inductive MpiType where
  | openmpi
  | intelmpi
  | mvapich2
deriving DecidableEq, Repr

/-- What `writeWrapperScript` uses -/
structure Wrapper where
  mpitype : MpiType
  np : ℕ
  ppn : ℕ
  cpuexprs : List String
  perf : List String := []
  perfexprs : List (List String) := []
  useMarker : Bool := false
  force : Bool := false
  skipStr : String := ""
  likwidPin : String := "likwid-pin"
  likwidPerfctr : String := "likwid-perfctr"
  execStr : String
  outputname : String := "/output.csv"
  pwd : String := "/"

namespace Wrapper

variable (W : Wrapper)

def output : String :=
  if W.outputname.startsWith "/" then W.outputname else W.pwd ++ "/" ++ W.outputname

/-- `commands[i]` -/
def command (i : ℕ) (cpuexpr : String) : String :=
  " ".intercalate
    ((if W.perf ≠ [] then W.likwidPerfctr :: if W.useMarker then ["-m"] else []
      else [W.likwidPin, "-q"]) ++
    (if W.force ∧ W.perf ≠ [] then ["-f"] else []) ++
    [W.skipStr, if W.perf ≠ [] then "-C" else "-c", cpuexpr] ++
    (if W.perf ≠ [] then
      (W.perfexprs.flatMap fun expr => "-g" :: expr[i]?.toList) ++ ["-o", W.output]
    else []) ++
    [W.execStr])

def commands : List String := W.cpuexprs.mapIdx W.command

/-- The processes on full nodes -/
def full : ℕ := W.np - W.np % W.ppn

def globalSize : Shell.Word :=
  match W.mpitype with
  | .openmpi => .var "OMPI_COMM_WORLD_SIZE"
  | _ => .num W.np

def globalRank : Shell.Word :=
  match W.mpitype with
  | .openmpi => .orElse "OMPI_COMM_WORLD_RANK" (.mul (.var "GLOBALSIZE") (.num 2))
  | _ => .orElse "PMI_RANK" (.mul (.var "GLOBALSIZE") (.num 2))

def localSize : Shell.Word :=
  match W.mpitype with
  | .openmpi => .var "OMPI_COMM_WORLD_LOCAL_SIZE"
  | _ => .num W.ppn

def setLocalRank : Stmt :=
  match W.mpitype with
  | .openmpi => .assign "LOCALRANK" (.var "OMPI_COMM_WORLD_LOCAL_RANK")
  | _ =>
      .branch (.lt "GLOBALRANK" W.full)
        (.assign "LOCALRANK" (.arith (.mod (.var "GLOBALRANK") (.var "LOCALSIZE"))))
        (.assign "LOCALRANK"
          (.arith (.sub (.var "GLOBALRANK") (.paren (.sub (.num W.full) (.num 1))))))

def unsetLines : List String :=
  "unset OMP_NUM_THREADS" ::
    if W.mpitype = .intelmpi then ["export I_MPI_PIN=disable"] else []

def loadLines : List String :=
  let likwid := if W.perf ≠ [] then W.likwidPerfctr else W.likwidPin
  ["", "which " ++ "`basename " ++ likwid ++ "` 1>/dev/null 2>&1", "if [ $? -eq 1 ]; then",
    "\tmodule load likwid 1>/dev/null 2>&1", "fi", ""]

/-- The variables that the script sets -/
def setVariables : Stmt :=
  .seq (.assign "GLOBALSIZE" W.globalSize)
    (.seq (.assign "GLOBALRANK" W.globalRank)
      (.seq (.other W.unsetLines)
        (.seq (.assign "LOCALSIZE" W.localSize)
          (.seq (.other [""]) W.setLocalRank))))

/-- Without a cpu expression there is no first command: `writeWrapperScript` ends in an error. -/
def script : Option Stmt :=
  match W.commands with
  | [] => none
  | command :: commands =>
      some (.seq W.setVariables (.seq (.other W.loadLines)
        (chain "LOCALRANK" 0 (.run command) (commands.map .run)
          (.echo "Unknown local rank $LOCALRANK"))))

/-! ## The processes -/

/-- With `ppn` processes on a node, one node after the other, the node of a process -/
def nodeOf (r : ℕ) : ℕ := r / W.ppn

def processesOf (node : ℕ) : List ℕ := (List.range W.np).filter (W.nodeOf · = node)

/-- What the launcher sets for a process. OpenMPI counts the processes of its node before it. -/
def environment (r : ℕ) : Env := fun x =>
  match W.mpitype with
  | .openmpi =>
      if x = "OMPI_COMM_WORLD_SIZE" then some W.np
      else if x = "OMPI_COMM_WORLD_RANK" then some r
      else if x = "OMPI_COMM_WORLD_LOCAL_SIZE" then some (W.processesOf (W.nodeOf r)).length
      else if x = "OMPI_COMM_WORLD_LOCAL_RANK" then
        some ((W.processesOf (W.nodeOf r)).countP (· < r))
      else none
  | _ => if x = "PMI_RANK" then some r else none

/-- The value of `LOCALRANK` in a process -/
def localRank (script : Stmt) (r : ℕ) : Option ℤ := (script.exec (W.environment r)).1 "LOCALRANK"

/-- The processes of each node have the numbers from 0 on, and each runs the command of its cpu
expression. -/
structure NumbersProcesses (script : Stmt) : Prop where
  numbers : ∀ node, ((W.processesOf node).map (W.localRank script)).Perm
    ((List.range (W.processesOf node).length).map fun i : ℕ => some (i : ℤ))
  matched : ∀ r < W.np, ∃ i, ∃ h : i < W.commands.length,
    W.localRank script r = some (i : ℤ) ∧
      (script.exec (W.environment r)).2 = [.run W.commands[i]]

/-- The nodes are full, or the launcher counts, and there is a cpu expression for every process. -/
structure Fits : Prop where
  exprs : W.cpuexprs ≠ []
  enough : min W.np W.ppn ≤ W.cpuexprs.length
  tail : W.mpitype = .openmpi ∨ W.ppn ∣ W.np

/-! ## What the script computes -/

/-- The number that the script gives a process -/
def computed (r : ℕ) : ℕ :=
  match W.mpitype with
  | .openmpi => (W.processesOf (W.nodeOf r)).countP (· < r)
  | _ => if r < W.full then r % W.ppn else r + 1 - W.full

section Exec

variable {W} {r : ℕ} {script : Stmt}

/-- The lines for a launcher that tells the global rank only -/
theorem exec_rankLines {env : Env} (full size : ℕ) (hrank : env "GLOBALRANK" = some (r : ℤ))
    (hsize : env "LOCALSIZE" = some (size : ℤ)) (hpos : 0 < size) :
    ((Stmt.branch (.lt "GLOBALRANK" full)
        (.assign "LOCALRANK" (.arith (.mod (.var "GLOBALRANK") (.var "LOCALSIZE"))))
        (.assign "LOCALRANK" (.arith (.sub (.var "GLOBALRANK")
          (.paren (.sub (.num full) (.num 1))))))).exec env) =
      (env.set "LOCALRANK"
        (some (if r < full then r % size else r + 1 - full : ℕ)), []) := by
  by_cases hr : r < full
  · have htest : (Test.lt "GLOBALRANK" full).holds env = true := by simp [Test.holds, hrank, hr]
    have hmod : (Arith.mod (.var "GLOBALRANK") (.var "LOCALSIZE")).eval env =
        some ((r % size : ℕ) : ℤ) := by
      simp only [Arith.eval, hrank, hsize]
      simp [Nat.ne_of_gt hpos, Int.tmod_eq_emod_of_nonneg]
    rw [exec_branch_of_true htest, exec_assign, Shell.Word.eval, hmod, if_pos hr]
  · have htest : (Test.lt "GLOBALRANK" full).holds env = false := by
      simp [Test.holds, hrank]
      omega
    have hsub : (Arith.sub (.var "GLOBALRANK") (.paren (.sub (.num full) (.num 1)))).eval env =
        some ((r + 1 - full : ℕ) : ℤ) := by
      simp only [Arith.eval, hrank]
      show some ((r : ℤ) - (full - 1)) = _
      congr 1
      omega
    rw [exec_branch_of_false htest, exec_assign, Shell.Word.eval, hsub, if_neg hr]

theorem exec_setVariables (hppn : 0 < W.ppn) (r : ℕ) :
    (W.setVariables.exec (W.environment r)).1 "LOCALRANK" = some (W.computed r : ℤ) ∧
      (W.setVariables.exec (W.environment r)).2 = [] := by
  unfold setVariables setLocalRank computed globalSize globalRank localSize environment
  cases W.mpitype with
  | openmpi =>
      constructor
      · simp [Shell.Word.eval, Env.set]
      · simp
  | intelmpi =>
      simp only [exec_seq, exec_assign, exec_other]
      rw [exec_rankLines (r := r) W.full W.ppn (by simp [Env.set, Shell.Word.eval])
        (by simp [Env.set, Shell.Word.eval]) hppn]
      exact ⟨by simp, rfl⟩
  | mvapich2 =>
      simp only [exec_seq, exec_assign, exec_other]
      rw [exec_rankLines (r := r) W.full W.ppn (by simp [Env.set, Shell.Word.eval])
        (by simp [Env.set, Shell.Word.eval]) hppn]
      exact ⟨by simp, rfl⟩

theorem length_commands : W.commands.length = W.cpuexprs.length := List.length_mapIdx

/-- **What the script does in a process** -/
theorem exec_script (hppn : 0 < W.ppn) (hscript : W.script = some script) (r : ℕ) :
    W.localRank script r = some (W.computed r : ℤ) ∧
      (script.exec (W.environment r)).2 =
        [(W.commands[W.computed r]?).elim (.echo "Unknown local rank $LOCALRANK") .run] := by
  obtain ⟨hrank, hnone⟩ := exec_setVariables hppn r
  unfold Wrapper.script at hscript
  split at hscript
  · cases hscript
  · next command commands hcommands =>
      obtain rfl := Option.some.inj hscript
      have hzero : (0 : ℤ) + (W.computed r : ℕ) = (W.computed r : ℤ) := Int.zero_add _
      have hchain : (chain "LOCALRANK" 0 (.run command) (commands.map .run)
          (.echo "Unknown local rank $LOCALRANK")).exec
            (W.setVariables.exec (W.environment r)).1 = _ :=
        exec_chain (hrank.trans (congrArg some hzero.symm))
      have hbranch : (((.run command :: commands.map Stmt.run)[W.computed r]?).getD
          (.echo "Unknown local rank $LOCALRANK")) =
          (W.commands[W.computed r]?).elim (.echo "Unknown local rank $LOCALRANK") .run := by
        rw [hcommands, ← List.map_cons, List.getElem?_map]
        cases (command :: commands)[W.computed r]? <;> rfl
      rw [hbranch] at hchain
      unfold localRank
      simp only [exec_seq, exec_other, hnone, List.nil_append, hchain]
      cases W.commands[W.computed r]? with
      | none => exact ⟨hrank, rfl⟩
      | some c => exact ⟨hrank, rfl⟩

/-! ## The processes of a node -/

theorem mem_processesOf {node : ℕ} :
    r ∈ W.processesOf node ↔ r < W.np ∧ r / W.ppn = node := by
  rw [processesOf, List.mem_filter, List.mem_range, decide_eq_true_eq]
  rfl

/-- The processes of a node stand one behind the other. -/
theorem processesOf_perm (hppn : 0 < W.ppn) (node : ℕ) :
    (W.processesOf node).Perm
      ((List.range (min W.ppn (W.np - node * W.ppn))).map (node * W.ppn + ·)) := by
  refine (List.perm_ext_iff_of_nodup (List.nodup_range.filter _)
    (List.Nodup.map (fun i j h => Nat.add_left_cancel h) List.nodup_range)).mpr fun r => ?_
  show r ∈ W.processesOf node ↔ _
  rw [mem_processesOf, List.mem_map]
  constructor
  · rintro ⟨hr, rfl⟩
    have hmod := Nat.mod_lt r hppn
    have hdiv := Nat.div_add_mod' r W.ppn
    exact ⟨r % W.ppn, List.mem_range.mpr (by omega), hdiv⟩
  · rintro ⟨i, hi, rfl⟩
    have hlt := List.mem_range.mp hi
    refine ⟨by omega, ?_⟩
    rw [Nat.mul_comm, Nat.mul_add_div hppn, Nat.div_eq_of_lt (by omega), Nat.add_zero]

theorem countP_range (k j : ℕ) : (List.range k).countP (· < j) = min k j := by
  induction k with
  | zero => simp
  | succ k ih =>
      rw [List.range_succ, List.countP_append, ih]
      by_cases hk : k < j
      · rw [List.countP_cons_of_pos (by simpa using hk), List.countP_nil]
        omega
      · rw [List.countP_cons_of_neg (by simpa using hk), List.countP_nil]
        omega

theorem countP_processesOf (hppn : 0 < W.ppn) (hr : r < W.np) :
    (W.processesOf (W.nodeOf r)).countP (· < r) = r % W.ppn := by
  have hmod := Nat.mod_lt r hppn
  have hdiv := Nat.div_add_mod' r W.ppn
  have hsame : ∀ i, (node : ℕ) → node = r / W.ppn →
      (node * W.ppn + i < r ↔ i < r % W.ppn) := by
    rintro i _ rfl
    omega
  rw [(processesOf_perm hppn _).countP_eq, List.countP_map]
  have hpred : ((fun x => decide (x < r)) ∘ (W.nodeOf r * W.ppn + ·)) =
      fun i => decide (i < r % W.ppn) := by
    funext i
    exact decide_eq_decide.mpr (hsame i _ rfl)
  rw [hpred, countP_range]
  unfold nodeOf
  omega

theorem computed_eq_mod (hppn : 0 < W.ppn) (hr : r < W.np)
    (htail : W.mpitype = .openmpi ∨ W.ppn ∣ W.np) : W.computed r = r % W.ppn := by
  have hfull : W.ppn ∣ W.np → r < W.full := by
    intro hdvd
    rw [full, Nat.mod_eq_zero_of_dvd hdvd, Nat.sub_zero]
    exact hr
  unfold computed
  cases hm : W.mpitype with
  | openmpi => exact countP_processesOf hppn hr
  | intelmpi =>
      rcases htail with h | hdvd
      · rw [hm] at h
        cases h
      · exact if_pos (hfull hdvd)
  | mvapich2 =>
      rcases htail with h | hdvd
      · rw [hm] at h
        cases h
      · exact if_pos (hfull hdvd)

/-- In the tail the numbers begin with one. -/
theorem computed_pos (hm : W.mpitype ≠ .openmpi) (hr : W.full ≤ r) : 0 < W.computed r := by
  unfold computed
  cases hm' : W.mpitype with
  | openmpi => exact absurd hm' hm
  | intelmpi =>
      show 0 < if _ then _ else _
      rw [if_neg (Nat.not_lt.mpr hr)]
      omega
  | mvapich2 =>
      show 0 < if _ then _ else _
      rw [if_neg (Nat.not_lt.mpr hr)]
      omega

theorem length_processesOf (hppn : 0 < W.ppn) (node : ℕ) :
    (W.processesOf node).length = min W.ppn (W.np - node * W.ppn) := by
  rw [(processesOf_perm hppn node).length_eq, List.length_map, List.length_range]

theorem script_isSome : (∃ script, W.script = some script) ↔ W.cpuexprs ≠ [] := by
  have hlen := W.length_commands
  unfold Wrapper.script
  cases hcommands : W.commands with
  | nil =>
      rw [hcommands, List.length_nil] at hlen
      have hnil := List.length_eq_zero_iff.mp hlen.symm
      simp [hnil]
  | cons command commands =>
      have hne : W.cpuexprs ≠ [] := by
        intro hnil
        rw [hcommands, hnil] at hlen
        cases hlen
      exact ⟨fun _ => hne, fun _ => ⟨_, rfl⟩⟩

/-- **The script numbers the processes just if the nodes are full or the launcher counts**, and
there are cpu expressions for all. -/
theorem numbersProcesses_iff (hppn : 0 < W.ppn) :
    (∃ script, W.script = some script ∧ W.NumbersProcesses script) ↔ W.Fits := by
  constructor
  · rintro ⟨script, hscript, hnumbers, hmatched⟩
    have hrank : ∀ r, W.localRank script r = some (W.computed r : ℤ) := fun r =>
      (exec_script hppn hscript r).1
    -- every number of a node belongs to one of its processes
    have hsurj : ∀ node i, i < min W.ppn (W.np - node * W.ppn) →
        ∃ r ∈ W.processesOf node, W.computed r = i := by
      intro node i hi
      rw [← length_processesOf hppn] at hi
      have hmem := (hnumbers node).mem_iff.mpr
        (List.mem_map_of_mem (List.mem_range.mpr hi))
      obtain ⟨r, hr, heq⟩ := List.mem_map.mp hmem
      rw [hrank r] at heq
      exact ⟨r, hr, Int.ofNat_inj.mp (Option.some.inj heq)⟩
    refine ⟨script_isSome.mp ⟨script, hscript⟩, ?_, ?_⟩
    · rcases Nat.eq_zero_or_pos W.np with hzero | hnp
      · rw [hzero, Nat.zero_min]
        exact Nat.zero_le _
      obtain ⟨r, hr, heq⟩ := hsurj 0 (min W.np W.ppn - 1) (by omega)
      obtain ⟨i, hi, hlocal, -⟩ := hmatched r (mem_processesOf.mp hr).1
      rw [hrank r] at hlocal
      have hi' : W.computed r = i := Int.ofNat_inj.mp (Option.some.inj hlocal)
      rw [length_commands] at hi
      omega
    · by_contra hno
      obtain ⟨hm, hdvd⟩ := not_or.mp hno
      have hpos : 0 < W.np % W.ppn := Nat.pos_of_ne_zero fun h => hdvd (Nat.dvd_of_mod_eq_zero h)
      have hdiv := Nat.div_add_mod' W.np W.ppn
      obtain ⟨r, hr, heq⟩ := hsurj (W.np / W.ppn) 0 (by omega)
      obtain ⟨-, hnode⟩ := mem_processesOf.mp hr
      have hdivr := Nat.div_add_mod' r W.ppn
      rw [hnode] at hdivr
      have hfull : W.full ≤ r := by
        unfold full
        omega
      exact absurd heq (Nat.ne_of_gt (computed_pos hm hfull))
  · rintro ⟨hexprs, henough, htail⟩
    obtain ⟨script, hscript⟩ := script_isSome.mpr hexprs
    have hrank : ∀ r < W.np, W.localRank script r = some ((r % W.ppn : ℕ) : ℤ) := by
      intro r hr
      rw [(exec_script hppn hscript r).1, computed_eq_mod hppn hr htail]
    refine ⟨script, hscript, fun node => ?_, fun r hr => ?_⟩
    · have hmap : (W.processesOf node).map (W.localRank script) =
          (W.processesOf node).map fun r => some ((r % W.ppn : ℕ) : ℤ) :=
        List.map_congr_left fun r hr => hrank r (mem_processesOf.mp hr).1
      have hmod : ((List.range (min W.ppn (W.np - node * W.ppn))).map (node * W.ppn + ·)).map
          (fun r => some ((r % W.ppn : ℕ) : ℤ)) =
          (List.range (min W.ppn (W.np - node * W.ppn))).map fun i : ℕ => some (i : ℤ) := by
        rw [List.map_map]
        refine List.map_congr_left fun i hi => ?_
        have hlt := List.mem_range.mp hi
        show some (((node * W.ppn + i) % W.ppn : ℕ) : ℤ) = _
        rw [Nat.mul_add_mod', Nat.mod_eq_of_lt (by omega)]
      rw [hmap, length_processesOf hppn, ← hmod]
      exact (processesOf_perm hppn node).map _
    · have hmod := Nat.mod_lt r hppn
      have hle := Nat.mod_le r W.ppn
      have hlt : r % W.ppn < W.commands.length := by
        rw [length_commands]
        omega
      refine ⟨r % W.ppn, hlt, hrank r hr, ?_⟩
      rw [(exec_script hppn hscript r).2, computed_eq_mod hppn hr htail,
        List.getElem?_eq_getElem hlt]
      rfl

end Exec

/-! ## Examples -/

/-- Three processes, two on a node -/
def threeProcesses (mpitype : MpiType) : Wrapper where
  mpitype := mpitype
  np := 3
  ppn := 2
  cpuexprs := ["S0:0", "S1:0"]
  execStr := "./a.out"

theorem numbersProcesses_openmpi :
    (∃ script, (threeProcesses .openmpi).script = some script ∧
      (threeProcesses .openmpi).NumbersProcesses script) ↔ (threeProcesses .openmpi).Fits :=
  numbersProcesses_iff (by decide)

/-- **The only process of the last node has the number 1.** -/
theorem not_numbersProcesses_intelmpi :
    ∃ script, (threeProcesses .intelmpi).script = some script ∧
      (threeProcesses .intelmpi).localRank script 2 = some 1 ∧
      (threeProcesses .intelmpi).processesOf 1 = [2] ∧
      ¬(threeProcesses .intelmpi).NumbersProcesses script := by
  have hlocal : ∀ script, (threeProcesses .intelmpi).script = some script →
      (threeProcesses .intelmpi).localRank script 2 = some 1 := by
    intro script hscript
    rw [(exec_script (by decide) hscript 2).1]
    rfl
  have hnode : (threeProcesses .intelmpi).processesOf 1 = [2] := by decide
  obtain ⟨script, hscript⟩ := script_isSome.mpr
    (show (threeProcesses .intelmpi).cpuexprs ≠ [] by decide)
  refine ⟨script, hscript, hlocal script hscript, hnode, fun h => ?_⟩
  have hperm := h.numbers 1
  rw [hnode, List.map_singleton, hlocal script hscript] at hperm
  exact absurd hperm (by decide)

end Wrapper

end Likwid
