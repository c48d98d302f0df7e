import Likwid.CpuString

/-!
# Blocks of CPUs

An expression `E:<domain>:<n>:<chunk>:<stride>` names `n` CPUs from blocks of `chunk`
consecutive entries of the domain, cut at its end; the blocks start at the positions 0,
`stride`, `2*stride`, …, and at 0 again behind the end. `cpustr_to_cpulist_expression` works
through whole blocks and looks at the count between two of them only.
-/

/-! ## Blocks of a list -/

namespace Blocks

variable {α : Type}

/-- Where a block starts, in a list of `size` entries -/
def start (size stride : ℕ) : ℕ → ℕ
  | 0 => 0
  | k + 1 => if size ≤ start size stride k + stride then 0 else start size stride k + stride

def block (xs : List α) (chunk stride k : ℕ) : List α :=
  (xs.drop (start xs.length stride k)).take chunk

/-- The first `k` blocks, one after the other -/
def blocks (xs : List α) (chunk stride k : ℕ) : List α :=
  (List.range k).flatMap (block xs chunk stride)

variable {xs : List α} {size chunk stride k m : ℕ}

theorem start_lt (stride k : ℕ) (h : 0 < size) : start size stride k < size := by
  induction k with
  | zero => exact h
  | succ k ih =>
      unfold start
      split
      · exact h
      · omega

theorem length_block :
    (block xs chunk stride k).length = min chunk (xs.length - start xs.length stride k) := by
  rw [block, List.length_take, List.length_drop]

theorem blocks_succ :
    blocks xs chunk stride (k + 1) = blocks xs chunk stride k ++ block xs chunk stride k := by
  rw [blocks, List.range_succ, List.flatMap_append, List.flatMap_singleton]
  rfl

theorem length_blocks_succ (xs : List α) (chunk stride k : ℕ) :
    (blocks xs chunk stride (k + 1)).length =
    (blocks xs chunk stride k).length + (block xs chunk stride k).length := by
  rw [blocks_succ, List.length_append]

theorem length_blocks_lt (stride k : ℕ) (hxs : 0 < xs.length) (hchunk : 0 < chunk) :
    (blocks xs chunk stride k).length < (blocks xs chunk stride (k + 1)).length := by
  have hstart := start_lt stride k hxs
  rw [length_blocks_succ, length_block]
  omega

theorem blocks_eq_append (xs : List α) (chunk stride : ℕ) (h : k ≤ m) :
    ∃ rest, blocks xs chunk stride m = blocks xs chunk stride k ++ rest := by
  induction m with
  | zero =>
      rw [Nat.le_zero.mp h]
      exact ⟨[], (List.append_nil _).symm⟩
  | succ m ih =>
      rcases Nat.lt_or_eq_of_le h with hlt | rfl
      · obtain ⟨rest, hrest⟩ := ih (Nat.le_of_lt_succ hlt)
        refine ⟨rest ++ block xs chunk stride m, ?_⟩
        rw [blocks_succ, hrest, List.append_assoc]
      · exact ⟨[], (List.append_nil _).symm⟩

theorem length_blocks_le (xs : List α) (chunk stride : ℕ) (h : k ≤ m) :
    (blocks xs chunk stride k).length ≤ (blocks xs chunk stride m).length := by
  obtain ⟨rest, hrest⟩ := blocks_eq_append xs chunk stride h
  rw [hrest, List.length_append]
  exact Nat.le_add_right ..

theorem le_length_blocks (hxs : 0 < xs.length) (hchunk : 0 < chunk) :
    k ≤ (blocks xs chunk stride k).length := by
  induction k with
  | zero => exact Nat.zero_le _
  | succ k ih => exact Nat.lt_of_le_of_lt ih (length_blocks_lt stride k hxs hchunk)

/-- The first entries do not depend on how many blocks are looked at. -/
theorem take_blocks {n : ℕ} (h : n ≤ (blocks xs chunk stride k).length)
    (h' : n ≤ (blocks xs chunk stride m).length) :
    (blocks xs chunk stride k).take n = (blocks xs chunk stride m).take n := by
  rcases Nat.le_total k m with hle | hle
  · obtain ⟨rest, hrest⟩ := blocks_eq_append xs chunk stride hle
    rw [hrest, List.take_append_of_le_length h]
  · obtain ⟨rest, hrest⟩ := blocks_eq_append xs chunk stride hle
    rw [hrest, List.take_append_of_le_length h']

end Blocks

namespace Likwid

/-! ## The parser -/

/-- The list of a domain -/
def AffinityDomain.cells (domain : AffinityDomain) : List CpuCell :=
  (List.range domain.numberOfProcessors).map domain.processorList

@[simp] theorem AffinityDomain.length_cells (domain : AffinityDomain) :
    domain.cells.length = domain.numberOfProcessors := by simp [cells]

/-- The fields of an expression: its domain, `n`, `chunk` and `stride` -/
inductive ExpressionFields (bcpustr : List Char) : List Char → ℕ → ℕ → ℕ → Prop
  | short {e bdomain count : List Char} {n : ℕ} (h : bcpustr.splitOn ':' = [e, bdomain, count])
      (hn : Scan.atoi count = n) : ExpressionFields bcpustr bdomain n 1 1
  | long {e bdomain count chunk stride : List Char} {n c s : ℕ}
      (h : bcpustr.splitOn ':' = [e, bdomain, count, chunk, stride])
      (hn : Scan.atoi count = n) (hc : Scan.atoi chunk = c) (hs : Scan.atoi stride = s) :
      ExpressionFields bcpustr bdomain n c s

section Expression

variable {aff : List AffinityDomain} {domain : AffinityDomain} {bdomain : List Char}
  {n chunk stride length k : ℕ}

theorem chunkCells_eq (offset : ℕ) :
    chunkCells domain chunk offset = (domain.cells.drop offset).take chunk := by
  refine List.ext_getElem ?_ fun j hj hj' => ?_
  · simp [chunkCells]
  · simp [chunkCells, AffinityDomain.cells]

theorem nextOffset_eq (hsize : domain.numberOfProcessors ≤ 2 ^ 31) (hstride : stride < 2 ^ 31)
    {offset : ℕ} (hoffset : offset < domain.numberOfProcessors) :
    nextOffset domain stride offset =
      if domain.numberOfProcessors ≤ offset + stride then 0 else offset + stride := by
  have hsum : toUInt32 ((offset : Int) + (stride : Int)) = offset + stride := by
    unfold toUInt32
    omega
  rw [nextOffset, hsum]

/-- One round of the parser, with room for a whole block -/
theorem expressionRound_run (hprocessors : 0 < domain.numberOfProcessors)
    (hsize : domain.numberOfProcessors ≤ 2 ^ 31) (hstride : stride < 2 ^ 31)
    (hroom : (Blocks.blocks domain.cells chunk stride (k + 1)).length < length) :
    expressionRound domain length n chunk stride (Blocks.start domain.numberOfProcessors stride k)
        (Blocks.blocks domain.cells chunk stride k) =
      if (Blocks.blocks domain.cells chunk stride (k + 1)).length < n then
        .done (Blocks.start domain.numberOfProcessors stride (k + 1))
          (Blocks.blocks domain.cells chunk stride (k + 1))
      else .ret () (Blocks.blocks domain.cells chunk stride (k + 1)) := by
  have hcells : chunkCells domain chunk (Blocks.start domain.numberOfProcessors stride k) =
      Blocks.block domain.cells chunk stride k := by
    rw [chunkCells_eq, Blocks.block, AffinityDomain.length_cells]
  have hlen := Blocks.length_blocks_succ domain.cells chunk stride k
  have hinsert := insertCpus_done (Or.inr
    (show (Blocks.blocks domain.cells chunk stride k).length +
      (Blocks.block domain.cells chunk stride k).length < length by omega))
  rw [← Blocks.blocks_succ] at hinsert
  rw [expressionRound, hcells, Prog.bind_of_done hinsert, Prog.bind_of_done (Prog.get_apply _),
    nextOffset_eq hsize hstride (Blocks.start_lt stride k hprocessors)]
  by_cases hless : (Blocks.blocks domain.cells chunk stride (k + 1)).length < n
  · rw [if_pos hless, Prog.when_of_neg (by omega)]
    rfl
  · rw [if_neg hless, Prog.when_of_pos (by omega)]
    rfl

theorem expressionRound_full
    (hlt : (Blocks.blocks domain.cells chunk stride k).length < length)
    (hfull : length ≤ (Blocks.blocks domain.cells chunk stride (k + 1)).length) :
    expressionRound domain length n chunk stride (Blocks.start domain.numberOfProcessors stride k)
        (Blocks.blocks domain.cells chunk stride k) =
      .ret () ((Blocks.blocks domain.cells chunk stride (k + 1)).take length) := by
  have hcells : chunkCells domain chunk (Blocks.start domain.numberOfProcessors stride k) =
      Blocks.block domain.cells chunk stride k := by
    rw [chunkCells_eq, Blocks.block, AffinityDomain.length_cells]
  have hlen := Blocks.length_blocks_succ domain.cells chunk stride k
  have hall : (Blocks.blocks domain.cells chunk stride k).take length =
      Blocks.blocks domain.cells chunk stride k := List.take_of_length_le hlt.le
  rw [expressionRound, hcells,
    Prog.bind_of_ret (insertCpus_full hlt (by omega)), Blocks.blocks_succ, List.take_append, hall]

/-- The rounds of the parser work through whole blocks, until the list is full or at least `n`
CPUs are in it. -/
theorem expressionRounds_run {α : Type} (rounds : List α)
    (hprocessors : 0 < domain.numberOfProcessors) (hsize : domain.numberOfProcessors ≤ 2 ^ 31)
    (hchunk : 0 < chunk) (hstride : stride < 2 ^ 31)
    (hlt : (Blocks.blocks domain.cells chunk stride k).length < min n length)
    (hrounds : min n length ≤ (Blocks.blocks domain.cells chunk stride k).length + rounds.length) :
    ∃ r, (Blocks.blocks domain.cells chunk stride r).length < min n length ∧
      min n length ≤ (Blocks.blocks domain.cells chunk stride (r + 1)).length ∧
      rounds.foldlM (fun offset _ => expressionRound domain length n chunk stride offset)
        (Blocks.start domain.numberOfProcessors stride k)
        (Blocks.blocks domain.cells chunk stride k) =
          .ret () ((Blocks.blocks domain.cells chunk stride (r + 1)).take length) := by
  induction rounds generalizing k with
  | nil =>
      rw [List.length_nil] at hrounds
      omega
  | cons round rounds ih =>
      rw [List.length_cons] at hrounds
      have hmore := Blocks.length_blocks_lt stride k
        (show 0 < domain.cells.length by rwa [AffinityDomain.length_cells]) hchunk
      rw [List.foldlM_cons]
      rcases Nat.lt_or_ge (Blocks.blocks domain.cells chunk stride (k + 1)).length length with
        hroom | hfull
      · have hround := expressionRound_run (n := n) hprocessors hsize hstride hroom
        by_cases hless : (Blocks.blocks domain.cells chunk stride (k + 1)).length < n
        · rw [if_pos hless] at hround
          rw [Prog.bind_of_done hround]
          exact ih (by omega) (by omega)
        · rw [if_neg hless] at hround
          refine ⟨k, hlt, by omega, ?_⟩
          rw [Prog.bind_of_ret hround, List.take_of_length_le hroom.le]
      · refine ⟨k, hlt, by omega, ?_⟩
        exact Prog.bind_of_ret (expressionRound_full (by omega) hfull)

/-- The parser names whole blocks, cut at the end of the list. -/
theorem expression_run {bcpustr : List Char} (hhead : bcpustr.head? = some 'E')
    (hfields : ExpressionFields bcpustr bdomain n chunk stride)
    (hfind : aff.find? (·.tag = bdomain) = some domain)
    (hprocessors : 0 < domain.numberOfProcessors) (hsize : domain.numberOfProcessors ≤ 2 ^ 31)
    (hn : 0 < n) (hchunk : 0 < chunk) (hlength : 0 < length) :
    ∃ r, (Blocks.blocks domain.cells chunk stride r).length < min n length ∧
      min n length ≤ (Blocks.blocks domain.cells chunk stride (r + 1)).length ∧
      cpustrToCpulistExpression aff bcpustr length =
        .ok ((Blocks.blocks domain.cells chunk stride (r + 1)).take length) := by
  have hstride : stride < 2 ^ 31 := by
    cases hfields with
    | short => decide
    | long hsplit hn hc hs =>
        have hlt : (stride : Int) < 2 ^ 31 := hs ▸ Scan.atoi_lt _
        omega
  obtain ⟨r, hlt, hle, hrun⟩ := expressionRounds_run (k := 0) (List.range n) hprocessors hsize
    hchunk hstride (Nat.lt_min.mpr ⟨hn, hlength⟩) (by
      rw [List.length_range]
      exact (Nat.min_le_left ..).trans (Nat.le_add_left ..))
  have hcpus : expressionCpus aff bdomain n chunk stride length =
      .ok ((Blocks.blocks domain.cells chunk stride (r + 1)).take length) := by
    have hrun' : Prog.forRange (Int.toNat n)
        (fun offset _ => expressionRound domain length n chunk stride offset) 0 [] =
          .ret () ((Blocks.blocks domain.cells chunk stride (r + 1)).take length) := hrun
    simp only [expressionCpus, hfind, hrun']
  refine ⟨r, hlt, hle, ?_⟩
  rw [cpustrToCpulistExpression, if_neg (not_not.mpr hhead)]
  cases hfields with
  | short hsplit hn => simpa only [hsplit, hn, Int.natCast_one] using hcpus
  | long hsplit hn hc hs => simpa only [hsplit, hn, hc, hs] using hcpus

/-- An expression names the first `n` CPUs of its blocks exactly if the list holds no more, or some
number of blocks holds exactly `n`. -/
theorem expression_iff {bcpustr : List Char} (hhead : bcpustr.head? = some 'E')
    (hfields : ExpressionFields bcpustr bdomain n chunk stride)
    (hfind : aff.find? (·.tag = bdomain) = some domain)
    (hprocessors : 0 < domain.numberOfProcessors) (hsize : domain.numberOfProcessors ≤ 2 ^ 31)
    (hn : 0 < n) (hchunk : 0 < chunk) (hlength : 0 < length) :
    cpustrToCpulistExpression aff bcpustr length =
        .ok ((Blocks.blocks domain.cells chunk stride n).take (min n length)) ↔
      length ≤ n ∨ ∃ k, (Blocks.blocks domain.cells chunk stride k).length = n := by
  obtain ⟨r, hlt, hle, hrun⟩ :=
    expression_run hhead hfields hfind hprocessors hsize hn hchunk hlength
  have hall : n ≤ (Blocks.blocks domain.cells chunk stride n).length :=
    Blocks.le_length_blocks (by rwa [AffinityDomain.length_cells]) hchunk
  rw [hrun]
  constructor
  · intro heq
    have hlen := congrArg List.length (Except.ok.inj heq)
    rw [List.length_take, List.length_take] at hlen
    rcases Nat.lt_or_ge n length with hroom | hroom
    · exact Or.inr ⟨r + 1, by omega⟩
    · exact Or.inl hroom
  · intro hcases
    refine congrArg _ ?_
    rcases Nat.lt_or_ge n length with hroom | hroom
    · obtain ⟨k, hk⟩ := hcases.resolve_left (by omega)
      have hrk : r + 1 ≤ k := by
        by_contra hnot
        have hmono := Blocks.length_blocks_le domain.cells chunk stride (show k ≤ r by omega)
        omega
      have hmono := Blocks.length_blocks_le domain.cells chunk stride hrk
      have hexact : (Blocks.blocks domain.cells chunk stride (r + 1)).length = n := by omega
      rw [Nat.min_eq_left hroom.le, List.take_of_length_le (by omega),
        ← Blocks.take_blocks (Nat.le_of_eq hexact.symm) hall, List.take_of_length_le hexact.le]
    · rw [Nat.min_eq_right hroom] at hle ⊢
      exact Blocks.take_blocks hle (hroom.trans hall)

/-- A machine with six hardware threads -/
def sixCpus : AffinityDomain where
  tag := ['N']
  numberOfProcessors := 6
  numberOfCores := 3
  size := 6
  processorList := fun p => some p

/-- `E:N:4:2:4` names 0 and 1, 4 and 5. -/
theorem expression_twoBlocks :
    cpustrToCpulistExpression [sixCpus] "E:N:4:2:4".toList 8 =
      .ok [some 0, some 1, some 4, some 5] := by
  have hfields : ExpressionFields "E:N:4:2:4".toList ['N'] 4 2 4 :=
    .long (show _ = [['E'], ['N'], ['4'], ['2'], ['4']] by decide) (by decide) (by decide)
      (by decide)
  have hiff : _ = Except.ok ((Blocks.blocks sixCpus.cells 2 4 4).take (min 4 8)) ↔ _ :=
    expression_iff (by decide) hfields (show [sixCpus].find? _ = some sixCpus from rfl)
      (by decide) (by decide) (by decide) (by decide) (by decide)
  exact hiff.mpr (Or.inr ⟨2, by decide⟩)

/-- `E:N:3:2:2` names four CPUs: the second block is not cut after its first one. -/
theorem not_expression_partialBlock :
    cpustrToCpulistExpression [sixCpus] "E:N:3:2:2".toList 8 =
        .ok [some 0, some 1, some 2, some 3] ∧
      (Blocks.blocks sixCpus.cells 2 2 3).take (min 3 8) = [some 0, some 1, some 2] := by
  decide +kernel

end Expression

end Likwid
