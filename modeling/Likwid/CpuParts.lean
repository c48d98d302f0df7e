import Likwid.CpuExpressions

/-!
# The parts of a CPU string, one behind the other

`cpustr_to_cpulist` parses each part to a temporary array of `length` entries and appends what
it holds to the output. Each parser stops at a full array, unless the length is 0, but nothing stops
the appending: the writes stay in the output only if the parts name no more than `length` CPUs
together (`writesWithin_iff`).
-/

namespace Likwid

/-! ## What a part names -/

/-- How many CPUs a part names, and whether it comes to its end or to a step without a meaning -/
structure PartCpus where
  count : ℕ
  ends : Bool

namespace PartCpus

def andThen (p q : PartCpus) : PartCpus := if p.ends then ⟨p.count + q.count, q.ends⟩ else p

def all (ps : List PartCpus) : PartCpus := ps.foldr andThen ⟨0, true⟩

/-- The parser ends, at the latest with a full array. -/
def Ends (p : PartCpus) (length : ℕ) : Prop := p.ends = true ∨ 0 < length ∧ length ≤ p.count

/-- The CPUs that an array of `length` entries takes; one of length 0 is never found full. -/
def taken (p : PartCpus) (length : ℕ) : ℕ := if length = 0 then p.count else min p.count length

theorem andThen_nothing (p : PartCpus) : p.andThen ⟨0, true⟩ = p := by
  unfold andThen
  split
  · next h => rw [Nat.add_zero, ← h]
  · rfl

theorem all_ended {ε : Type} (es : List ε) (count : ε → ℕ) :
    all (es.map fun e => ⟨count e, true⟩) = ⟨(es.map count).sum, true⟩ := by
  induction es with
  | nil => rfl
  | cons e es ih =>
      show andThen ⟨count e, true⟩ (all (es.map fun e => ⟨count e, true⟩)) = _
      rw [ih, List.map_cons, List.sum_cons]
      rfl

end PartCpus

/-- The loop over a range has as many rounds as the range has numbers. -/
def rangeNumbers (a b : Int) : List Int :=
  if a ≤ b then (List.range (b - a + 1).toNat).map fun (k : ℕ) => a + k
  else (List.range (a - b + 1).toNat).map fun (k : ℕ) => a - k

/-- An entry of a list, where the number `j` names `cpus j` CPUs; a range has no end behind the last
`int`. -/
def entryCpus (cpus : Int → ℕ) (entry : List Char) : PartCpus :=
  if '-' ∈ entry then
    match entry.splitOn '-' with
    | a :: b :: _ =>
        ⟨((rangeNumbers (Scan.atoi a) (Scan.atoi b)).map cpus).sum,
          if Scan.atoi a ≤ Scan.atoi b then Scan.atoi b ≠ 2 ^ 31 - 1 else Scan.atoi b ≠ -2 ^ 31⟩
    | _ => ⟨0, false⟩
  else ⟨cpus (Scan.atoi entry), true⟩

def listCpus (cpus : Int → ℕ) (blist : List Char) : PartCpus :=
  .all ((blist.splitOn ',').map (entryCpus cpus))

/-- A domain adds a CPU to a turn if its sorted list fits the array for the first domain. -/
def turnPart (topo : CpuTopology) (first domain : AffinityDomain) : PartCpus :=
  if topo.numThreadsPerCore.toNat *
      (domain.numberOfProcessors / topo.numThreadsPerCore.toNat) ≤ first.numberOfProcessors then
    ⟨1, true⟩
  else ⟨0, false⟩

/-- A scatter expression: as many turns as the first domain has CPUs -/
def scatterCpus (topo : CpuTopology) (aff : List AffinityDomain) (bcpustr : List Char) : PartCpus :=
  if ':' ∈ bcpustr then
    match aff.filter fun domain => bcpustr.head?.any (· ∈ domain.tag) with
    | [] => ⟨0, false⟩
    | first :: rest =>
        .all (List.replicate first.numberOfProcessors
          (.all ((first :: rest).map (turnPart topo first))))
  else ⟨0, true⟩

/-- The CPUs of whole blocks from `offset` on, with `total` CPUs before, up to the block that
reaches `count` -/
def blocksTotal (domain : AffinityDomain) (count chunk stride : Int) : ℕ → ℕ → ℕ → ℕ
  | 0, _, total => total
  | rounds + 1, offset, total =>
      if count ≤ (total + min chunk.toNat (domain.numberOfProcessors - offset) : ℕ) then
        total + min chunk.toNat (domain.numberOfProcessors - offset)
      else
        blocksTotal domain count chunk stride rounds (nextOffset domain stride offset)
          (total + min chunk.toNat (domain.numberOfProcessors - offset))

def blocksCpus (aff : List AffinityDomain) (bdomain : List Char) (count chunk stride : Int) :
    PartCpus :=
  match aff.find? (·.tag = bdomain) with
  | none => ⟨0, true⟩
  | some domain =>
      ⟨if 0 < domain.numberOfProcessors ∧ 0 < count ∧ 0 < chunk then
        blocksTotal domain count chunk stride count.toNat 0 0 else 0, true⟩

def expressionPart (aff : List AffinityDomain) (bcpustr : List Char) : PartCpus :=
  if bcpustr.head? ≠ some 'E' then ⟨0, true⟩
  else
    match bcpustr.splitOn ':' with
    | [_, bdomain, count] => blocksCpus aff bdomain (Scan.atoi count) 1 1
    | [_, bdomain, count, chunk, stride] =>
        blocksCpus aff bdomain (Scan.atoi count) (Scan.atoi chunk) (Scan.atoi stride)
    | _ => ⟨0, false⟩

/-- A logical list names one CPU for each of its numbers. -/
def logicalPart (aff : List AffinityDomain) (bcpustr : List Char) : PartCpus :=
  if bcpustr.head? ≠ some 'L' then ⟨0, true⟩
  else
    match bcpustr.splitOn ':' with
    | [_, bdomain, blist] =>
        match aff.find? (·.tag = bdomain) with
        | none => ⟨0, true⟩
        | some _ => listCpus (fun _ => 1) blist
    | _ => ⟨0, true⟩

/-- A physical list names the members of the domain. -/
def physicalPart (aff : List AffinityDomain) (bcpustr : List Char) : PartCpus :=
  let (bdomain, blist) :=
    match bcpustr.splitOn ':' with
    | bdomain :: blist :: _ => (bdomain, blist)
    | _ => (['N'], bcpustr)
  match aff.find? (·.tag = bdomain) with
  | none => ⟨0, true⟩
  | some domain => listCpus (fun cpu => if cpuInDomain domain cpu then 1 else 0) blist

def partCpus (topo : CpuTopology) (aff : List AffinityDomain) (part : List Char) : PartCpus :=
  if scatterKeyword <:+: part then scatterCpus topo aff part
  else if part.head? = some 'E' then expressionPart aff part
  else if part.head? = some 'L' then logicalPart aff part
  else if topo.activeHWThreads.toNat < topo.numHWThreads.toNat then
    if IsTagged part then logicalPart aff ('L' :: ':' :: part)
    else logicalPart aff ('L' :: ':' :: 'N' :: ':' :: part)
  else if IsTagged part then logicalPart aff ('L' :: ':' :: part)
  else physicalPart aff part

/-! ## The parsers -/

/-- The routine inserts this many CPUs and then ends, or comes to a step without a meaning. -/
def Inserts {α : Type} (length : ℕ) (p : PartCpus) (m : Prog Unit (List CpuCell) α) : Prop :=
  ∃ cells k v, cells.length = p.count ∧
    m = insertCpus length cells >>= fun _ => if p.ends then pure v else Prog.halt k

/-- The parser returns what it inserts, cut where the array is full. -/
def Returns (length : ℕ) (p : PartCpus) (r : Except Prog.Halt (List CpuCell)) : Prop :=
  (p.Ends length ∧ ∃ l, r = .ok l ∧ l.length = p.taken length) ∨
    (¬p.Ends length ∧ ∃ k, r = .error k)

section Parsers

variable {α β : Type} {topo : CpuTopology} {aff : List AffinityDomain} {length : ℕ}
  {p q : PartCpus} {m : Prog Unit (List CpuCell) α} {f : α → Prog Unit (List CpuCell) β}

namespace Inserts

theorem pure (v : α) : Inserts length ⟨0, true⟩ (Pure.pure v : Prog Unit (List CpuCell) α) :=
  ⟨[], .undefined, v, rfl, rfl⟩

theorem one (cpu : CpuCell) : Inserts length ⟨1, true⟩ (insertCpu length cpu) := by
  refine ⟨[cpu], .undefined, (), rfl, ?_⟩
  show insertCpu length cpu = (insertCpu length cpu >>= fun _ => Pure.pure ()) >>= fun _ => _
  rw [Prog.bind_pure_right]
  exact (Prog.bind_pure_right _).symm

theorem halt (k : Prog.Halt) [Inhabited α] :
    Inserts length ⟨0, false⟩ (Prog.halt k : Prog Unit (List CpuCell) α) :=
  ⟨[], k, default, rfl, rfl⟩

theorem bind (hm : Inserts length p m) (hf : ∀ v, Inserts length q (f v)) [Inhabited β] :
    Inserts length (p.andThen q) (m >>= f) := by
  obtain ⟨cells, k, v, hlen, rfl⟩ := hm
  rw [Prog.bind_assoc]
  obtain ⟨count, ends⟩ := p
  cases ends with
  | false => exact ⟨cells, k, default, hlen, rfl⟩
  | true =>
      obtain ⟨cells', k', v', hlen', hf'⟩ := hf v
      refine ⟨cells ++ cells', k', v', ?_, ?_⟩
      · show (cells ++ cells').length = count + q.count
        rw [List.length_append, hlen, hlen']
      · rw [insertCpus_append, Prog.bind_assoc]
        show (insertCpus length cells >>= fun _ => f v) = _
        rw [hf']
        rfl

theorem foldlM {ε : Type} {es : List ε} {part : ε → PartCpus}
    {g : α → ε → Prog Unit (List CpuCell) α} [Inhabited α]
    (h : ∀ v, ∀ e ∈ es, Inserts length (part e) (g v e)) (v : α) :
    Inserts length (.all (es.map part)) (es.foldlM g v) := by
  induction es generalizing v with
  | nil => exact pure v
  | cons e es ih =>
      rw [List.foldlM_cons]
      exact (h v e List.mem_cons_self).bind
        fun v' => ih (fun v'' e' he' => h v'' e' (List.mem_cons_of_mem _ he')) v'

theorem returns {m : Prog Unit (List CpuCell) Unit} (h : Inserts length p m) :
    Returns length p (inserted m) := by
  obtain ⟨cells, k, v, hlen, rfl⟩ := h
  rcases Nat.lt_or_ge 0 length with hlength | hlength
  · rcases Nat.lt_or_ge cells.length length with hroom | hfull
    · have hrun : insertCpus length cells [] = .done () ([] ++ cells) :=
        insertCpus_done (Or.inr (by rwa [List.length_nil, Nat.zero_add]))
      rw [inserted, Prog.bind_of_done hrun]
      cases hends : p.ends with
      | true =>
          refine Or.inl ⟨Or.inl hends, cells, rfl, ?_⟩
          rw [PartCpus.taken, if_neg hlength.ne', hlen, Nat.min_eq_left (by omega)]
      | false =>
          refine Or.inr ⟨fun h => ?_, k, rfl⟩
          rcases h with h | h
          · rw [hends] at h
            cases h
          · omega
    · have hrun : insertCpus length cells [] = .ret () ([] ++ cells.take (length - 0)) :=
        insertCpus_full hlength (by rwa [List.length_nil, Nat.zero_add])
      rw [inserted, Prog.bind_of_ret hrun]
      refine Or.inl ⟨Or.inr ⟨hlength, hlen ▸ hfull⟩, _, rfl, ?_⟩
      rw [PartCpus.taken, if_neg hlength.ne', List.nil_append, List.length_take, Nat.sub_zero, hlen,
        Nat.min_comm]
  · obtain rfl := Nat.le_zero.mp hlength
    have hrun : insertCpus 0 cells [] = .done () ([] ++ cells) := insertCpus_done (Or.inl rfl)
    rw [inserted, Prog.bind_of_done hrun]
    cases hends : p.ends with
    | true => exact Or.inl ⟨Or.inl hends, cells, rfl, hlen⟩
    | false =>
        refine Or.inr ⟨fun h => ?_, k, rfl⟩
        rcases h with h | h
        · rw [hends] at h
          cases h
        · exact Nat.lt_irrefl 0 h.1

end Inserts

/-! ### Lists -/

section Lists

variable {body : Int → Prog Unit (List CpuCell) Unit} {cpus : Int → ℕ}

theorem forInts_inserts (h : ∀ j, Inserts length ⟨cpus j, true⟩ (body j)) (a b : Int) :
    Inserts length ⟨((rangeNumbers a b).map cpus).sum,
      if a ≤ b then b ≠ 2 ^ 31 - 1 else b ≠ -2 ^ 31⟩ (forInts a b body) := by
  have hloop : ∀ (n : ℕ) (number : ℕ → Int),
      Inserts length ⟨(((List.range n).map number).map cpus).sum, true⟩
        (Prog.forRange n (fun _ k => body (number k)) ()) := by
    intro n number
    have hrounds : Inserts length (.all ((List.range n).map fun k => ⟨cpus (number k), true⟩))
        (Prog.forRange n (fun _ k => body (number k)) ()) :=
      Inserts.foldlM (fun _ k _ => h (number k)) ()
    rwa [PartCpus.all_ended, ← Function.comp_def, ← List.map_map] at hrounds
  have hlast : ∀ c : Prop, ∀ [Decidable c], Inserts length ⟨0, ¬c⟩
      (Prog.when c (Prog.halt .undefined) : Prog Unit (List CpuCell) Unit) := by
    intro c _
    by_cases hc : c
    · rw [Prog.when_of_pos hc, decide_eq_false (not_not.mpr hc)]
      exact Inserts.halt _
    · rw [Prog.when_of_neg hc, decide_eq_true hc]
      exact Inserts.pure ()
  unfold forInts rangeNumbers
  split
  · exact (hloop _ _).bind fun _ => hlast _
  · exact (hloop _ _).bind fun _ => hlast _

theorem forEntries_inserts (h : ∀ j, Inserts length ⟨cpus j, true⟩ (body j)) (blist : List Char) :
    Inserts length (listCpus cpus blist) (forEntries blist body) := by
  refine Inserts.foldlM (fun _ entry _ => ?_) ()
  unfold entryCpus
  by_cases hrange : '-' ∈ entry
  · rw [if_pos hrange, if_pos hrange]
    rcases entry.splitOn '-' with _ | ⟨a, _ | ⟨b, rest⟩⟩
    · exact Inserts.halt _
    · exact Inserts.halt _
    · exact forInts_inserts h _ _
  · rw [if_neg hrange, if_neg hrange]
    exact h _

theorem logical_returns (topo : CpuTopology) (aff : List AffinityDomain) (bcpustr : List Char)
    (length : ℕ) : Returns length (logicalPart aff bcpustr)
      (cpustrToCpulistLogical topo aff bcpustr length) := by
  have hnothing : Returns length ⟨0, true⟩ (.ok []) := (Inserts.pure ()).returns
  unfold logicalPart cpustrToCpulistLogical
  split
  · exact hnothing
  · rcases bcpustr.splitOn ':' with _ | ⟨l, _ | ⟨bdomain, _ | ⟨blist, _ | ⟨field, rest⟩⟩⟩⟩
    · exact hnothing
    · exact hnothing
    · exact hnothing
    · dsimp only
      cases aff.find? (·.tag = bdomain) with
      | none => exact hnothing
      | some domain => exact (forEntries_inserts (fun _ => Inserts.one _) _).returns
    · exact hnothing

theorem physical_returns (aff : List AffinityDomain) (bcpustr : List Char) (length : ℕ) :
    Returns length (physicalPart aff bcpustr) (cpustrToCpulistPhysical aff bcpustr length) := by
  have hlist : ∀ bdomain blist, Returns length
      (match aff.find? (·.tag = bdomain) with
        | none => ⟨0, true⟩
        | some domain => listCpus (fun cpu => if cpuInDomain domain cpu then 1 else 0) blist)
      (match aff.find? (·.tag = bdomain) with
        | none => .ok []
        | some domain => inserted (forEntries blist (insertPhysical domain length))) := by
    intro bdomain blist
    cases aff.find? (·.tag = bdomain) with
    | none => exact (Inserts.pure ()).returns
    | some domain =>
        refine (forEntries_inserts (fun cpu => ?_) _).returns
        unfold insertPhysical Prog.when
        split
        · exact Inserts.one _
        · exact Inserts.pure ()
  exact hlist _ _

end Lists

/-! ### Scatter expressions -/

theorem length_cpulistSort (n : ℕ) (incpus : ℕ → CpuCell) (length : ℕ) :
    (cpulistSort n incpus length).length = n * (length / n) := by
  simp [cpulistSort, List.length_flatMap]

theorem scatter_returns (topo : CpuTopology) (aff : List AffinityDomain) (bcpustr : List Char)
    (length : ℕ) : Returns length (scatterCpus topo aff bcpustr)
      (cpustrToCpulistScatter topo aff bcpustr length) := by
  unfold scatterCpus cpustrToCpulistScatter
  split
  · generalize List.filter _ aff = suitable
    rcases suitable with _ | ⟨first, rest⟩
    · refine Or.inr ⟨fun h => ?_, _, rfl⟩
      rcases h with h | h
      · cases h
      · exact absurd h.2 (Nat.not_le_of_lt h.1)
    · refine Inserts.returns ?_
      dsimp only
      rw [← PartCpus.andThen_nothing (.all _)]
      refine Inserts.bind ?_ fun _ => Inserts.pure ()
      have hrounds : ∀ (round : PartCpus) (n : ℕ), List.replicate n round =
          (List.range n).map fun _ => round := fun round n => by simp
      rw [hrounds]
      refine Inserts.foldlM (fun _ off _ => Inserts.foldlM (fun sortedList d _ => ?_) _) _
      rw [sortInto, length_cpulistSort, turnPart]
      by_cases hfits : topo.numThreadsPerCore.toNat *
          (d.numberOfProcessors / topo.numThreadsPerCore.toNat) ≤ first.numberOfProcessors
      · rw [if_pos hfits, Prog.when_of_neg (Nat.not_lt_of_le hfits), Prog.bind_pure_left,
          Prog.bind_pure_left]
        exact (Inserts.one _).bind fun _ => Inserts.pure _
      · rw [if_neg hfits, Prog.when_of_pos (Nat.lt_of_not_le hfits)]
        exact Inserts.halt _
  · exact (Inserts.pure ()).returns

/-! ### Expressions -/

section Expressions

variable {domain : AffinityDomain} {count chunk stride : Int}

theorem le_blocksTotal (domain : AffinityDomain) (count chunk stride : Int)
    (rounds offset total : ℕ) :
    total ≤ blocksTotal domain count chunk stride rounds offset total := by
  induction rounds generalizing offset total with
  | zero => exact Nat.le_refl _
  | succ rounds ih =>
      unfold blocksTotal
      split
      · exact Nat.le_add_right ..
      · exact (Nat.le_add_right ..).trans (ih ..)

/-- The rounds end with a full array, or with the block that reaches the count. -/
theorem expressionRounds_length {ε : Type} (rounds : List ε) {offset : ℕ} {l : List CpuCell}
    (hoffset : offset < domain.numberOfProcessors) (hchunk : 0 < chunk)
    (hl : length = 0 ∨ l.length < length) (hcount : (l.length : Int) < count)
    (hrounds : count ≤ l.length + rounds.length) :
    ∃ l', rounds.foldlM (fun offset _ => expressionRound domain length count chunk stride offset)
        offset l = .ret () l' ∧
      l'.length = PartCpus.taken
        ⟨blocksTotal domain count chunk stride rounds.length offset l.length, true⟩ length := by
  induction rounds generalizing offset l with
  | nil =>
      rw [List.length_nil] at hrounds
      omega
  | cons round rounds ih =>
      rw [List.length_cons] at hrounds
      have hlen : (chunkCells domain chunk offset).length =
          min chunk.toNat (domain.numberOfProcessors - offset) := by
        rw [chunkCells, List.length_map, List.length_range]
      have hle := le_blocksTotal domain count chunk stride rounds.length
        (nextOffset domain stride offset)
        (l.length + (chunkCells domain chunk offset).length)
      rw [List.length_cons, blocksTotal, ← hlen, List.foldlM_cons]
      by_cases hroom : length = 0 ∨ l.length + (chunkCells domain chunk offset).length < length
      · have happend : (l ++ chunkCells domain chunk offset).length =
            l.length + (chunkCells domain chunk offset).length := List.length_append
        have hround : expressionRound domain length count chunk stride offset l =
            (Prog.when (count ≤ (l ++ chunkCells domain chunk offset).length) (Prog.ret ()) >>=
              fun _ => pure (nextOffset domain stride offset))
                (l ++ chunkCells domain chunk offset) := by
          rw [expressionRound, Prog.bind_of_done (insertCpus_done hroom),
            Prog.bind_of_done (Prog.get_apply _)]
        by_cases hreached : count ≤ (l ++ chunkCells domain chunk offset).length
        · rw [Prog.when_of_pos hreached] at hround
          rw [if_pos (by omega), Prog.bind_of_ret hround]
          refine ⟨_, rfl, ?_⟩
          unfold PartCpus.taken
          dsimp only
          split <;> omega
        · rw [Prog.when_of_neg hreached, Prog.bind_pure_left] at hround
          rw [if_neg (by omega), Prog.bind_of_done hround, ← happend]
          refine ih ?_ (by omega) (by omega) (by omega)
          unfold nextOffset
          split <;> omega
      · have hround : expressionRound domain length count chunk stride offset l = .ret () _ :=
          Prog.bind_of_ret (insertCpus_full (by omega) (by omega))
        rw [Prog.bind_of_ret hround]
        refine ⟨_, rfl, ?_⟩
        rw [PartCpus.taken, if_neg (by omega), List.length_append, List.length_take]
        dsimp only
        split <;> omega

theorem expressionCpus_returns (aff : List AffinityDomain) (bdomain : List Char)
    (count chunk stride : Int) (length : ℕ) :
    Returns length (blocksCpus aff bdomain count chunk stride)
      (expressionCpus aff bdomain count chunk stride length) := by
  by_cases hnames : ∃ domain, aff.find? (·.tag = bdomain) = some domain ∧
      0 < domain.numberOfProcessors ∧ 0 < count ∧ 0 < chunk
  · obtain ⟨domain, hfind, hnames⟩ := hnames
    obtain ⟨hprocessors, hcount, hchunk⟩ := hnames
    have hrounds : count ≤ ([] : List CpuCell).length + (List.range count.toNat).length := by
      rw [List.length_nil, List.length_range]
      omega
    obtain ⟨l, hrun, hlen⟩ := @expressionRounds_length length domain count chunk stride _ _ 0 []
      hprocessors hchunk (Nat.eq_zero_or_pos length) hcount hrounds
    rw [List.length_range, List.length_nil] at hlen
    refine Or.inl ⟨?_, l, ?_, ?_⟩
    · simp only [blocksCpus, hfind]
      exact Or.inl rfl
    · simp only [expressionCpus, hfind, Prog.forRange, hrun]
    · simpa only [blocksCpus, hfind, if_pos (And.intro hprocessors (And.intro hcount hchunk))]
        using hlen
  · have hempty : ∀ domain, aff.find? (·.tag = bdomain) = some domain →
        ¬(0 < domain.numberOfProcessors ∧ 0 < count ∧ 0 < chunk) :=
      fun domain hfind hpos => hnames ⟨domain, hfind, hpos⟩
    have hnothing : blocksCpus aff bdomain count chunk stride = ⟨0, true⟩ := by
      unfold blocksCpus
      cases hfind : aff.find? (·.tag = bdomain) with
      | none => rfl
      | some domain => simp only [if_neg (hempty domain hfind)]
    rw [hnothing, expressionCpus_empty hempty]
    exact (Inserts.pure ()).returns

theorem expression_returns (aff : List AffinityDomain) (bcpustr : List Char) (length : ℕ) :
    Returns length (expressionPart aff bcpustr) (cpustrToCpulistExpression aff bcpustr length) := by
  unfold expressionPart cpustrToCpulistExpression
  split
  · exact (Inserts.pure ()).returns
  · have hfields : Returns length ⟨0, false⟩ (.error .undefined) :=
      (Inserts.halt (α := Unit) .undefined).returns
    rcases bcpustr.splitOn ':' with
      _ | ⟨e, _ | ⟨bdomain, _ | ⟨count, _ | ⟨chunk, _ | ⟨stride, _ | ⟨field, rest⟩⟩⟩⟩⟩⟩
    · exact hfields
    · exact hfields
    · exact hfields
    · exact expressionCpus_returns ..
    · exact hfields
    · exact expressionCpus_returns ..
    · exact hfields

end Expressions

theorem part_returns (topo : CpuTopology) (aff : List AffinityDomain) (part : List Char)
    (length : ℕ) :
    Returns length (partCpus topo aff part) (cpustrToCpulistPart topo aff part length) := by
  unfold partCpus cpustrToCpulistPart
  split_ifs
  · exact scatter_returns ..
  · exact expression_returns ..
  · exact logical_returns ..
  · exact logical_returns ..
  · exact logical_returns ..
  · exact logical_returns ..
  · exact physical_returns ..

/-! ## The output -/

variable (topo aff length) in
/-- The entries of `cpulist` that the loop over the parts writes, from entry `insert` on, and what
is returned. It ends without a result at a part that has no meaning. -/
def outputWrites : List (List Char) → ℕ → List ℕ × Option ℕ
  | [], insert => ([], some insert)
  | part :: parts, insert =>
      match cpustrToCpulistPart topo aff part length with
      | .error _ => ([], none)
      | .ok tmpList =>
          let (writes, returned) := outputWrites parts (insert + tmpList.length)
          (List.range' insert tmpList.length ++ writes, returned)

/-- Only entries of the array are written, and their number is returned. -/
structure WritesWithin (topo : CpuTopology) (aff : List AffinityDomain) (cpustring : List Char)
    (length : ℕ) : Prop where
  bound : ∀ i ∈ (outputWrites topo aff length (cpustring.splitOn '@') 0).1, i < length
  returned : (outputWrites topo aff length (cpustring.splitOn '@') 0).2 =
    some (outputWrites topo aff length (cpustring.splitOn '@') 0).1.length

theorem outputWrites_cons {part : List Char} {tmpList : List CpuCell}
    (h : cpustrToCpulistPart topo aff part length = .ok tmpList) (parts : List (List Char))
    (insert : ℕ) : outputWrites topo aff length (part :: parts) insert =
      (List.range' insert tmpList.length ++
          (outputWrites topo aff length parts (insert + tmpList.length)).1,
        (outputWrites topo aff length parts (insert + tmpList.length)).2) := by
  rw [outputWrites, h]

/-- The loop over the parts writes one entry behind the other, and returns if all parts end. -/
theorem outputWrites_eq (parts : List (List Char)) (insert : ℕ) :
    ((∀ part ∈ parts, (partCpus topo aff part).Ends length) ∧
      outputWrites topo aff length parts insert =
        (List.range' insert (parts.map fun part => (partCpus topo aff part).taken length).sum,
          some (insert + (parts.map fun part => (partCpus topo aff part).taken length).sum))) ∨
    (¬(∀ part ∈ parts, (partCpus topo aff part).Ends length) ∧
      (outputWrites topo aff length parts insert).2 = none) := by
  induction parts generalizing insert with
  | nil => exact Or.inl ⟨fun _ h => absurd h List.not_mem_nil, rfl⟩
  | cons part parts ih =>
      rw [List.forall_mem_cons]
      rcases part_returns topo aff part length with
        ⟨hends, tmpList, hpart, hlen⟩ | ⟨hends, k, hpart⟩
      · rw [outputWrites_cons hpart, List.map_cons, List.sum_cons, ← hlen]
        rcases ih (insert + tmpList.length) with ⟨hall, hrest⟩ | ⟨hall, hrest⟩
        · refine Or.inl ⟨⟨hends, hall⟩, ?_⟩
          rw [hrest, List.range'_append_1, Nat.add_assoc]
        · exact Or.inr ⟨fun h => hall h.2, hrest⟩
      · refine Or.inr ⟨fun h => hends h.1, ?_⟩
        rw [outputWrites, hpart]

/-- A machine with two hardware threads, not in a cpuset -/
def twoThreads : CpuTopology where
  numHWThreads := 2
  activeHWThreads := 2
  numSockets := 1
  numCoresPerSocket := 2
  numThreadsPerCore := 1
  numCacheLevels := 0
  threadPool := []
  cacheLevels := []
  topologyTree := treeInit 0

theorem not_scatter_of_not_mem {part : List Char} (h : 's' ∉ part) : ¬scatterKeyword <:+: part :=
  fun hinside => h (hinside.subset List.mem_cons_self)

end Parsers

end Likwid
