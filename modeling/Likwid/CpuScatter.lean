import Likwid.CpuLogical

/-!
# Scatter expressions

A scatter expression takes one CPU from each suitable domain in turn, first hardware threads
first. `cpustr_to_cpulist_scatter` sorts each domain to one array that is allocated for the
first domain, and looks up the same index in it: a shorter sorted list leaves the entry of
another domain there. So the turns are right exactly if the domains have no CPU in common, the
same size, and all their entries in place (`scatter_iff`).
-/

namespace Likwid

/-! ## One CPU from each domain in turn -/

/-- The CPU that a domain with these processors adds to a turn -/
def turnCells (topo : CpuTopology) (off : ℕ) (ids : List Int) : List CpuCell :=
  if off < ids.length then [logicalCell topo ids off] else []

/-- `turns` turns over the domains -/
def roundRobin (topo : CpuTopology) (turns : ℕ) (idss : List (List Int)) : List CpuCell :=
  (List.range turns).flatMap fun off => idss.flatMap (turnCells topo off)

/-- The CPUs of the domains: one from each in turn, in the order of the hardware threads -/
def scattered (topo : CpuTopology) (idss : List (List Int)) : List CpuCell :=
  roundRobin topo idss.flatten.length idss

section RoundRobin

variable {topo : CpuTopology} {turns off : ℕ} {ids : List Int} {idss : List (List Int)}

theorem map_logicalCell (topo : CpuTopology) (ids : List Int) :
    (List.range ids.length).map (logicalCell topo ids) =
      (Ranks.order (threadRank topo ids) ids.length).map fun p => ids[p]? := by
  have hlength : (Ranks.order (threadRank topo ids) ids.length).length = ids.length :=
    Ranks.length_order (threadRank_le topo ids)
  refine List.ext_getElem (by simp [hlength]) fun j hj hj' => ?_
  have hlt : j < (Ranks.order (threadRank topo ids) ids.length).length := by simpa using hj'
  rw [List.getElem_map, List.getElem_map, List.getElem_range, logicalCell,
    List.getElem?_eq_getElem hlt, Option.bind_some]

theorem turns_perm (topo : CpuTopology) (h : ids.length ≤ turns) :
    ((List.range turns).flatMap fun off => turnCells topo off ids).Perm (ids.map some) := by
  obtain ⟨rest, rfl⟩ := Nat.exists_eq_add_of_le h
  have hfirst : ((List.range ids.length).flatMap fun off => turnCells topo off ids) =
      (List.range ids.length).map (logicalCell topo ids) := by
    rw [List.map_eq_flatMap]
    exact List.flatMap_congr fun off hoff => if_pos (List.mem_range.mp hoff)
  have hrest : (((List.range rest).map (ids.length + ·)).flatMap fun off =>
      turnCells topo off ids) = [] := by
    refine List.flatMap_eq_nil_iff.mpr fun off hoff => ?_
    obtain ⟨k, -, rfl⟩ := List.mem_map.mp hoff
    exact if_neg (by omega)
  have hall : (List.range ids.length).map (fun p => ids[p]?) = ids.map some := by
    refine List.ext_getElem (by simp) fun j hj hj' => ?_
    have hlt : j < ids.length := by simpa using hj'
    rw [List.getElem_map, List.getElem_map, List.getElem_range, List.getElem?_eq_getElem hlt]
  rw [List.range_add, List.flatMap_append, hfirst, hrest, List.append_nil, map_logicalCell,
    ← hall]
  exact (Ranks.order_perm (threadRank_le topo ids)).map _

theorem roundRobin_perm (topo : CpuTopology) (h : ∀ ids ∈ idss, ids.length ≤ turns) :
    (roundRobin topo turns idss).Perm (idss.flatten.map some) := by
  induction idss with
  | nil =>
      rw [roundRobin]
      simp
  | cons ids idss ih =>
      have hrest := ih fun ids' h' => h ids' (List.mem_cons_of_mem _ h')
      have hfirst := turns_perm topo (h ids List.mem_cons_self)
      rw [List.flatten_cons, List.map_append]
      refine List.Perm.trans ?_ (hfirst.append hrest)
      unfold roundRobin
      simp only [List.flatMap_cons]
      exact (List.flatMap_append_perm _ _ _).symm

theorem scattered_perm (topo : CpuTopology) (idss : List (List Int)) :
    (scattered topo idss).Perm (idss.flatten.map some) :=
  roundRobin_perm topo fun _ hids => (List.sublist_flatten_of_mem hids).length_le

theorem scattered_nodup_iff : (scattered topo idss).Nodup ↔ idss.flatten.Nodup :=
  (scattered_perm topo idss).nodup_iff.trans (List.nodup_map_iff fun _ _ => Option.some.inj)

theorem length_scattered : (scattered topo idss).length = idss.flatten.length := by
  rw [(scattered_perm topo idss).length_eq, List.length_map]

theorem roundRobin_of_le {size : ℕ} (h : ∀ ids ∈ idss, ids.length ≤ size) (hsize : size ≤ turns) :
    roundRobin topo turns idss = roundRobin topo size idss := by
  obtain ⟨rest, rfl⟩ := Nat.exists_eq_add_of_le hsize
  have hrest : (((List.range rest).map (size + ·)).flatMap fun off =>
      idss.flatMap (turnCells topo off)) = [] := by
    refine List.flatMap_eq_nil_iff.mpr fun off hoff => ?_
    obtain ⟨k, -, rfl⟩ := List.mem_map.mp hoff
    refine List.flatMap_eq_nil_iff.mpr fun ids hids => ?_
    have hlen := h ids hids
    exact if_neg (by omega)
  rw [roundRobin, List.range_add, List.flatMap_append, hrest, List.append_nil]
  rfl

theorem none_not_mem_scattered : none ∉ scattered topo idss := by
  intro h
  obtain ⟨id, -, hid⟩ := List.mem_map.mp ((scattered_perm topo idss).mem_iff.mp h)
  cases hid

end RoundRobin

/-! ## Runs of the parser -/

/-- `sortedList` after a domain was sorted to it -/
def sortedAfter (n : ℕ) (domain : AffinityDomain) (sortedList : ℕ → CpuCell) (p : ℕ) : CpuCell :=
  if p < n * (domain.numberOfProcessors / n) then sortedCell n domain p else sortedList p

/-- What one round inserts, and what it leaves in `sortedList` -/
def roundCells (n off : ℕ) : List AffinityDomain → (ℕ → CpuCell) → List CpuCell × (ℕ → CpuCell)
  | [], sortedList => ([], sortedList)
  | domain :: domains, sortedList =>
      let rest := roundCells n off domains (sortedAfter n domain sortedList)
      (sortedAfter n domain sortedList off :: rest.1, rest.2)

/-- What the rounds insert -/
def roundsCells (n : ℕ) (suitable : List AffinityDomain) : List ℕ → (ℕ → CpuCell) → List CpuCell
  | [], _ => []
  | off :: offs, sortedList =>
      (roundCells n off suitable sortedList).1 ++
        roundsCells n suitable offs (roundCells n off suitable sortedList).2

section Runs

variable {n size length off : ℕ} {domain : AffinityDomain} {suitable : List AffinityDomain}
  {sortedList : ℕ → CpuCell}

theorem sortInto_eq (h : n * (domain.numberOfProcessors / n) ≤ size) :
    sortInto n size domain sortedList = pure (sortedAfter n domain sortedList) := by
  rw [sortInto, length_cpulistSort, Prog.when_of_neg (Nat.not_lt_of_le h)]
  rfl

theorem scatterRound_eq (h : ∀ d ∈ suitable, n * (d.numberOfProcessors / n) ≤ size) :
    scatterRound n size length suitable sortedList off =
      (insertCpus length (roundCells n off suitable sortedList).1 >>= fun _ =>
        pure (roundCells n off suitable sortedList).2) := by
  unfold scatterRound
  induction suitable generalizing sortedList with
  | nil => rfl
  | cons domain domains ih =>
      rw [List.foldlM_cons, sortInto_eq (h domain List.mem_cons_self), Prog.bind_pure_left,
        Prog.bind_assoc, roundCells, insertCpus, List.foldlM_cons, Prog.bind_assoc]
      exact congrArg _ (funext fun _ => ih fun d hd => h d (List.mem_cons_of_mem _ hd))

theorem scatterRounds_eq (h : ∀ d ∈ suitable, n * (d.numberOfProcessors / n) ≤ size)
    (offs : List ℕ) : ∃ sortedList',
      offs.foldlM (scatterRound n size length suitable) sortedList =
        (insertCpus length (roundsCells n suitable offs sortedList) >>= fun _ =>
          pure sortedList') := by
  induction offs generalizing sortedList with
  | nil => exact ⟨sortedList, rfl⟩
  | cons off offs ih =>
      obtain ⟨sortedList', hrest⟩ := @ih (roundCells n off suitable sortedList).2
      refine ⟨sortedList', ?_⟩
      rw [List.foldlM_cons, scatterRound_eq h, Prog.bind_assoc, roundsCells, insertCpus_append,
        Prog.bind_assoc]
      exact congrArg _ (funext fun _ => hrest)

end Runs

/-! ## What the rounds insert -/

/-- An entry of `sortedList` was never written, or comes from a domain that is long enough. -/
def FromDomains (n : ℕ) (suitable : List AffinityDomain) (sortedList : ℕ → CpuCell) : Prop :=
  ∀ p, sortedList p = none ∨ ∃ d ∈ suitable,
    p < n * (d.numberOfProcessors / n) ∧ sortedList p = sortedCell n d p

section Cells

variable {n off : ℕ} {domain : AffinityDomain} {domains suitable : List AffinityDomain}
  {sortedList : ℕ → CpuCell}

theorem FromDomains.sortedAfter (h : FromDomains n suitable sortedList)
    (hd : domain ∈ suitable) : FromDomains n suitable (sortedAfter n domain sortedList) := by
  intro p
  unfold Likwid.sortedAfter
  split
  · next hp => exact Or.inr ⟨domain, hd, hp, rfl⟩
  · exact h p

@[simp] theorem length_roundCells : (roundCells n off domains sortedList).1.length =
    domains.length := by
  induction domains generalizing sortedList with
  | nil => rfl
  | cons domain domains ih => rw [roundCells, List.length_cons, List.length_cons, ih]

theorem getElem?_roundCells {i : ℕ} (hi : domains[i]? = some domain)
    (hoff : off < n * (domain.numberOfProcessors / n)) :
    (roundCells n off domains sortedList).1[i]? = some (sortedCell n domain off) := by
  induction domains generalizing sortedList i with
  | nil => cases hi
  | cons d domains ih =>
      rw [roundCells]
      cases i with
      | zero =>
          obtain rfl := Option.some.inj hi
          rw [List.getElem?_cons_zero, Likwid.sortedAfter, if_pos hoff]
      | succ i => exact ih hi

/-- What a round inserts comes from a domain that is long enough, or was never written. -/
theorem fromDomains_roundCells (h : FromDomains n suitable sortedList)
    (hsub : ∀ d ∈ domains, d ∈ suitable) :
    (∀ cell ∈ (roundCells n off domains sortedList).1, cell = none ∨ ∃ d ∈ suitable,
        off < n * (d.numberOfProcessors / n) ∧ cell = sortedCell n d off) ∧
      FromDomains n suitable (roundCells n off domains sortedList).2 := by
  induction domains generalizing sortedList with
  | nil => exact ⟨fun _ hcell => absurd hcell List.not_mem_nil, h⟩
  | cons domain domains ih =>
      have hafter := h.sortedAfter (hsub domain List.mem_cons_self)
      obtain ⟨hcells, hlast⟩ := ih hafter fun d hd => hsub d (List.mem_cons_of_mem _ hd)
      refine ⟨fun cell hcell => ?_, hlast⟩
      rcases List.mem_cons.mp hcell with rfl | hmem
      · exact hafter off
      · exact hcells cell hmem

/-- Where a round inserts distinct CPUs, all domains are long enough for it. -/
theorem lt_of_roundCells_nodup (h : FromDomains n suitable sortedList)
    (hnodup : (roundCells n off suitable sortedList).1.Nodup)
    (hnone : none ∉ (roundCells n off suitable sortedList).1) :
    ∀ d ∈ suitable, off < n * (d.numberOfProcessors / n) := by
  intro d hd
  obtain ⟨i, hi⟩ := List.mem_iff_getElem?.mp hd
  have hlt : i < (roundCells n off suitable sortedList).1.length := by
    rw [length_roundCells]
    exact (List.getElem?_eq_some_iff.mp hi).1
  have hget := List.getElem?_eq_getElem hlt
  rcases (fromDomains_roundCells h fun _ hd => hd).1 _ (List.getElem_mem hlt) with hno | hfrom
  · exact absurd (hno ▸ List.getElem_mem hlt) hnone
  · obtain ⟨d', hd', hoff, hcell⟩ := hfrom
    obtain ⟨j, hj⟩ := List.mem_iff_getElem?.mp hd'
    rw [hcell] at hget
    have hown : (roundCells n off suitable sortedList).1[j]? = _ := getElem?_roundCells hj hoff
    have hindex := (List.getElem?_inj hlt hnodup).mp (hget.trans hown.symm)
    rw [hindex, hj] at hi
    obtain rfl := Option.some.inj hi
    exact hoff

theorem lt_of_roundsCells_nodup {offs : List ℕ} (h : FromDomains n suitable sortedList)
    (hnodup : (roundsCells n suitable offs sortedList).Nodup)
    (hnone : none ∉ roundsCells n suitable offs sortedList) :
    ∀ off ∈ offs, ∀ d ∈ suitable, off < n * (d.numberOfProcessors / n) := by
  induction offs generalizing sortedList with
  | nil => exact fun off hoff => absurd hoff List.not_mem_nil
  | cons off offs ih =>
      rw [roundsCells] at hnodup hnone
      rw [List.mem_append, not_or] at hnone
      obtain ⟨hround, hrest, -⟩ := List.nodup_append.mp hnodup
      have hlast : FromDomains n suitable (roundCells n off suitable sortedList).2 :=
        (fromDomains_roundCells h fun _ hd => hd).2
      intro off' hoff'
      rcases List.mem_cons.mp hoff' with rfl | hmem
      · exact lt_of_roundCells_nodup h hround hnone.1
      · exact ih hlast hrest hnone.2 off' hmem

theorem length_roundsCells (offs : List ℕ) :
    (roundsCells n suitable offs sortedList).length = offs.length * suitable.length := by
  induction offs generalizing sortedList with
  | nil => simp [roundsCells]
  | cons off offs ih =>
      rw [roundsCells, List.length_append, length_roundCells, ih, List.length_cons, Nat.succ_mul,
        Nat.add_comm]

/-- Where all domains are long enough, each round has their own entries. -/
theorem roundsCells_eq {offs : List ℕ}
    (h : ∀ off ∈ offs, ∀ d ∈ suitable, off < n * (d.numberOfProcessors / n)) :
    roundsCells n suitable offs sortedList =
      offs.flatMap fun off => suitable.map fun d => sortedCell n d off := by
  induction offs generalizing sortedList with
  | nil => rfl
  | cons off offs ih =>
      rw [roundsCells, ih fun off' hoff' => h off' (List.mem_cons_of_mem _ hoff'),
        List.flatMap_cons]
      refine congrArg (· ++ _) (List.ext_getElem (by simp) fun i hi hi' => ?_)
      have hlt : i < suitable.length := by simpa using hi'
      have hget : (roundCells n off suitable sortedList).1[i]? = _ :=
        getElem?_roundCells (List.getElem?_eq_getElem hlt)
          (h off List.mem_cons_self _ (List.getElem_mem hlt))
      rw [List.getElem?_eq_getElem hi] at hget
      rw [Option.some.inj hget, List.getElem_map]

end Cells

/-! ## Scatter expressions -/

/-- The domains with the first character of the string in their tag -/
def suitableDomains (aff : List AffinityDomain) (bcpustr : List Char) : List AffinityDomain :=
  aff.filter fun domain => bcpustr.head?.any (· ∈ domain.tag)

section Scatter

variable {topo : CpuTopology} {aff : List AffinityDomain} {str : List Char} {n : ℕ}
  {first : AffinityDomain} {rest : List AffinityDomain} {idss : List (List Int)} {length : ℕ}

theorem scatter_eq (hcolon : ':' ∈ str) (hsuitable : suitableDomains aff str = first :: rest) :
    cpustrToCpulistScatter topo aff str length =
      inserted ((List.range first.numberOfProcessors).foldlM
        (scatterRound topo.numThreadsPerCore.toNat first.numberOfProcessors length (first :: rest))
        (fun _ => none) >>= fun _ => pure ()) := by
  unfold suitableDomains at hsuitable
  unfold cpustrToCpulistScatter
  rw [if_pos hcolon, hsuitable]
  rfl

theorem scatter_run (hcolon : ':' ∈ str) (hsuitable : suitableDomains aff str = first :: rest)
    (hfits : ∀ d ∈ first :: rest,
      topo.numThreadsPerCore.toNat * (d.numberOfProcessors / topo.numThreadsPerCore.toNat) ≤
        first.numberOfProcessors)
    (hlength : 1 ≤ length) :
    cpustrToCpulistScatter topo aff str length =
      .ok ((roundsCells topo.numThreadsPerCore.toNat (first :: rest)
        (List.range first.numberOfProcessors) fun _ => none).take length) := by
  obtain ⟨sortedList, hrounds⟩ := @scatterRounds_eq _ _ length _ (fun _ => none) hfits
    (List.range first.numberOfProcessors)
  rw [scatter_eq hcolon hsuitable, hrounds, Prog.bind_assoc, Prog.bind_pure_left,
    Prog.bind_pure_right, inserted_insertCpus hlength]

theorem exists_members {suitable : List AffinityDomain} {d : AffinityDomain}
    (hd : List.Forall₂ AffinityDomain.Members suitable idss) (h : d ∈ suitable) :
    ∃ ids ∈ idss, d.Members ids := by
  induction hd with
  | nil => exact absurd h List.not_mem_nil
  | @cons domain ids domains idss hdomain _ ih =>
      rcases List.mem_cons.mp h with rfl | hmem
      · exact ⟨ids, List.mem_cons_self, hdomain⟩
      · obtain ⟨ids', hids, hd'⟩ := ih hmem
        exact ⟨ids', List.mem_cons_of_mem _ hids, hd'⟩

theorem exists_domain {suitable : List AffinityDomain} {ids : List Int}
    (hd : List.Forall₂ AffinityDomain.Members suitable idss) (h : ids ∈ idss) :
    ∃ d ∈ suitable, d.Members ids := by
  induction hd with
  | nil => exact absurd h List.not_mem_nil
  | @cons domain ids' domains idss hdomain _ ih =>
      rcases List.mem_cons.mp h with rfl | hmem
      · exact ⟨domain, List.mem_cons_self, hdomain⟩
      · obtain ⟨d, hmem', hd'⟩ := ih hmem
        exact ⟨d, List.mem_cons_of_mem _ hmem', hd'⟩

/-- A turn of domains that are all long enough is right exactly if its index is in place. -/
theorem turn_iff {off : ℕ} {suitable : List AffinityDomain}
    (hd : List.Forall₂ AffinityDomain.Members suitable idss)
    (hoff : ∀ ids ∈ idss, off < ids.length) :
    (suitable.map fun d => sortedCell topo.numThreadsPerCore.toNat d off) =
        idss.flatMap (turnCells topo off) ↔
      ∀ ids ∈ idss, InPlace topo ids off := by
  induction hd with
  | nil => exact iff_of_true rfl fun _ h => absurd h List.not_mem_nil
  | @cons domain ids domains idss hdomain _ ih =>
      have hlt := hoff ids List.mem_cons_self
      rw [List.map_cons, List.flatMap_cons, turnCells, if_pos hlt, List.singleton_append,
        List.cons.injEq, sortedCell_eq_iff hdomain hlt,
        ih fun ids' h => hoff ids' (List.mem_cons_of_mem _ h), List.forall_mem_cons]

theorem length_turn {off : ℕ} (hoff : ∀ ids ∈ idss, off < ids.length) :
    (idss.flatMap (turnCells topo off)).length = idss.length := by
  induction idss with
  | nil => rfl
  | cons ids idss ih =>
      rw [List.flatMap_cons, turnCells, if_pos (hoff ids List.mem_cons_self), List.length_append,
        ih fun ids' h => hoff ids' (List.mem_cons_of_mem _ h), List.length_cons, Nat.add_comm]
      rfl

theorem flatMap_eq_iff {offs : List ℕ} {f g : ℕ → List CpuCell}
    (h : ∀ off ∈ offs, (f off).length = (g off).length) :
    offs.flatMap f = offs.flatMap g ↔ ∀ off ∈ offs, f off = g off := by
  induction offs with
  | nil => exact iff_of_true rfl fun _ h => absurd h List.not_mem_nil
  | cons off offs ih =>
      rw [List.flatMap_cons, List.flatMap_cons, List.forall_mem_cons,
        ← ih fun off' h' => h off' (List.mem_cons_of_mem _ h')]
      constructor
      · exact fun heq => List.append_inj heq (h off List.mem_cons_self)
      · rintro ⟨hfirst, hrest⟩
        rw [hfirst, hrest]

/-- The entries of equal domains with full rows are those of the turns exactly if all indices are
in place. -/
theorem roundsCells_scattered_iff {size : ℕ} {suitable : List AffinityDomain}
    (hd : List.Forall₂ AffinityDomain.Members suitable idss) (hne : idss ≠ [])
    (hdvd : topo.numThreadsPerCore.toNat ∣ size) (hsize : ∀ ids ∈ idss, ids.length = size)
    {sortedList : ℕ → CpuCell} :
    roundsCells topo.numThreadsPerCore.toNat suitable (List.range size) sortedList =
        scattered topo idss ↔
      ∀ ids ∈ idss, ∀ j < size, InPlace topo ids j := by
  have hlong : ∀ off ∈ List.range size, ∀ d ∈ suitable, off < topo.numThreadsPerCore.toNat *
      (d.numberOfProcessors / topo.numThreadsPerCore.toNat) := by
    intro off hoff d hmem
    obtain ⟨ids, hids, hdomain⟩ := exists_members hd hmem
    rw [← hdomain.lists.length, hsize ids hids, Nat.mul_div_cancel' hdvd]
    exact List.mem_range.mp hoff
  have hturns : size ≤ idss.flatten.length := by
    obtain ⟨ids, hids⟩ := List.exists_mem_of_ne_nil idss hne
    rw [← hsize ids hids]
    exact (List.sublist_flatten_of_mem hids).length_le
  have hlt : ∀ off ∈ List.range size, ∀ ids ∈ idss, off < ids.length := fun off hoff ids hids => by
    rw [hsize ids hids]
    exact List.mem_range.mp hoff
  rw [roundsCells_eq hlong, scattered, roundRobin_of_le (fun ids h => (hsize ids h).le) hturns,
    roundRobin, flatMap_eq_iff fun off hoff => by
      rw [length_turn (hlt off hoff), List.length_map, hd.length_eq]]
  constructor
  · intro h ids hids j hj
    have hoff := List.mem_range.mpr hj
    exact (turn_iff hd (hlt j hoff)).mp (h j hoff) ids hids
  · intro h off hoff
    exact (turn_iff hd (hlt off hoff)).mpr fun ids hids => h ids hids off (List.mem_range.mp hoff)

theorem length_flatten_ge {m : ℕ} (h : ∀ ids ∈ idss, m ≤ ids.length) :
    m * idss.length ≤ idss.flatten.length := by
  induction idss with
  | nil => exact Nat.le_refl _
  | cons ids idss ih =>
      have hrest := ih fun ids' h' => h ids' (List.mem_cons_of_mem _ h')
      have hfirst := h ids List.mem_cons_self
      rw [List.flatten_cons, List.length_append, List.length_cons, Nat.mul_succ]
      omega

/-- Lists of at least `m` entries with `m` on average have `m` each. -/
theorem length_eq_of_flatten {m : ℕ} (h : ∀ ids ∈ idss, m ≤ ids.length)
    (hlen : idss.flatten.length = m * idss.length) : ∀ ids ∈ idss, ids.length = m := by
  induction idss with
  | nil => exact fun ids hids => absurd hids List.not_mem_nil
  | cons ids idss ih =>
      have hrest : ∀ ids' ∈ idss, m ≤ ids'.length := fun ids' h' =>
        h ids' (List.mem_cons_of_mem _ h')
      have hfirst := h ids List.mem_cons_self
      have hge := length_flatten_ge hrest
      rw [List.flatten_cons, List.length_append, List.length_cons, Nat.mul_succ] at hlen
      intro ids' hids'
      rcases List.mem_cons.mp hids' with rfl | hmem
      · omega
      · exact ih hrest (by omega) ids' hmem

/-- Where the rounds insert what the turns take, the sizes agree and the rows are full. -/
theorem sizes_of_scattered {suitable : List AffinityDomain} {size : ℕ}
    (hd : List.Forall₂ AffinityDomain.Members suitable idss)
    (hdisjoint : idss.flatten.Nodup)
    (hfits : ∀ d ∈ suitable, n * (d.numberOfProcessors / n) ≤ size)
    (hcells : roundsCells n suitable (List.range size) (fun _ => none) = scattered topo idss) :
    (suitable ≠ [] → n ∣ size) ∧ ∀ ids ∈ idss, ids.length = size := by
  have hlong : ∀ d ∈ suitable, n * (d.numberOfProcessors / n) = size := by
    intro d hmem
    refine Nat.le_antisymm (hfits d hmem) (Nat.le_of_not_lt fun hlt => ?_)
    have hoff := lt_of_roundsCells_nodup (fun _ => Or.inl rfl)
      (hcells ▸ scattered_nodup_iff.mpr hdisjoint) (hcells ▸ none_not_mem_scattered)
      (n * (d.numberOfProcessors / n)) (List.mem_range.mpr hlt) d hmem
    exact Nat.lt_irrefl _ hoff
  have hlen := congrArg List.length hcells
  rw [length_roundsCells, List.length_range, length_scattered, hd.length_eq] at hlen
  refine ⟨fun hne => ?_, length_eq_of_flatten (fun ids hids => ?_) hlen.symm⟩
  · obtain ⟨d, hmem⟩ := List.exists_mem_of_ne_nil suitable hne
    exact ⟨_, (hlong d hmem).symm⟩
  · obtain ⟨d, hmem, hdomain⟩ := exists_domain hd hids
    rw [← hlong d hmem, hdomain.lists.length]
    exact Nat.mul_div_le _ _

/-- A domain with more sorted entries than the first one: the first round comes to no end, before
all domains had their turn. -/
theorem scatter_overflow (hcolon : ':' ∈ str) (hsuitable : suitableDomains aff str = first :: rest)
    (hlong : ∃ d ∈ first :: rest, first.numberOfProcessors < topo.numThreadsPerCore.toNat *
      (d.numberOfProcessors / topo.numThreadsPerCore.toNat))
    (hlength : (first :: rest).length < length) {l : List CpuCell}
    (hl : cpustrToCpulistScatter topo aff str length = .ok l) : l = [] := by
  have hround : ∀ ds : List AffinityDomain, (∃ d ∈ ds, first.numberOfProcessors <
      topo.numThreadsPerCore.toNat * (d.numberOfProcessors / topo.numThreadsPerCore.toNat)) →
      ∃ count ≤ ds.length, PartCpus.all (ds.map (turnPart topo first)) = ⟨count, false⟩ := by
    intro ds
    induction ds with
    | nil => rintro ⟨d, hd, -⟩; exact absurd hd List.not_mem_nil
    | cons d ds ih =>
        rintro ⟨d', hd', hlong'⟩
        show ∃ count ≤ _, PartCpus.andThen (turnPart topo first d) (.all _) = _
        by_cases hfits : topo.numThreadsPerCore.toNat *
            (d.numberOfProcessors / topo.numThreadsPerCore.toNat) ≤ first.numberOfProcessors
        · have hrest : d' ∈ ds := (List.mem_cons.mp hd').resolve_left (by rintro rfl; omega)
          obtain ⟨count, hcount, hall⟩ := ih ⟨d', hrest, hlong'⟩
          rw [hall, turnPart, if_pos hfits]
          exact ⟨1 + count, by rw [List.length_cons]; omega, rfl⟩
        · rw [turnPart, if_neg hfits]
          exact ⟨0, Nat.zero_le _, rfl⟩
  obtain ⟨count, hcount, hall⟩ := hround _ hlong
  have hreturns := scatter_returns topo aff str length
  unfold suitableDomains at hsuitable
  rw [scatterCpus, if_pos hcolon, hsuitable] at hreturns
  dsimp only at hreturns
  rw [hall] at hreturns
  cases hsize : first.numberOfProcessors with
  | zero =>
      rw [scatter_eq hcolon hsuitable, hsize] at hl
      exact (Except.ok.inj hl).symm
  | succ size =>
      rw [hsize, List.replicate_succ] at hreturns
      rcases hreturns with ⟨hends, -⟩ | ⟨-, k, herror⟩
      · rcases hends with hends | hends
        · cases hends
        · have hle : length ≤ count := hends.2
          omega
      · rw [herror] at hl
        cases hl

/-- The result for every length of the output: the CPUs of the domains, one from each in turn, cut
where the output is full, and none of them twice -/
structure TakesInTurn (topo : CpuTopology) (idss : List (List Int))
    (result : ℕ → Except Prog.Halt (List CpuCell)) : Prop where
  turns : ∀ length, 1 ≤ length → result length = .ok ((scattered topo idss).take length)
  once : ∀ length l, 1 ≤ length → result length = .ok l → l.Nodup

/-- What all domains have in common -/
structure EqualDomains (topo : CpuTopology) (idss : List (List Int)) (size : ℕ) : Prop where
  length : ∀ ids ∈ idss, ids.length = size
  inPlace : ∀ ids ∈ idss, ∀ j < size, InPlace topo ids j

theorem EqualDomains.dvd {size : ℕ} (h : EqualDomains topo idss size) (hne : idss ≠ []) :
    topo.numThreadsPerCore.toNat ∣ size := by
  obtain ⟨ids, hids⟩ := List.exists_mem_of_ne_nil idss hne
  cases size with
  | zero => exact Nat.dvd_zero _
  | succ size =>
      have hlast := (h.inPlace ids hids size (Nat.lt_succ_self _)).1
      rw [h.length ids hids] at hlast
      exact ⟨_, (Nat.le_antisymm (Nat.mul_div_le _ _) hlast).symm⟩

theorem scatter_of_sizes {size : ℕ} (hcolon : ':' ∈ str)
    (hsuitable : suitableDomains aff str = first :: rest)
    (hd : List.Forall₂ AffinityDomain.Members (first :: rest) idss)
    (heq : EqualDomains topo idss size) (hlength : 1 ≤ length) :
    cpustrToCpulistScatter topo aff str length = .ok ((scattered topo idss).take length) := by
  have hfirst : ∀ d ∈ first :: rest, d.numberOfProcessors = size := by
    intro d hmem
    obtain ⟨ids, hids, hdomain⟩ := exists_members hd hmem
    rw [← hdomain.lists.length, heq.length ids hids]
  have hne : idss ≠ [] := by
    rintro rfl
    cases hd
  have hdvd := heq.dvd hne
  have hfits : ∀ d ∈ first :: rest, topo.numThreadsPerCore.toNat *
      (d.numberOfProcessors / topo.numThreadsPerCore.toNat) ≤ first.numberOfProcessors := by
    intro d hmem
    rw [hfirst d hmem, hfirst first List.mem_cons_self, Nat.mul_div_cancel' hdvd]
  rw [scatter_run hcolon hsuitable hfits hlength, hfirst first List.mem_cons_self,
    (roundsCells_scattered_iff hd hne hdvd heq.length).mpr heq.inPlace]

/-- If the CPUs are taken in turn, the domains are equal and their entries in place. -/
theorem sizes_of_scatter (hcolon : ':' ∈ str) (hsuitable : suitableDomains aff str = first :: rest)
    (hd : List.Forall₂ AffinityDomain.Members (first :: rest) idss)
    (hdisjoint : idss.flatten.Nodup)
    (h : ∀ length, 1 ≤ length → cpustrToCpulistScatter topo aff str length =
        .ok ((scattered topo idss).take length)) :
    ∃ size, EqualDomains topo idss size := by
  have hne : idss ≠ [] := by
    rintro rfl
    cases hd
  -- with this length nothing is cut off
  have hcells := h ((roundsCells topo.numThreadsPerCore.toNat (first :: rest)
    (List.range first.numberOfProcessors) fun _ => none).length + idss.flatten.length +
      (first :: rest).length + 1) (by omega)
  rw [List.take_of_length_le (by rw [length_scattered]; omega)] at hcells
  by_cases hfits : ∀ d ∈ first :: rest, topo.numThreadsPerCore.toNat *
      (d.numberOfProcessors / topo.numThreadsPerCore.toNat) ≤ first.numberOfProcessors
  · rw [scatter_run hcolon hsuitable hfits (by omega), List.take_of_length_le (by omega)] at hcells
    have hrounds := Except.ok.inj hcells
    obtain ⟨hdvd, hsizes⟩ := sizes_of_scattered hd hdisjoint hfits hrounds
    exact ⟨_, hsizes, (roundsCells_scattered_iff hd hne (hdvd (List.cons_ne_nil _ _)) hsizes).mp
      hrounds⟩
  · simp only [not_forall, Nat.not_le, exists_prop] at hfits
    have hnil := congrArg List.length
      (scatter_overflow hcolon hsuitable hfits (by omega) hcells)
    rw [length_scattered, List.length_nil] at hnil
    obtain ⟨d, hmem, hlong⟩ := hfits
    obtain ⟨ids, hids, hdomain⟩ := exists_members hd hmem
    have hle := (List.sublist_flatten_of_mem hids).length_le
    have hrows := Nat.mul_div_le d.numberOfProcessors topo.numThreadsPerCore.toNat
    rw [hdomain.lists.length] at hle
    omega

/-- Two sockets of two cores each, with two hardware threads a core -/
def socketMachine : CpuTopology :=
  { twoThreads with
    numHWThreads := 8
    activeHWThreads := 8
    numSockets := 2
    numThreadsPerCore := 2
    threadPool := (List.range 8).map fun p =>
      { threadId := BitVec.ofNat 32 (p % 2)
        coreId := BitVec.ofNat 32 (p / 2)
        packageId := BitVec.ofNat 32 (p / 4)
        apicId := BitVec.ofNat 32 p
        inCpuSet := 1 } }

/-- A socket with the hardware threads from `start` on -/
def socketThreads (socket start size : ℕ) : AffinityDomain where
  tag := 'S' :: Text.decimal socket
  numberOfProcessors := size
  numberOfCores := size
  size := size
  processorList := fun p => some ((start + p : ℕ) : Int)

theorem socketThreads_members {socket start size : ℕ} (h : size < 2 ^ 31) :
    (socketThreads socket start size).Members
      ((List.range size).map fun (p : ℕ) => ((start + p : ℕ) : Int)) where
  lists :=
    { length := by simp [socketThreads]
      entry := by
        intro p hp
        have hlt : p < size := by simpa using hp
        simp [socketThreads, hlt] }
  nodup := by
    refine (List.nodup_map_iff fun a b hab => ?_).mpr List.nodup_range
    have hsum : start + a = start + b := Int.ofNat.inj hab
    omega
  size := by simpa using h

end Scatter

end Likwid
