import Likwid.AffinityTable
import Mathlib.Data.List.Perm.Subperm

/-!
# What the affinity domains hold (`affinity.c`)

A walk for a socket, a cache or a node ends when it has taken the number of hardware threads
that is counted for it, wherever these are. When some are not in the cpuset, it runs on into
the neighbour, and the neighbour's walk begins behind threads that nobody takes. The domains
hold what they stand for exactly if the threads in the cpuset fit (`buildsDomains_iff`).
-/

namespace Likwid

/-! ## The caches of one socket -/

/-- What the walks for `g` caches of `k` cores and `l` hardware threads take -/
def cacheWalks (k l : ℕ) : ℕ → List (List Int) → List (List Int)
  | 0, _ => []
  | g + 1, cores => walk cores l :: cacheWalks k l g (cores.drop (min cores.flatten.length k))

/-- The hardware threads in the cpuset fit to `g` caches: the first `k` cores have `l` of
them, and the others fit to the other caches; or there are less than `l` on all cores, and
none where the next cache begins or behind it. -/
def CachesFit (k l : ℕ) : ℕ → List (List Int) → Prop
  | 0, cores => cores.flatten = []
  | 1, cores => cores.flatten.length ≤ l
  | g + 2, cores =>
      (cores.take k).flatten.length = l ∧ CachesFit k l (g + 1) (cores.drop k) ∨
        cores.flatten.length < l ∧ (cores.drop (min cores.flatten.length k)).flatten = []

theorem cacheOffset_succ (k : ℕ) (cores : List (List Int)) (j : ℕ) :
    cacheOffset k cores (j + 1) = min cores.flatten.length k +
      cacheOffset k (cores.drop (min cores.flatten.length k)) j := by
  induction j with
  | zero => simp [cacheOffset]
  | succ j ih => rw [cacheOffset, ih, cacheOffset, List.drop_drop, Nat.add_assoc]

theorem map_cacheOffset (k l g : ℕ) (cores : List (List Int)) :
    (List.range g).map (fun j => walk (cores.drop (cacheOffset k cores j)) l) =
      cacheWalks k l g cores := by
  induction g generalizing cores with
  | zero => rfl
  | succ g ih =>
      rw [List.range_succ_eq_map, List.map_cons, List.map_map, cacheWalks, ← ih]
      congr 1
      refine List.map_congr_left fun j _ => ?_
      rw [Function.comp_apply, cacheOffset_succ, List.drop_drop]

theorem mem_flatten_of_drop {cores : List (List Int)} {k : ℕ} {id : Int}
    (h : id ∈ (cores.drop k).flatten) : id ∈ cores.flatten := by
  rw [← List.take_append_drop k cores, List.flatten_append]
  exact List.mem_append_right _ h

theorem length_flatten_drop (n : ℕ) (cores : List (List Int)) :
    (cores.drop n).flatten.length ≤ cores.flatten.length := by
  conv_rhs => rw [← List.take_append_drop n cores, List.flatten_append, List.length_append]
  exact Nat.le_add_left _ _

theorem mem_of_mem_cacheWalks {k l g : ℕ} {cores : List (List Int)} {w : List Int} {id : Int}
    (hw : w ∈ cacheWalks k l g cores) (hid : id ∈ w) : id ∈ cores.flatten := by
  induction g generalizing cores with
  | zero => cases hw
  | succ g ih =>
      rcases List.mem_cons.mp hw with rfl | hmem
      · exact (walk_isPrefix _ _).mem hid
      · exact mem_flatten_of_drop (ih hmem)

/-- The walks keep to their lists, and partition the threads. -/
structure Partitioned (l : ℕ) (walks : List (List Int)) (threads : List Int) : Prop where
  length_le : ∀ w ∈ walks, w.length ≤ l
  disjoint : walks.Pairwise List.Disjoint
  cover : ∀ id ∈ threads, ∃ w ∈ walks, id ∈ w

theorem prefix_eq {w ids : List Int} (h : w <+: ids) (hnodup : ids.Nodup)
    (hall : ∀ id ∈ ids, id ∈ w) : w = ids := by
  obtain ⟨rest, rfl⟩ := h
  cases rest with
  | nil => rw [List.append_nil]
  | cons id rest =>
      have hmem := hall id (by simp)
      exact absurd rfl ((List.nodup_append.mp hnodup).2.2 id hmem id List.mem_cons_self)

variable {k l g : ℕ} {ws : List (List Int)} {as bs : List Int} {cores : List (List Int)}

/-- The threads of the first cache are left out. -/
theorem partitioned_cons (hnodup : (as ++ bs).Nodup) (hlen : as.length = l)
    (hws : ∀ w ∈ ws, ∀ id ∈ w, id ∈ bs) :
    Partitioned l (as :: ws) (as ++ bs) ↔ Partitioned l ws bs := by
  have hapart : ∀ id ∈ as, id ∉ bs := fun id hid hid' =>
    (List.nodup_append.mp hnodup).2.2 id hid id hid' rfl
  constructor
  · intro h
    refine ⟨fun w hw => h.length_le w (List.mem_cons_of_mem _ hw),
      (List.pairwise_cons.mp h.disjoint).2, fun id hid => ?_⟩
    obtain ⟨w, hw, hmem⟩ := h.cover id (List.mem_append_right _ hid)
    rcases List.mem_cons.mp hw with rfl | hw
    · exact absurd hid (hapart id hmem)
    · exact ⟨w, hw, hmem⟩
  · intro h
    refine ⟨fun w hw => ?_, List.pairwise_cons.mpr ⟨fun w hw id hid hid' => ?_, h.disjoint⟩,
      fun id hid => ?_⟩
    · rcases List.mem_cons.mp hw with rfl | hw
      · exact hlen.le
      · exact h.length_le w hw
    · exact hapart id hid (hws w hw id hid')
    · rcases List.mem_append.mp hid with hid | hid
      · exact ⟨as, List.mem_cons_self, hid⟩
      · obtain ⟨w, hw, hmem⟩ := h.cover id hid
        exact ⟨w, List.mem_cons_of_mem _ hw, hmem⟩

/-- One list has all threads, and nothing is left for the others. -/
theorem partitioned_of_nil (hlen : as.length ≤ l) (hws : ∀ w ∈ ws, w = []) :
    Partitioned l (as :: ws) as := by
  refine ⟨fun w hw => ?_, List.pairwise_cons.mpr ⟨fun w hw => ?_, ?_⟩,
    fun id hid => ⟨as, List.mem_cons_self, hid⟩⟩
  · rcases List.mem_cons.mp hw with rfl | hw
    · exact hlen
    · rw [hws w hw]
      exact Nat.zero_le l
  · rw [hws w hw]
    exact List.disjoint_nil_right as
  · refine List.Pairwise.imp_of_mem (fun hw _ _ => ?_) (List.pairwise_of_forall fun _ _ => trivial)
    rw [hws _ hw]
    exact List.disjoint_nil_left _

/-- A walk that is followed by another one takes just the threads of the next cores. -/
theorem length_take_of_partitioned (hl : 0 < l) (hnodup : cores.flatten.Nodup)
    (hle : l ≤ cores.flatten.length)
    (h : Partitioned l (walk cores l :: cacheWalks k l (g + 1) (cores.drop k)) cores.flatten) :
    (cores.take k).flatten.length = l := by
  have hsplit : cores.flatten = (cores.take k).flatten ++ (cores.drop k).flatten := by
    rw [← List.flatten_append, List.take_append_drop]
  have hlater : ∀ w ∈ cacheWalks k l (g + 1) (cores.drop k), ∀ id ∈ w,
      id ∈ (cores.drop k).flatten := fun w hw id hid => mem_of_mem_cacheWalks hw hid
  have hlen : (walk cores l).length = l := by
    have hbound := h.length_le _ List.mem_cons_self
    rcases walk_eq_or_le cores l with heq | hge
    · rw [heq] at hbound ⊢
      omega
    · omega
  have hwalk : walk cores l = cores.flatten.take l := by
    have htake := List.prefix_iff_eq_take.mp (walk_isPrefix cores l)
    rwa [hlen] at htake
  rw [hsplit] at hnodup
  have hapart : ∀ id ∈ (cores.take k).flatten, id ∉ (cores.drop k).flatten :=
    fun id hid hid' => (List.nodup_append.mp hnodup).2.2 id hid id hid' rfl
  rcases lt_trichotomy (cores.take k).flatten.length l with hlt | heq | hgt
  · -- the first thread behind these cores is in this walk and in the next one
    cases hrest : (cores.drop k).flatten with
    | nil =>
        rw [hsplit, hrest, List.append_nil] at hle
        omega
    | cons id rest =>
        have hthis : id ∈ walk cores l := by
          obtain ⟨m, hm⟩ := Nat.exists_eq_add_of_lt hlt
          rw [hwalk, hsplit, hrest, hm, Nat.add_assoc, List.take_length_add_append,
            List.take_succ_cons]
          exact List.mem_append_right _ List.mem_cons_self
        have hnext : id ∈ walk (cores.drop k) l := by
          have hprefix := walk_isPrefix (cores.drop k) l
          rw [hrest] at hprefix
          rcases walk_eq_or_le (cores.drop k) l with heq | hge
          · rw [heq, hrest]
            exact List.mem_cons_self
          · cases hw : walk (cores.drop k) l with
            | nil =>
                rw [hw] at hge
                simp only [List.length_nil] at hge
                omega
            | cons id' rest' =>
                rw [hw] at hprefix
                rw [(List.cons_prefix_cons.mp hprefix).1]
                exact List.mem_cons_self
        have hdisjoint := (List.pairwise_cons.mp h.disjoint).1 _
          (show walk (cores.drop k) l ∈ cacheWalks k l (g + 1) (cores.drop k) from
            List.mem_cons_self)
        exact absurd hnext (hdisjoint hthis)
  · exact heq
  · -- a thread of these cores is left, where no walk comes
    cases hrest : (cores.take k).flatten.drop l with
    | nil =>
        have hdrop := congrArg List.length hrest
        rw [List.length_drop, List.length_nil] at hdrop
        omega
    | cons id rest =>
        have hcore : id ∈ (cores.take k).flatten := by
          rw [← List.take_append_drop l (cores.take k).flatten, hrest]
          exact List.mem_append_right _ List.mem_cons_self
        obtain ⟨w, hw, hmem⟩ := h.cover id (hsplit ▸ List.mem_append_left _ hcore)
        rcases List.mem_cons.mp hw with rfl | hw
        · rw [hwalk, hsplit, List.take_append_of_le_length hgt.le] at hmem
          have hcores := (List.nodup_append.mp hnodup).1
          rw [← List.take_append_drop l (cores.take k).flatten, hrest] at hcores
          exact absurd rfl ((List.nodup_append.mp hcores).2.2 id hmem id List.mem_cons_self)
        · exact absurd (hlater w hw id hmem) (hapart id hcore)

/-- **The caches of a socket partition its threads** exactly if these fit. -/
theorem partitioned_iff (hkl : k ≤ l) (hl : 0 < l) (hnodup : cores.flatten.Nodup) :
    Partitioned l (cacheWalks k l g cores) cores.flatten ↔ CachesFit k l g cores := by
  induction g generalizing cores with
  | zero =>
      constructor
      · intro h
        refine List.eq_nil_iff_forall_not_mem.mpr fun id hid => ?_
        obtain ⟨w, hw, -⟩ := h.cover id hid
        cases hw
      · intro h
        rw [show cores.flatten = [] from h]
        exact ⟨nofun, List.Pairwise.nil, nofun⟩
  | succ g ih =>
      cases g with
      | zero =>
          constructor
          · intro h
            have heq : walk cores l = cores.flatten := prefix_eq (walk_isPrefix _ _) hnodup
              fun id hid => by
                obtain ⟨w, hw, hmem⟩ := h.cover id hid
                rwa [← List.mem_singleton.mp hw]
            have hle := h.length_le _ List.mem_cons_self
            rwa [heq] at hle
          · intro h
            have heq : walk cores l = cores.flatten := walk_of_le (Int.ofNat_le.mpr h)
            rw [cacheWalks, heq]
            exact partitioned_of_nil h nofun
      | succ g =>
          have hsplit : cores.flatten = (cores.take k).flatten ++ (cores.drop k).flatten := by
            rw [← List.flatten_append, List.take_append_drop]
          have hdrop : (cores.drop k).flatten.Nodup := by
            rw [hsplit] at hnodup
            exact (List.nodup_append.mp hnodup).2.1
          -- the threads of the first cores are those of the first cache
          have hcons : (cores.take k).flatten.length = l →
              (Partitioned l (cacheWalks k l (g + 2) cores) cores.flatten ↔
                CachesFit k l (g + 1) (cores.drop k)) := by
            intro hlen
            have hwalk : walk cores l = (cores.take k).flatten := walk_take (by rw [hlen])
            have hmin : min cores.flatten.length k = k := by
              rw [hsplit, List.length_append]
              omega
            rw [cacheWalks, hmin, hwalk, ← ih hdrop, hsplit]
            exact partitioned_cons (hsplit ▸ hnodup) hlen
              fun w hw id hid => mem_of_mem_cacheWalks hw hid
          rw [CachesFit]
          rcases Nat.lt_or_ge cores.flatten.length l with hlt | hge
          · have hwalk : walk cores l = cores.flatten := walk_of_le (Int.ofNat_le.mpr hlt.le)
            have hnot : (cores.take k).flatten.length ≠ l := by
              intro heq
              rw [hsplit, List.length_append] at hlt
              omega
            rw [or_iff_right fun h => hnot h.1, and_iff_right hlt]
            rw [cacheWalks, hwalk]
            constructor
            · intro h
              have hnext : walk (cores.drop (min cores.flatten.length k)) l =
                  (cores.drop (min cores.flatten.length k)).flatten := by
                refine walk_of_le (Int.ofNat_le.mpr ?_)
                have hle := length_flatten_drop (min cores.flatten.length k) cores
                omega
              have hdisjoint := (List.pairwise_cons.mp h.disjoint).1 _
                (show walk (cores.drop (min cores.flatten.length k)) l ∈ cacheWalks k l (g + 1)
                  (cores.drop (min cores.flatten.length k)) from List.mem_cons_self)
              rw [hnext] at hdisjoint
              exact List.eq_nil_iff_forall_not_mem.mpr fun id hid =>
                hdisjoint (mem_flatten_of_drop hid) hid
            · intro h
              refine partitioned_of_nil hlt.le fun w hw => ?_
              refine List.eq_nil_iff_forall_not_mem.mpr fun id hid => ?_
              have hmem := mem_of_mem_cacheWalks hw hid
              rw [h] at hmem
              cases hmem
          · rw [or_iff_left fun h => absurd h.1 (not_lt.mpr hge)]
            constructor
            · intro h
              have hmin : min cores.flatten.length k = k := by omega
              have hlen : (cores.take k).flatten.length = l := by
                rw [cacheWalks, hmin] at h
                exact length_take_of_partitioned hl hnodup hge h
              exact ⟨hlen, (hcons hlen).mp h⟩
            · rintro ⟨hlen, hfit⟩
              exact (hcons hlen).mpr hfit

/-! ## What a list holds -/

/-- The processors of a domain are these, and all of them are written. -/
structure AffinityDomain.Lists (d : AffinityDomain) (ids : List Int) : Prop where
  length : ids.length = d.numberOfProcessors
  entry : ∀ p < ids.length, d.processorList p = ids[p]?

/-- The domain has the processor. -/
def AffinityDomain.Has (d : AffinityDomain) (id : Int) : Prop := ∃ ids, d.Lists ids ∧ id ∈ ids

/-- Nothing is written behind the end of the list. -/
def AffinityDomain.InBounds (d : AffinityDomain) : Prop :=
  ∀ p, d.size ≤ p → d.processorList p = none

/-- The domain has exactly these processors. -/
def AffinityDomain.Holds (d : AffinityDomain) (P : Int → Prop) : Prop :=
  ∃ ids, d.Lists ids ∧ ∀ id, id ∈ ids ↔ P id

variable {d : AffinityDomain} {w : List Int}

theorem writeEntries_zero (w : List Int) (p : ℕ) : writeEntries 0 w (fun _ => none) p = w[p]? := by
  rw [writeEntries, Nat.zero_add, Nat.sub_zero]
  split
  · rfl
  · next hno => exact (List.getElem?_eq_none (by omega)).symm

theorem inBounds_iff (hlist : d.processorList = writeEntries 0 w fun _ => none) :
    d.InBounds ↔ w.length ≤ d.size := by
  rw [AffinityDomain.InBounds, hlist]
  constructor
  · intro h
    exact List.getElem?_eq_none_iff.mp ((writeEntries_zero w d.size).symm.trans (h _ le_rfl))
  · intro h p hp
    rw [writeEntries_zero]
    exact List.getElem?_eq_none (h.trans hp)

theorem lists_iff (hlist : d.processorList = writeEntries 0 w fun _ => none)
    (hnumber : d.numberOfProcessors = w.length) {ids : List Int} : d.Lists ids ↔ ids = w := by
  constructor
  · intro h
    have hlen : ids.length = w.length := h.length.trans hnumber
    refine List.ext_getElem? fun p => ?_
    rcases Nat.lt_or_ge p ids.length with hlt | hge
    · rw [← h.entry p hlt, hlist, writeEntries_zero]
    · rw [List.getElem?_eq_none hge, List.getElem?_eq_none (hlen ▸ hge)]
  · rintro rfl
    exact ⟨hnumber.symm, fun p _ => by rw [hlist, writeEntries_zero]⟩

/-! ## The hardware threads of the sockets -/

variable {topo : CpuTopology} {numa : NumaTopology} {i : ℕ} {id : Int}

/-- A hardware thread of socket `i` that is in the cpuset -/
def InSocket (topo : CpuTopology) (i : ℕ) (id : Int) : Prop :=
  id ∈ (coresOf topo.topologyTree i).flatten ∧ inCpuSet topo.threadPool id = some true

theorem mem_selectedCores : id ∈ (selectedCores topo i).flatten ↔ InSocket topo i id := by
  rw [selectedCores, ← selected_flatten, selected, List.mem_filter, decide_eq_true_eq]
  exact Iff.rfl

theorem coresOf_eq_nil (h : topo.Consistent) (hi : topo.numSockets.toNat ≤ i) :
    coresOf topo.topologyTree i = [] := by
  rw [coresOf, List.getElem?_eq_none (h.numSockets ▸ hi)]
  rfl

/-- No thread is there twice, -/
theorem nodup_selectedCores (h : topo.Consistent) (i : ℕ) :
    (selectedCores topo i).flatten.Nodup := by
  rw [selectedCores, ← selected_flatten]
  refine List.Nodup.filter _ ?_
  rcases Nat.lt_or_ge i topo.numSockets.toNat with hlt | hge
  · exact (List.nodup_flatMap.mp h.nodup).1 i (List.mem_range.mpr hlt)
  · rw [coresOf_eq_nil h hge]
    exact List.nodup_nil

theorem disjoint_coresOf (h : topo.Consistent) {i' : ℕ} (hlt : i < i')
    (hi' : i' < topo.numSockets.toNat) :
    List.Disjoint (coresOf topo.topologyTree i).flatten (coresOf topo.topologyTree i').flatten := by
  have hpairwise := List.pairwise_iff_getElem.mp (List.nodup_flatMap.mp h.nodup).2 i i'
    (by rw [List.length_range]; omega) (by rwa [List.length_range]) hlt
  rwa [List.getElem_range, List.getElem_range] at hpairwise

/-- and none on two sockets. -/
theorem inSocket_unique (h : topo.Consistent) {i' : ℕ} (hi : i < topo.numSockets.toNat)
    (hi' : i' < topo.numSockets.toNat) (hid : InSocket topo i id) (hid' : InSocket topo i' id) :
    i = i' := by
  rcases lt_trichotomy i i' with hlt | heq | hgt
  · exact absurd hid'.1 (disjoint_coresOf h hlt hi' hid.1)
  · exact heq
  · exact absurd hid.1 (disjoint_coresOf h hgt hi hid'.1)

/-! ## The socket domains -/

theorem socketEntry_numberOfProcessors
    (hle : (socketWalk topo i).length ≤ processorsPerSocket topo) :
    (socketEntry topo i).numberOfProcessors = (socketWalk topo i).length := min_eq_left hle

/-- **A socket domain holds its threads** exactly if they are not more than are counted for
a socket. -/
theorem socketEntry_holds (h : topo.Consistent) (i : ℕ) :
    (socketEntry topo i).InBounds ∧ (socketEntry topo i).Holds (InSocket topo i) ↔
      (selectedCores topo i).flatten.length ≤ processorsPerSocket topo := by
  rw [inBounds_iff (d := socketEntry topo i) (w := socketWalk topo i) rfl]
  constructor
  · rintro ⟨hle, ids, hlists, hids⟩
    obtain rfl := (lists_iff rfl (socketEntry_numberOfProcessors hle)).mp hlists
    have heq : socketWalk topo i = (selectedCores topo i).flatten :=
      prefix_eq (walk_isPrefix _ _) (nodup_selectedCores h i) fun id hid =>
        (hids id).mpr (mem_selectedCores.mp hid)
    rw [← heq]
    exact hle
  · intro hle
    have heq : socketWalk topo i = (selectedCores topo i).flatten :=
      walk_of_le (Int.ofNat_le.mpr hle)
    have hlen : (socketWalk topo i).length ≤ processorsPerSocket topo := heq ▸ hle
    refine ⟨hlen, socketWalk topo i, (lists_iff rfl (socketEntry_numberOfProcessors hlen)).mpr rfl,
      fun id => ?_⟩
    rw [heq, mem_selectedCores]

/-! ## The cache domains -/

/-- What the cache domains of a socket take -/
def socketCaches (topo : CpuTopology) (i : ℕ) : List (List Int) :=
  cacheWalks (lastLevelCores topo) (lastLevelThreads topo) (lastLevelsPerSocket topo)
    (selectedCores topo i)

theorem lists_cacheEntry {j : ℕ} {ids : List Int} :
    (cacheEntry topo i j).Lists ids ↔ ids = walk (cacheCores topo i j) (lastLevelThreads topo) :=
  lists_iff rfl rfl

theorem has_cacheEntry {j : ℕ} :
    (cacheEntry topo i j).Has id ↔ id ∈ walk (cacheCores topo i j) (lastLevelThreads topo) := by
  constructor
  · rintro ⟨ids, hlists, hid⟩
    rwa [← lists_cacheEntry.mp hlists]
  · exact fun hid => ⟨_, lists_cacheEntry.mpr rfl, hid⟩

theorem mem_socketCaches {w : List Int} :
    w ∈ socketCaches topo i ↔ ∃ j < lastLevelsPerSocket topo,
      walk (cacheCores topo i j) (lastLevelThreads topo) = w := by
  rw [socketCaches, ← map_cacheOffset, List.mem_map]
  exact exists_congr fun j => and_congr_left fun _ => List.mem_range

theorem mem_cacheEntries {d : AffinityDomain} :
    d ∈ entries (cacheEntry topo) (lastLevelsPerSocket topo) topo.numSockets.toNat 0 ↔
      ∃ i < topo.numSockets.toNat, ∃ j < lastLevelsPerSocket topo, cacheEntry topo i j = d := by
  simp [entries]

/-- The domains keep to their lists, they are disjoint, and have all threads in the cpuset. -/
structure CachesPartition (topo : CpuTopology) (caches : List AffinityDomain) : Prop where
  inBounds : ∀ d ∈ caches, d.InBounds
  lists : ∀ d ∈ caches, ∃ ids, d.Lists ids
  disjoint : caches.Pairwise fun d d' => ∀ id, d.Has id → ¬d'.Has id
  cover : ∀ id, (∃ d ∈ caches, d.Has id) ↔ ∃ i < topo.numSockets.toNat, InSocket topo i id

theorem inSocket_of_has {j : ℕ} (h : (cacheEntry topo i j).Has id) : InSocket topo i id :=
  mem_selectedCores.mp (mem_flatten_of_drop ((walk_isPrefix _ _).mem (has_cacheEntry.mp h)))

theorem cachesPartition_iff_partitioned (h : topo.Consistent) :
    CachesPartition topo
        (entries (cacheEntry topo) (lastLevelsPerSocket topo) topo.numSockets.toNat 0) ↔
      ∀ i < topo.numSockets.toNat,
        Partitioned (lastLevelThreads topo) (socketCaches topo i)
          (selectedCores topo i).flatten := by
  have hsocket : ∀ i, (socketCaches topo i).Pairwise List.Disjoint ↔
      ((List.range (lastLevelsPerSocket topo)).map (cacheEntry topo i)).Pairwise
        fun d d' => ∀ id, d.Has id → ¬d'.Has id := by
    intro i
    rw [socketCaches, ← map_cacheOffset, List.pairwise_map, List.pairwise_map]
    refine List.Pairwise.iff fun {j j'} => forall_congr' fun id => ?_
    rw [has_cacheEntry, has_cacheEntry]
    exact Iff.rfl
  constructor
  · intro hp i hi
    refine ⟨fun w hw => ?_, ?_, fun id hid => ?_⟩
    · obtain ⟨j, hj, rfl⟩ := mem_socketCaches.mp hw
      exact (inBounds_iff rfl).mp (hp.inBounds _ (mem_cacheEntries.mpr ⟨i, hi, j, hj, rfl⟩))
    · have hdisjoint := hp.disjoint
      rw [entries, List.range_zero, List.map_nil, List.append_nil, List.pairwise_flatMap]
        at hdisjoint
      exact (hsocket i).mpr (hdisjoint.1 i (List.mem_range.mpr hi))
    · obtain ⟨d, hd, hhas⟩ := (hp.cover id).mpr ⟨i, hi, mem_selectedCores.mp hid⟩
      obtain ⟨i', hi', j, hj, rfl⟩ := mem_cacheEntries.mp hd
      obtain rfl := inSocket_unique h hi' hi (inSocket_of_has hhas) (mem_selectedCores.mp hid)
      exact ⟨_, mem_socketCaches.mpr ⟨j, hj, rfl⟩, has_cacheEntry.mp hhas⟩
  · intro hp
    refine ⟨fun d hd => ?_, fun d hd => ?_, ?_, fun id => ⟨?_, ?_⟩⟩
    · obtain ⟨i, hi, j, hj, rfl⟩ := mem_cacheEntries.mp hd
      exact (inBounds_iff rfl).mpr ((hp i hi).length_le _ (mem_socketCaches.mpr ⟨j, hj, rfl⟩))
    · obtain ⟨i, hi, j, hj, rfl⟩ := mem_cacheEntries.mp hd
      exact ⟨_, lists_cacheEntry.mpr rfl⟩
    · rw [entries, List.range_zero, List.map_nil, List.append_nil, List.pairwise_flatMap]
      refine ⟨fun i hi => (hsocket i).mp (hp i (List.mem_range.mp hi)).disjoint, ?_⟩
      refine List.pairwise_lt_range.imp_of_mem fun {i i'} hi hi' hlt d hd d' hd' id hhas hhas' => ?_
      obtain ⟨j, -, rfl⟩ := List.mem_map.mp hd
      obtain ⟨j', -, rfl⟩ := List.mem_map.mp hd'
      exact hlt.ne (inSocket_unique h (List.mem_range.mp hi) (List.mem_range.mp hi')
        (inSocket_of_has hhas) (inSocket_of_has hhas'))
    · rintro ⟨d, hd, hhas⟩
      obtain ⟨i, hi, j, hj, rfl⟩ := mem_cacheEntries.mp hd
      exact ⟨i, hi, inSocket_of_has hhas⟩
    · rintro ⟨i, hi, hid⟩
      obtain ⟨w, hw, hmem⟩ := (hp i hi).cover id (mem_selectedCores.mpr hid)
      obtain ⟨j, hj, rfl⟩ := mem_socketCaches.mp hw
      exact ⟨_, mem_cacheEntries.mpr ⟨i, hi, j, hj, rfl⟩, has_cacheEntry.mpr hmem⟩

/-- **The cache domains partition the threads** exactly if these fit to the caches of each
socket. -/
theorem cachesPartition_iff (h : topo.Consistent) (hcores : 0 < lastLevelCores topo) :
    CachesPartition topo
        (entries (cacheEntry topo) (lastLevelsPerSocket topo) topo.numSockets.toNat 0) ↔
      ∀ i < topo.numSockets.toNat, CachesFit (lastLevelCores topo) (lastLevelThreads topo)
        (lastLevelsPerSocket topo) (selectedCores topo i) := by
  have hle : lastLevelCores topo ≤ lastLevelThreads topo := Nat.div_le_self _ _
  rw [cachesPartition_iff_partitioned h]
  exact forall₂_congr fun i _ => partitioned_iff hle (hcores.trans_le hle)
    (nodup_selectedCores h i)

/-! ## The memory domains -/

theorem walk_eq_take (cores : List (List Int)) (n : Int) :
    ∃ c ≤ cores.length, walk cores n = (cores.take c).flatten ∧
      (c = cores.length ∨ ((cores.take c).flatten.length : Int) = n) := by
  induction cores generalizing n with
  | nil => exact ⟨0, le_rfl, rfl, Or.inl rfl⟩
  | cons core cores ih =>
      rw [walk]
      split
      · next hn => exact ⟨0, Nat.zero_le _, rfl, Or.inr hn.symm⟩
      · obtain ⟨c, hc, hwalk, hend⟩ := ih (n - core.length)
        refine ⟨c + 1, Nat.succ_le_succ hc, ?_, ?_⟩
        · rw [hwalk, List.take_succ_cons, List.flatten_cons]
        · rw [List.take_succ_cons, List.flatten_cons, List.length_append]
          push_cast
          rcases hend with heq | heq
          · exact Or.inl (congrArg Nat.succ heq)
          · exact Or.inr (by omega)

/-- A processor of node `k` that is in the cpuset -/
def OfNode (topo : CpuTopology) (numa : NumaTopology) (k : ℕ) (id : Int) : Prop :=
  (∃ node, numa.nodes[k]? = some node ∧ ∃ p ∈ node.processors, (p.toNat : Int) = id) ∧
    inCpuSet topo.threadPool id = some true

/-- The hardware threads of some cores, from the begin of the `j`-th node of socket `i` on,
are the processors of the node; and they are as many as the node has, or the last threads of
the socket. -/
def NodeFits (topo : CpuTopology) (numa : NumaTopology) (n i j : ℕ) : Prop :=
  ∃ c ≤ (memoryCores topo numa n i j).length,
    (∀ id, id ∈ ((memoryCores topo numa n i j).take c).flatten ↔
      OfNode topo numa (i * n + j) id) ∧
    (((memoryCores topo numa n i j).take c).flatten.length = nodeProcessors numa (i * n + j) ∨
      ((memoryCores topo numa n i j).take c).flatten.length ≤ nodeProcessors numa (i * n + j) ∧
        ((memoryCores topo numa n i j).drop c).flatten = [])

/-- **A memory domain holds the processors of its node** exactly if these fit. -/
theorem memoryEntry_holds (n i j : ℕ) :
    (memoryEntry topo numa n i j).InBounds ∧
        (memoryEntry topo numa n i j).Holds (OfNode topo numa (i * n + j)) ↔
      NodeFits topo numa n i j := by
  rw [inBounds_iff (d := memoryEntry topo numa n i j) rfl]
  constructor
  · rintro ⟨hle, ids, hlists, hids⟩
    obtain rfl := (lists_iff rfl rfl).mp hlists
    obtain ⟨c, hc, hwalk, hend⟩ := walk_eq_take (memoryCores topo numa n i j)
      (nodeProcessors numa (i * n + j))
    rw [hwalk] at hle hids
    refine ⟨c, hc, hids, ?_⟩
    rcases hend with rfl | heq
    · exact Or.inr ⟨hle, by rw [List.drop_length]; rfl⟩
    · exact Or.inl (Int.ofNat.inj heq)
  · rintro ⟨c, hc, hids, hend⟩
    have hwalk : walk (memoryCores topo numa n i j) (nodeProcessors numa (i * n + j)) =
        ((memoryCores topo numa n i j).take c).flatten := by
      rcases hend with heq | ⟨hle, hrest⟩
      · exact walk_take (congrArg Nat.cast heq)
      · have hall : ((memoryCores topo numa n i j).take c).flatten =
            (memoryCores topo numa n i j).flatten := by
          conv_rhs => rw [← List.take_append_drop c (memoryCores topo numa n i j),
            List.flatten_append, hrest, List.append_nil]
        rw [hall] at hle ⊢
        exact walk_of_le (Int.ofNat_le.mpr hle)
    refine ⟨?_, _, (lists_iff rfl rfl).mpr rfl, ?_⟩
    · rw [hwalk]
      exact hend.elim le_of_eq And.left
    · rw [hwalk]
      exact hids

/-! ## The lists of several sockets -/

/-- The threads of the first `m` sockets -/
def walks (topo : CpuTopology) (m : ℕ) : List Int := (List.range m).flatMap (socketWalk topo)

theorem walks_succ (m : ℕ) : walks topo (m + 1) = walks topo m ++ socketWalk topo m := by
  rw [walks, List.range_succ, List.flatMap_append, List.flatMap_singleton]
  rfl

theorem memoryList_fst (m : ℕ) : (memoryList topo m).1 = (walks topo m).length := by
  induction m with
  | zero => rfl
  | succ m ih => rw [memoryList, ih, walks_succ, List.length_append]

theorem nodeList_fst (m : ℕ) : (nodeList topo m).1 = (walks topo m).length := by
  induction m with
  | zero => rfl
  | succ m ih => rw [nodeList, ih, walks_succ, List.length_append]

theorem length_walks_le (topo : CpuTopology) {m m' : ℕ} (h : m ≤ m') :
    (walks topo m).length ≤ (walks topo m').length := by
  induction h with
  | refl => exact le_rfl
  | step _ ih =>
      rw [walks_succ, List.length_append]
      omega

theorem length_le_of_nodup {ids : List Int} {n : ℕ} (hnodup : ids.Nodup)
    (h : ∀ id ∈ ids, 0 ≤ id ∧ id < n) : ids.length ≤ n := by
  have hsub : ids ⊆ (List.range n).map Int.ofNat := by
    intro id hid
    obtain ⟨hge, hlt⟩ := h id hid
    refine List.mem_map.mpr ⟨id.toNat, List.mem_range.mpr (by omega), Int.toNat_of_nonneg hge⟩
  have hlen := (List.subperm_of_subset hnodup hsub).length_le
  rwa [List.length_map, List.length_range] at hlen

theorem walk_index (h : topo.Consistent) {n : Int} (hid : id ∈ walk (selectedCores topo i) n) :
    0 ≤ id ∧ id < topo.threadPool.length :=
  h.index i id (mem_of_mem_walk 0 hid)

theorem nodup_walk (h : topo.Consistent) (i : ℕ) (n : Int) :
    (walk (selectedCores topo i) n).Nodup :=
  (walk_isPrefix _ _).sublist.nodup (nodup_selectedCores h i)

theorem nodup_walks (h : topo.Consistent) : (walks topo topo.numSockets.toNat).Nodup := by
  refine List.nodup_flatMap.mpr ⟨fun i _ => nodup_walk h i _, ?_⟩
  refine List.pairwise_lt_range.imp_of_mem fun {i i'} hi hi' hlt id hid hid' => ?_
  exact disjoint_coresOf h hlt (List.mem_range.mp hi') (mem_of_mem_walk 0 hid)
    (mem_of_mem_walk 0 hid')

/-- The list of the node has room for all threads. -/
theorem nodeEntry_inBounds (h : topo.Consistent) : (nodeEntry topo).InBounds := by
  by_cases hmany : 1 < topo.numSockets.toNat
  · have hlen : (walks topo topo.numSockets.toNat).length ≤ topo.threadPool.length := by
      refine length_le_of_nodup (nodup_walks h) fun id hid => ?_
      obtain ⟨i, -, hmem⟩ := List.mem_flatMap.mp hid
      exact walk_index h hmem
    have hnone : ∀ m, ∀ p, (walks topo m).length ≤ p → (nodeList topo m).2 p = none := by
      intro m
      induction m with
      | zero => exact fun _ _ => rfl
      | succ m ih =>
          intro p hp
          rw [walks_succ, List.length_append] at hp
          show writeEntries (nodeList topo m).1 (socketWalk topo m) (nodeList topo m).2 p = none
          rw [writeEntries, nodeList_fst, if_neg (by omega)]
          exact ih p (by omega)
    intro p hp
    have hlist : (nodeEntry topo).processorList = (nodeList topo topo.numSockets.toNat).2 :=
      if_pos hmany
    rw [hlist]
    have hsize : topo.numHWThreads.toNat ≤ p := hp
    exact hnone _ p (by rw [h.numHWThreads] at hsize; omega)
  · refine (inBounds_iff (w := walk (selectedCores topo 0) topo.activeHWThreads.toNat) ?_).mpr ?_
    · exact if_neg hmany
    · show _ ≤ topo.numHWThreads.toNat
      rw [h.numHWThreads]
      exact length_le_of_nodup (nodup_walk h 0 _) fun id hid => walk_index h hid

/-! ## The only memory domain -/

/-- Before the last socket with threads in the cpuset, all sockets have as many threads there
as are counted for a socket. -/
def NoGaps (topo : CpuTopology) : Prop :=
  ∀ i i', i < i' → i' < topo.numSockets.toNat → (selectedCores topo i').flatten ≠ [] →
    (selectedCores topo i).flatten.length = processorsPerSocket topo

/-- The place of a socket in the list -/
theorem memoryList_snd {m : ℕ}
    (hle : ∀ i < m, (socketWalk topo i).length ≤ processorsPerSocket topo) :
    (∀ i < m, ∀ q < processorsPerSocket topo,
      (memoryList topo m).2 (i * processorsPerSocket topo + q) = (socketWalk topo i)[q]?) ∧
    ∀ p, m * processorsPerSocket topo ≤ p → (memoryList topo m).2 p = none := by
  induction m with
  | zero => exact ⟨fun i hi => absurd hi (Nat.not_lt_zero i), fun _ _ => rfl⟩
  | succ m ih =>
      obtain ⟨hentry, hnone⟩ := ih fun i hi => hle i (Nat.lt_succ_of_lt hi)
      have hstep : ∀ p, (memoryList topo (m + 1)).2 p =
          if m * processorsPerSocket topo ≤ p ∧
              p < m * processorsPerSocket topo + (socketWalk topo m).length then
            (socketWalk topo m)[p - m * processorsPerSocket topo]?
          else (memoryList topo m).2 p := fun _ => rfl
      constructor
      · intro i hi q hq
        rw [hstep]
        rcases Nat.lt_succ_iff_lt_or_eq.mp hi with hlt | rfl
        · have hbefore := group_lt (n := processorsPerSocket topo) hlt hq
          rw [if_neg (by omega), hentry i hlt q hq]
        · rw [Nat.add_sub_cancel_left]
          split
          · rfl
          · next hno =>
              rw [hnone _ (Nat.le_add_right _ _), List.getElem?_eq_none (by omega)]
      · intro p hp
        rw [Nat.succ_mul] at hp
        have hlen := hle m (Nat.lt_succ_self m)
        rw [hstep, if_neg (by omega), hnone p (by omega)]

theorem length_walks_of_full {m : ℕ}
    (h : ∀ i < m, (socketWalk topo i).length = processorsPerSocket topo) :
    (walks topo m).length = m * processorsPerSocket topo := by
  induction m with
  | zero => rw [Nat.zero_mul]; rfl
  | succ m ih =>
      rw [walks_succ, List.length_append, ih fun i hi => h i (Nat.lt_succ_of_lt hi),
        h m (Nat.lt_succ_self m), Nat.succ_mul]

/-- Without gaps, the list has the threads of the sockets, one after the other. -/
theorem memoryList_walks (topo : CpuTopology) (m : ℕ)
    (h : ∀ i i', i < i' → i' < m → socketWalk topo i' ≠ [] →
      (socketWalk topo i).length = processorsPerSocket topo) :
    ∀ p < (walks topo m).length, (memoryList topo m).2 p = (walks topo m)[p]? := by
  induction m with
  | zero => exact fun p hp => absurd hp (Nat.not_lt_zero p)
  | succ m ih =>
      have hrest := ih fun i i' hi hi' => h i i' hi (Nat.lt_succ_of_lt hi')
      intro p hp
      show writeEntries (m * processorsPerSocket topo) (socketWalk topo m) (memoryList topo m).2 p
        = _
      rw [walks_succ, writeEntries]
      rw [walks_succ, List.length_append] at hp
      cases hwalk : socketWalk topo m with
      | nil =>
          rw [hwalk, List.length_nil] at hp
          rw [if_neg (by rw [List.length_nil]; omega), List.append_nil]
          exact hrest p (by omega)
      | cons id ids =>
          have hfull : (walks topo m).length = m * processorsPerSocket topo :=
            length_walks_of_full fun i hi =>
              h i m hi (Nat.lt_succ_self m) (by rw [hwalk]; exact List.cons_ne_nil _ _)
          rw [hwalk] at hp
          rw [← hfull]
          rcases Nat.lt_or_ge p (walks topo m).length with hlt | hge
          · rw [if_neg (by omega), List.getElem?_append_left hlt]
            exact hrest p hlt
          · rw [if_pos ⟨hge, hp⟩, List.getElem?_append_right hge]

theorem socketWalk_of_le {i : ℕ}
    (hle : (selectedCores topo i).flatten.length ≤ processorsPerSocket topo) :
    socketWalk topo i = (selectedCores topo i).flatten := walk_of_le (Int.ofNat_le.mpr hle)

/-- **The only memory domain holds the processors of the only node** exactly if there are no
gaps and the node has all hardware threads in the cpuset. -/
theorem onlyMemoryEntry_holds
    (hle : ∀ i < topo.numSockets.toNat,
      (selectedCores topo i).flatten.length ≤ processorsPerSocket topo) :
    (onlyMemoryEntry topo).InBounds ∧ (onlyMemoryEntry topo).Holds (OfNode topo numa 0) ↔
      NoGaps topo ∧ ∀ id, (∃ i < topo.numSockets.toNat, InSocket topo i id) ↔
        OfNode topo numa 0 id := by
  have hwalk : ∀ i < topo.numSockets.toNat,
      socketWalk topo i = (selectedCores topo i).flatten := fun i hi => socketWalk_of_le (hle i hi)
  have hlen : ∀ i < topo.numSockets.toNat,
      (socketWalk topo i).length ≤ processorsPerSocket topo := fun i hi => hwalk i hi ▸ hle i hi
  obtain ⟨hentry, hnone⟩ := memoryList_snd hlen
  have hbounds : (onlyMemoryEntry topo).InBounds := fun p hp =>
    hnone p (Nat.mul_comm _ _ ▸ (show processorsPerSocket topo * topo.numSockets.toNat ≤ p from hp))
  have hmem : ∀ id, id ∈ walks topo topo.numSockets.toNat ↔
      ∃ i < topo.numSockets.toNat, InSocket topo i id := by
    intro id
    rw [walks, List.mem_flatMap]
    constructor
    · rintro ⟨i, hi, hid⟩
      rw [hwalk i (List.mem_range.mp hi), mem_selectedCores] at hid
      exact ⟨i, List.mem_range.mp hi, hid⟩
    · rintro ⟨i, hi, hid⟩
      refine ⟨i, List.mem_range.mpr hi, ?_⟩
      rwa [hwalk i hi, mem_selectedCores]
  rw [and_iff_right hbounds]
  constructor
  · rintro ⟨ids, hlists, hids⟩
    have hcount : ids.length = (walks topo topo.numSockets.toNat).length :=
      hlists.length.trans (memoryList_fst _)
    have hgaps : NoGaps topo := by
      intro i
      induction i using Nat.strong_induction_on with
      | _ i ih =>
          intro i' hlt hi' hne
          by_contra hno
          have hi : i < topo.numSockets.toNat := hlt.trans hi'
          have hsmall : (socketWalk topo i).length < processorsPerSocket topo :=
            lt_of_le_of_ne (hlen i hi) fun heq => hno (by rw [← hwalk i hi, heq])
          -- the sockets before the gap are full, so it is before the end of the list
          have hfull : (walks topo i).length = i * processorsPerSocket topo :=
            length_walks_of_full fun i'' hi'' => by
              rw [hwalk i'' (hi''.trans hi)]
              exact ih i'' hi'' i' (hi''.trans hlt) hi' hne
          have hlater : 0 < (socketWalk topo i').length := by
            rw [hwalk i' hi']
            exact List.length_pos_of_ne_nil hne
          have hupto := length_walks_le topo (Nat.succ_le_of_lt hlt)
          have htotal := length_walks_le topo (Nat.succ_le_of_lt hi')
          rw [Nat.succ_eq_add_one, walks_succ, List.length_append, hfull] at hupto
          rw [Nat.succ_eq_add_one, walks_succ, List.length_append] at htotal
          have hp : i * processorsPerSocket topo + (socketWalk topo i).length < ids.length := by
            omega
          have hget := hlists.entry _ hp
          rw [List.getElem?_eq_getElem hp] at hget
          have hempty := hentry i hi _ hsmall
          rw [List.getElem?_eq_none le_rfl] at hempty
          exact absurd (hempty.symm.trans hget) (by simp)
    have hlist := memoryList_walks topo topo.numSockets.toNat
      fun i i' hlt hi' hne => by
        rw [hwalk i (hlt.trans hi')]
        exact hgaps i i' hlt hi' (hwalk i' hi' ▸ hne)
    have heq : ids = walks topo topo.numSockets.toNat := by
      refine List.ext_getElem? fun p => ?_
      rcases Nat.lt_or_ge p ids.length with hlt | hge
      · rw [← hlists.entry p hlt]
        exact hlist p (hcount ▸ hlt)
      · rw [List.getElem?_eq_none hge, List.getElem?_eq_none (hcount ▸ hge)]
    exact ⟨hgaps, fun id => by rw [← hmem, ← heq, hids]⟩
  · rintro ⟨hgaps, hids⟩
    have hlist := memoryList_walks topo topo.numSockets.toNat
      fun i i' hlt hi' hne => by
        rw [hwalk i (hlt.trans hi')]
        exact hgaps i i' hlt hi' (hwalk i' hi' ▸ hne)
    exact ⟨walks topo topo.numSockets.toNat, ⟨(memoryList_fst _).symm, hlist⟩,
      fun id => (hmem id).trans (hids id)⟩

/-! ## All domains -/

/-- What the entries of a table of domains hold -/
structure DomainsHold (topo : CpuTopology) (numa : NumaTopology) (numberOfCacheDomains : ℕ)
    (ds : List AffinityDomain) : Prop where
  inBounds : ∀ d ∈ ds, d.InBounds
  sockets : ∀ i < topo.numSockets.toNat, ∃ d, ds[1 + i]? = some d ∧ d.Holds (InSocket topo i)
  caches : CachesPartition topo ((ds.drop (1 + topo.numSockets.toNat)).take numberOfCacheDomains)
  memory : ∀ k < numa.nodes.length, ∃ d,
    ds[1 + topo.numSockets.toNat + numberOfCacheDomains + k]? = some d ∧
      d.Holds (OfNode topo numa k)

/-- **The domains**: all are built, and hold what they stand for. -/
def BuildsDomains (topo : CpuTopology) (numa : NumaTopology) (core2node : ℕ → Int) : Prop :=
  ∃ a c ds, affinityInit topo numa core2node = some (a, c) ∧ a.domains = ds.map some ∧
    DomainsHold topo numa a.numberOfCacheDomains ds

/-- The machine is regular, and the hardware threads in the cpuset fit to the sockets, to the
caches and to the nodes. -/
structure RegularDomains (topo : CpuTopology) (numa : NumaTopology) : Prop
    extends RegularMachine topo numa where
  socketThreads : ∀ i < topo.numSockets.toNat,
    (selectedCores topo i).flatten.length ≤ processorsPerSocket topo
  cacheThreads : ∀ i < topo.numSockets.toNat, CachesFit (lastLevelCores topo)
    (lastLevelThreads topo) (lastLevelsPerSocket topo) (selectedCores topo i)
  nodeThreads : numa.nodes.length ≠ 1 → ∀ i < topo.numSockets.toNat,
    ∀ j < numa.nodes.length / topo.numSockets.toNat,
      NodeFits topo numa (numa.nodes.length / topo.numSockets.toNat) i j
  onlyNode : numa.nodes.length = 1 → NoGaps topo ∧
    ∀ id, (∃ i < topo.numSockets.toNat, InSocket topo i id) ↔ OfNode topo numa 0 id

theorem entries_prefix (entry : ℕ → ℕ → AffinityDomain) {n i j m : ℕ} (hi : i < m) (hj : j < n) :
    entries entry n i j ++ [entry i j] <+: entries entry n m 0 := by
  induction m with
  | zero => exact absurd hi (Nat.not_lt_zero i)
  | succ m ih =>
      rw [entries_next]
      have hrow : ∀ {j j' : ℕ}, j ≤ j' → entries entry n m j <+: entries entry n m j' := by
        intro j j' hle
        induction hle with
        | refl => exact List.prefix_rfl
        | step _ ih => exact ih.trans (entries_succ entry n m _ ▸ List.prefix_append _ _)
      rcases Nat.lt_succ_iff_lt_or_eq.mp hi with hlt | rfl
      · exact (ih hlt).trans (hrow (Nat.zero_le n))
      · rw [← entries_succ]
        exact hrow hj

theorem getElem?_entries (entry : ℕ → ℕ → AffinityDomain) {n i j m : ℕ} (hi : i < m)
    (hj : j < n) : (entries entry n m 0)[i * n + j]? = some (entry i j) := by
  obtain ⟨rest, hrest⟩ := entries_prefix entry hi hj
  rw [← hrest, List.append_assoc, List.getElem?_append_right (length_entries _ _ _ _).le,
    length_entries, Nat.sub_self]
  rfl

theorem getElem?_socketEntries (hi : i < topo.numSockets.toNat) :
    (cacheEntries topo ++ memoryEntries topo numa)[1 + i]? = some (socketEntry topo i) := by
  have hlt : 1 + i < (socketEntries topo).length := by
    rw [length_socketEntries]
    omega
  rw [cacheEntries, List.append_assoc, List.getElem?_append_left hlt, socketEntries,
    Nat.add_comm, List.getElem?_cons_succ, List.getElem?_map, List.getElem?_range hi]
  rfl

theorem cacheEntries_segment :
    ((cacheEntries topo ++ memoryEntries topo numa).drop (1 + topo.numSockets.toNat)).take
        (domainCounts topo numa).numberOfCacheDomains =
      entries (cacheEntry topo) (lastLevelsPerSocket topo) topo.numSockets.toNat 0 := by
  have hlen : (entries (cacheEntry topo) (lastLevelsPerSocket topo)
      topo.numSockets.toNat 0).length = (domainCounts topo numa).numberOfCacheDomains := by
    rw [length_entries]
    rfl
  rw [cacheEntries, List.append_assoc, ← length_socketEntries, List.drop_left, ← hlen,
    List.take_left]

theorem getElem?_memoryEntries (k : ℕ) :
    (cacheEntries topo ++ memoryEntries topo numa)[1 + topo.numSockets.toNat +
        (domainCounts topo numa).numberOfCacheDomains + k]? = (memoryEntries topo numa)[k]? := by
  have hbase : 1 + topo.numSockets.toNat + (domainCounts topo numa).numberOfCacheDomains =
      (cacheEntries topo).length := length_cacheEntries.symm
  rw [hbase, List.getElem?_append_right (Nat.le_add_right _ _), Nat.add_sub_cancel_left]

theorem exists_group {k n m : ℕ} (hk : k < m * n) : ∃ i < m, ∃ j < n, k = i * n + j := by
  have hn : 0 < n := Nat.pos_of_ne_zero fun hz => by rw [hz, Nat.mul_zero] at hk; omega
  refine ⟨k / n, Nat.div_lt_of_lt_mul (Nat.mul_comm m n ▸ hk), k % n, Nat.mod_lt k hn, ?_⟩
  rw [Nat.mul_comm]
  exact (Nat.div_add_mod k n).symm

/-- What holds of the domains, when they are as the table has them -/
theorem regularDomains_of_hold (h : topo.Consistent) (hreg : RegularMachine topo numa)
    (hold : DomainsHold topo numa (domainCounts topo numa).numberOfCacheDomains
      (cacheEntries topo ++ memoryEntries topo numa)) : RegularDomains topo numa := by
  have hsockets : ∀ i < topo.numSockets.toNat,
      (selectedCores topo i).flatten.length ≤ processorsPerSocket topo := by
    intro i hi
    obtain ⟨d, hget, hholds⟩ := hold.sockets i hi
    have hbounds := hold.inBounds d (List.mem_of_getElem? hget)
    rw [getElem?_socketEntries hi] at hget
    obtain rfl := Option.some.inj hget
    exact (socketEntry_holds h i).mp ⟨hbounds, hholds⟩
  have hcaches := hold.caches
  rw [cacheEntries_segment] at hcaches
  have hmemory : ∀ k < numa.nodes.length, ∃ d, (memoryEntries topo numa)[k]? = some d ∧
      d.InBounds ∧ d.Holds (OfNode topo numa k) := by
    intro k hk
    obtain ⟨d, hget, hholds⟩ := hold.memory k hk
    have hbounds := hold.inBounds d (List.mem_of_getElem? hget)
    rw [getElem?_memoryEntries] at hget
    exact ⟨d, hget, hbounds, hholds⟩
  refine ⟨hreg, hsockets, (cachesPartition_iff h hreg.lastLevel).mp hcaches, ?_, ?_⟩
  · intro hone i hi j hj
    have hk : i * (numa.nodes.length / topo.numSockets.toNat) + j < numa.nodes.length := by
      have hlt := group_lt hi hj
      rwa [Nat.mul_div_cancel' (hreg.nodes.resolve_left hone).2] at hlt
    obtain ⟨d, hget, hbounds, hholds⟩ := hmemory _ hk
    rw [memoryEntries, if_neg hone, getElem?_entries _ hi hj] at hget
    obtain rfl := Option.some.inj hget
    exact (memoryEntry_holds _ i j).mp ⟨hbounds, hholds⟩
  · intro hone
    obtain ⟨d, hget, hbounds, hholds⟩ := hmemory 0 (by omega)
    rw [memoryEntries, if_pos hone] at hget
    obtain rfl := Option.some.inj hget
    exact (onlyMemoryEntry_holds hsockets).mp ⟨hbounds, hholds⟩

theorem hold_of_regularDomains (h : topo.Consistent) (hreg : RegularDomains topo numa) :
    DomainsHold topo numa (domainCounts topo numa).numberOfCacheDomains
      (cacheEntries topo ++ memoryEntries topo numa) := by
  have hcaches := (cachesPartition_iff h hreg.lastLevel).mpr hreg.cacheThreads
  have hmemory : ∀ k < numa.nodes.length, ∃ d, (memoryEntries topo numa)[k]? = some d ∧
      d.InBounds ∧ d.Holds (OfNode topo numa k) := by
    intro k hk
    rw [memoryEntries]
    split
    · next hone =>
        obtain rfl : k = 0 := by omega
        exact ⟨_, rfl, (onlyMemoryEntry_holds hreg.socketThreads).mpr (hreg.onlyNode hone)⟩
    · next hone =>
        have hmul := Nat.mul_div_cancel' (hreg.nodes.resolve_left hone).2
        obtain ⟨i, hi, j, hj, rfl⟩ := exists_group (hmul.symm ▸ hk)
        exact ⟨_, getElem?_entries _ hi hj,
          (memoryEntry_holds _ i j).mpr (hreg.nodeThreads hone i hi j hj)⟩
  refine ⟨fun d hd => ?_, fun i hi => ?_, ?_, fun k hk => ?_⟩
  · rcases List.mem_append.mp hd with hd | hd
    · rcases List.mem_append.mp hd with hd | hd
      · rcases List.mem_cons.mp hd with rfl | hd
        · exact nodeEntry_inBounds h
        · obtain ⟨i, hi, rfl⟩ := List.mem_map.mp hd
          exact ((socketEntry_holds h i).mpr (hreg.socketThreads i (List.mem_range.mp hi))).1
      · exact hcaches.inBounds d hd
    · obtain ⟨k, hk, hget⟩ := List.mem_iff_getElem.mp hd
      obtain ⟨d', hget', hbounds, -⟩ :=
        hmemory k (length_memoryEntries hreg.toRegularMachine ▸ hk)
      rw [List.getElem?_eq_getElem hk, hget] at hget'
      exact Option.some.inj hget' ▸ hbounds
  · exact ⟨_, getElem?_socketEntries hi, ((socketEntry_holds h i).mpr (hreg.socketThreads i hi)).2⟩
  · rw [cacheEntries_segment]
    exact hcaches
  · obtain ⟨d, hget, -, hholds⟩ := hmemory k hk
    exact ⟨d, by rw [getElem?_memoryEntries, hget], hholds⟩

/-- **The domains are built** exactly on regular machines, when the hardware threads in the
cpuset fit. -/
theorem buildsDomains_iff (h : topo.Consistent)
    (hlen : numa.nodes.length = numa.numberOfNodes.toNat) (core2node : ℕ → Int) :
    BuildsDomains topo numa core2node ↔ RegularDomains topo numa := by
  constructor
  · rintro ⟨a, c, ds, hrun, hds, hold⟩
    have hreg := regularMachine_of_run h hlen hrun hds
    obtain ⟨c', hrun'⟩ := affinityInit_regular h hlen hreg core2node
    rw [hrun'] at hrun
    obtain ⟨rfl, rfl⟩ := Prod.mk.inj (Option.some.inj hrun)
    obtain rfl := List.map_injective_iff.mpr (Option.some_injective _) hds
    exact regularDomains_of_hold h hreg hold
  · intro hreg
    obtain ⟨c, hrun⟩ := affinityInit_regular h hlen hreg.toRegularMachine core2node
    exact ⟨_, c, _, hrun, rfl, hold_of_regularDomains h hreg⟩

/-- A socket with four cores and two last level caches; the first core is not in the
cpuset. -/
def fourCores : CpuTopology where
  numHWThreads := 4
  activeHWThreads := 3
  numSockets := 1
  numCoresPerSocket := 4
  numThreadsPerCore := 1
  numCacheLevels := 1
  threadPool := [⟨0, 0, 0, 0, 0⟩, ⟨0, 1, 0, 1, 1⟩, ⟨0, 2, 0, 2, 1⟩, ⟨0, 3, 0, 3, 1⟩]
  cacheLevels := [⟨2, .unifiedCache, 8, 512, 64, 262144, 2, 0⟩]
  topologyTree := .node 0 (.node 0 (.node 0 (.node 0 .null .null) (.node 1 (.node 1 .null .null)
    (.node 2 (.node 2 .null .null) (.node 3 (.node 3 .null .null) .null)))) .null) .null

theorem AffinityDomain.Lists.has {ids : List Int} {p : ℕ} (h : d.Lists ids)
    (hp : p < d.numberOfProcessors) (hid : d.processorList p = some id) : d.Has id := by
  have hlt : p < ids.length := h.length ▸ hp
  exact ⟨ids, h, List.mem_of_getElem? ((h.entry p hlt).symm.trans hid)⟩

/-- The walk for the first cache runs on into the second, and hardware thread 2 is in both
domains. -/
theorem not_buildsDomains_fourCores :
    ¬BuildsDomains fourCores (numaNodes [[0, 1, 2, 3]]) fun _ => 0 := by
  rintro ⟨a, c, ds, hrun, hds, hold⟩
  have hcount : (affinityInit fourCores (numaNodes [[0, 1, 2, 3]]) fun _ => 0).map
      (·.1.numberOfCacheDomains) = some 2 := by decide +kernel
  have hfirst : (affinityInit fourCores (numaNodes [[0, 1, 2, 3]]) fun _ => 0).map (fun r =>
      (r.1.domains[2]?.bind id).map fun d => (d.numberOfProcessors, d.processorList 1)) =
      some (some (2, some 2)) := by decide +kernel
  have hsecond : (affinityInit fourCores (numaNodes [[0, 1, 2, 3]]) fun _ => 0).map (fun r =>
      (r.1.domains[3]?.bind id).map fun d => (d.numberOfProcessors, d.processorList 0)) =
      some (some (2, some 2)) := by decide +kernel
  rw [hrun] at hcount hfirst hsecond
  have hget : ∀ n : ℕ, a.domains[n]?.bind id = ds[n]? := by
    intro n
    rw [hds, List.getElem?_map]
    cases ds[n]? <;> rfl
  have hcaches := hold.caches
  rw [show a.numberOfCacheDomains = 2 from Option.some.inj hcount] at hcaches
  obtain ⟨d, hd, hdlist⟩ := Option.map_eq_some_iff.mp (Option.some.inj hfirst)
  obtain ⟨d', hd', hdlist'⟩ := Option.map_eq_some_iff.mp (Option.some.inj hsecond)
  rw [hget] at hd hd'
  obtain ⟨hnumber, hentry⟩ := Prod.mk.inj hdlist
  obtain ⟨hnumber', hentry'⟩ := Prod.mk.inj hdlist'
  have hsegment : (ds.drop 2).take 2 = [d, d'] := by
    refine List.ext_getElem? fun n => ?_
    match n with
    | 0 => simpa [List.getElem?_take, List.getElem?_drop] using hd
    | 1 => simpa [List.getElem?_drop] using hd'
    | n + 2 => simp
  rw [show 1 + fourCores.numSockets.toNat = 2 from rfl, hsegment] at hcaches
  obtain ⟨ids, hids⟩ := hcaches.lists d (by simp)
  obtain ⟨ids', hids'⟩ := hcaches.lists d' (by simp)
  exact (List.pairwise_cons.mp hcaches.disjoint).1 d' (by simp) 2
    (hids.has (by rw [hnumber]; decide) hentry) (hids'.has (by rw [hnumber']; decide) hentry')

theorem ofNode_twoNodes {k : ℕ} (hk : k < 2) (id : Int) :
    id ∈ [(k : Int)] ↔ OfNode twoSockets (numaNodes [[0], [1]]) k id := by
  rw [List.mem_singleton]
  constructor
  · rintro rfl
    match k, hk with
    | 0, _ => exact ⟨⟨_, rfl, 0, by decide, rfl⟩, by decide⟩
    | 1, _ => exact ⟨⟨_, rfl, 1, by decide, rfl⟩, by decide⟩
  · rintro ⟨⟨node, hnode, p, hp, rfl⟩, -⟩
    match k, hk with
    | 0, _ | 1, _ =>
      obtain rfl := Option.some.inj hnode
      rw [List.mem_singleton.mp hp]
      rfl

theorem buildsDomains_twoNodes :
    BuildsDomains twoSockets (numaNodes [[0], [1]]) fun _ => 0 := by
  refine (buildsDomains_iff consistent_twoSockets rfl _).mpr
    ⟨⟨by decide, by decide, by unfold CacheStart; decide, by unfold MemoryStart; decide⟩,
      by decide, fun i hi => ?_, fun _ i hi j hj => ?_, nofun⟩
  · show (selectedCores twoSockets i).flatten.length ≤ 1
    match i, hi with
    | 0, _ => decide
    | 1, _ => decide
  · obtain rfl : j = 0 := Nat.lt_one_iff.mp hj
    match i, hi with
    | 0, _ => exact ⟨1, by decide, ofNode_twoNodes (by decide), Or.inl rfl⟩
    | 1, _ => exact ⟨1, by decide, ofNode_twoNodes (by decide), Or.inl rfl⟩

end Likwid
