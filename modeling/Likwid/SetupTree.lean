import Likwid.TopologyTypes
import Mathlib.Data.List.Perm.Subperm

/-!
# Building the topology tree (`topology.c`)

`topology_setupTree` goes through the thread pool and puts the socket, the core and the
id of every hardware thread into the tree, unless they are there. It does not ask for the
cpuset: the tree has the paths of all hardware threads, each once, and no other
(`setsUpTree`).
-/

namespace Likwid

/-- What `topology_setupTree` writes besides the counts; `thread2tile` is
`affinity_thread2tile_lookup[MAX_NUM_THREADS]`. -/
structure SetupTree where
  topologyTree : TreeNode
  thread2tile : ℕ → Int

/-- `if (!tree_nodeExists(nodePtr, id)) tree_insertNode(nodePtr, id);` and whether it was
inserted -/
def insertMissing (id : Int) (t : TreeNode) : Option (Bool × TreeNode) :=
  if treeNodeExists t id then some (false, t) else (treeInsertNode t id).map (true, ·)

/-- The body of the loop of `topology_setupTree` -/
def addThread (s : SetupTree) (hwThread : HWThread) : Option SetupTree := do
  let (_, tree) ← insertMissing hwThread.packageId.toInt s.topologyTree
  let (inserted, tree) ← atNode hwThread.packageId.toInt (fun socket => do
    let (_, socket) ← insertMissing hwThread.coreId.toInt socket
    atNode hwThread.coreId.toInt (insertMissing hwThread.apicId.toInt) socket) tree
  if inserted then
    if hwThread.apicId.toNat < maxNumThreads then
      some
        { topologyTree := tree
          thread2tile := Function.update s.thread2tile hwThread.apicId.toNat
            hwThread.coreId.toInt }
    else none
  else some { s with topologyTree := tree }

/-- `topology_setupTree` -/
def topologySetupTree (thread2tile : ℕ → Int) (topo : CpuTopology) :
    Option (CpuTopology × (ℕ → Int)) := do
  let s ← topo.threadPool.foldlM addThread ⟨treeInit 0, thread2tile⟩
  let currentNode := treeGetChildNode s.topologyTree
  let numCoresPerSocket := treeCountChildren currentNode
  let numThreadsPerCore := treeCountChildren (treeGetChildNode currentNode)
  some (
    { topo with
      topologyTree := s.topologyTree
      numSockets := BitVec.ofNat 32 (treeCountChildren s.topologyTree)
      numCoresPerSocket := BitVec.ofNat 32 numCoresPerSocket
      numThreadsPerCore := BitVec.ofNat 32 numThreadsPerCore }, s.thread2tile)

/-! ## One level -/

variable {i id : Int} {l r t : TreeNode}

theorem insertMissing_spec (h : Row (row l)) (i : Int) (r : TreeNode) (id : Int) :
    ∃ inserted l', insertMissing id (.node i l r) = some (inserted, .node i l' r) ∧
      Row (row l') ∧ id ∈ keys (row l') ∧ (inserted = false → l' = l) ∧
      ∀ k, k ∈ row l' ↔ k ∈ row l ∨ id ∉ keys (row l) ∧ k = (id, .null) := by
  unfold insertMissing
  by_cases hid : id ∈ keys (row l)
  · rw [if_pos (treeNodeExists_iff.mpr hid)]
    exact ⟨false, l, rfl, h, hid, fun _ => rfl, fun k => by simp [hid]⟩
  · obtain ⟨l', hinsert, hrow⟩ := treeInsertNode_node (i := i) r hid
    have hmem : ∀ k, k ∈ row l' ↔ k = (id, .null) ∨ k ∈ row l := by
      intro k
      rw [hrow, (insertRow_perm id (row l)).mem_iff, List.mem_cons]
    have hnew : ¬treeNodeExists (.node i l r) id = true := fun hex =>
      hid (treeNodeExists_iff.mp hex)
    rw [if_neg hnew, hinsert]
    refine ⟨true, l', rfl, hrow ▸ h.insert hid, ?_, nofun, fun k => ?_⟩
    · exact List.mem_map.mpr ⟨(id, .null), (hmem _).mpr (Or.inl rfl), rfl⟩
    · rw [hmem]
      simp [hid, or_comm]

theorem mem_keys {ks : List (Int × TreeNode)} : id ∈ keys ks ↔ ∃ l, (id, l) ∈ ks := by
  simp [keys]

/-- A change below one child leaves the others alone. -/
theorem atRow_spec {α : Type} {f : TreeNode → Option (α × TreeNode)} {Q : TreeNode → Prop}
    (hnodup : (keys (row t)).Nodup) (hl : (id, l) ∈ row t)
    (hf : ∀ r, ∃ a l', f (.node id l r) = some (a, .node id l' r) ∧ Q l') :
    ∃ a t' l', atRow id f t = some (a, t') ∧ Q l' ∧ keys (row t') = keys (row t) ∧
      ∀ k, k ∈ row t' ↔ k ∈ row t ∧ k.1 ≠ id ∨ k = (id, l') := by
  induction t with
  | null => cases hl
  | node j m s _ ih =>
      rw [row_node, keys_cons, List.nodup_cons] at hnodup
      rcases List.mem_cons.mp hl with heq | hmem
      · obtain ⟨rfl, rfl⟩ := Prod.mk.inj heq
        obtain ⟨a, l', hfl, hQ⟩ := hf s
        refine ⟨a, .node id l' s, l', by rw [atRow, if_pos rfl, hfl], hQ, rfl, fun k => ?_⟩
        have hother : k ∈ row s → k.1 ≠ id := by
          rintro hk rfl
          exact hnodup.1 (mem_keys.mpr ⟨k.2, hk⟩)
        rw [row_node, row_node, List.mem_cons, List.mem_cons]
        constructor
        · rintro (rfl | hk)
          · exact Or.inr rfl
          · exact Or.inl ⟨Or.inr hk, hother hk⟩
        · rintro (⟨rfl | hk, hne⟩ | rfl)
          · exact absurd rfl hne
          · exact Or.inr hk
          · exact Or.inl rfl
      · have hne : j ≠ id := by
          rintro rfl
          exact hnodup.1 (mem_keys.mpr ⟨l, hmem⟩)
        obtain ⟨a, s', l', hat, hQ, hkeys, hspec⟩ := ih hnodup.2 hmem
        refine ⟨a, .node j m s', l', by rw [atRow, if_neg hne, hat]; rfl, hQ, ?_, fun k => ?_⟩
        · rw [row_node, row_node, keys_cons, keys_cons, hkeys]
        · rw [row_node, row_node, List.mem_cons, List.mem_cons, hspec]
          constructor
          · rintro (rfl | ⟨hk, hkne⟩ | rfl)
            · exact Or.inl ⟨Or.inl rfl, hne⟩
            · exact Or.inl ⟨Or.inr hk, hkne⟩
            · exact Or.inr rfl
          · rintro (⟨rfl | hk, hkne⟩ | rfl)
            · exact Or.inl rfl
            · exact Or.inr (Or.inl ⟨hk, hkne⟩)
            · exact Or.inr (Or.inr rfl)

theorem Row.of_keys {ks ks' : List (Int × TreeNode)} (h : Row ks) (hkeys : keys ks' = keys ks) :
    Row ks' where
  nodup := hkeys ▸ h.nodup
  sorted := by
    have htail : keys ks'.tail = keys ks.tail := by
      rw [keys, keys, List.map_tail, List.map_tail]
      exact congrArg List.tail hkeys
    rw [htail]
    exact h.sorted

/-! ## All levels -/

/-- A change below a node adds exactly `x` to what the node has. -/
def Adds {α ι : Type} (f : TreeNode → Option (α × TreeNode)) (P : TreeNode → Prop)
    (Has : TreeNode → ι → Prop) (x : ι) : Prop :=
  ∀ i m s, P m → ∃ a m', f (.node i m s) = some (a, .node i m' s) ∧
    (P m' ∧ row m' ≠ [] ∧ ∀ y, Has m' y ↔ Has m y ∨ y = x)

/-- A row of nodes that all have children with `P`. -/
def RowOver (P : TreeNode → Prop) (l : TreeNode) : Prop :=
  Row (row l) ∧ ∀ k ∈ row l, row k.2 ≠ [] ∧ P k.2

/-- What the nodes of a row have, with their ids. -/
def HasOver {ι : Type} (Has : TreeNode → ι → Prop) (l : TreeNode) (x : Int × ι) : Prop :=
  ∃ m, (x.1, m) ∈ row l ∧ Has m x.2

/-- Insert an id if it is missing, and add something below it. -/
theorem Adds.over {α ι : Type} {f : TreeNode → Option (α × TreeNode)} {P : TreeNode → Prop}
    {Has : TreeNode → ι → Prop} {x : ι} (h : Adds f P Has x) (hnull : P .null)
    (hnone : ∀ y, ¬Has .null y) (id : Int) :
    Adds (fun t => do
        let (_, t) ← insertMissing id t
        atNode id f t) (RowOver P) (HasOver Has) (id, x) := by
  rintro i l s ⟨hrow, hbelow⟩
  obtain ⟨inserted, l₁, hinsert, hrow₁, hid, -, hmem₁⟩ := insertMissing_spec hrow i s id
  obtain ⟨m, hm⟩ := mem_keys.mp hid
  have hold : (id, m) ∈ row l ∨ id ∉ keys (row l) ∧ m = .null :=
    ((hmem₁ _).mp hm).imp_right (And.imp_right fun heq => (Prod.mk.inj heq).2)
  have hP : P m := by
    rcases hold with hin | ⟨-, rfl⟩
    · exact (hbelow _ hin).2
    · exact hnull
  obtain ⟨a, l', m', hat, ⟨hP', hne, hhas⟩, hkeys, hmem⟩ :=
    atRow_spec hrow₁.nodup hm fun r => h id m r hP
  have hrow' : Row (row l') := hrow₁.of_keys hkeys
  -- what was there before, with other ids
  have hmem' : ∀ k, k ∈ row l' ↔ k ∈ row l ∧ k.1 ≠ id ∨ k = (id, m') := by
    intro k
    rw [hmem, hmem₁]
    constructor
    · rintro (⟨hk | ⟨-, rfl⟩, hkne⟩ | rfl)
      · exact Or.inl ⟨hk, hkne⟩
      · exact absurd rfl hkne
      · exact Or.inr rfl
    · rintro (⟨hk, hkne⟩ | rfl)
      · exact Or.inl ⟨Or.inl hk, hkne⟩
      · exact Or.inr rfl
  refine ⟨a, l', ?_, ⟨hrow', fun k hk => ?_⟩, ?_, fun y => ?_⟩
  · simp only [hinsert, Option.bind_eq_bind, Option.bind_some, atNode, hat, Option.map_some]
  · rcases (hmem' k).mp hk with ⟨hk, -⟩ | rfl
    · exact hbelow k hk
    · exact ⟨hne, hP'⟩
  · exact List.ne_nil_of_mem ((hmem' _).mpr (Or.inr rfl))
  · have huniq : ∀ {m₀}, (id, m₀) ∈ row l → m₀ = m := by
      intro m₀ hm₀
      have hin₁ := (hmem₁ _).mpr (Or.inl hm₀)
      exact (Prod.mk.inj (List.inj_on_of_nodup_map hrow₁.nodup hin₁ hm rfl)).2
    constructor
    · rintro ⟨m₀, hm₀, hy⟩
      rcases (hmem' _).mp hm₀ with ⟨hin, -⟩ | heq
      · exact Or.inl ⟨m₀, hin, hy⟩
      · obtain ⟨hy₁, rfl⟩ := Prod.mk.inj heq
        rcases (hhas y.2).mp hy with hy | hy₂
        · rcases hold with hin | ⟨-, rfl⟩
          · exact Or.inl ⟨m, hy₁ ▸ hin, hy⟩
          · exact absurd hy (hnone _)
        · exact Or.inr (Prod.ext hy₁ hy₂)
    · rintro (⟨m₀, hm₀, hy⟩ | rfl)
      · by_cases hy₁ : y.1 = id
        · obtain rfl := huniq (hy₁ ▸ hm₀)
          exact ⟨m', (hmem' _).mpr (Or.inr (Prod.ext hy₁ rfl)), (hhas _).mpr (Or.inl hy)⟩
        · exact ⟨m₀, (hmem' _).mpr (Or.inl ⟨hm₀, hy₁⟩), hy⟩
      · exact ⟨m', (hmem' _).mpr (Or.inr rfl), (hhas _).mpr (Or.inr rfl)⟩

/-- A row of hardware threads: nodes without children. -/
def ThreadRow (l : TreeNode) : Prop := Row (row l) ∧ ∀ k ∈ row l, row k.2 = []

def HasThread (l : TreeNode) (apicId : Int) : Prop := apicId ∈ keys (row l)

theorem adds_insertMissing (id : Int) : Adds (insertMissing id) ThreadRow HasThread id := by
  rintro i l s ⟨hrow, hleaf⟩
  obtain ⟨inserted, l', hinsert, hrow', hid, -, hmem⟩ := insertMissing_spec hrow i s id
  refine ⟨inserted, l', hinsert, ⟨hrow', fun k hk => ?_⟩, ?_, fun y => ?_⟩
  · rcases (hmem k).mp hk with hk | ⟨-, rfl⟩
    · exact hleaf k hk
    · rfl
  · obtain ⟨m, hm⟩ := mem_keys.mp hid
    exact List.ne_nil_of_mem hm
  · unfold HasThread
    constructor
    · intro hy
      obtain ⟨m, hm⟩ := mem_keys.mp hy
      rcases (hmem _).mp hm with hin | ⟨-, heq⟩
      · exact Or.inl (mem_keys.mpr ⟨m, hin⟩)
      · exact Or.inr (Prod.mk.inj heq).1
    · rintro (hy | rfl)
      · obtain ⟨m, hm⟩ := mem_keys.mp hy
        exact mem_keys.mpr ⟨m, (hmem _).mpr (Or.inl hm)⟩
      · exact hid

theorem rowOver_null (P : TreeNode → Prop) : RowOver P .null := ⟨Row.nil, by simp⟩

theorem not_hasOver_null {ι : Type} (Has : TreeNode → ι → Prop) (x : Int × ι) :
    ¬HasOver Has .null x := by
  rintro ⟨m, hm, -⟩
  cases hm

/-- The sockets, below the root -/
abbrev SocketRow : TreeNode → Prop := RowOver (RowOver ThreadRow)

abbrev HasPath : TreeNode → Int × Int × Int → Prop := HasOver (HasOver HasThread)

/-- The ids of the socket, the core and the hardware thread -/
def HWThread.path (hwThread : HWThread) : Int × Int × Int :=
  (hwThread.packageId.toInt, hwThread.coreId.toInt, hwThread.apicId.toInt)

/-! ## The whole pool -/

theorem addThread_spec {s : SetupTree} {hwThread : HWThread} (hapic : hwThread.apicId.toNat <
    maxNumThreads) (htree : s.topologyTree = .node i l r) (hl : SocketRow l) :
    ∃ s' l', addThread s hwThread = some s' ∧ s'.topologyTree = .node i l' r ∧ SocketRow l' ∧
      row l' ≠ [] ∧ ∀ y, HasPath l' y ↔ HasPath l y ∨ y = hwThread.path := by
  have hcores := (adds_insertMissing hwThread.apicId.toInt).over ⟨Row.nil, by simp⟩
    (by simp [HasThread]) hwThread.coreId.toInt
  have hsockets := hcores.over (rowOver_null _) (not_hasOver_null _) hwThread.packageId.toInt
  obtain ⟨inserted, l', hadd, hl', hne, hpaths⟩ := hsockets i l r hl
  obtain ⟨⟨_, tree⟩, hinsert, hat⟩ := Option.bind_eq_some_iff.mp hadd
  have hrun : addThread s hwThread = if inserted then
      some
        { topologyTree := .node i l' r
          thread2tile := Function.update s.thread2tile hwThread.apicId.toNat
            hwThread.coreId.toInt }
      else some { s with topologyTree := .node i l' r } := by
    unfold addThread
    rw [htree, hinsert]
    simp only [Option.bind_eq_bind, Option.bind_some] at hat ⊢
    rw [hat, Option.bind_some, if_pos hapic]
  rw [hrun]
  cases inserted with
  | true => exact ⟨_, l', rfl, rfl, hl', hne, hpaths⟩
  | false => exact ⟨_, l', rfl, rfl, hl', hne, hpaths⟩

/-- The tree after a pool: the paths of its hardware threads. -/
theorem addThreads_spec {pool : List HWThread} {s : SetupTree}
    (hapic : ∀ hwThread ∈ pool, hwThread.apicId.toNat < maxNumThreads)
    (htree : s.topologyTree = .node i l r) (hl : SocketRow l) :
    ∃ s' l', pool.foldlM addThread s = some s' ∧ s'.topologyTree = .node i l' r ∧
      SocketRow l' ∧ ∀ y, HasPath l' y ↔ HasPath l y ∨ ∃ hwThread ∈ pool, y = hwThread.path := by
  induction pool generalizing s l with
  | nil => exact ⟨s, l, rfl, htree, hl, by simp⟩
  | cons hwThread pool ih =>
      obtain ⟨hfirst, hapic⟩ := List.forall_mem_cons.mp hapic
      obtain ⟨s₁, l₁, hadd, htree₁, hl₁, -, hpaths₁⟩ := addThread_spec hfirst htree hl
      obtain ⟨s', l', hrun, htree', hl', hpaths⟩ := ih hapic htree₁ hl₁
      refine ⟨s', l', ?_, htree', hl', fun y => ?_⟩
      · rw [List.foldlM_cons, hadd]
        exact hrun
      · rw [hpaths, hpaths₁, List.exists_mem_cons_iff, or_assoc]

/-! ## The tree as it should be -/

/-- The paths from a socket to a hardware thread -/
def TreeNode.paths (t : TreeNode) : List (Int × Int × Int) :=
  t.children.flatMap fun s => (row s.2).flatMap fun c => (keys (row c.2)).map fun a => (s.1, c.1, a)

/-- The tree has the paths of these hardware threads, each once, and nothing else. -/
structure TreeOf (pool : List HWThread) (t : TreeNode) : Prop where
  paths : ∀ x, t.paths.count x = if ∃ hwThread ∈ pool, hwThread.path = x then 1 else 0
  sockets : (keys t.children).Nodup
  cores : ∀ s ∈ t.children, row s.2 ≠ [] ∧ (keys (row s.2)).Nodup
  threads : ∀ s ∈ t.children, ∀ c ∈ row s.2, row c.2 ≠ [] ∧ (keys (row c.2)).Nodup ∧
    ∀ a ∈ row c.2, row a.2 = []

/-- The number of children of the first node of a row -/
def firstCount (ks : List (Int × TreeNode)) : ℕ := (ks.head?.map fun k => (row k.2).length).getD 0

/-- **The tree**, for the hardware threads `pool`: it is built and has their
paths, and the counts are those of its levels. -/
def SetsUpTree (pool : List HWThread) (thread2tile : ℕ → Int) (topo : CpuTopology) : Prop :=
  ∃ topo' thread2tile', topologySetupTree thread2tile topo = some (topo', thread2tile') ∧
    TreeOf pool topo'.topologyTree ∧
    topo'.numSockets.toNat = topo'.topologyTree.children.length ∧
    topo'.numCoresPerSocket.toNat = firstCount topo'.topologyTree.children ∧
    topo'.numThreadsPerCore.toNat =
      ((topo'.topologyTree.children.head?.map fun s => firstCount (row s.2)).getD 0)

theorem mem_paths {t : TreeNode} {x : Int × Int × Int} :
    x ∈ t.paths ↔ HasPath (treeGetChildNode t) x := by
  obtain ⟨p, c, a⟩ := x
  simp only [TreeNode.paths, List.mem_flatMap, List.mem_map, HasOver, HasThread,
    TreeNode.children, Prod.exists, Prod.mk.injEq]
  constructor
  · rintro ⟨_, m, hs, _, m', hc, _, ha, rfl, rfl, rfl⟩
    exact ⟨m, hs, m', hc, ha⟩
  · rintro ⟨m, hs, m', hc, ha⟩
    exact ⟨p, m, hs, c, m', hc, a, ha, rfl, rfl, rfl⟩

theorem nodup_pairs {ι : Type} {ks : List (Int × TreeNode)} {g : Int × TreeNode → List ι}
    (hks : (keys ks).Nodup) (hg : ∀ k ∈ ks, (g k).Nodup) :
    (ks.flatMap fun k => (g k).map (k.1, ·)).Nodup := by
  refine List.nodup_flatMap.mpr ⟨fun k hk => (hg k hk).map fun a b => congrArg Prod.snd, ?_⟩
  refine (List.pairwise_map.mp hks).imp fun hne x hx hx' => ?_
  obtain ⟨_, -, rfl⟩ := List.mem_map.mp hx
  obtain ⟨_, -, heq⟩ := List.mem_map.mp hx'
  exact hne (congrArg Prod.fst heq).symm

theorem nodup_paths {t : TreeNode} (h : SocketRow (treeGetChildNode t)) : t.paths.Nodup := by
  have hpaths : t.paths = t.children.flatMap fun s =>
      ((row s.2).flatMap fun c => (keys (row c.2)).map (c.1, ·)).map (s.1, ·) := by
    simp only [TreeNode.paths, List.map_flatMap, List.map_map]
    rfl
  rw [hpaths]
  refine nodup_pairs h.1.nodup fun s hs => ?_
  have hcores := (h.2 s hs).2
  exact nodup_pairs hcores.1.nodup fun c hc => (hcores.2 c hc).2.1.nodup

theorem length_row_le {pool : List HWThread} {ks : List (Int × TreeNode)} {f : HWThread → Int}
    (hnodup : (keys ks).Nodup) (h : ∀ id ∈ keys ks, ∃ hwThread ∈ pool, f hwThread = id) :
    ks.length ≤ pool.length := by
  have hsub : (keys ks) ⊆ pool.map f := fun id hid => by
    obtain ⟨hwThread, hmem, rfl⟩ := h id hid
    exact List.mem_map_of_mem hmem
  have hle := (List.subperm_of_subset hnodup hsub).length_le
  rwa [keys, List.length_map, List.length_map] at hle

theorem treeCountChildren_first (l : TreeNode) : treeCountChildren l = firstCount (row l) := by
  cases l with
  | null => rfl
  | node i m r => exact rowCount_eq m

theorem firstCount_le {ks : List (Int × TreeNode)} {n : ℕ}
    (h : ∀ k ∈ ks, (row k.2).length ≤ n) : firstCount ks ≤ n := by
  cases ks with
  | nil => exact Nat.zero_le n
  | cons k ks => exact h k List.mem_cons_self

/-- **The tree of a thread pool** has the paths of all its hardware threads. -/
theorem setsUpTree (thread2tile : ℕ → Int) (topo : CpuTopology)
    (hlen : topo.numHWThreads.toNat = topo.threadPool.length)
    (hapic : ∀ hwThread ∈ topo.threadPool, hwThread.apicId.toNat < maxNumThreads) :
    SetsUpTree topo.threadPool thread2tile topo := by
  obtain ⟨s, l, hrun, htree, hl, hpaths⟩ :=
    addThreads_spec (s := ⟨treeInit 0, thread2tile⟩) (l := .null) hapic rfl (rowOver_null _)
  have hpath : ∀ y, HasPath l y ↔ ∃ hwThread ∈ topo.threadPool, hwThread.path = y := by
    intro y
    rw [hpaths]
    have hnone : ¬HasPath .null y := not_hasOver_null _ y
    simp [hnone, eq_comm]
  have hlt : topo.threadPool.length < 2 ^ 32 := hlen ▸ topo.numHWThreads.isLt
  have hword : ∀ {n : ℕ}, n ≤ topo.threadPool.length → (BitVec.ofNat 32 n).toNat = n := by
    intro n hn
    rw [BitVec.toNat_ofNat, Nat.mod_eq_of_lt (hn.trans_lt hlt)]
  have hthread : ∀ s ∈ row l, ∀ c ∈ row s.2, ∀ a ∈ keys (row c.2),
      ∃ hwThread ∈ topo.threadPool, hwThread.path = (s.1, c.1, a) :=
    fun s hs c hc a ha => (hpath _).mp ⟨s.2, hs, c.2, hc, ha⟩
  -- every node has a hardware thread below it
  have hsockets : (row l).length ≤ topo.threadPool.length := by
    refine length_row_le (f := fun hwThread => hwThread.packageId.toInt) hl.1.nodup ?_
    intro id hid
    obtain ⟨m, hs⟩ := mem_keys.mp hid
    obtain ⟨hcores, hm⟩ := hl.2 _ hs
    obtain ⟨c, hc⟩ := List.exists_mem_of_ne_nil _ hcores
    obtain ⟨a, ha⟩ := List.exists_mem_of_ne_nil _ (hm.2 c hc).1
    obtain ⟨hwThread, hmem, heq⟩ := hthread _ hs c hc a.1 (List.mem_map_of_mem ha)
    exact ⟨hwThread, hmem, (Prod.mk.inj heq).1⟩
  have hcores : ∀ s ∈ row l, (row s.2).length ≤ topo.threadPool.length := by
    intro s hs
    refine length_row_le (f := fun hwThread => hwThread.coreId.toInt) (hl.2 s hs).2.1.nodup ?_
    intro id hid
    obtain ⟨m, hc⟩ := mem_keys.mp hid
    obtain ⟨a, ha⟩ := List.exists_mem_of_ne_nil _ ((hl.2 s hs).2.2 _ hc).1
    obtain ⟨hwThread, hmem, heq⟩ := hthread s hs _ hc a.1 (List.mem_map_of_mem ha)
    exact ⟨hwThread, hmem, (Prod.mk.inj (Prod.mk.inj heq).2).1⟩
  have hthreads : ∀ s ∈ row l, ∀ c ∈ row s.2, (row c.2).length ≤ topo.threadPool.length := by
    intro s hs c hc
    refine length_row_le (f := fun hwThread => hwThread.apicId.toInt)
      ((hl.2 s hs).2.2 c hc).2.1.nodup fun id hid => ?_
    obtain ⟨hwThread, hmem, heq⟩ := hthread s hs c hc id hid
    exact ⟨hwThread, hmem, (Prod.mk.inj (Prod.mk.inj heq).2).2⟩
  refine ⟨_, s.thread2tile, by rw [topologySetupTree, hrun]; rfl, ?_, ?_, ?_, ?_⟩
  · show TreeOf _ s.topologyTree
    rw [htree]
    refine ⟨fun x => ?_, hl.1.nodup, fun s hs => ⟨(hl.2 s hs).1, (hl.2 s hs).2.1.nodup⟩,
      fun s hs c hc => ?_⟩
    · have hmem : x ∈ (TreeNode.node 0 l .null).paths ↔
          ∃ hwThread ∈ topo.threadPool, hwThread.path = x := mem_paths.trans (hpath x)
      split
      · next hex =>
          exact List.count_eq_one_of_mem (nodup_paths hl) (hmem.mpr hex)
      · next hnex => exact List.count_eq_zero.mpr fun hin => hnex (hmem.mp hin)
    · obtain ⟨hne, hrow, hleaf⟩ := (hl.2 s hs).2.2 c hc
      exact ⟨hne, hrow.nodup, hleaf⟩
  · show (BitVec.ofNat 32 (treeCountChildren s.topologyTree)).toNat =
      s.topologyTree.children.length
    rw [htree, treeCountChildren_eq]
    exact hword hsockets
  · show (BitVec.ofNat 32 (treeCountChildren (treeGetChildNode s.topologyTree))).toNat =
      firstCount s.topologyTree.children
    rw [htree, treeCountChildren_first]
    exact hword (firstCount_le hcores)
  · show (BitVec.ofNat 32 (treeCountChildren (treeGetChildNode
      (treeGetChildNode s.topologyTree)))).toNat = _
    rw [htree, children_node]
    cases l with
    | null => rfl
    | node i m r =>
        change (BitVec.ofNat 32 (treeCountChildren m)).toNat = firstCount (row m)
        rw [treeCountChildren_first]
        exact hword (firstCount_le (hthreads (i, m) List.mem_cons_self))

/-- One socket with two cores; the process may run on the first. -/
def halfSocket : CpuTopology where
  numHWThreads := 2
  activeHWThreads := 1
  numSockets := 1
  numCoresPerSocket := 2
  numThreadsPerCore := 1
  numCacheLevels := 0
  threadPool := [⟨0, 0, 0, 0, 1⟩, ⟨0, 1, 0, 1, 0⟩]
  cacheLevels := []
  topologyTree := .null

/-- One hardware thread, whose id is not an index of the lookup table. -/
def wideApic : CpuTopology where
  numHWThreads := 1
  activeHWThreads := 1
  numSockets := 1
  numCoresPerSocket := 1
  numThreadsPerCore := 1
  numCacheLevels := 0
  threadPool := [⟨0, 0, 0, 263, 1⟩]
  cacheLevels := []
  topologyTree := .null

/-- The tree has the path of the second core, which is not in the cpuset. An id behind the
end of the lookup table is written there all the same. -/
theorem not_setsUpTree_inCpuSet :
    ¬SetsUpTree (halfSocket.threadPool.filter (·.inCpuSet ≠ 0)) (fun _ => 0) halfSocket ∧
      ¬SetsUpTree (wideApic.threadPool.filter (·.inCpuSet ≠ 0)) (fun _ => 0) wideApic := by
  constructor
  · rintro ⟨topo', thread2tile', hrun, htree, -⟩
    have hcount := htree.paths (0, 1, 1)
    have hpaths : ((topologySetupTree (fun _ => 0) halfSocket).map fun r =>
        r.1.topologyTree.paths.count (0, 1, 1)) = some 1 := by decide
    rw [hrun] at hpaths
    have hone : topo'.topologyTree.paths.count (0, 1, 1) = 1 := Option.some.inj hpaths
    rw [hone] at hcount
    exact absurd hcount (by decide)
  · rintro ⟨topo', thread2tile', hrun, -⟩
    have hnone : (topologySetupTree (fun _ => 0) wideApic).isNone := by decide
    rw [hrun] at hnone
    cases hnone

theorem setsUpTree_halfSocket : SetsUpTree halfSocket.threadPool (fun _ => 0) halfSocket :=
  setsUpTree (fun _ => 0) halfSocket rfl (by decide)

end Likwid
