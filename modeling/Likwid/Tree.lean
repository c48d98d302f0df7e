import Mathlib.Data.List.Induction
import Mathlib.Data.List.Nodup
import Mathlib.Data.List.Sort

/-!
# Topology trees (`tree.c`)

A node points to the first of its children (`llink`) and to the next of its siblings
(`rlink`). `row` lists a node with the siblings behind it, and every function of the
module is a function of this list. `tree_insertNode` looks at the second child first: an
id below those of two or more children is put behind the first of them. So all children
but the first are in ascending order (`Row`), none is lost, and the whole list is
ascending exactly if one of the first two ids inserted is the least
(`ascendingChildren_iff`).
-/

namespace Likwid

/-- `TreeNode*` -/
inductive TreeNode where
  | null
  | node (id : Int) (llink rlink : TreeNode)
deriving DecidableEq, Repr

/-! ## The functions -/

/-- `tree_init` -/
def treeInit (id : Int) : TreeNode := .node id .null .null

/-- Where the loop of `tree_insertNode` ends: in a row with the new node, or at a last
node that is not below the new one. -/
inductive Walked where
  | linked (currentNode : TreeNode)
  | last (currentNode : TreeNode)

/-- The loop of `tree_insertNode`, from `currentNode` on, and what is behind it. -/
def insertWalk (id : Int) : TreeNode → Walked
  | .null => .last .null
  | .node i l .null =>
      if i < id then .linked (.node i l (.node id .null .null)) else .last (.node i l .null)
  | .node i l (.node j m r) =>
      if id < j then .linked (.node i l (.node id .null (.node j m r)))
      else
        match insertWalk id (.node j m r) with
        | .linked rlink => .linked (.node i l rlink)
        | .last currentNode => .last currentNode

/-- `tree_insertNode`; a null pointer is dereferenced. -/
def treeInsertNode : TreeNode → Int → Option TreeNode
  | .null, _ => none
  | .node i .null r, id => some (.node i (.node id .null .null) r)
  | .node i (.node j m s) r, id =>
      match insertWalk id (.node j m s) with
      | .linked llink => some (.node i llink r)
      | .last currentNode => some (.node i (.node id .null currentNode) r)

/-- The loop of `tree_nodeExists` -/
def rowExists : TreeNode → Int → Bool
  | .null, _ => false
  | .node i _ r, id => i = id || rowExists r id

def treeNodeExists : TreeNode → Int → Bool
  | .null, _ => false
  | .node _ l _, id => rowExists l id

/-- The loop of `tree_countChildren` -/
def rowCount : TreeNode → ℕ
  | .null => 0
  | .node _ _ r => rowCount r + 1

def treeCountChildren : TreeNode → ℕ
  | .null => 0
  | .node _ l _ => rowCount l

/-- The loop of `tree_getNode`, and a change through the pointer it returns -/
def atRow {α : Type} (id : Int) (f : TreeNode → Option (α × TreeNode)) :
    TreeNode → Option (α × TreeNode)
  | .null => none
  | .node i l r =>
      if i = id then f (.node i l r) else (atRow id f r).map fun q => (q.1, .node i l q.2)

/-- `f(tree_getNode(nodePtr, id))`, where `f` changes the node in place. -/
def atNode {α : Type} (id : Int) (f : TreeNode → Option (α × TreeNode)) :
    TreeNode → Option (α × TreeNode)
  | .null => none
  | .node i l r => (atRow id f l).map fun q => (q.1, .node i q.2 r)

/-- `tree_getChildNode` -/
def treeGetChildNode : TreeNode → TreeNode
  | .null => .null
  | .node _ l _ => l

/-- `tree_getNextNode`; a null pointer is dereferenced. -/
def treeGetNextNode : TreeNode → Option TreeNode
  | .null => none
  | .node _ _ r => some r

/-! ## The list of children -/

/-- A node and the siblings behind it: ids with their children. -/
def row : TreeNode → List (Int × TreeNode)
  | .null => []
  | .node i l r => (i, l) :: row r

def TreeNode.children (t : TreeNode) : List (Int × TreeNode) := row (treeGetChildNode t)

def keys (ks : List (Int × TreeNode)) : List Int := ks.map Prod.fst

@[simp] theorem row_null : row .null = [] := rfl

@[simp] theorem row_node (i : Int) (l r : TreeNode) : row (.node i l r) = (i, l) :: row r := rfl

@[simp] theorem children_node (i : Int) (l r : TreeNode) : (TreeNode.node i l r).children = row l :=
  rfl

@[simp] theorem keys_nil : keys [] = [] := rfl

@[simp] theorem keys_cons (k : Int × TreeNode) (ks : List (Int × TreeNode)) :
    keys (k :: ks) = k.1 :: keys ks := rfl

theorem row_eq_nil {t : TreeNode} : row t = [] ↔ t = .null := by
  cases t <;> simp

theorem rowExists_iff {t : TreeNode} {id : Int} : rowExists t id = true ↔ id ∈ keys (row t) := by
  induction t with
  | null => simp [rowExists]
  | node i l r _ ih =>
      rw [rowExists, row_node, keys_cons, List.mem_cons, Bool.or_eq_true, decide_eq_true_eq, ih]
      exact or_congr_left eq_comm

theorem treeNodeExists_iff {t : TreeNode} {id : Int} :
    treeNodeExists t id = true ↔ id ∈ keys t.children := by
  cases t with
  | null => simp [treeNodeExists, TreeNode.children, treeGetChildNode]
  | node i l r => exact rowExists_iff

theorem rowCount_eq (t : TreeNode) : rowCount t = (row t).length := by
  induction t with
  | null => rfl
  | node i l r _ ih => rw [rowCount, row_node, List.length_cons, ih]

theorem treeCountChildren_eq (t : TreeNode) : treeCountChildren t = t.children.length := by
  cases t with
  | null => rfl
  | node i l r => exact rowCount_eq l

/-! ## Insertion -/

/-- `tree_insertNode` on the list of children -/
def insertRow (id : Int) : List (Int × TreeNode) → List (Int × TreeNode)
  | [] => [(id, .null)]
  | [k] => if k.1 < id then [k, (id, .null)] else [(id, .null), k]
  | k :: ks => k :: ks.orderedInsert (fun a b => a.1 ≤ b.1) (id, .null)

/-- The loop links the new node in, unless there is one node and its id is larger. -/
theorem insertWalk_linked {id i : Int} {l r : TreeNode} (hid : id ∉ keys (row (.node i l r)))
    (h : r ≠ .null ∨ i < id) :
    ∃ t, insertWalk id (.node i l r) = .linked t ∧
      row t = (i, l) :: (row r).orderedInsert (fun a b => a.1 ≤ b.1) (id, .null) := by
  induction r generalizing i l with
  | null =>
      have hlt : i < id := h.resolve_left fun hne => hne rfl
      exact ⟨_, by rw [insertWalk, if_pos hlt], rfl⟩
  | node j m r _ ih =>
      have hne : id ≠ j := by
        rintro rfl
        exact hid (by simp)
      rw [insertWalk, row_node, List.orderedInsert_cons]
      by_cases hlt : id < j
      · refine ⟨_, if_pos hlt, ?_⟩
        rw [if_pos hlt.le]
        rfl
      · have hgt : j < id := lt_of_le_of_ne (not_lt.mp hlt) (Ne.symm hne)
        obtain ⟨t, ht, hrow⟩ := ih (i := j) (l := m) (fun hmem => hid (by simpa using Or.inr hmem))
          (Or.inr hgt)
        refine ⟨.node i l t, ?_, ?_⟩
        · rw [if_neg hlt, ht]
        · rw [if_neg hgt.not_ge, row_node, hrow]

theorem treeInsertNode_node {i id : Int} {l : TreeNode} (r : TreeNode)
    (hid : id ∉ keys (row l)) :
    ∃ l', treeInsertNode (.node i l r) id = some (.node i l' r) ∧
      row l' = insertRow id (row l) := by
  cases l with
  | null => exact ⟨_, rfl, rfl⟩
  | node j m s =>
      by_cases hs : s ≠ .null ∨ j < id
      · obtain ⟨llink, hwalk, hrow⟩ := insertWalk_linked hid hs
        refine ⟨llink, by rw [treeInsertNode, hwalk], ?_⟩
        rw [hrow, row_node]
        cases hrest : row s with
        | nil =>
            rw [row_eq_nil] at hrest
            rw [insertRow, if_pos (hs.resolve_left fun hne => hne hrest)]
            rfl
        | cons k ks => rfl
      · rw [not_or, not_not] at hs
        obtain ⟨rfl, hge⟩ := hs
        refine ⟨.node id .null (.node j m .null), ?_, ?_⟩
        · rw [treeInsertNode, insertWalk, if_neg hge]
        · rw [row_node, row_node, row_null, insertRow, if_neg hge]

theorem treeInsertNode_spec {t : TreeNode} {id : Int} (ht : t ≠ .null)
    (hid : id ∉ keys t.children) :
    ∃ t', treeInsertNode t id = some t' ∧ t' ≠ .null ∧
      t'.children = insertRow id t.children := by
  cases t with
  | null => exact absurd rfl ht
  | node i l r =>
      obtain ⟨l', hinsert, hrow⟩ := treeInsertNode_node r hid
      exact ⟨_, hinsert, nofun, hrow⟩

/-- Nothing is lost. -/
theorem insertRow_perm (id : Int) (ks : List (Int × TreeNode)) :
    (insertRow id ks).Perm ((id, .null) :: ks) := by
  unfold insertRow
  split
  · rfl
  · next k =>
      split
      · exact List.Perm.swap _ _ _
      · rfl
  · next k ks _ =>
      exact ((List.perm_orderedInsert _ _ ks).cons k).trans (List.Perm.swap _ _ _)

/-- All children but the first are in ascending order, and no id is there twice. -/
structure Row (ks : List (Int × TreeNode)) : Prop where
  nodup : (keys ks).Nodup
  sorted : (keys ks.tail).Pairwise (· < ·)

theorem Row.nil : Row [] := ⟨List.nodup_nil, List.Pairwise.nil⟩

theorem keys_perm {ks ks' : List (Int × TreeNode)} (h : ks.Perm ks') :
    (keys ks).Perm (keys ks') := h.map Prod.fst

/-- A row stays one. -/
theorem Row.insert {id : Int} {ks : List (Int × TreeNode)} (h : Row ks) (hid : id ∉ keys ks) :
    Row (insertRow id ks) where
  nodup := (keys_perm (insertRow_perm id ks)).nodup_iff.mpr (List.nodup_cons.mpr ⟨hid, h.nodup⟩)
  sorted := by
    cases ks with
    | nil => exact List.Pairwise.nil
    | cons k ks =>
        cases ks with
        | nil =>
            rw [insertRow]
            split
            · exact List.pairwise_singleton _ _
            · exact List.pairwise_singleton _ _
        | cons k' ks =>
            have hsorted : (k' :: ks).Pairwise fun a b => a.1 ≤ b.1 :=
              (List.pairwise_map.mp h.sorted).imp le_of_lt
            have hle : (keys ((k' :: ks).orderedInsert (fun a b => a.1 ≤ b.1) (id, .null))).Pairwise
                (· ≤ ·) :=
              List.pairwise_map.mpr (hsorted.orderedInsert _ _)
            have hnodup : (keys ((k' :: ks).orderedInsert (fun a b => a.1 ≤ b.1)
                (id, .null))).Nodup := by
              rw [(keys_perm (List.perm_orderedInsert _ _ (k' :: ks))).nodup_iff]
              exact List.nodup_cons.mpr ⟨fun hmem => hid (List.mem_cons_of_mem _ hmem),
                (List.nodup_cons.mp h.nodup).2⟩
            exact (hle.and hnodup).imp fun hab => lt_of_le_of_ne hab.1 hab.2

/-! ## The order of the children -/

/-- The loops that call `tree_getNextNode` `i` times -/
def treeSkip : ℕ → TreeNode → Option TreeNode
  | 0, t => some t
  | i + 1, t => (treeGetNextNode t).bind (treeSkip i)

/-- `nodePtr->id` -/
def TreeNode.id? : TreeNode → Option Int
  | .null => none
  | .node i _ _ => some i

theorem treeSkip_spec {i : ℕ} {t : TreeNode} (h : i ≤ (row t).length) :
    ∃ t', treeSkip i t = some t' ∧ row t' = (row t).drop i := by
  induction i generalizing t with
  | zero => exact ⟨t, rfl, rfl⟩
  | succ i ih =>
      cases t with
      | null => exact absurd h (Nat.not_succ_le_zero i)
      | node j l r => exact ih (Nat.le_of_succ_le_succ h)

/-- Behind the last sibling there is a null pointer, and no step leads on. -/
theorem treeSkip_eq_none {i : ℕ} {t : TreeNode} (h : (row t).length < i) :
    treeSkip i t = none := by
  induction i generalizing t with
  | zero => exact absurd h (Nat.not_lt_zero _)
  | succ i ih =>
      cases t with
      | null => rfl
      | node j l r => exact ih (Nat.lt_of_succ_lt_succ h)

theorem treeSkip_id (i : ℕ) (t : TreeNode) :
    (treeSkip i t).bind TreeNode.id? = (keys (row t))[i]? := by
  rcases Nat.lt_or_ge (row t).length i with hlt | hle
  · rw [treeSkip_eq_none hlt, List.getElem?_eq_none (by simpa [keys] using hlt.le)]
    rfl
  · obtain ⟨t', ht', hrow⟩ := treeSkip_spec hle
    have hget : (keys (row t))[i]? = (keys (row t')).head? := by
      rw [hrow, keys, keys, List.map_drop, List.head?_drop]
    rw [ht', hget]
    cases t' with
    | null => rfl
    | node j l r => rfl

/-- Calls of `tree_insertNode`, one after the other -/
def insertNodes (ids : List Int) (t : TreeNode) : Option TreeNode := ids.foldlM treeInsertNode t

/-- **The order**: after these calls on a new node, its children are in
ascending order, and `i` steps from the first lead to the `i`-th smallest id. -/
def AscendingChildren (root : Int) (ids : List Int) : Prop :=
  ∃ t, insertNodes ids (treeInit root) = some t ∧ (keys t.children).Pairwise (· < ·) ∧
    ∀ i : ℕ, (treeSkip i (treeGetChildNode t)).bind TreeNode.id? =
      (ids.insertionSort (· ≤ ·))[i]?

/-- The children after all calls: the first is the lesser of the first two ids. -/
theorem insertNodes_spec (root : Int) {ids : List Int} (h : ids.Nodup) :
    ∃ t, insertNodes ids (treeInit root) = some t ∧ t ≠ .null ∧ Row t.children ∧
      (keys t.children).Perm ids ∧
      (∀ a ∈ (keys t.children).head?, a ∈ ids.take 2 ∧ ∀ b ∈ ids.take 2, a ≤ b) := by
  induction ids using List.reverseRecOn with
  | nil => exact ⟨treeInit root, rfl, nofun, Row.nil, List.Perm.refl _, nofun⟩
  | append_singleton ids id ih =>
      have hids : ids.Nodup := (List.nodup_append.mp h).1
      have hnew : id ∉ ids := fun hmem =>
        (List.nodup_append.mp h).2.2 id hmem id (List.mem_singleton_self id) rfl
      obtain ⟨t, hrun, ht, hrow, hperm, hhead⟩ := ih hids
      have hid : id ∉ keys t.children := fun hmem => hnew (hperm.mem_iff.mp hmem)
      obtain ⟨t', hinsert, ht', hchildren⟩ := treeInsertNode_spec ht hid
      have hperm' : (keys t'.children).Perm (ids ++ [id]) := by
        rw [hchildren]
        exact (keys_perm (insertRow_perm id t.children)).trans
          ((hperm.cons id).trans (List.perm_append_singleton id ids).symm)
      refine ⟨t', ?_, ht', hchildren ▸ hrow.insert hid, hperm', ?_⟩
      · rw [insertNodes, List.foldlM_append]
        exact (congrArg (· >>= fun t => [id].foldlM treeInsertNode t) hrun).trans
          ((bind_pure _).trans hinsert)
      · rw [hchildren]
        cases hks : t.children with
        | nil =>
            rw [hks] at hperm
            obtain rfl := hperm.nil_eq
            simp [insertRow]
        | cons k ks =>
            rw [hks] at hperm hhead
            cases ks with
            | nil =>
                obtain rfl := List.singleton_perm.mp hperm
                rw [insertRow]
                split
                · next hlt => simpa using hlt.le
                · next hge => simpa using not_lt.mp hge
            | cons k' ks =>
                have hlen := hperm.length_eq
                have htake : (ids ++ [id]).take 2 = ids.take 2 :=
                  List.take_append_of_le_length (by simp [keys] at hlen; omega)
                rw [htake]
                exact hhead

/-- **The children are in ascending order** exactly if one of the first two ids is the
least. -/
theorem ascendingChildren_iff (root : Int) {ids : List Int} (h : ids.Nodup) :
    AscendingChildren root ids ↔ ∀ b ∈ ids, ∃ a ∈ ids.take 2, a ≤ b := by
  obtain ⟨t, hrun, -, hrow, hperm, hhead⟩ := insertNodes_spec root h
  constructor
  · rintro ⟨t', hrun', hasc, -⟩ b hb
    obtain rfl := Option.some.inj (hrun.symm.trans hrun')
    cases hks : keys t.children with
    | nil =>
        rw [hks] at hperm
        rw [hperm.nil_eq.symm] at hb
        cases hb
    | cons a as =>
        rw [hks] at hasc hperm hhead
        refine ⟨a, (hhead a rfl).1, ?_⟩
        rcases List.mem_cons.mp (hperm.mem_iff.mpr hb) with rfl | hmem
        · exact le_rfl
        · exact ((List.pairwise_cons.mp hasc).1 b hmem).le
  · intro hleast
    have hasc : (keys t.children).Pairwise (· < ·) := by
      cases hks : t.children with
      | nil => exact List.Pairwise.nil
      | cons k ks =>
          rw [hks] at hrow hperm hhead
          refine List.pairwise_cons.mpr ⟨fun b hb => ?_, hrow.sorted⟩
          obtain ⟨a, ha, hab⟩ := hleast b (hperm.mem_iff.mp (List.mem_cons_of_mem _ hb))
          have hle : k.1 ≤ b := ((hhead k.1 rfl).2 a ha).trans hab
          refine lt_of_le_of_ne hle ?_
          rintro rfl
          exact (List.nodup_cons.mp hrow.nodup).1 hb
    refine ⟨t, hrun, hasc, fun i => ?_⟩
    have hsorted : keys t.children = ids.insertionSort (· ≤ ·) :=
      (hperm.trans (List.perm_insertionSort _ _).symm).eq_of_pairwise' (hasc.imp le_of_lt)
        (List.pairwise_insertionSort _ _)
    rw [treeSkip_id, ← hsorted]
    rfl

/-- Three ids, the least of them last: it is put behind the first. -/
theorem not_ascendingChildren_leastLast : ¬AscendingChildren 0 [1, 2, 0] := by
  rintro ⟨t, hrun, hasc, -⟩
  have hkeys : (insertNodes [1, 2, 0] (treeInit 0)).map (fun t => keys t.children) =
      some [1, 0, 2] := by decide
  rw [hrun] at hkeys
  have horder : keys t.children = [1, 0, 2] := Option.some.inj hkeys
  rw [horder] at hasc
  exact absurd hasc (by decide)

theorem ascendingChildren_leastFirst : AscendingChildren 0 [0, 1, 2] :=
  (ascendingChildren_iff 0 (by decide)).mpr (by decide)

end Likwid
