import Likwid.GHashSound

/-!
# Hash tables keep a map

What a run of the operations does to a table of `GHash` is what it does to a map from keys to
values.
-/

namespace Likwid

open Probe

section Table

variable {P : Type}

/-- The key and the value -/
def Node.pair (node : Node P) : P × P := (node.key, node.value)

namespace GHashTable

/-! ## The map -/

variable [DecidableEq P] [Inhabited P] {t : GHashTable P}

/-- The keys of a table: equal keys have equal hashes. -/
structure LawfulKeys (hashFunc : P → Guint) (keyEqualFunc : Option (P → P → Bool)) : Prop where
  refl : ∀ a, equalKeys keyEqualFunc a a = true
  symm : ∀ a b, equalKeys keyEqualFunc a b = true → equalKeys keyEqualFunc b a = true
  trans : ∀ a b c, equalKeys keyEqualFunc a b = true → equalKeys keyEqualFunc b c = true →
    equalKeys keyEqualFunc a c = true
  hash : ∀ a b, equalKeys keyEqualFunc a b = true → hashFunc a = hashFunc b

/-- An operation, by the name that follows `g_hash_table_` -/
inductive HashOp (P : Type) where
  | insert (key value : P)
  | lookup (key : P)
  | size
  | removeAll
deriving DecidableEq, Repr

inductive HashAnswer (P : Type) where
  | inserted (isNew : Bool)
  | value (p : P)
  | size (n : ℕ)
  | removed
deriving DecidableEq, Repr

def step (t : GHashTable P) : HashOp P → Option (HashAnswer P × GHashTable P)
  | .insert key value => (t.insert key value).map fun p => (.inserted p.1, p.2)
  | .lookup key => (t.lookup key).map fun p => (.value p, t)
  | .size => some (.size t.nnodes, t)
  | .removeAll => t.removeAll.map fun t => (.removed, t)

def run (t : GHashTable P) : List (HashOp P) → Option (List (HashAnswer P) × GHashTable P)
  | [] => some ([], t)
  | op :: ops => do
      let (answer, t) ← t.step op
      let (answers, t) ← t.run ops
      some (answer :: answers, t)

/-- The same operation on a map, which is a list of keys with their values. A value that is
replaced keeps its first key. -/
def mapStep (same : P → P → Bool) (m : List (P × P)) :
    HashOp P → HashAnswer P × List (P × P)
  | .insert key value =>
      if m.any (same ·.1 key) then
        (.inserted false, m.map fun e => if same e.1 key then (e.1, value) else e)
      else (.inserted true, (key, value) :: m)
  | .lookup key => (.value (((m.find? (same ·.1 key)).map (·.2)).getD default), m)
  | .size => (.size m.length, m)
  | .removeAll => (.removed, [])

def mapRun (same : P → P → Bool) :
    List (P × P) → List (HashOp P) → List (HashAnswer P) × List (P × P)
  | m, [] => ([], m)
  | m, op :: ops =>
      ((mapStep same m op).1 :: (mapRun same (mapStep same m op).2 ops).1,
        (mapRun same (mapStep same m op).2 ops).2)

/-- The table has the keys and the values of the map. -/
structure Represents (t : GHashTable P) (m : List (P × P)) : Prop where
  sound : t.Sound
  lawful : LawfulKeys t.hashFunc t.keyEqualFunc
  pairs : ((entries t.size t.cell).map Node.pair).Perm m
  distinct : m.Pairwise fun a b => ¬t.keysEqual a.1 b.1 = true

omit [Inhabited P] in
theorem Represents.length_eq {m : List (P × P)} (h : t.Represents m) : t.nnodes = m.length := by
  rw [h.sound.nnodes_eq, ← h.pairs.length_eq, List.length_map]

omit [Inhabited P] in
theorem Represents.size_lt {m : List (P × P)} (h : t.Represents m) (hfew : m.length + 1 < 2 ^ 27) :
    t.size < 2 ^ 29 :=
  h.sound.size_lt (by rw [h.length_eq]; omega)

section Represents

variable {m : List (P × P)} {e : P × P}

omit [Inhabited P] in
theorem Represents.mem (h : t.Represents m) :
    e ∈ m ↔ ∃ node ∈ entries t.size t.cell, node.pair = e := by
  rw [← h.pairs.mem_iff, List.mem_map]

omit [Inhabited P] in
theorem Represents.symmetric (h : t.Represents m) :
    Std.Symm fun a b : P × P => ¬t.keysEqual a.1 b.1 = true :=
  ⟨fun _ _ hab hba => hab (h.lawful.symm _ _ hba)⟩

omit [Inhabited P] in
theorem Represents.hash_eq (h : t.Represents m) (a b : P) (hab : t.keysEqual a b = true) :
    t.hashFunc a = t.hashFunc b := h.lawful.hash a b hab

omit [Inhabited P] in
theorem Represents.unique (h : t.Represents m) {e' : P × P} (he : e ∈ m) (he' : e' ∈ m) {key : P}
    (hkey : t.keysEqual e.1 key = true) (hkey' : t.keysEqual e'.1 key = true) : e = e' := by
  by_contra hne
  have := h.symmetric
  exact h.distinct.forall he he' hne
    (h.lawful.trans _ _ _ hkey (h.lawful.symm _ _ hkey'))

omit [Inhabited P] in
theorem Represents.find_eq (h : t.Represents m) (he : e ∈ m) {key : P}
    (hkey : t.keysEqual e.1 key = true) : m.find? (t.keysEqual ·.1 key) = some e := by
  cases hfind : m.find? (t.keysEqual ·.1 key) with
  | none => exact absurd hkey (List.find?_eq_none.mp hfind e he)
  | some e' =>
      rw [h.unique (List.mem_of_find?_eq_some hfind) he
        (List.find?_some (p := fun e : P × P => t.keysEqual e.1 key) hfind) hkey]

theorem Represents.lookup (h : t.Represents m) (key : P) : t.lookup key =
    some (((m.find? (t.keysEqual ·.1 key)).map (·.2)).getD default) := by
  obtain ⟨r, hnode, hr, hcases⟩ := h.sound.lookupNode h.hash_eq key
  obtain ⟨hash, nodeKey, value, hhash, -, hvalue, hcell⟩ := h.sound.sized.get hr
  rw [GHashTable.lookup, hnode]
  simp only [Option.bind_eq_bind, Option.bind_some, hhash]
  rcases hcases with ⟨node, hentry, hequal⟩ | ⟨habsent, hunused, -⟩
  · obtain ⟨rfl, hreal⟩ := cellOf_eq_entry (hcell ▸ hentry)
    have hmem : (nodeKey, value) ∈ m := h.mem.mpr ⟨_, mem_entries.mpr ⟨r, hr, hentry⟩, rfl⟩
    rw [if_pos hreal, hvalue, h.find_eq hmem hequal]
    rfl
  · have hnone : m.find? (t.keysEqual ·.1 key) = none := by
      refine List.find?_eq_none.mpr fun e he => ?_
      obtain ⟨node, hnode, rfl⟩ := h.mem.mp he
      exact habsent node hnode
    have hzero : ¬hashIsReal hash = true := by
      have hhash : hash = 0 := of_decide_eq_true (cellOf_eq_unused (hcell ▸ hunused))
      rw [hhash]
      decide
    rw [if_neg hzero, hnone]
    rfl

/-- A key that is there gets the new value. -/
theorem Represents.insert_old (h : t.Represents m) {key : P} (value : P) (he : e ∈ m)
    (hkey : t.keysEqual e.1 key = true) (hfew : m.length + 1 < 2 ^ 27) :
    ∃ t', t.insert key value = some (false, t') ∧ t'.hashFunc = t.hashFunc ∧
      t'.keyEqualFunc = t.keyEqualFunc ∧
      t'.Represents (m.map fun e => if t.keysEqual e.1 key then (e.1, value) else e) := by
  obtain ⟨r, hnode, hr, ⟨node, hentry, hequal⟩ | ⟨habsent, -, -⟩⟩ :=
    h.sound.lookupNode h.hash_eq key
  swap
  · obtain ⟨node, hmem, rfl⟩ := h.mem.mp he
    exact absurd hkey (habsent node hmem)
  obtain ⟨hash, nodeKey, old, hhash, hnodeKey, -, hcell⟩ := h.sound.sized.get hr
  obtain ⟨rfl, hreal⟩ := cellOf_eq_entry (hcell ▸ hentry)
  obtain ⟨n, hput, hsized, hn⟩ :=
    h.sound.sized.putValue (h.size_lt hfew) hr hhash hnodeKey value
  rw [cellOf_real hreal] at hn
  obtain ⟨rest, hold, hnew⟩ :=
    entries_replace (a := (⟨hash, nodeKey, value⟩ : Node P)) hr hentry
  rw [← hn] at hnew
  have hreached : Reached t.cell (t.slot hash) r := h.sound.settled r hr _ hentry
  refine ⟨{ t with toNodes := n }, ?_, rfl, rfl, ⟨⟨⟨⟨h.sound.size_mask,
    h.sound.mod_pos, h.sound.mod_le⟩, hsized, ?_, ?_, ?_, ?_, h.sound.noccupied_eq⟩, h.sound.room,
    h.sound.frugal⟩, h.lawful, ?_, ?_⟩⟩
  · rw [GHashTable.insert, hnode]
    simp only [Option.bind_eq_bind, Option.bind_some]
    rw [insertNode, hhash]
    simp only [Option.bind_eq_bind, Option.bind_some, hreal, if_true, Bool.false_eq_true, if_false,
      hput]
  · show Settled t.size t.slot Node.hash n.cell
    rw [hn]
    exact h.sound.settled.put hreached
  · intro i hi
    show n.cell i ≠ _
    rw [hn]
    by_cases hir : i = r
    · rw [hir, Function.update_self]
      nofun
    · rw [Function.update_of_ne hir]
      exact h.sound.clean i hi
  · intro i hi node hnode
    have hcell : n.cell i = .entry node := hnode
    rw [hn] at hcell
    by_cases hir : i = r
    · rw [hir, Function.update_self] at hcell
      cases hcell
      exact (h.sound.hashed r hr _ hentry : hash = t.hashValue nodeKey)
    · rw [Function.update_of_ne hir] at hcell
      exact h.sound.hashed i hi node hcell
  · have hnnodes := h.sound.nnodes_eq
    rw [hold.length_eq] at hnnodes
    exact hnnodes.trans hnew.length_eq.symm
  · -- the other entries are under other keys
    have hperm : m.Perm ((nodeKey, old) :: rest.map Node.pair) :=
      h.pairs.symm.trans (hold.map Node.pair)
    have hdistinct := (hperm.pairwise_iff fun hab => h.symmetric.symm _ _ hab).mp h.distinct
    have hrest : (rest.map Node.pair).map
        (fun e => if t.keysEqual e.1 key then (e.1, value) else e) = rest.map Node.pair := by
      refine (List.map_congr_left fun e he => if_neg fun hsame => ?_).trans (List.map_id _)
      exact List.rel_of_pairwise_cons hdistinct he
        (h.lawful.trans _ _ _ hequal (h.lawful.symm _ _ hsame))
    refine (hnew.map Node.pair).trans (List.Perm.trans ?_ (hperm.map _).symm)
    rw [List.map_cons, List.map_cons, hrest, if_pos hequal]
    rfl
  · rw [List.pairwise_map]
    refine h.distinct.imp fun hab => ?_
    have hfst : ∀ e : P × P, (if t.keysEqual e.1 key then (e.1, value) else e).1 = e.1 := by
      intro e
      split <;> rfl
    rw [hfst, hfst]
    exact hab

/-- A new key takes an unused node. -/
theorem Represents.insert_new (h : t.Represents m) {key : P} (value : P)
    (hnew : ∀ e ∈ m, ¬t.keysEqual e.1 key = true) (hfew : m.length + 1 < 2 ^ 27) :
    ∃ t', t.insert key value = some (true, t') ∧ t'.hashFunc = t.hashFunc ∧
      t'.keyEqualFunc = t.keyEqualFunc ∧ t'.Represents ((key, value) :: m) := by
  obtain ⟨r, hnode, hr, ⟨node, hentry, hequal⟩ | ⟨-, hunused, hreached⟩⟩ :=
    h.sound.lookupNode h.hash_eq key
  · exact absurd hequal
      (hnew _ (h.mem.mpr ⟨node, mem_entries.mpr ⟨r, hr, hentry⟩, rfl⟩))
  have hreal : hashIsReal (t.hashValue key) = true := by
    unfold hashValue
    split
    · assumption
    · decide
  obtain ⟨hash, nodeKey, old, hhash, -, -, hcell⟩ := h.sound.sized.get hr
  have hzero : hash = 0 := of_decide_eq_true (cellOf_eq_unused (hcell ▸ hunused))
  subst hzero
  obtain ⟨n₁, hput₁, hsized₁, -, hhash₁, hkey₁, hother⟩ :=
    h.sound.sized.putNode hr (t.hashValue key) key
  obtain ⟨n₂, hput₂, hsized₂, hn₂⟩ :=
    hsized₁.putValue (h.size_lt hfew) hr hhash₁ hkey₁ value
  have hn : n₂.cell = Function.update t.cell r (.entry ⟨t.hashValue key, key, value⟩) := by
    rw [hn₂, cellOf_real hreal]
    funext i
    by_cases hi : i = r
    · rw [hi, Function.update_self, Function.update_self]
    · obtain ⟨hh, hk, hv⟩ := hother i hi
      rw [Function.update_of_ne hi, Function.update_of_ne hi, Nodes.cell, Nodes.cell, hh, hk, hv]
  have hperm := entries_put (a := (⟨t.hashValue key, key, value⟩ : Node P)) hr
    (show (t.cell r).content? = none by rw [hunused]; rfl)
  rw [← hn] at hperm
  have hcoherent : Coherent
      { t with toNodes := n₂, nnodes := t.nnodes + 1, noccupied := t.noccupied + 1 } := by
    refine ⟨⟨h.sound.size_mask, h.sound.mod_pos, h.sound.mod_le⟩, hsized₂, ?_, ?_, ?_, ?_, ?_⟩
    · show Settled t.size t.slot Node.hash n₂.cell
      rw [hn]
      exact h.sound.settled.put hreached
    · intro i hi
      show n₂.cell i ≠ _
      rw [hn]
      by_cases hir : i = r
      · rw [hir, Function.update_self]
        intro hremoved
        cases hremoved
      · rw [Function.update_of_ne hir]
        exact h.sound.clean i hi
    · intro i hi node hnode
      have hcell : n₂.cell i = .entry node := hnode
      rw [hn] at hcell
      by_cases hir : i = r
      · rw [hir, Function.update_self] at hcell
        cases hcell
        rfl
      · rw [Function.update_of_ne hir] at hcell
        exact h.sound.hashed i hi node hcell
    · exact (congrArg (· + 1) h.sound.nnodes_eq).trans hperm.length_eq.symm
    · exact congrArg (· + 1) h.sound.noccupied_eq
  obtain ⟨t', hresize, hsound, hfunc, hequal, hperm'⟩ :=
    hcoherent.maybeResize (show t.nnodes + 1 < 2 ^ 29 by rw [h.length_eq]; omega)
  have hkeys : t'.keysEqual = t.keysEqual := by
    rw [keysEqual, keysEqual, hequal]
  refine ⟨t', ?_, hfunc, hequal, hsound, ?_, ?_, ?_⟩
  · rw [GHashTable.insert, hnode]
    simp only [Option.bind_eq_bind, Option.bind_some]
    rw [insertNode, hhash]
    have hfree : hashIsReal (0 : Guint) = false := by decide
    have hunused' : hashIsUnused (0 : Guint) = true := by decide
    simp only [Option.bind_eq_bind, Option.bind_some, hfree, Bool.false_eq_true, if_false, hput₁,
      hput₂, hunused', if_true, hresize]
  · rw [hfunc, hequal]
    exact h.lawful
  · exact (hperm'.map Node.pair).trans ((hperm.map Node.pair).trans (h.pairs.cons _))
  · rw [hkeys]
    refine List.pairwise_cons.mpr ⟨fun e he hsame => hnew e he ?_, h.distinct⟩
    exact h.lawful.symm _ _ hsame

/-- **Every operation does to the table what it does to the map.** -/
theorem Represents.step (h : t.Represents m) (op : HashOp P) (hfew : m.length + 1 < 2 ^ 27) :
    ∃ t', t.step op = some ((mapStep t.keysEqual m op).1, t') ∧ t'.keysEqual = t.keysEqual ∧
      t'.Represents (mapStep t.keysEqual m op).2 := by
  have hkeys : ∀ {t' : GHashTable P}, t'.keyEqualFunc = t.keyEqualFunc →
      t'.keysEqual = t.keysEqual := fun hequal => by rw [keysEqual, keysEqual, hequal]
  cases op with
  | insert key value =>
      rw [mapStep]
      split
      · next hany =>
          obtain ⟨e, he, hkey⟩ := List.any_eq_true.mp hany
          obtain ⟨t', hrun, -, hequal, hrep⟩ := h.insert_old value he hkey hfew
          refine ⟨t', ?_, hkeys hequal, hrep⟩
          rw [GHashTable.step, hrun]
          rfl
      · next hany =>
          rw [Bool.not_eq_true, List.any_eq_false] at hany
          obtain ⟨t', hrun, -, hequal, hrep⟩ := h.insert_new value hany hfew
          refine ⟨t', ?_, hkeys hequal, hrep⟩
          rw [GHashTable.step, hrun]
          rfl
  | lookup key =>
      refine ⟨t, ?_, rfl, h⟩
      rw [GHashTable.step, h.lookup]
      rfl
  | size =>
      refine ⟨t, ?_, rfl, h⟩
      rw [GHashTable.step, h.length_eq]
      rfl
  | removeAll =>
      obtain ⟨t', hrun, hsound, hfunc, hequal, hnil⟩ := h.sound.removeAll
      refine ⟨t', ?_, hkeys hequal, hsound, ?_, ?_, List.Pairwise.nil⟩
      · rw [GHashTable.step, hrun]
        rfl
      · rw [hfunc, hequal]
        exact h.lawful
      · rw [hnil]
        exact List.Perm.refl []

omit [DecidableEq P] in
theorem mapStep_length (same : P → P → Bool) (m : List (P × P)) (op : HashOp P) :
    (mapStep same m op).2.length ≤ m.length + 1 := by
  cases op with
  | insert key value =>
      rw [mapStep]
      split
      · rw [List.length_map]
        exact Nat.le_succ _
      · exact Nat.le_refl _
  | lookup key => exact Nat.le_succ _
  | size => exact Nat.le_succ _
  | removeAll => exact Nat.zero_le _

theorem Represents.run (h : t.Represents m) (ops : List (HashOp P))
    (hfew : m.length + ops.length < 2 ^ 27) :
    ∃ t', t.run ops = some ((mapRun t.keysEqual m ops).1, t') ∧ t'.keysEqual = t.keysEqual ∧
      t'.Represents (mapRun t.keysEqual m ops).2 := by
  induction ops generalizing t m with
  | nil => exact ⟨t, rfl, rfl, h⟩
  | cons op ops ih =>
      rw [List.length_cons] at hfew
      obtain ⟨t₁, hstep, hkeys₁, hrep₁⟩ := h.step op (by omega)
      have hlength := mapStep_length t.keysEqual m op
      obtain ⟨t', hrun, hkeys, hrep⟩ := ih hrep₁ (by omega)
      rw [hkeys₁] at hrun hrep
      refine ⟨t', ?_, hkeys.trans hkeys₁, hrep⟩
      rw [GHashTable.run, hstep]
      simp only [Option.bind_eq_bind, Option.bind_some, hrun]
      rfl

theorem new_represents {hashFunc : P → Guint} {keyEqualFunc : Option (P → P → Bool)}
    (hkeys : LawfulKeys hashFunc keyEqualFunc) :
    ∃ t : GHashTable P, GHashTable.new hashFunc keyEqualFunc = some t ∧
      t.keyEqualFunc = keyEqualFunc ∧ t.Represents [] := by
  obtain ⟨t, hnew, hsound, hfunc, hequal, hnil⟩ := new_spec hashFunc keyEqualFunc
  refine ⟨t, hnew, hequal, hsound, ?_, ?_, List.Pairwise.nil⟩
  · rw [hfunc, hequal]
    exact hkeys
  · rw [hnil]
    exact List.Perm.refl []

end Represents

/-! ## Iterating -/

/-- The entries at `next` and behind -/
def entriesFrom (t : GHashTable P) (next : ℕ) : List (Node P) :=
  (List.range' next (t.size - next)).filterMap fun i => (t.cell i).content?

omit [DecidableEq P] [Inhabited P] in
theorem entriesFrom_zero (t : GHashTable P) : t.entriesFrom 0 = entries t.size t.cell := by
  rw [entriesFrom, entries, List.range_eq_range', Nat.sub_zero]

omit [DecidableEq P] [Inhabited P] in
theorem entriesFrom_end {next : ℕ} (h : t.size ≤ next) : t.entriesFrom next = [] := by
  rw [entriesFrom, Nat.sub_eq_zero_of_le h]
  rfl

omit [DecidableEq P] [Inhabited P] in
theorem entriesFrom_cons {next : ℕ} (h : next < t.size) :
    t.entriesFrom next = (t.cell next).content?.toList ++ t.entriesFrom (next + 1) := by
  have hsize : t.size - next = (t.size - (next + 1)) + 1 := by omega
  rw [entriesFrom, entriesFrom, hsize, List.range'_succ]
  cases hcell : (t.cell next).content? with
  | none => exact List.filterMap_cons_none hcell
  | some node => exact List.filterMap_cons_some hcell

omit [DecidableEq P] [Inhabited P] in
theorem content?_cellOf (hash : Guint) (key value : P) : (cellOf hash key value).content? =
    if hashIsReal hash then some ⟨hash, key, value⟩ else none := by
  split
  · next hreal => rw [cellOf_real hreal]; rfl
  · next hreal =>
      exact Cell.content?_eq_none.mpr fun node hnode => hreal (cellOf_eq_entry hnode).2

omit [DecidableEq P] [Inhabited P] in
/-- The iterator goes to the next entry. -/
theorem iterNext_spec (hsized : t.Sized t.size) (next : ℕ) :
    ∃ next', t.iterNext next = some (next', (t.entriesFrom next).head?.map Node.pair) ∧
      t.entriesFrom next' = (t.entriesFrom next).tail := by
  induction next using GHashTable.iterNext.induct (t := t) with
  | case1 next hlt ih =>
      obtain ⟨hash, key, value, hhash, hkey, hvalue, hcell⟩ := hsized.get hlt
      rw [iterNext, if_pos hlt, entriesFrom_cons hlt, hcell, content?_cellOf, hhash]
      simp only [Option.bind_eq_bind, Option.bind_some]
      split
      · exact ⟨next + 1, by rw [hkey, hvalue]; rfl, rfl⟩
      · exact ih
  | case2 next hge =>
      rw [iterNext, if_neg hge, entriesFrom_end (Nat.not_lt.mp hge)]
      exact ⟨next + 1, rfl, entriesFrom_end (by omega)⟩

omit [DecidableEq P] [Inhabited P] in
theorem iterate_spec (hsized : t.Sized t.size) {fuel next : ℕ}
    (hfuel : (t.entriesFrom next).length < fuel) :
    t.iterate fuel next = some ((t.entriesFrom next).map Node.pair) := by
  induction fuel generalizing next with
  | zero => omega
  | succ fuel ih =>
      obtain ⟨next', hnext, htail⟩ := iterNext_spec hsized next
      rw [iterate, hnext]
      cases hrest : t.entriesFrom next with
      | nil => rfl
      | cons node rest =>
          rw [hrest] at htail hfuel
          have hiterate := @ih next' (by rw [htail]; exact Nat.lt_of_succ_lt_succ hfuel)
          rw [htail] at hiterate
          simp only [Option.bind_eq_bind, Option.bind_some, List.head?_cons, Option.map_some]
          rw [hiterate]
          rfl

omit [Inhabited P] in
theorem Represents.iterate {m : List (P × P)} (h : t.Represents m) :
    t.iterate (t.nnodes + 1) 0 = some ((entries t.size t.cell).map Node.pair) := by
  rw [← entriesFrom_zero]
  refine iterate_spec h.sound.sized ?_
  rw [entriesFrom_zero, ← h.sound.nnodes_eq]
  exact Nat.lt_succ_self _

omit [DecidableEq P] [Inhabited P] in
theorem foreach_spec {σ : Type} (hsized : t.Sized t.size) (func : σ → P → P → σ) (s : σ) :
    t.foreach func s = some (((entries t.size t.cell).map Node.pair).foldl
      (fun s e => func s e.1 e.2) s) := by
  have hbody : ∀ i < t.size, ∀ s',
      s' = ((entries i t.cell).map Node.pair).foldl (fun s e => func s e.1 e.2) s →
      ∃ s'', t.foreachNode func s' i = some s'' ∧
        s'' = ((entries (i + 1) t.cell).map Node.pair).foldl (fun s e => func s e.1 e.2) s := by
    rintro i hi s' rfl
    obtain ⟨hash, key, value, hhash, hkey, hvalue, hcell⟩ := hsized.get hi
    refine ⟨_, by rw [foreachNode, hhash, hkey, hvalue]; rfl, ?_⟩
    rw [entries_succ, hcell, content?_cellOf, List.map_append, List.foldl_append]
    split
    · rfl
    · rfl
  obtain ⟨s', hloop, hs'⟩ := Slots.loop_spec (t.foreachNode func) (fun i s' => s' =
    ((entries i t.cell).map Node.pair).foldl (fun s e => func s e.1 e.2) s) rfl hbody
  rw [foreach, ← hs']
  exact hloop

omit [DecidableEq P] in
theorem findFrom_spec (hsized : t.Sized t.size) (predicate : P → P → Bool) {is : List ℕ}
    (his : ∀ i ∈ is, i < t.size) : t.findFrom predicate is false =
      some ((((is.filterMap fun i => (t.cell i).content?).map Node.pair).find?
        fun e => predicate e.1 e.2).elim default (·.2)) := by
  induction is with
  | nil => rfl
  | cons i is ih =>
      obtain ⟨hash, key, value, hhash, hkey, hvalue, hcell⟩ := hsized.get (his i List.mem_cons_self)
      have hrest := ih fun j hj => his j (List.mem_cons_of_mem i hj)
      rw [findFrom, hhash, hkey, hvalue]
      simp only [Option.bind_eq_bind, Option.bind_some]
      by_cases hreal : hashIsReal hash = true
      · have hentry : (t.cell i).content? = some ⟨hash, key, value⟩ := by
          rw [hcell, content?_cellOf, if_pos hreal]
        have hcons : (i :: is).filterMap (fun i => (t.cell i).content?) =
            ⟨hash, key, value⟩ :: is.filterMap fun i => (t.cell i).content? :=
          List.filterMap_cons_some hentry
        rw [hcons, List.map_cons, if_pos hreal]
        cases hfound : predicate key value with
        | true =>
            rw [List.find?_cons_of_pos (by exact hfound)]
            rfl
        | false =>
            rw [List.find?_cons_of_neg (by exact Bool.not_eq_true _ ▸ hfound)]
            exact hrest
      · have hentry : (t.cell i).content? = none := by rw [hcell, content?_cellOf, if_neg hreal]
        have hcons : (i :: is).filterMap (fun i => (t.cell i).content?) =
            is.filterMap fun i => (t.cell i).content? := List.filterMap_cons_none hentry
        rw [hcons, if_neg hreal]
        exact hrest

/-! ## Runs -/

omit [Inhabited P] in
/-- `g_hash_table_new` with `NULL` for `key_equal_func` -/
theorem LawfulKeys.pointers (hashFunc : P → Guint) : LawfulKeys hashFunc none where
  refl _ := decide_eq_true rfl
  symm _ _ h := decide_eq_true (of_decide_eq_true h).symm
  trans _ _ _ h h' := decide_eq_true ((of_decide_eq_true h).trans (of_decide_eq_true h'))
  hash _ _ h := congrArg hashFunc (of_decide_eq_true h)

/-- **A table answers as a map does**, whatever is done to it. -/
theorem answers_as_map {hashFunc : P → Guint} {keyEqualFunc : Option (P → P → Bool)}
    (hkeys : LawfulKeys hashFunc keyEqualFunc) (ops : List (HashOp P))
    (hfew : ops.length < 2 ^ 27) :
    ∃ t t' : GHashTable P, GHashTable.new hashFunc keyEqualFunc = some t ∧
      t.run ops = some ((mapRun (equalKeys keyEqualFunc) [] ops).1, t') := by
  obtain ⟨t, hnew, hequal, hrep⟩ := new_represents hkeys
  obtain ⟨t', hrun, -, -⟩ := hrep.run ops (by rwa [List.length_nil, Nat.zero_add])
  rw [keysEqual, hequal] at hrun
  exact ⟨t, t', hnew, hrun⟩

theorem answers_as_map_pointers : ∃ t t' : GHashTable ℕ,
    GHashTable.new (BitVec.ofNat 32) none = some t ∧
      t.run [.insert 9 4, .insert 9 5, .lookup 9, .lookup 8, .size] =
        some ([.inserted true, .inserted false, .value 5, .value 0, .size 1], t') :=
  answers_as_map (LawfulKeys.pointers _) [.insert 9 4, .insert 9 5, .lookup 9, .lookup 8, .size]
    (by decide)

/-- The iterator, `g_hash_table_foreach` and `g_hash_table_find` after a run: there is **one order
of the map's entries** in which all of them go through it, each entry once. -/
theorem traverses_map {hashFunc : P → Guint} {keyEqualFunc : Option (P → P → Bool)}
    (hkeys : LawfulKeys hashFunc keyEqualFunc) (ops : List (HashOp P))
    (hfew : ops.length < 2 ^ 27) :
    ∃ t t' : GHashTable P, ∃ answers, GHashTable.new hashFunc keyEqualFunc = some t ∧
      t.run ops = some (answers, t') ∧
      ∃ ps, ps.Perm (mapRun (equalKeys keyEqualFunc) [] ops).2 ∧
        t'.iterate (t'.nnodes + 1) 0 = some ps ∧
        (∀ {σ : Type} (func : σ → P → P → σ) (s : σ),
          t'.foreach func s = some (ps.foldl (fun s e => func s e.1 e.2) s)) ∧
        ∀ predicate, t'.find predicate =
          some ((ps.find? fun e => predicate e.1 e.2).elim default (·.2)) := by
  obtain ⟨t, hnew, hequal, hrep⟩ := new_represents hkeys
  obtain ⟨t', hrun, -, hrep'⟩ := hrep.run ops (by rwa [List.length_nil, Nat.zero_add])
  rw [keysEqual, hequal] at hrep'
  exact ⟨t, t', _, hnew, hrun, _, hrep'.pairs, hrep'.iterate, foreach_spec hrep'.sound.sized,
    fun predicate =>
      findFrom_spec hrep'.sound.sized predicate fun i hi => List.mem_range.mp hi⟩

theorem traverses_map_pointers : ∃ t t' : GHashTable ℕ, ∃ answers,
    GHashTable.new (BitVec.ofNat 32) none = some t ∧
      t.run [.insert 9 4, .insert 8 5] = some (answers, t') ∧
      ∃ ps : List (ℕ × ℕ), ps.Perm [(8, 5), (9, 4)] ∧ t'.iterate (t'.nnodes + 1) 0 = some ps := by
  obtain ⟨t, t', answers, hnew, hrun, ps, hperm, hiterate, -⟩ :=
    traverses_map (LawfulKeys.pointers (BitVec.ofNat 32)) [.insert 9 4, .insert 8 5] (by decide)
  exact ⟨t, t', answers, hnew, hrun, ps, hperm, hiterate⟩

/-- **How full a table is after a run**: its size is a power of two and not above four times the
number of its nodes, unless it is eight; the nodes and a sixteenth of them never fill it, and no
node is a tombstone. -/
theorem load_bounded {hashFunc : P → Guint} {keyEqualFunc : Option (P → P → Bool)}
    (hkeys : LawfulKeys hashFunc keyEqualFunc) (ops : List (HashOp P))
    (hfew : ops.length < 2 ^ 27) :
    ∃ t t' : GHashTable P, ∃ answers, GHashTable.new hashFunc keyEqualFunc = some t ∧
      t.run ops = some (answers, t') ∧
      (∃ shift, t'.size = 2 ^ shift) ∧ t'.size ≤ max 8 (4 * t'.nnodes) ∧
      t'.nnodes + t'.nnodes / 16 < t'.size ∧ t'.noccupied = t'.nnodes ∧
      t'.hashes.length = t'.size ∧ t'.keys.length = t'.size ∧ t'.valueArray.length = t'.size ∧
      ∀ hash ∈ t'.hashes, hashIsTombstone hash = false := by
  obtain ⟨t, hnew, -, hrep⟩ := new_represents hkeys
  obtain ⟨t', hrun, -, hrep'⟩ := hrep.run ops (by rwa [List.length_nil, Nat.zero_add])
  have hsound := hrep'.sound
  obtain ⟨shift, hsize, -⟩ := hsound.size_mask
  refine ⟨t, t', _, hnew, hrun, ⟨shift, hsize⟩, hsound.frugal, hsound.room, hsound.noccupied_eq,
    hsound.sized.hashes, hsound.sized.keys, hsound.sized.values, fun hash hmem => ?_⟩
  obtain ⟨i, hi, rfl⟩ := List.mem_iff_getElem.mp hmem
  have hlt : i < t'.size := hsound.sized.hashes ▸ hi
  obtain ⟨hash, key, value, hhash, -, -, hcell⟩ := hsound.sized.get hlt
  have hclean := hsound.clean i hlt
  rw [List.getElem?_eq_getElem hi, Option.some.injEq] at hhash
  rw [hhash]
  by_contra htombstone
  exact hclean (hcell.trans (cellOf_eq_removed.mpr (Bool.not_eq_false _ ▸ htombstone)))

theorem load_bounded_pointers : ∃ t t' : GHashTable ℕ, ∃ answers,
    GHashTable.new (BitVec.ofNat 32) none = some t ∧
      t.run [.insert 9 4, .removeAll, .insert 8 5] = some (answers, t') ∧
      t'.nnodes + t'.nnodes / 16 < t'.size := by
  obtain ⟨t, t', answers, hnew, hrun, -, -, hroom, -⟩ :=
    load_bounded (LawfulKeys.pointers (BitVec.ofNat 32)) [.insert 9 4, .removeAll, .insert 8 5]
      (by decide)
  exact ⟨t, t', answers, hnew, hrun, hroom⟩

end GHashTable

end Table

end Likwid
