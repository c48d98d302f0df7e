import Likwid.GHash

/-!
# Nodes of a hash table can be found

What the operations of `GHash` keep: a node is found from the hash of its key, and so many nodes are
unused that every search ends.
-/

namespace Likwid

open Probe

/-! ## Sizes -/

theorem setAt_eq_some {α : Type} {a : List α} {i : ℕ} (h : i < a.length) (x : α) :
    setAt a i x = some (a.set i x) := if_pos h

theorem shiftMask_eq (shift : ℕ) : shiftMask shift = 2 ^ shift - 1 := by
  induction shift with
  | zero => rfl
  | succ shift ih =>
      have hpos := Nat.two_pow_pos shift
      rw [shiftMask, ih, Nat.shiftLeft_eq, Nat.pow_one, Nat.pow_succ]
      have hor : (2 ^ shift - 1) * 2 ||| 1 = (2 ^ shift - 1) * 2 + 1 := by
        have h := Nat.two_pow_add_eq_or_of_lt (i := 1) (b := 1) (by decide) (2 ^ shift - 1)
        rw [Nat.pow_one] at h
        rw [Nat.mul_comm]
        exact h.symm
      rw [hor]
      omega

theorem lt_two_pow_findClosestShift (n : ℕ) : n < 2 ^ findClosestShift n := by
  induction n using findClosestShift.induct with
  | case1 => rw [findClosestShift, if_pos rfl]; decide
  | case2 n hn ih =>
      rw [findClosestShift, if_neg hn, Nat.pow_succ]
      rw [Nat.shiftRight_eq_div_pow] at ih ⊢
      omega

theorem two_pow_findClosestShift_le {n : ℕ} (hn : n ≠ 0) : 2 ^ findClosestShift n ≤ 2 * n := by
  induction n using findClosestShift.induct with
  | case1 => exact absurd rfl hn
  | case2 n _ ih =>
      rw [findClosestShift, if_neg hn, Nat.pow_succ]
      by_cases hhalf : n >>> 1 = 0
      · rw [hhalf, findClosestShift, if_pos rfl]
        omega
      · have hle := ih hhalf
        rw [Nat.shiftRight_eq_div_pow] at hle ⊢
        omega

theorem primeMod_spec : ∀ shift < 31, ∃ mod, primeMod[shift]? = some mod ∧ 0 < mod ∧
    mod ≤ 2 ^ shift := by
  have hall : ∀ shift : Fin 31, ∃ mod, primeMod[shift.val]? = some mod ∧ 0 < mod ∧
      mod ≤ 2 ^ shift.val := by
    intro shift
    have hlt : shift.val < primeMod.length := Nat.lt_trans shift.isLt (by decide)
    refine ⟨primeMod[shift.val], List.getElem?_eq_getElem hlt, ?_⟩
    revert shift
    decide
  exact fun shift h => hall ⟨shift, h⟩

/-! ## The arrays as cells -/

structure Node (P : Type) where
  hash : Guint
  key : P
  value : P
deriving DecidableEq, Repr

section Arrays

variable {P : Type}

def cellOf (hash : Guint) (key value : P) : Cell (Node P) :=
  if hashIsUnused hash then .unused
  else if hashIsTombstone hash then .removed
  else .entry ⟨hash, key, value⟩

namespace Nodes

def cell (n : Nodes P) (i : ℕ) : Cell (Node P) :=
  match n.hashes[i]?, n.keys[i]?, n.valueArray[i]? with
  | some hash, some key, some value => cellOf hash key value
  | _, _, _ => .unused

/-- The arrays have this length. -/
structure Sized (n : Nodes P) (size : ℕ) : Prop where
  keys : n.keys.length = size
  hashes : n.hashes.length = size
  values : n.valueArray.length = size

end Nodes

theorem cellOf_real {hash : Guint} (h : hashIsReal hash = true) (key value : P) :
    cellOf hash key value = .entry ⟨hash, key, value⟩ := by
  have hlow : ∀ v : Guint, v.toNat < 2 → hash ≠ v := by
    rintro v hv rfl
    exact Nat.not_le_of_gt hv (of_decide_eq_true h)
  have hunused : hashIsUnused hash = false := decide_eq_false (hlow _ (by decide))
  have htombstone : hashIsTombstone hash = false := decide_eq_false (hlow _ (by decide))
  rw [cellOf, hunused, htombstone]
  rfl

theorem cellOf_unused {hash : Guint} (h : hashIsUnused hash = true) (key value : P) :
    cellOf hash key value = .unused := if_pos h

theorem cellOf_eq_unused {hash : Guint} {key value : P} (h : cellOf hash key value = .unused) :
    hashIsUnused hash = true := by
  unfold cellOf at h
  split at h
  · assumption
  · split at h
    · cases h
    · cases h

theorem cellOf_eq_removed {hash : Guint} {key value : P} :
    cellOf hash key value = .removed ↔ hashIsTombstone hash = true := by
  constructor
  · intro h
    unfold cellOf at h
    split at h
    · cases h
    · split at h
      · assumption
      · cases h
  · intro h
    have hhash : hash = tombstoneHashValue := of_decide_eq_true h
    subst hhash
    rfl

theorem cellOf_eq_entry {hash : Guint} {key value : P} {node : Node P}
    (h : cellOf hash key value = .entry node) :
    node = ⟨hash, key, value⟩ ∧ hashIsReal hash = true := by
  unfold cellOf at h
  split at h
  · cases h
  · next hunused =>
      split at h
      · cases h
      · next htombstone =>
          cases h
          refine ⟨rfl, decide_eq_true (Nat.not_lt.mp fun hlt => ?_)⟩
          have hcases : hash.toNat = 0 ∨ hash.toNat = 1 := by omega
          rcases hcases with h0 | h1
          · exact hunused (decide_eq_true (BitVec.eq_of_toNat_eq h0))
          · exact htombstone (decide_eq_true (BitVec.eq_of_toNat_eq h1))

namespace Nodes

variable {n : Nodes P} {size i : ℕ} {hash : Guint} {key value : P}

theorem Sized.get (h : n.Sized size) (hi : i < size) : ∃ hash key value,
    n.hashes[i]? = some hash ∧ n.keys[i]? = some key ∧ n.valueArray[i]? = some value ∧
      n.cell i = cellOf hash key value := by
  have hhash := List.getElem?_eq_getElem (show i < n.hashes.length by rw [h.hashes]; exact hi)
  have hkey := List.getElem?_eq_getElem (show i < n.keys.length by rw [h.keys]; exact hi)
  have hvalue := List.getElem?_eq_getElem
    (show i < n.valueArray.length by rw [h.values]; exact hi)
  exact ⟨_, _, _, hhash, hkey, hvalue, by rw [cell, hhash, hkey, hvalue]⟩

theorem cell_eq (hhash : n.hashes[i]? = some hash) (hkey : n.keys[i]? = some key)
    (hvalue : n.valueArray[i]? = some value) : n.cell i = cellOf hash key value := by
  rw [cell, hhash, hkey, hvalue]

theorem Sized.zeroed [Inhabited P] (size : ℕ) (shared : Bool) :
    (Nodes.zeroed size shared : Nodes P).Sized size := by
  refine ⟨List.length_replicate, List.length_replicate, ?_⟩
  cases shared
  · exact List.length_replicate
  · exact List.length_replicate

theorem cell_zeroed [Inhabited P] (size : ℕ) (shared : Bool) (i : ℕ) :
    (Nodes.zeroed size shared : Nodes P).cell i = .unused := by
  rcases Nat.lt_or_ge i size with hi | hi
  · obtain ⟨hash, key, value, hhash, -, -, hcell⟩ :=
      (Sized.zeroed (P := P) size shared).get hi
    have hzero : (Nodes.zeroed size shared : Nodes P).hashes[i]? = some unusedHashValue := by
      rw [Nodes.zeroed, List.getElem?_replicate, if_pos hi]
    rw [hzero] at hhash
    cases hhash
    rw [hcell]
    rfl
  · have hnone : (Nodes.zeroed size shared : Nodes P).hashes[i]? = none := by
      rw [Nodes.zeroed, List.getElem?_replicate, if_neg (Nat.not_lt.mpr hi)]
    rw [cell, hnone]

theorem cell_update {n' : Nodes P} {c : Cell (Node P)} (hc : n'.cell i = c)
    (hhashes : ∀ j, j ≠ i → n'.hashes[j]? = n.hashes[j]?)
    (hkeys : ∀ j, j ≠ i → n'.keys[j]? = n.keys[j]?)
    (hvalues : ∀ j, j ≠ i → n'.valueArray[j]? = n.valueArray[j]?) :
    n'.cell = Function.update n.cell i c := by
  funext j
  by_cases hj : j = i
  · rw [hj, Function.update_self, hc]
  · rw [Function.update_of_ne hj, cell, cell, hhashes j hj, hkeys j hj, hvalues j hj]

theorem Sized.putNode (h : n.Sized size) (hi : i < size) (hash : Guint) (key : P) :
    ∃ n', n.putNode i hash key = some n' ∧ n'.Sized size ∧ n'.values = n.values ∧
      n'.hashes[i]? = some hash ∧ n'.keys[i]? = some key ∧
      ∀ j, j ≠ i → n'.hashes[j]? = n.hashes[j]? ∧ n'.keys[j]? = n.keys[j]? ∧
        n'.valueArray[j]? = n.valueArray[j]? := by
  have hhashes : i < n.hashes.length := by rw [h.hashes]; exact hi
  have hkeys : i < n.keys.length := by rw [h.keys]; exact hi
  refine ⟨{ n with hashes := n.hashes.set i hash, keys := n.keys.set i key }, ?_, ⟨?_, ?_, ?_⟩,
    rfl, List.getElem?_set_self hhashes, List.getElem?_set_self hkeys, fun j hj => ⟨?_, ?_, ?_⟩⟩
  · rw [Nodes.putNode, setAt_eq_some hhashes, setAt_eq_some hkeys]
    rfl
  · exact List.length_set.trans h.keys
  · exact List.length_set.trans h.hashes
  · have hvalues := h.values
    unfold valueArray at hvalues ⊢
    cases hv : n.values with
    | none => exact List.length_set.trans h.keys
    | some values => rwa [hv] at hvalues
  · exact List.getElem?_set_ne (Ne.symm hj)
  · exact List.getElem?_set_ne (Ne.symm hj)
  · unfold valueArray
    cases n.values with
    | none => exact List.getElem?_set_ne (Ne.symm hj)
    | some values => rfl

theorem Sized.setValue (h : n.Sized size) (value : P) (hi : i < size)
    (hhash : n.hashes[i]? = some hash) (hkey : n.keys[i]? = some key)
    (hshared : n.values = none → key = value) :
    ∃ n', n.setValue i value = some n' ∧ n'.Sized size ∧ (n'.values = none ↔ n.values = none) ∧
      n'.cell = Function.update n.cell i (cellOf hash key value) := by
  have hkeys : i < n.keys.length := by rw [h.keys]; exact hi
  cases hv : n.values with
  | none =>
      have hset : n.keys.set i value = n.keys := by
        obtain ⟨_, rfl⟩ := List.getElem?_eq_some_iff.mp hkey
        rw [← hshared hv, List.set_getElem_self]
      refine ⟨n, ?_, h, hv ▸ Iff.rfl, ?_⟩
      · rw [Nodes.setValue]
        simp only [hv, setAt_eq_some hkeys, hset]
        exact congrArg some (by cases n; cases hv; rfl)
      · refine cell_update (cell_eq hhash hkey ?_) (fun _ _ => rfl) (fun _ _ => rfl) fun _ _ => rfl
        rw [valueArray, hv, ← hshared hv]
        exact hkey
  | some values =>
      have hlength : values.length = size := by
        have hvalues := h.values
        rwa [valueArray, hv] at hvalues
      have hvalues : i < values.length := by rw [hlength]; exact hi
      refine ⟨{ n with values := some (values.set i value) }, ?_, ⟨h.keys, h.hashes, ?_⟩,
        ⟨nofun, nofun⟩, ?_⟩
      · rw [Nodes.setValue]
        simp only [hv, setAt_eq_some hvalues]
        rfl
      · exact List.length_set.trans hlength
      · refine cell_update (cell_eq hhash hkey (List.getElem?_set_self hvalues))
          (fun _ _ => rfl) (fun _ _ => rfl) fun j hj => ?_
        rw [valueArray, valueArray, hv]
        exact List.getElem?_set_ne (Ne.symm hj)

/-- The number of bytes of an array of keys is a `guint` in `g_memdup`. -/
theorem gMemdup_keys (h : n.Sized size) (hsize : size < 2 ^ 29) :
    gMemdup n.keys (BitVec.ofNat 32 (8 * size)) = n.keys := by
  have hbytes : (BitVec.ofNat 32 (8 * size)).toNat = 8 * size := by
    rw [BitVec.toNat_ofNat, Nat.mod_eq_of_lt (by omega)]
  rw [gMemdup, hbytes, Nat.mul_div_cancel_left _ (by decide), ← h.keys, List.take_length]

theorem Sized.putValue [DecidableEq P] (h : n.Sized size) (hsize : size < 2 ^ 29) (hi : i < size)
    (hhash : n.hashes[i]? = some hash) (hkey : n.keys[i]? = some key) (newValue : P) :
    ∃ n', n.putValue size i newValue = some n' ∧ n'.Sized size ∧
      n'.cell = Function.update n.cell i (cellOf hash key newValue) := by
  by_cases hsplit : n.values = none ∧ key ≠ newValue
  · -- the copy of the keys is the array of the values
    let n₁ : Nodes P := { n with values := some n.keys }
    have hvalues : n₁.valueArray = n.valueArray := by
      show n.keys = n.values.getD n.keys
      rw [hsplit.1]
      rfl
    have hsized : n₁.Sized size := ⟨h.keys, h.hashes, by rw [hvalues]; exact h.values⟩
    have hcell : n₁.cell = n.cell := by
      funext j
      rw [cell, cell, hvalues]
    obtain ⟨n', hset, hsized', -, hcell'⟩ :=
      hsized.setValue newValue hi hhash hkey nofun
    refine ⟨n', ?_, hsized', by rw [hcell', hcell]⟩
    rw [Nodes.putValue, hkey, gMemdup_keys h hsize]
    show (if n.values = none ∧ key ≠ newValue then _ else _) = _
    rw [if_pos hsplit]
    exact hset
  · have hshared : n.values = none → key = newValue := fun hnone =>
      not_not.mp fun hne => hsplit ⟨hnone, hne⟩
    obtain ⟨n', hset, hsized', -, hcell'⟩ := h.setValue newValue hi hhash hkey hshared
    refine ⟨n', ?_, hsized', hcell'⟩
    rw [Nodes.putValue, hkey]
    show (if n.values = none ∧ key ≠ newValue then _ else _) = _
    rw [if_neg hsplit]
    exact hset

end Nodes

end Arrays

/-! ## Searching -/

section Table

variable {P : Type}

namespace GHashTable

/-- The slots for a hash value in the order in which they are tried -/
def slot (t : GHashTable P) (hash : Guint) (k : ℕ) : ℕ :=
  (hash.toNat % t.mod + triangle k) % t.size

/-- The size is a power of two, and the prime is not above it. -/
structure Shaped (t : GHashTable P) : Prop where
  size_mask : ∃ shift, t.size = 2 ^ shift ∧ t.mask = 2 ^ shift - 1
  mod_pos : 0 < t.mod
  mod_le : t.mod ≤ t.size

/-- The nodes can be found, and none is a tombstone. -/
structure Coherent (t : GHashTable P) : Prop extends t.Shaped where
  sized : t.Sized t.size
  settled : Settled t.size t.slot Node.hash t.cell
  clean : ∀ i < t.size, t.cell i ≠ .removed
  hashed : ∀ i < t.size, ∀ node, t.cell i = .entry node → node.hash = t.hashValue node.key
  nnodes_eq : t.nnodes = (entries t.size t.cell).length
  noccupied_eq : t.noccupied = t.nnodes

/-- What holds between two operations: one in seventeen nodes at least is unused, and a table of
more than eight is filled to a quarter. -/
structure Sound (t : GHashTable P) : Prop extends t.Coherent where
  room : t.nnodes + t.nnodes / 16 < t.size
  frugal : t.size ≤ max 8 (4 * t.nnodes)

variable {t : GHashTable P} {hash : Guint} {key : P} {k : ℕ}

theorem Shaped.size_pos (h : t.Shaped) : 0 < t.size := Nat.lt_of_lt_of_le h.mod_pos h.mod_le

/-- The size of a table with fewer than `2 ^ 27` nodes -/
theorem Sound.size_lt (h : t.Sound) (hfew : t.nnodes < 2 ^ 27) : t.size < 2 ^ 29 := by
  have hfrugal := h.frugal
  omega

theorem Shaped.slot_lt (h : t.Shaped) (hash : Guint) (k : ℕ) : t.slot hash k < t.size :=
  Nat.mod_lt _ h.size_pos

theorem Shaped.slot_zero (h : t.Shaped) : t.slot hash 0 = hash.toNat % t.mod := by
  have hlt := Nat.lt_of_lt_of_le (Nat.mod_lt hash.toNat h.mod_pos) h.mod_le
  rw [slot, triangle, Nat.add_zero, Nat.mod_eq_of_lt hlt]

/-- `node_index += step; node_index &= mask` -/
theorem Shaped.slot_succ (h : t.Shaped) :
    (t.slot hash k + (k + 1)) &&& t.mask = t.slot hash (k + 1) := by
  obtain ⟨shift, hsize, hmask⟩ := h.size_mask
  rw [hmask, Nat.and_two_pow_sub_one_eq_mod, slot, slot, hsize, Nat.mod_add_mod, triangle,
    Nat.add_assoc]

theorem Shaped.slot_covers (h : t.Shaped) (hash : Guint) {i : ℕ} (hi : i < t.size) :
    ∃ k < t.size, t.slot hash k = i := by
  obtain ⟨shift, hsize, -⟩ := h.size_mask
  unfold slot
  rw [hsize] at hi ⊢
  exact exists_triangle _ hi

theorem Sound.exists_unused (h : t.Sound) : ∃ i < t.size, t.cell i = .unused := by
  refine Probe.exists_unused ?_
  rw [occupied_eq_length h.clean, ← h.nnodes_eq]
  exact Nat.lt_of_le_of_lt (Nat.le_add_right _ _) h.room

theorem unusedFrom_spec (hshaped : t.Shaped) {n : Nodes P} (hsized : n.Sized t.size)
    (hstop : Stops n.cell (fun _ => False) (t.slot hash) k) {fuel j : ℕ} (hj : j ≤ k)
    (hfuel : k < j + fuel) :
    unusedFrom n.hashes t.mask fuel j (t.slot hash j) = some (t.slot hash k) := by
  induction fuel generalizing j with
  | zero => omega
  | succ fuel ih =>
      obtain ⟨nodeHash, nodeKey, value, hhash, -, -, hcell⟩ :=
        hsized.get (hshaped.slot_lt hash j)
      rw [unusedFrom]
      simp only [hhash, Option.bind_eq_bind, Option.bind_some]
      rcases Nat.lt_or_eq_of_le hj with hlt | rfl
      · have hused : ¬hashIsUnused nodeHash = true := fun h =>
          (hstop.before j hlt).1 (hcell.trans (cellOf_unused h _ _))
        rw [if_neg hused, hshaped.slot_succ]
        exact ih hlt (by omega)
      · have hunused : n.cell (t.slot hash j) = .unused := by
          rcases not_passes.mp hstop.here with h | ⟨-, -, h⟩
          · exact h
          · exact h.elim
        rw [if_pos (cellOf_eq_unused (hcell ▸ hunused))]

/-! ## Rebuilding -/

theorem setShiftFromSize_spec (t : GHashTable P) {n : ℕ} (hn : n < 2 ^ 29) :
    ∃ size mod mask, t.setShiftFromSize (n * 2) = some { t with size, mod, mask } ∧
      ({ t with size, mod, mask } : GHashTable P).Shaped ∧ n * 2 < size ∧
      size ≤ max 8 (4 * n) := by
  have hlow := lt_two_pow_findClosestShift (n * 2)
  have hhigh : n ≠ 0 → 2 ^ findClosestShift (n * 2) ≤ 4 * n := fun hn => by
    have h := two_pow_findClosestShift_le (n := n * 2) (by omega)
    omega
  have hshift : findClosestShift (n * 2) < 31 := by
    by_cases h0 : n = 0
    · rw [h0, findClosestShift]
      decide
    · refine (Nat.pow_lt_pow_iff_right (a := 2) (by decide)).mp ?_
      have h := hhigh h0
      omega
  obtain ⟨mod, hmod, hpos, hle⟩ := primeMod_spec (max (findClosestShift (n * 2)) hashTableMinShift)
    (max_lt hshift (by decide))
  have hsize : 1 <<< max (findClosestShift (n * 2)) hashTableMinShift =
      2 ^ max (findClosestShift (n * 2)) hashTableMinShift := by
    rw [Nat.shiftLeft_eq, Nat.one_mul]
  refine ⟨_, mod, _, ?_, ⟨⟨_, hsize, shiftMask_eq _⟩, hpos, ?_⟩, ?_, ?_⟩
  · rw [setShiftFromSize, setShift, hmod]
    simp only [Option.bind_eq_bind, Option.bind_some,
      if_pos (max_lt hshift (by decide : hashTableMinShift < 31))]
  · rwa [hsize]
  · rw [hsize]
    exact Nat.lt_of_lt_of_le hlow (Nat.pow_le_pow_right (by decide) (le_max_left _ _))
  · rw [hsize]
    rcases Nat.le_total (findClosestShift (n * 2)) hashTableMinShift with hmin | hmin
    · rw [max_eq_right hmin]
      exact le_max_left _ _
    · rw [max_eq_left hmin]
      by_cases h0 : n = 0
      · rw [h0, findClosestShift] at hmin
        exact absurd hmin (by decide)
      · exact Nat.le_trans (hhigh h0) (le_max_right _ _)

/-- The new arrays hold the nodes of the first `i` slots of the old ones. -/
structure Moved (t : GHashTable P) (old : Nodes P) (i : ℕ) (new : Nodes P) : Prop where
  sized : new.Sized t.size
  shared : new.values = none → old.values = none
  settled : Settled t.size t.slot Node.hash new.cell
  clean : ∀ i < t.size, new.cell i ≠ .removed
  moved : (entries t.size new.cell).Perm (entries i old.cell)

theorem moveNode_spec {old new : Nodes P} {oldSize i : ℕ} (hshaped : t.Shaped)
    (hold : old.Sized oldSize) (hi : i < oldSize) (hroom : (entries i old.cell).length < t.size)
    (h : t.Moved old i new) :
    ∃ new', t.moveNode old new i = some new' ∧ t.Moved old (i + 1) new' := by
  obtain ⟨nodeHash, key, value, hhash, hkey, hvalue, hcell⟩ := hold.get hi
  rw [moveNode, hhash]
  simp only [Option.bind_eq_bind, Option.bind_some]
  by_cases hreal : hashIsReal nodeHash = true
  · rw [if_pos hreal]
    -- the first unused slot
    have hfree : occupied t.size new.cell < t.size := by
      rw [occupied_eq_length h.clean, h.moved.length_eq]
      exact hroom
    obtain ⟨j, hj, hunused⟩ := Probe.exists_unused hfree
    obtain ⟨k, hk, hstop⟩ := exists_stops (p := fun _ : Node P => False)
      (hshaped.slot_covers nodeHash hj) hunused
    have hslot := unusedFrom_spec hshaped h.sized hstop (Nat.zero_le k)
      (by omega : k < 0 + t.size)
    rw [hshaped.slot_zero] at hslot
    have hlt := hshaped.slot_lt nodeHash k
    obtain ⟨new₁, hput, hsized₁, hvalues₁, hhash₁, hkey₁, hother⟩ :=
      h.sized.putNode hlt nodeHash key
    have hshared : new₁.values = none → key = value := fun hnone => by
      rw [hvalues₁] at hnone
      rw [Nodes.valueArray, h.shared hnone, Option.getD_none, hkey] at hvalue
      exact Option.some.inj hvalue
    obtain ⟨new₂, hset, hsized₂, hvalues₂, hcell₂⟩ :=
      hsized₁.setValue value hlt hhash₁ hkey₁ hshared
    have hentry : new₂.cell = Function.update new.cell (t.slot nodeHash k)
        (.entry ⟨nodeHash, key, value⟩) := by
      rw [hcell₂, cellOf_real hreal]
      funext l
      by_cases hl : l = t.slot nodeHash k
      · rw [hl, Function.update_self, Function.update_self]
      · obtain ⟨hh, hk', hv⟩ := hother l hl
        rw [Function.update_of_ne hl, Function.update_of_ne hl, Nodes.cell, Nodes.cell, hh, hk', hv]
    have hfree : (new.cell (t.slot nodeHash k)).content? = none := by
      rcases not_passes.mp hstop.here with hu | ⟨-, -, hfalse⟩
      · rw [hu]
        rfl
      · exact hfalse.elim
    refine ⟨new₂, ?_, hsized₂, fun hnone => h.shared (hvalues₁ ▸ hvalues₂.mp hnone), ?_, ?_, ?_⟩
    · rw [hslot, Option.bind_some, hkey, Option.bind_some, hvalue, Option.bind_some, hput]
      exact hset
    · rw [hentry]
      exact h.settled.put (hstop.reached_before (Nat.le_refl k))
    · intro l hl
      rw [hentry]
      by_cases hlk : l = t.slot nodeHash k
      · rw [hlk, Function.update_self]
        nofun
      · rw [Function.update_of_ne hlk]
        exact h.clean l hl
    · rw [hentry, entries_succ, hcell, cellOf_real hreal]
      refine (entries_put hlt hfree).trans ((List.Perm.cons _ h.moved).trans ?_)
      exact (List.perm_append_singleton _ _).symm
  · rw [if_neg hreal]
    refine ⟨new, rfl, h.sized, h.shared, h.settled, h.clean, ?_⟩
    have hnone : (old.cell i).content? = none := Cell.content?_eq_none.mpr fun node hnode =>
      hreal (cellOf_eq_entry (hcell ▸ hnode)).2
    rw [entries_succ, hnone]
    simpa using h.moved

theorem resize_spec [Inhabited P] (hsized : t.Sized t.size)
    (hnnodes : t.nnodes = (entries t.size t.cell).length)
    (hhashed : ∀ i < t.size, ∀ node, t.cell i = .entry node → node.hash = t.hashValue node.key)
    (hfew : t.nnodes < 2 ^ 29) :
    ∃ t', t.resize = some t' ∧ t'.Sound ∧ t'.hashFunc = t.hashFunc ∧
      t'.keyEqualFunc = t.keyEqualFunc ∧
      (entries t'.size t'.cell).Perm (entries t.size t.cell) := by
  obtain ⟨size, mod, mask, hset, hshaped, hroom, hfrugal⟩ := setShiftFromSize_spec t hfew
  have hle : ∀ i ≤ t.size, (entries i t.cell).length ≤ t.nnodes := by
    intro i hi
    rw [hnnodes]
    exact (List.Sublist.filterMap _ (List.range_sublist.mpr hi)).length_le
  have hzeroed : ∀ i, (Nodes.zeroed size t.values.isNone : Nodes P).cell i = .unused :=
    Nodes.cell_zeroed size t.values.isNone
  have hstart : Moved { t with size, mod, mask } t.toNodes 0
      (Nodes.zeroed size t.values.isNone) := by
    refine ⟨Nodes.Sized.zeroed _ _, fun hnone => ?_, Settled.of_unused fun i _ => hzeroed i,
      fun i _ => ?_, ?_⟩
    · cases hv : t.values with
      | none => rfl
      | some values =>
          rw [Nodes.zeroed, hv] at hnone
          cases hnone
    · rw [hzeroed]
      nofun
    · rw [entries_of_unused fun i _ => hzeroed i]
      rfl
  obtain ⟨new, hloop, hmoved⟩ := Slots.loop_spec (n := t.size)
    (moveNode { t with size, mod, mask } t.toNodes)
    (Moved { t with size, mod, mask } t.toNodes) hstart
    fun i hi s hs => moveNode_spec hshaped hsized hi
      (Nat.lt_of_le_of_lt (hle i (Nat.le_of_lt hi)) (show t.nnodes < size by omega)) hs
  refine ⟨{ t with toNodes := new, size, mod, mask, noccupied := t.nnodes }, ?_,
    ⟨⟨⟨hshaped.size_mask, hshaped.mod_pos, hshaped.mod_le⟩, hmoved.sized, hmoved.settled,
      hmoved.clean, ?_, ?_, rfl⟩, ?_, hfrugal⟩, rfl, rfl, hmoved.moved⟩
  · rw [resize, hset]
    simp only [Option.bind_eq_bind, Option.bind_some]
    rw [hloop]
    rfl
  · intro i hi node hnode
    obtain ⟨j, hj, hcell⟩ := mem_entries.mp
      (hmoved.moved.mem_iff.mp (mem_entries.mpr ⟨i, hi, hnode⟩))
    exact hhashed j hj node hcell
  · exact hnnodes.trans hmoved.moved.length_eq.symm
  · show t.nnodes + t.nnodes / 16 < size
    omega

theorem Coherent.maybeResize [Inhabited P] (h : t.Coherent) (hfew : t.nnodes < 2 ^ 29) :
    ∃ t', t.maybeResize = some t' ∧ t'.Sound ∧ t'.hashFunc = t.hashFunc ∧
      t'.keyEqualFunc = t.keyEqualFunc ∧
      (entries t'.size t'.cell).Perm (entries t.size t.cell) := by
  unfold GHashTable.maybeResize
  split
  · exact resize_spec h.sized h.nnodes_eq h.hashed hfew
  · next hgood =>
      rw [not_or, h.noccupied_eq] at hgood
      have hmin : 1 <<< hashTableMinShift = 8 := rfl
      rw [hmin] at hgood
      exact ⟨t, rfl, ⟨h, by omega, by omega⟩, rfl, rfl, List.Perm.refl _⟩

theorem Shaped.zeroed [Inhabited P] (h : t.Shaped) (shared : Bool) :
    Coherent { t with toNodes := Nodes.zeroed t.size shared, nnodes := 0, noccupied := 0 } ∧
      entries t.size (Nodes.zeroed t.size shared : Nodes P).cell = [] := by
  have hzeroed : ∀ i, (Nodes.zeroed t.size shared : Nodes P).cell i = .unused :=
    Nodes.cell_zeroed t.size shared
  have hentries : entries t.size (Nodes.zeroed t.size shared : Nodes P).cell = [] :=
    entries_of_unused fun i _ => hzeroed i
  refine ⟨⟨⟨h.size_mask, h.mod_pos, h.mod_le⟩, Nodes.Sized.zeroed _ _,
    Settled.of_unused fun i _ => hzeroed i, fun i _ => ?_, fun i _ node hnode => ?_, ?_, rfl⟩,
    hentries⟩
  · show (Nodes.zeroed t.size shared : Nodes P).cell i ≠ _
    rw [hzeroed]
    nofun
  · have hcell : (Nodes.zeroed t.size shared : Nodes P).cell i = .entry node := hnode
    rw [hzeroed] at hcell
    cases hcell
  · show 0 = (entries t.size (Nodes.zeroed t.size shared : Nodes P).cell).length
    rw [hentries]
    rfl

theorem new_spec [Inhabited P] (hashFunc : P → Guint) (keyEqualFunc : Option (P → P → Bool)) :
    ∃ t : GHashTable P, GHashTable.new hashFunc keyEqualFunc = some t ∧ t.Sound ∧
      t.hashFunc = hashFunc ∧ t.keyEqualFunc = keyEqualFunc ∧ entries t.size t.cell = [] := by
  let t : GHashTable P :=
    { keys := [], hashes := [], values := none, size := 8, mod := 7, mask := 7, nnodes := 0,
      noccupied := 0, hashFunc, keyEqualFunc }
  have hshaped : t.Shaped := ⟨⟨3, rfl, rfl⟩, show 0 < 7 by decide, show 7 ≤ 8 by decide⟩
  obtain ⟨hcoherent, hentries⟩ := hshaped.zeroed true
  exact ⟨_, rfl, ⟨hcoherent, show 0 + 0 / 16 < 8 by decide, show 8 ≤ max 8 (4 * 0) by decide⟩,
    rfl, rfl, hentries⟩

theorem Sound.removeAll [Inhabited P] (h : t.Sound) :
    ∃ t', t.removeAll = some t' ∧ t'.Sound ∧ t'.hashFunc = t.hashFunc ∧
      t'.keyEqualFunc = t.keyEqualFunc ∧ entries t'.size t'.cell = [] := by
  obtain ⟨hcoherent, hentries⟩ := h.zeroed t.values.isNone
  obtain ⟨t', hrun, hsound, hfunc, hequal, hperm⟩ :=
    hcoherent.maybeResize (show 0 < 2 ^ 29 by decide)
  exact ⟨t', hrun, hsound, hfunc, hequal, List.Perm.eq_nil (hentries ▸ hperm)⟩

/-! ## Looking up -/

variable [DecidableEq P]

/-- What the search for a key stops at -/
def Sought (t : GHashTable P) (hash : Guint) (key : P) (node : Node P) : Prop :=
  node.hash = hash ∧ t.keysEqual node.key key = true

/-- The loop comes to the slot where the search stops; it delivers that slot or a tombstone it has
come across. -/
theorem lookupFrom_spec (hshaped : t.Shaped) (hsized : t.Sized t.size)
    (hreal : hashIsReal hash = true) (hstop : Stops t.cell (t.Sought hash key) (t.slot hash) k)
    {fuel j : ℕ} (hj : j ≤ k) (hfuel : k < j + fuel) {firstTombstone : Option ℕ}
    (htombstone : ∀ i, firstTombstone = some i →
      i < t.size ∧ t.cell i = .removed ∧ Reached t.cell (t.slot hash) i) :
    ∃ r, t.lookupFrom key hash fuel j (t.slot hash j) firstTombstone = some r ∧ r < t.size ∧
      ((∃ node, t.cell r = .entry node ∧ t.Sought hash key node) ∨
        t.cell (t.slot hash k) = .unused ∧ (t.cell r).content? = none ∧
          Reached t.cell (t.slot hash) r) := by
  induction fuel generalizing j firstTombstone with
  | zero => omega
  | succ fuel ih =>
      obtain ⟨nodeHash, nodeKey, value, hhash, hkey, -, hcell⟩ :=
        hsized.get (hshaped.slot_lt hash j)
      rw [lookupFrom]
      simp only [hhash, hkey, Option.bind_eq_bind, Option.bind_some]
      by_cases hunused : hashIsUnused nodeHash = true
      · -- the search ends without the key
        rw [if_pos hunused]
        rw [cellOf_unused hunused] at hcell
        have hjk : j = k := by
          rcases Nat.lt_or_eq_of_le hj with hlt | heq
          · exact absurd hcell (hstop.before j hlt).1
          · exact heq
        subst hjk
        cases firstTombstone with
        | none =>
            exact ⟨_, rfl, hshaped.slot_lt _ _,
              Or.inr ⟨hcell, congrArg Cell.content? hcell, hstop.reached_before (Nat.le_refl j)⟩⟩
        | some i =>
            obtain ⟨hi, hremoved, hreached⟩ := htombstone i rfl
            exact ⟨i, rfl, hi, Or.inr ⟨hcell, congrArg Cell.content? hremoved, hreached⟩⟩
      · rw [if_neg hunused]
        by_cases hfound : nodeHash = hash ∧ t.keysEqual nodeKey key = true
        · rw [if_pos hfound.1]
          simp only [hfound.2, if_true]
          refine ⟨_, rfl, hshaped.slot_lt _ _, Or.inl ⟨⟨nodeHash, nodeKey, value⟩, ?_, hfound⟩⟩
          rw [hcell, cellOf_real (hfound.1 ▸ hreal)]
        · -- the next slot
          have hpasses : Passes (t.Sought hash key) (t.cell (t.slot hash j)) := by
            refine ⟨fun h => hunused (cellOf_eq_unused (hcell ▸ h)), fun node hnode hsought => ?_⟩
            obtain ⟨rfl, -⟩ := cellOf_eq_entry (hcell ▸ hnode)
            exact hfound hsought
          have hjk : j < k := by
            rcases Nat.lt_or_eq_of_le hj with hlt | heq
            · exact hlt
            · exact absurd (heq ▸ hpasses) hstop.here
          have hnext := @ih (j + 1) hjk (by omega) (if nodeHash ≠ hash ∧ hashIsTombstone nodeHash ∧
            firstTombstone = none then some (t.slot hash j) else firstTombstone) ?_
          · rw [hshaped.slot_succ]
            by_cases hhash' : nodeHash = hash
            · have hother : ¬t.keysEqual nodeKey key = true := fun h => hfound ⟨hhash', h⟩
              rw [if_pos hhash', if_neg hother]
              exact hnext
            · rw [if_neg hhash']
              simp only [Bool.false_eq_true, if_false]
              exact hnext
          · intro i hi
            split at hi
            · next hnew =>
                cases hi
                exact ⟨hshaped.slot_lt _ _, hcell.trans (cellOf_eq_removed.mpr hnew.2.1),
                  hstop.reached_before hj⟩
            · exact htombstone i hi

/-- **A search for a key ends**, at its node or else at a free one where the key can be put. -/
theorem Sound.lookupNode (h : t.Sound)
    (hhash : ∀ a b, t.keysEqual a b = true → t.hashFunc a = t.hashFunc b) (key : P) :
    ∃ r, t.lookupNode key = some (r, t.hashValue key) ∧ r < t.size ∧
      ((∃ node, t.cell r = .entry node ∧ t.keysEqual node.key key = true) ∨
        (∀ node ∈ entries t.size t.cell, ¬t.keysEqual node.key key = true) ∧
          t.cell r = .unused ∧ Reached t.cell (t.slot (t.hashValue key)) r) := by
  obtain ⟨i, hi, hunused⟩ := h.exists_unused
  obtain ⟨k, hk, hstop⟩ := exists_stops (p := t.Sought (t.hashValue key) key)
    (h.slot_covers (t.hashValue key) hi) hunused
  have hreal : hashIsReal (t.hashValue key) = true := by
    unfold hashValue
    split
    · assumption
    · decide
  have hnone : ∀ i, (none : Option ℕ) = some i → i < t.size ∧ t.cell i = .removed ∧
      Reached t.cell (t.slot (t.hashValue key)) i := nofun
  obtain ⟨r, hlookup, hr, hcases⟩ := lookupFrom_spec h.toShaped h.sized hreal hstop
    (Nat.zero_le k) (by omega : k < 0 + t.size) hnone
  refine ⟨r, ?_, hr, ?_⟩
  · rw [GHashTable.lookupNode, ← h.slot_zero, hlookup]
    rfl
  · rcases hcases with ⟨node, hnode, hsought⟩ | ⟨hend, hfree, hreached⟩
    · exact Or.inl ⟨node, hnode, hsought.2⟩
    · refine Or.inr ⟨fun node hnode hequal => ?_, ?_, hreached⟩
      · obtain ⟨j, hj, hcell⟩ := mem_entries.mp hnode
        have hvalue : node.hash = t.hashValue key := by
          rw [h.hashed j hj node hcell, hashValue, hashValue, hhash _ _ hequal]
        exact h.settled.absent (fun a ha => ha.1) hstop hend hj hcell ⟨hvalue, hequal⟩
      · cases hc : t.cell r with
        | unused => rfl
        | removed => exact absurd hc (h.clean r hr)
        | entry node => exact absurd hc (Cell.content?_eq_none.mp hfree node)

end GHashTable

end Table

end Likwid
