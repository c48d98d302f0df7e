import Likwid.Lib.Probe
import Likwid.Lib.Slots

/-!
# Hash tables (`ghash.c`)

The table of GLib that the marker API keeps its regions in: open addressing in arrays of `2 ^ shift`
nodes. The search for a key starts at its hash modulo a prime and takes steps of one, two, three,
…; a table that gets too full or too empty is rebuilt.

An access behind the end of an array, a search that never ends and a size beyond `int` have no
result. A pointer is of any type `P`, with `default` for `NULL`. What stands in the arrays is seen
as a table of cells (`Nodes.cell`), for which `Probe` has the rules.
-/

namespace Likwid

abbrev Guint : Type := BitVec 32

/-! ## The table -/

/-- The arrays of a table; `values` may be the array of the keys itself. -/
structure Nodes (P : Type) where
  keys : List P
  hashes : List Guint
  values : Option (List P)
deriving DecidableEq, Repr

structure GHashTable (P : Type) extends Nodes P where
  size : ℕ
  mod : ℕ
  mask : ℕ
  nnodes : ℕ
  /-- `nnodes` and tombstones -/
  noccupied : ℕ
  hashFunc : P → Guint
  keyEqualFunc : Option (P → P → Bool)

def hashTableMinShift : ℕ := 3

def unusedHashValue : Guint := 0

def tombstoneHashValue : Guint := 1

def hashIsUnused (h : Guint) : Bool := h = unusedHashValue

def hashIsTombstone (h : Guint) : Bool := h = tombstoneHashValue

def hashIsReal (h : Guint) : Bool := 2 ≤ h.toNat

def primeMod : List ℕ :=
  [1, 2, 3, 7, 13, 31, 61, 127, 251, 509, 1021, 2039, 4093, 8191, 16381, 32749, 65521, 131071,
    262139, 524287, 1048573, 2097143, 4194301, 8388593, 16777213, 33554393, 67108859, 134217689,
    268435399, 536870909, 1073741789, 2147483647]

/-- `a[i] = x` -/
def setAt {α : Type} (a : List α) (i : ℕ) (x : α) : Option (List α) :=
  if i < a.length then some (a.set i x) else none

section Table

variable {P : Type} [Inhabited P] [DecidableEq P]

/-- `key_equal_func`, or equal pointers -/
def equalKeys (keyEqualFunc : Option (P → P → Bool)) (nodeKey key : P) : Bool :=
  match keyEqualFunc with
  | some equal => equal nodeKey key
  | none => decide (nodeKey = key)

/-- What `values` points to -/
def Nodes.valueArray (n : Nodes P) : List P := n.values.getD n.keys

/-- `calloc` of the arrays -/
def Nodes.zeroed (size : ℕ) (shared : Bool) : Nodes P where
  keys := List.replicate size default
  hashes := List.replicate size unusedHashValue
  values := if shared then none else some (List.replicate size default)

/-- `g_memdup`, of as many pointers as there are in `byte_size` bytes -/
def gMemdup (mem : List P) (byteSize : Guint) : List P := mem.take (byteSize.toNat / 8)

/-- The loop of `g_hash_table_set_shift` -/
def shiftMask : ℕ → ℕ
  | 0 => 0
  | shift + 1 => (shiftMask shift <<< 1) ||| 1

namespace GHashTable

/-- `g_hash_table_set_shift`; `1 << 31` is no `int`. -/
def setShift (t : GHashTable P) (shift : ℕ) : Option (GHashTable P) := do
  let mod ← primeMod[shift]?
  if shift < 31 then some { t with size := 1 <<< shift, mod, mask := shiftMask shift } else none

end GHashTable

/-- `g_hash_table_find_closest_shift` -/
def findClosestShift (n : ℕ) : ℕ :=
  if n = 0 then 0 else findClosestShift (n >>> 1) + 1
termination_by n
decreasing_by
  rw [Nat.shiftRight_eq_div_pow]
  omega

namespace GHashTable

def setShiftFromSize (t : GHashTable P) (size : ℕ) : Option (GHashTable P) :=
  t.setShift (max (findClosestShift size) hashTableMinShift)

def keysEqual (t : GHashTable P) : P → P → Bool := equalKeys t.keyEqualFunc

/-- `hash_value` of `g_hash_table_lookup_node` -/
def hashValue (t : GHashTable P) (key : P) : Guint :=
  if hashIsReal (t.hashFunc key) then t.hashFunc key else 2

/-- The loop of `g_hash_table_lookup_node`; `firstTombstone` is `some` if `have_tombstone` is
set. -/
def lookupFrom (t : GHashTable P) (key : P) (hashValue : Guint) :
    ℕ → ℕ → ℕ → Option ℕ → Option ℕ
  | 0, _, _, _ => none
  | fuel + 1, step, nodeIndex, firstTombstone => do
      let nodeHash ← t.hashes[nodeIndex]?
      if hashIsUnused nodeHash then some (firstTombstone.getD nodeIndex)
      else do
        let found ←
          if nodeHash = hashValue then do
            let nodeKey ← t.keys[nodeIndex]?
            some (t.keysEqual nodeKey key)
          else some false
        if found then some nodeIndex
        else
          let firstTombstone :=
            if nodeHash ≠ hashValue ∧ hashIsTombstone nodeHash ∧ firstTombstone = none then
              some nodeIndex
            else firstTombstone
          lookupFrom t key hashValue fuel (step + 1) ((nodeIndex + (step + 1)) &&& t.mask)
            firstTombstone

/-- `g_hash_table_lookup_node`: the index, and the hash of the key. As many rounds as the table has
nodes are enough if one of them is unused. -/
def lookupNode (t : GHashTable P) (key : P) : Option (ℕ × Guint) :=
  let hashValue := t.hashValue key
  (t.lookupFrom key hashValue t.size 0 (hashValue.toNat % t.mod) none).map (·, hashValue)

/-- The inner loop of `g_hash_table_resize` -/
def unusedFrom (newHashes : List Guint) (mask : ℕ) : ℕ → ℕ → ℕ → Option ℕ
  | 0, _, _ => none
  | fuel + 1, step, hashVal => do
      let hash ← newHashes[hashVal]?
      if hashIsUnused hash then some hashVal
      else unusedFrom newHashes mask fuel (step + 1) ((hashVal + (step + 1)) &&& mask)

end GHashTable

namespace Nodes

/-- `hashes[i] = hash; keys[i] = key` -/
def putNode (n : Nodes P) (i : ℕ) (hash : Guint) (key : P) : Option (Nodes P) := do
  let hashes ← setAt n.hashes i hash
  let keys ← setAt n.keys i key
  some { n with hashes, keys }

/-- `values[i] = value`, which goes to the keys if there is one array only -/
def setValue (n : Nodes P) (i : ℕ) (value : P) : Option (Nodes P) := do
  match n.values with
  | none => do
      let keys ← setAt n.keys i value
      some { n with keys }
  | some values => do
      let values ← setAt values i value
      some { n with values := some values }

/-- The values get an array of their own when one of them differs from its key. -/
def putValue (n : Nodes P) (size i : ℕ) (newValue : P) : Option (Nodes P) := do
  let nodeKey ← n.keys[i]?
  if n.values = none ∧ nodeKey ≠ newValue then
    setValue { n with values := some (gMemdup n.keys (BitVec.ofNat 32 (8 * size))) } i newValue
  else n.setValue i newValue

end Nodes

namespace GHashTable

/-- The body of the loop of `g_hash_table_resize` over the old nodes; `t` has the new size. -/
def moveNode (t : GHashTable P) (old new : Nodes P) (i : ℕ) : Option (Nodes P) := do
  let nodeHash ← old.hashes[i]?
  if hashIsReal nodeHash then do
    let hashVal ← unusedFrom new.hashes t.mask t.size 0 (nodeHash.toNat % t.mod)
    let key ← old.keys[i]?
    let value ← old.valueArray[i]?
    let new ← new.putNode hashVal nodeHash key
    new.setValue hashVal value
  else some new

def resize (t : GHashTable P) : Option (GHashTable P) := do
  let new ← t.setShiftFromSize (t.nnodes * 2)
  let nodes ← Slots.loop t.size (new.moveNode t.toNodes)
    (Nodes.zeroed new.size t.values.isNone)
  some { new with toNodes := nodes, noccupied := t.nnodes }

def maybeResize (t : GHashTable P) : Option (GHashTable P) :=
  if (t.nnodes * 4 < t.size ∧ 1 <<< hashTableMinShift < t.size) ∨
      t.size ≤ t.noccupied + t.noccupied / 16 then t.resize
  else some t

/-- `g_hash_table_new` -/
def new (hashFunc : P → Guint) (keyEqualFunc : Option (P → P → Bool)) : Option (GHashTable P) :=
  let t : GHashTable P :=
    { keys := [], hashes := [], values := none, size := 0, mod := 0, mask := 0, nnodes := 0,
      noccupied := 0, hashFunc, keyEqualFunc }
  (t.setShift hashTableMinShift).map fun t => { t with toNodes := Nodes.zeroed t.size true }

/-- `g_hash_table_insert_node` -/
def insertNode (t : GHashTable P) (nodeIndex : ℕ) (keyHash : Guint) (newKey newValue : P)
    (keepNewKey : Bool) : Option (Bool × GHashTable P) := do
  let oldHash ← t.hashes[nodeIndex]?
  if hashIsReal oldHash then do
    let nodes ←
      if keepNewKey then do
        let keys ← setAt t.keys nodeIndex newKey
        some { t.toNodes with keys }
      else some t.toNodes
    let nodes ← nodes.putValue t.size nodeIndex newValue
    some (false, { t with toNodes := nodes })
  else do
    let nodes ← t.toNodes.putNode nodeIndex keyHash newKey
    let nodes ← nodes.putValue t.size nodeIndex newValue
    let t := { t with toNodes := nodes, nnodes := t.nnodes + 1 }
    if hashIsUnused oldHash then do
      let t ← maybeResize { t with noccupied := t.noccupied + 1 }
      some (true, t)
    else some (true, t)

/-- `g_hash_table_insert` -/
def insert (t : GHashTable P) (key value : P) : Option (Bool × GHashTable P) := do
  let (nodeIndex, keyHash) ← t.lookupNode key
  t.insertNode nodeIndex keyHash key value false

/-- `g_hash_table_lookup` -/
def lookup (t : GHashTable P) (key : P) : Option P := do
  let (nodeIndex, _) ← t.lookupNode key
  let hash ← t.hashes[nodeIndex]?
  if hashIsReal hash then t.valueArray[nodeIndex]? else some default

/-- `g_hash_table_remove_all`, which is also `g_hash_table_destroy`; the table has no functions to
destroy keys and values. -/
def removeAll (t : GHashTable P) : Option (GHashTable P) :=
  maybeResize
    { t with toNodes := Nodes.zeroed t.size t.values.isNone, nnodes := 0, noccupied := 0 }

/-- `g_hash_table_iter_next` at a position one before `next`: the position after the call, also
one more, and the key and the value, if there is a node. -/
def iterNext (t : GHashTable P) (next : ℕ) : Option (ℕ × Option (P × P)) :=
  if next < t.size then do
    let hash ← t.hashes[next]?
    if hashIsReal hash then do
      let key ← t.keys[next]?
      let value ← t.valueArray[next]?
      some (next + 1, some (key, value))
    else t.iterNext (next + 1)
  else some (next + 1, none)
termination_by t.size - next

/-- `while (g_hash_table_iter_next(&iter, &key, &value))`, with what it delivers -/
def iterate (t : GHashTable P) : ℕ → ℕ → Option (List (P × P))
  | 0, _ => none
  | fuel + 1, next => do
      match ← t.iterNext next with
      | (_, none) => some []
      | (next, some p) => do
          let ps ← t.iterate fuel next
          some (p :: ps)

/-- The body of the loop of `g_hash_table_foreach`, with a function that changes a state -/
def foreachNode {σ : Type} (t : GHashTable P) (func : σ → P → P → σ) (s : σ) (i : ℕ) :
    Option σ := do
  let nodeHash ← t.hashes[i]?
  let nodeKey ← t.keys[i]?
  let nodeValue ← t.valueArray[i]?
  some (if hashIsReal nodeHash then func s nodeKey nodeValue else s)

def foreach {σ : Type} (t : GHashTable P) (func : σ → P → P → σ) (s : σ) : Option σ :=
  Slots.loop t.size (t.foreachNode func) s

/-- The loop of `g_hash_table_find`; `found` is `match`. -/
def findFrom (t : GHashTable P) (predicate : P → P → Bool) : List ℕ → Bool → Option P
  | [], _ => some default
  | i :: is, found => do
      let nodeHash ← t.hashes[i]?
      let nodeKey ← t.keys[i]?
      let nodeValue ← t.valueArray[i]?
      let found := if hashIsReal nodeHash then predicate nodeKey nodeValue else found
      if found then some nodeValue else t.findFrom predicate is found

def find (t : GHashTable P) (predicate : P → P → Bool) : Option P :=
  t.findFrom predicate (List.range t.size) false

end GHashTable

end Table

end Likwid
