import Mathlib.Data.Fintype.EquivFin
import Mathlib.Data.Nat.ModEq
import Mathlib.Data.Nat.Prime.Basic
import Mathlib.Data.List.Perm.Basic
import Mathlib.Data.List.Range
import Mathlib.Algebra.Order.Ring.Nat
import Mathlib.Tactic.Ring

/-!
# Open addressing

A table of cells, in which the slots for a key are tried in an order of its own until the key or
an unused cell is found. `Settled` says that every entry can be found that way; it holds of the
empty table and is kept when an entry is put to a free slot its own search comes to.

The order of the source is `start, start + 1, start + 3, start + 6, …` modulo a power of two;
`exists_triangle` says that it comes to every slot.
-/

namespace Probe

/-! ## Triangular numbers -/

/-- The distance of the `k`-th slot from the first -/
def triangle : ℕ → ℕ
  | 0 => 0
  | k + 1 => triangle k + (k + 1)

theorem two_mul_triangle (k : ℕ) : 2 * triangle k = k * (k + 1) := by
  induction k with
  | zero => rfl
  | succ k ih =>
      rw [triangle, Nat.mul_add, ih]
      ring

/-- One of two factors of different parity is odd, so a power of two divides the other. -/
theorem two_pow_dvd_of_odd_sum {n a b : ℕ} (hodd : (a + b) % 2 = 1) (h : 2 ^ n ∣ a * b) :
    2 ^ n ∣ a ∨ 2 ^ n ∣ b := by
  have hcoprime : ∀ {m : ℕ}, m % 2 = 1 → Nat.Coprime (2 ^ n) m := fun hm =>
    Nat.Coprime.pow_left n (Nat.coprime_two_left.mpr (Nat.odd_iff.mpr hm))
  rcases Nat.mod_two_eq_zero_or_one a with ha | ha
  · exact Or.inl (Nat.Coprime.dvd_of_dvd_mul_right (hcoprime (by omega)) h)
  · exact Or.inr (Nat.Coprime.dvd_of_dvd_mul_left (hcoprime ha) h)

theorem triangle_inj_of_lt {n k l : ℕ} (hkl : k < l) (hl : l < 2 ^ n) :
    triangle k % 2 ^ n ≠ triangle l % 2 ^ n := by
  intro h
  -- twice the difference is (l - k) * (l + k + 1), and neither factor is a multiple of 2 ^ (n + 1)
  have hle : triangle k ≤ triangle l := by
    have hk := two_mul_triangle k
    have hl := two_mul_triangle l
    have hmul : k * (k + 1) ≤ l * (l + 1) := Nat.mul_le_mul (by omega) (by omega)
    omega
  have hdvd : 2 ^ n ∣ triangle l - triangle k := (Nat.modEq_iff_dvd' hle).mp h
  have hprod : (l - k) * (l + k + 1) = 2 * (triangle l - triangle k) := by
    obtain ⟨d, rfl⟩ := Nat.exists_eq_add_of_lt hkl
    have hk := two_mul_triangle k
    have hl := two_mul_triangle (k + d + 1)
    have hsub : k + d + 1 - k = d + 1 := by omega
    rw [Nat.mul_sub, hk, hl, hsub, eq_comm,
      Nat.sub_eq_iff_eq_add (Nat.mul_le_mul (by omega) (by omega))]
    ring
  have hdvd' : 2 ^ (n + 1) ∣ (l - k) * (l + k + 1) := by
    rw [hprod, Nat.pow_succ, Nat.mul_comm]
    exact Nat.mul_dvd_mul_left 2 hdvd
  have hlt : ∀ {m : ℕ}, 0 < m → m < 2 ^ (n + 1) → ¬2 ^ (n + 1) ∣ m := fun hm hlt hd =>
    Nat.not_lt_of_ge (Nat.le_of_dvd hm hd) hlt
  have hpow : 2 ^ (n + 1) = 2 * 2 ^ n := Nat.pow_succ'
  rcases two_pow_dvd_of_odd_sum (by omega) hdvd' with hd | hd
  · exact hlt (by omega) (by omega) hd
  · exact hlt (by omega) (by omega) hd

theorem triangle_injective {n start k l : ℕ} (hk : k < 2 ^ n) (hl : l < 2 ^ n)
    (h : (start + triangle k) % 2 ^ n = (start + triangle l) % 2 ^ n) : k = l := by
  have hmod : triangle k % 2 ^ n = triangle l % 2 ^ n := Nat.ModEq.add_left_cancel' start h
  rcases Nat.lt_trichotomy k l with hlt | heq | hgt
  · exact absurd hmod (triangle_inj_of_lt hlt hl)
  · exact heq
  · exact absurd hmod.symm (triangle_inj_of_lt hgt hk)

/-- **Every slot of a table of `2 ^ n` slots is tried.** -/
theorem exists_triangle {n i : ℕ} (start : ℕ) (hi : i < 2 ^ n) :
    ∃ k < 2 ^ n, (start + triangle k) % 2 ^ n = i := by
  let f : Fin (2 ^ n) → Fin (2 ^ n) := fun k =>
    ⟨(start + triangle k) % 2 ^ n, Nat.mod_lt _ (Nat.two_pow_pos n)⟩
  have hinj : Function.Injective f := fun k l h =>
    Fin.ext (triangle_injective k.isLt l.isLt (Fin.mk.inj_iff.mp h))
  obtain ⟨k, hk⟩ := Finite.surjective_of_injective hinj ⟨i, hi⟩
  exact ⟨k, k.isLt, congrArg Fin.val hk⟩

/-! ## Cells -/

inductive Cell (α : Type) where
  | unused
  | removed
  | entry (a : α)

variable {α κ : Type}

namespace Cell

def content? : Cell α → Option α
  | .entry a => some a
  | _ => none

theorem content?_eq_some {c : Cell α} {a : α} : c.content? = some a ↔ c = .entry a := by
  cases c with
  | unused => exact ⟨nofun, nofun⟩
  | removed => exact ⟨nofun, nofun⟩
  | entry b => exact ⟨fun h => congrArg entry (Option.some.inj h), fun h => by rw [h]; rfl⟩

theorem content?_eq_none {c : Cell α} : c.content? = none ↔ ∀ a, c ≠ .entry a := by
  rw [Option.eq_none_iff_forall_ne_some]
  exact forall_congr' fun a => not_congr content?_eq_some

end Cell

/-! ## Searching -/

variable {cells : ℕ → Cell α} {p : α → Prop} {seq : κ → ℕ → ℕ} {hash : α → κ} {slot : ℕ → ℕ}
  {size i k : ℕ} {a b : α}

/-- The search for `p` along the slots `slot 0, slot 1, …` goes on behind this cell. -/
def Passes (p : α → Prop) (c : Cell α) : Prop := c ≠ .unused ∧ ∀ a, c = .entry a → ¬p a

/-- The search ends at the `k`-th slot. -/
structure Stops (cells : ℕ → Cell α) (p : α → Prop) (slot : ℕ → ℕ) (k : ℕ) : Prop where
  before : ∀ j < k, Passes p (cells (slot j))
  here : ¬Passes p (cells (slot k))

theorem not_passes {c : Cell α} : ¬Passes p c ↔ c = .unused ∨ ∃ a, c = .entry a ∧ p a := by
  classical
  unfold Passes
  rw [not_and_or, not_not, not_forall]
  simp only [Classical.not_imp, not_not]

/-- A search along all slots ends, as there is an unused one. -/
theorem exists_stops (hcovers : ∃ k < size, slot k = i) (hi : cells i = .unused) :
    ∃ k < size, Stops cells p slot k := by
  classical
  obtain ⟨k, hk, hslot⟩ := hcovers
  have hstop : ∃ k, ¬Passes p (cells (slot k)) := ⟨k, fun h => h.1 (hslot ▸ hi)⟩
  refine ⟨Nat.find hstop, ?_, fun j hj => not_not.mp (Nat.find_min hstop hj), Nat.find_spec hstop⟩
  exact Nat.lt_of_le_of_lt (Nat.find_min' hstop fun h => h.1 (hslot ▸ hi)) hk

/-- No slot before this one is unused. -/
def Reached (cells : ℕ → Cell α) (slot : ℕ → ℕ) (i : ℕ) : Prop :=
  ∃ k, slot k = i ∧ ∀ j < k, cells (slot j) ≠ .unused

theorem Stops.reached_before (h : Stops cells p slot k) {j : ℕ} (hj : j ≤ k) :
    Reached cells slot (slot j) :=
  ⟨j, rfl, fun l hl => (h.before l (Nat.lt_of_lt_of_le hl hj)).1⟩

/-- Every entry is found in the order of its own hash. -/
def Settled (size : ℕ) (seq : κ → ℕ → ℕ) (hash : α → κ) (cells : ℕ → Cell α) : Prop :=
  ∀ i < size, ∀ a, cells i = .entry a → Reached cells (seq (hash a)) i

theorem Settled.of_unused (h : ∀ i < size, cells i = .unused) : Settled size seq hash cells :=
  fun i hi a ha => by
    rw [h i hi] at ha
    cases ha

/-- **If the search ends at an unused cell, there is no such entry.** -/
theorem Settled.absent (h : Settled size seq hash cells) {x : κ} (hp : ∀ a, p a → hash a = x)
    (hstop : Stops cells p (seq x) k) (hunused : cells (seq x k) = .unused) (hi : i < size)
    (ha : cells i = .entry a) : ¬p a := by
  intro hpa
  obtain ⟨l, hl, hbefore⟩ := h i hi a ha
  rw [hp a hpa] at hl hbefore
  rcases Nat.lt_trichotomy k l with hlt | heq | hgt
  · exact hbefore k hlt hunused
  · rw [heq, hl, ha] at hunused
    cases hunused
  · exact (hstop.before l hgt).2 a (hl ▸ ha) hpa

theorem Reached.update {c : Cell α} (hc : c ≠ .unused) {l : ℕ} (h : Reached cells slot l) :
    Reached (Function.update cells i c) slot l := by
  obtain ⟨k, hk, hbefore⟩ := h
  refine ⟨k, hk, fun j hj => ?_⟩
  by_cases hij : slot j = i
  · rw [hij, Function.update_self]
    exact hc
  · rw [Function.update_of_ne hij]
    exact hbefore j hj

/-- **An entry that is put where its search comes to leaves the others where they are found.** -/
theorem Settled.put (h : Settled size seq hash cells) (hi : Reached cells (seq (hash a)) i) :
    Settled size seq hash (Function.update cells i (.entry a)) := by
  intro j hj b hb
  by_cases hij : j = i
  · subst hij
    rw [Function.update_self] at hb
    cases hb
    exact hi.update (fun h => by cases h)
  · rw [Function.update_of_ne hij] at hb
    exact (h j hj b hb).update (fun h => by cases h)

/-! ## The entries of a table -/

/-- The entries in the order of their slots -/
def entries (size : ℕ) (cells : ℕ → Cell α) : List α :=
  (List.range size).filterMap fun i => (cells i).content?

theorem mem_entries : a ∈ entries size cells ↔ ∃ i < size, cells i = .entry a := by
  unfold entries
  rw [List.mem_filterMap]
  simp only [List.mem_range, Cell.content?_eq_some]

theorem entries_succ (n : ℕ) :
    entries (n + 1) cells = entries n cells ++ (cells n).content?.toList := by
  rw [entries, List.range_succ, List.filterMap_append]
  cases h : (cells n).content? with
  | none => simp [h, entries]
  | some a => simp [h, entries]

theorem entries_of_unused (h : ∀ i < size, cells i = .unused) : entries size cells = [] := by
  refine List.eq_nil_iff_forall_not_mem.mpr fun a ha => ?_
  obtain ⟨i, hi, hcell⟩ := mem_entries.mp ha
  rw [h i hi] at hcell
  cases hcell

/-- The entries but for that of one slot -/
theorem entries_split (cells : ℕ → Cell α) (hi : i < size) :
    ∃ l r : List α, ∀ c : Cell α,
      entries size (Function.update cells i c) = l ++ c.content?.toList ++ r := by
  obtain ⟨n, rfl⟩ := Nat.exists_eq_add_of_lt hi
  have hrange : List.range (i + n + 1) =
      List.range i ++ i :: (List.range n).map (i + 1 + ·) := by
    rw [show i + n + 1 = i + 1 + n by omega, List.range_add, List.range_succ, List.append_assoc]
    rfl
  refine ⟨(List.range i).filterMap fun j => (cells j).content?,
    ((List.range n).map (i + 1 + ·)).filterMap fun j => (cells j).content?, fun c => ?_⟩
  have hother : ∀ l : List ℕ, (∀ j ∈ l, j ≠ i) →
      l.filterMap (fun j => (Function.update cells i c j).content?) =
        l.filterMap fun j => (cells j).content? := fun l hl =>
    List.filterMap_congr fun j hj => by rw [Function.update_of_ne (hl j hj)]
  unfold entries
  rw [hrange, List.filterMap_append, hother _ fun j hj => Nat.ne_of_lt (List.mem_range.mp hj),
    List.append_assoc]
  congr 1
  have htail := hother ((List.range n).map (i + 1 + ·)) fun j hj => by
    obtain ⟨m, -, rfl⟩ := List.mem_map.mp hj
    omega
  cases hc : c.content? with
  | none =>
      rw [List.filterMap_cons_none (by rw [Function.update_self, hc]), htail]
      rfl
  | some b =>
      rw [List.filterMap_cons_some (by rw [Function.update_self, hc]), htail]
      rfl

theorem entries_put (hi : i < size) (hfree : (cells i).content? = none) :
    (entries size (Function.update cells i (.entry a))).Perm (a :: entries size cells) := by
  obtain ⟨l, r, hsplit⟩ := entries_split cells hi
  have hold := hsplit (cells i)
  rw [Function.update_eq_self, hfree] at hold
  rw [hsplit, hold]
  simp [Cell.content?]

/-- Another entry in the slot of an old one -/
theorem entries_replace (hi : i < size) (hcell : cells i = .entry b) :
    ∃ rest, (entries size cells).Perm (b :: rest) ∧
      (entries size (Function.update cells i (.entry a))).Perm (a :: rest) := by
  obtain ⟨l, r, hsplit⟩ := entries_split cells hi
  have hold := hsplit (cells i)
  rw [Function.update_eq_self, hcell] at hold
  refine ⟨l ++ r, ?_, ?_⟩
  · rw [hold]
    simp [Cell.content?]
  · rw [hsplit]
    simp [Cell.content?]

/-! ## How full a table is -/

/-- The cell is used, whatever for. -/
def Cell.mark : Cell α → Cell Unit
  | .unused => .unused
  | _ => .entry ()

def occupied (size : ℕ) (cells : ℕ → Cell α) : ℕ := (entries size fun i => (cells i).mark).length

theorem occupied_eq_length (h : ∀ i < size, cells i ≠ .removed) :
    occupied size cells = (entries size cells).length := by
  rw [occupied, entries, entries, List.length_filterMap_eq_countP, List.length_filterMap_eq_countP]
  refine List.countP_congr fun i hi => ?_
  cases hc : cells i with
  | unused => simp [Cell.mark, Cell.content?]
  | removed => exact absurd hc (h i (List.mem_range.mp hi))
  | entry a => simp [Cell.mark, Cell.content?]

theorem exists_unused (h : occupied size cells < size) : ∃ i < size, cells i = .unused := by
  by_contra hnone
  have hmark : ∀ i ∈ List.range size, ((cells i).mark).content? = some () := by
    intro i hi
    cases hc : cells i with
    | unused => exact absurd ⟨i, List.mem_range.mp hi, hc⟩ hnone
    | removed => rfl
    | entry a => rfl
  have hfull : occupied size cells = size := by
    rw [occupied, entries, List.filterMap_congr hmark]
    simp
  omega

end Probe
