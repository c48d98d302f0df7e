import Likwid.CpuExpressions
import Likwid.Lib.Ranges

/-!
# Physical CPU lists

`cpustr_to_cpulist_physical` on the lists of numbers and ranges that users write, with or without
the tag of a domain: it inserts the members of the domain, in the order of the list
(`physical_iff`), unless it works through a range that ends at the last `int`.
-/

namespace Likwid

/-! ## Entries -/

section Entries

variable {body : Int → Prog Unit (List CpuCell) Unit} {length : ℕ} {cpus l : List CpuCell}
  {e : Ranges.Entry} {es : List Ranges.Entry}

/-- The numbers of an entry, as values of the loop variable -/
def ints (e : Ranges.Entry) : List Int := e.expand.map fun (k : ℕ) => (k : Int)

/-- What follows the loop over an entry: the variable of a loop upwards is increased behind its
last round, too. -/
def afterEntry : Ranges.Entry → Prog Unit (List CpuCell) Unit
  | .single _ => pure ()
  | .range a b => Prog.when (a ≤ b ∧ b = 2 ^ 31 - 1) (Prog.halt .undefined)

/-- The loop over a range visits its numbers. -/
theorem forInts_eq (a b : ℕ) (body : Int → Prog Unit (List CpuCell) Unit) :
    forInts a b body = ((ints (.range a b)).foldlM (fun _ j => body j) () >>= fun _ =>
      afterEntry (.range a b)) := by
  unfold forInts afterEntry
  dsimp only
  rcases Nat.lt_or_ge b a with hab | hab
  · have hlen : ((a : Int) - b + 1).toNat = a - b + 1 := by omega
    have hints : ints (.range a b) = (List.range (a - b + 1)).map fun (k : ℕ) => (a : Int) - k := by
      rw [ints, Ranges.Entry.expand_down hab, List.reverse_range', List.map_map]
      refine List.map_congr_left fun k hk => ?_
      have hlt := List.mem_range.mp hk
      show ((b + (a - b + 1) - 1 - k : ℕ) : Int) = a - k
      omega
    rw [if_neg (by omega), hints, hlen, Prog.when_of_neg (by omega), Prog.when_of_neg (by omega),
      List.foldlM_map]
    rfl
  · have hlen : ((b : Int) - a + 1).toNat = b - a + 1 := by omega
    have hints : ints (.range a b) = (List.range (b - a + 1)).map fun (k : ℕ) => (a : Int) + k := by
      rw [ints, Ranges.Entry.expand_up hab, List.range'_eq_map_range, List.map_map]
      refine List.map_congr_left fun k _ => ?_
      show ((a + k : ℕ) : Int) = a + k
      omega
    rw [if_pos (by omega), hints, hlen, List.foldlM_map]
    refine congrArg _ (funext fun _ => ?_)
    by_cases hlast : b = 2 ^ 31 - 1
    · rw [Prog.when_of_pos (by omega), Prog.when_of_pos ⟨hab, hlast⟩]
    · rw [Prog.when_of_neg (by omega), Prog.when_of_neg (by omega)]

/-- The loop over an entry -/
def entryRun (body : Int → Prog Unit (List CpuCell) Unit) (e : Ranges.Entry) :
    Prog Unit (List CpuCell) Unit :=
  (ints e).foldlM (fun _ j => body j) () >>= fun _ => afterEntry e

/-- The parsers work through the entries of a list. -/
theorem forEntries_text (hes : es ≠ []) (hints : ∀ e ∈ es, e.Below (2 ^ 31)) :
    forEntries (Ranges.text es) body = es.foldlM (fun _ e => entryRun body e) () := by
  unfold forEntries
  rw [Ranges.splitOn_text hes, List.foldlM_map]
  clear hes
  induction es with
  | nil => rfl
  | cons e es ih =>
      rw [List.foldlM_cons, List.foldlM_cons]
      have hrest := ih fun e' he' => hints e' (List.mem_cons_of_mem _ he')
      refine congrArg₂ _ ?_ (funext fun _ => hrest)
      have hbelow := hints e List.mem_cons_self
      cases e with
      | single k =>
          rw [if_neg (Ranges.dash_not_mem_single k)]
          show body (Scan.atoi (Text.decimal k)) = _
          rw [Scan.atoi_decimal hbelow]
          show body k = ((body k >>= fun _ => pure ()) >>= fun _ => pure ())
          rw [Prog.bind_pure_right, Prog.bind_pure_right]
      | range a b =>
          rw [if_pos (Ranges.dash_mem_range a b), Ranges.splitOn_range]
          show forInts (Scan.atoi (Text.decimal a)) (Scan.atoi (Text.decimal b)) body = _
          rw [Scan.atoi_decimal hbelow.1, Scan.atoi_decimal hbelow.2, forInts_eq]
          rfl

theorem foldlM_eq_insertCpus {cells : Int → List CpuCell} {js : List Int}
    (h : ∀ j ∈ js, body j = insertCpus length (cells j)) :
    js.foldlM (fun _ j => body j) () = insertCpus length (js.flatMap cells) := by
  induction js with
  | nil => rfl
  | cons j js ih =>
      rw [List.foldlM_cons, h j List.mem_cons_self, List.flatMap_cons, insertCpus_append]
      exact congrArg _ (funext fun _ => ih fun j' hj' => h j' (List.mem_cons_of_mem _ hj'))

theorem insertCpus_run (h : l.length < length) :
    insertCpus length cpus l =
      if l.length + cpus.length < length then .done () (l ++ cpus)
      else .ret () ((l ++ cpus).take length) := by
  split
  · next hroom => exact insertCpus_done (Or.inr hroom)
  · next hfull =>
      rw [insertCpus_full h (Nat.le_of_not_lt hfull), List.take_append,
        List.take_of_length_le h.le]

/-- The list is full when the loop comes to a range that ends at the last `int`, after `n` CPUs. -/
def Finishes (length : ℕ) (cells : Int → List CpuCell) (n : ℕ) (es : List Ranges.Entry) : Prop :=
  ∀ before a b rest, es = before ++ .range a b :: rest → a ≤ b → b = 2 ^ 31 - 1 →
    length ≤ n + ((before ++ [.range a b]).flatMap fun e => (ints e).flatMap cells).length

theorem finishes_cons {cells : Int → List CpuCell} {n : ℕ} :
    Finishes length cells n (e :: es) ↔
      (∀ a b, e = .range a b → a ≤ b → b = 2 ^ 31 - 1 →
        length ≤ n + ((ints e).flatMap cells).length) ∧
      Finishes length cells (n + ((ints e).flatMap cells).length) es := by
  constructor
  · intro h
    refine ⟨fun a b he hab hb => ?_, fun before a b rest hes hab hb => ?_⟩
    · subst he
      simpa using h [] a b es rfl hab hb
    · subst hes
      have hle := h (e :: before) a b rest rfl hab hb
      rwa [List.cons_append, List.flatMap_cons, List.length_append, ← Nat.add_assoc] at hle
  · rintro ⟨hhead, htail⟩ before a b rest hes hab hb
    cases before with
    | nil =>
        obtain ⟨rfl, rfl⟩ := List.cons.inj hes
        simpa using hhead a b rfl hab hb
    | cons e' before =>
        obtain ⟨rfl, rfl⟩ := List.cons.inj hes
        rw [List.cons_append, List.flatMap_cons, List.length_append, ← Nat.add_assoc]
        exact htail before a b rest rfl hab hb

/-- The loop over the entries inserts the cells of all numbers, unless it works through a range
that ends at the last `int`. -/
theorem entries_run {cells : Int → List CpuCell}
    (h : ∀ e ∈ es, ∀ j ∈ ints e, body j = insertCpus length (cells j)) (hl : l.length < length) :
    (Finishes length cells l.length es ∧ es.foldlM (fun _ e => entryRun body e) () l =
        insertCpus length (es.flatMap fun e => (ints e).flatMap cells) l) ∨
      (¬Finishes length cells l.length es ∧
        es.foldlM (fun _ e => entryRun body e) () l = .halt .undefined) := by
  induction es generalizing l with
  | nil => exact Or.inl ⟨fun before a b rest hes => absurd hes (by simp), rfl⟩
  | cons e es ih =>
      have hentry := foldlM_eq_insertCpus (h e List.mem_cons_self)
      have hrun : insertCpus length ((ints e).flatMap cells) l = _ := insertCpus_run hl
      rw [List.foldlM_cons, entryRun, hentry, Prog.bind_assoc, List.flatMap_cons, insertCpus_append,
        finishes_cons]
      by_cases hroom : l.length + ((ints e).flatMap cells).length < length
      · rw [if_pos hroom] at hrun
        rw [Prog.bind_of_done hrun, Prog.bind_of_done hrun]
        have hlen : (l ++ (ints e).flatMap cells).length =
            l.length + ((ints e).flatMap cells).length := List.length_append
        by_cases hlast : ∃ a b, e = .range a b ∧ a ≤ b ∧ b = 2 ^ 31 - 1
        · obtain ⟨a, b, rfl, hab, hb⟩ := hlast
          refine Or.inr ⟨fun hfinishes => ?_, ?_⟩
          · have hle := hfinishes.1 a b rfl hab hb
            omega
          · refine Prog.bind_of_halt ?_
            show Prog.when (a ≤ b ∧ b = 2 ^ 31 - 1) _ _ = _
            rw [Prog.when_of_pos ⟨hab, hb⟩]
            rfl
        · have hafter : afterEntry e = pure () := by
            cases e with
            | single k => rfl
            | range a b => exact Prog.when_of_neg fun hab => hlast ⟨a, b, rfl, hab⟩
          rw [hafter, Prog.bind_pure_left]
          have hhead : ∀ a b, e = .range a b → a ≤ b → b = 2 ^ 31 - 1 →
              length ≤ l.length + ((ints e).flatMap cells).length :=
            fun a b he hab hb => absurd ⟨a, b, he, hab, hb⟩ hlast
          rcases ih (fun e' he' => h e' (List.mem_cons_of_mem _ he')) (hlen ▸ hroom) with
            ⟨hfinishes, hrest⟩ | ⟨hfinishes, hrest⟩
          · rw [hlen] at hfinishes
            exact Or.inl ⟨⟨hhead, hfinishes⟩, hrest⟩
          · rw [hlen] at hfinishes
            exact Or.inr ⟨fun hboth => hfinishes hboth.2, hrest⟩
      · rw [if_neg hroom] at hrun
        refine Or.inl ⟨⟨fun _ _ _ _ _ => Nat.le_of_not_lt hroom, ?_⟩, ?_⟩
        · intro before a b rest _ _ _
          omega
        · rw [Prog.bind_of_ret hrun, Prog.bind_of_ret hrun]

theorem inserted_insertCpus (hlength : 0 < length) :
    inserted (insertCpus length cpus) = .ok (cpus.take length) := by
  have hrun : insertCpus length cpus [] = _ :=
    insertCpus_run (show ([] : List CpuCell).length < length from hlength)
  unfold inserted
  split at hrun
  · next hroom =>
      rw [hrun, List.nil_append, List.take_of_length_le]
      rw [List.length_nil, Nat.zero_add] at hroom
      exact hroom.le
  · rw [hrun, List.nil_append]

end Entries

/-! ## The physical list -/

/-- A physical CPU list: the entries, alone or behind the tag of a domain -/
inductive PhysicalList (es : List Ranges.Entry) : List Char → List Char → Prop
  | plain : PhysicalList es (Ranges.text es) ['N']
  | tagged {tag : List Char} (h : ':' ∉ tag) : PhysicalList es (tag ++ ':' :: Ranges.text es) tag

section Physical

variable {aff : List AffinityDomain} {domain : AffinityDomain} {str tag : List Char}
  {es : List Ranges.Entry} {length : ℕ}

/-- The members of the domain among the numbers of the list -/
def members (domain : AffinityDomain) (es : List Ranges.Entry) : List CpuCell :=
  ((Ranges.expand es).map fun (k : ℕ) => some (k : Int)).filter (· ∈ domain.cells)

/-- What the parser inserts for a number -/
def memberCells (domain : AffinityDomain) (j : Int) : List CpuCell :=
  [some j].filter (· ∈ domain.cells)

theorem cpuInDomain_iff (domain : AffinityDomain) (cpu : Int) :
    cpuInDomain domain cpu = true ↔ some cpu ∈ domain.cells := by
  simp [cpuInDomain, AffinityDomain.cells]

theorem insertPhysical_eq (domain : AffinityDomain) (length : ℕ) (j : Int) :
    insertPhysical domain length j = insertCpus length (memberCells domain j) := by
  unfold insertPhysical memberCells
  by_cases hmem : some j ∈ domain.cells
  · rw [Prog.when_of_pos ((cpuInDomain_iff domain j).mpr hmem),
      List.filter_cons_of_pos (by simpa using hmem)]
    exact (Prog.bind_pure_right (insertCpu length (some j))).symm
  · rw [Prog.when_of_neg (mt (cpuInDomain_iff domain j).mp hmem),
      List.filter_cons_of_neg (by simpa using hmem)]
    rfl

theorem members_eq (domain : AffinityDomain) (es : List Ranges.Entry) :
    members domain es = es.flatMap fun e => (ints e).flatMap (memberCells domain) := by
  have hcells : ∀ js : List Int, js.flatMap (memberCells domain) =
      (js.map some).filter (· ∈ domain.cells) := by
    intro js
    induction js with
    | nil => rfl
    | cons j js ih =>
        rw [List.flatMap_cons, ih, memberCells, List.map_cons, ← List.filter_append]
        rfl
  unfold members
  induction es with
  | nil => rfl
  | cons e es ih =>
      rw [Ranges.expand_cons, List.map_append, List.filter_append, ih, List.flatMap_cons, hcells,
        ints, List.map_map]
      rfl

/-- No range that ends at the last `int` is worked through before the list is full: the members
up to its end are at least `length`. -/
def FullBeforeLast (domain : AffinityDomain) (length : ℕ) (es : List Ranges.Entry) : Prop :=
  ∀ before a b rest, es = before ++ .range a b :: rest → a ≤ b → b = 2 ^ 31 - 1 →
    length ≤ (members domain (before ++ [.range a b])).length

theorem physical_eq (hstr : PhysicalList es str tag)
    (hfind : aff.find? (·.tag = tag) = some domain) :
    cpustrToCpulistPhysical aff str length =
      inserted (forEntries (Ranges.text es) (insertPhysical domain length)) := by
  have hcolon : ':' ∉ Ranges.text es :=
    Ranges.not_mem_text (by decide) (by decide) (by decide)
  unfold cpustrToCpulistPhysical
  cases hstr with
  | plain =>
      rw [List.splitOn_eq_singleton hcolon]
      simp only [hfind]
  | tagged htag =>
      rw [List.splitOn_append_cons_self_of_not_mem htag, List.splitOn_eq_singleton hcolon]
      simp only [hfind]

/-- **Physical lists**: the parser returns the members of the domain in the order of the list, cut
at the length of the output, exactly if it does not work through a range that ends at the last
`int`. -/
theorem physical_iff (hstr : PhysicalList es str tag) (hes : es ≠ [])
    (hints : ∀ e ∈ es, e.Below (2 ^ 31)) (hfind : aff.find? (·.tag = tag) = some domain)
    (hlength : 1 ≤ length) :
    cpustrToCpulistPhysical aff str length = .ok ((members domain es).take length) ↔
      FullBeforeLast domain length es := by
  have hfinishes : FullBeforeLast domain length es ↔
      Finishes length (memberCells domain) ([] : List CpuCell).length es := by
    unfold FullBeforeLast Finishes
    simp only [members_eq, List.length_nil, Nat.zero_add]
  rw [physical_eq hstr hfind, forEntries_text hes hints, hfinishes]
  have hbody : ∀ e ∈ es, ∀ j ∈ ints e, insertPhysical domain length j =
      insertCpus length (memberCells domain j) := fun _ _ j _ => insertPhysical_eq domain length j
  rcases entries_run hbody (show ([] : List CpuCell).length < length from hlength) with
    ⟨hfull, hrun⟩ | ⟨hfull, hrun⟩
  · refine iff_of_true ?_ hfull
    rw [members_eq, ← inserted_insertCpus hlength, inserted, hrun, inserted]
  · refine iff_of_false ?_ hfull
    rw [inserted, hrun]
    exact nofun

/-- `N:0,3-1,7,2` in a machine with six hardware threads, with room for three -/
theorem physical_members :
    cpustrToCpulistPhysical [sixCpus] "N:0,3-1,7,2".toList 3 = .ok [some 0, some 3, some 2] := by
  have htext : "N:0,3-1,7,2".toList =
      ['N'] ++ ':' :: Ranges.text [.single 0, .range 3 1, .single 7, .single 2] := by
    decide +kernel
  have hints : ∀ e ∈ [Ranges.Entry.single 0, .range 3 1, .single 7, .single 2],
      e.Below (2 ^ 31) := by
    simp [Ranges.Entry.Below]
  have hiff := physical_iff (.tagged (by decide)) (List.cons_ne_nil _ _) hints
    (show [sixCpus].find? (·.tag = ['N']) = some sixCpus from rfl) (show 1 ≤ 3 by decide)
  rw [← htext] at hiff
  refine (hiff.mpr ?_).trans (by decide)
  intro before a b rest hes _ hb
  have hmem : Ranges.Entry.range a b ∈ [Ranges.Entry.single 0, .range 3 1, .single 7, .single 2] :=
    hes ▸ List.mem_append_right _ List.mem_cons_self
  simp at hmem
  omega

/-- All six hardware threads are in a range from 0 on. -/
theorem members_sixCpus {m : ℕ} (hm : 5 ≤ m) :
    members sixCpus [.range 0 m] = [some 0, some 1, some 2, some 3, some 4, some 5] := by
  obtain ⟨k, rfl⟩ := Nat.exists_eq_add_of_le hm
  have hnone : ∀ cpu ∈ ((List.range k).map (6 + ·)).map fun (j : ℕ) => (some (j : Int) : CpuCell),
      cpu ∉ sixCpus.cells := by
    intro cpu hcpu hmem
    obtain ⟨i, hi, rfl⟩ := List.mem_map.mp hcpu
    obtain ⟨j, -, rfl⟩ := List.mem_map.mp hi
    obtain ⟨p, hp, heq⟩ := List.mem_map.mp hmem
    have hlt : p < 6 := List.mem_range.mp hp
    have hval : ((p : ℕ) : Int) = ((6 + j : ℕ) : Int) := Option.some.inj heq
    omega
  have hrange : (Ranges.Entry.range 0 (5 + k)).expand =
      List.range 6 ++ (List.range k).map (6 + ·) := by
    rw [Ranges.Entry.expand_up (Nat.zero_le _), ← List.range_add, List.range_eq_range',
      Nat.sub_zero, Nat.add_right_comm]
  have hrest : (((List.range k).map (6 + ·)).map fun (j : ℕ) => (some (j : Int) : CpuCell)).filter
      (· ∈ sixCpus.cells) = [] :=
    List.filter_eq_nil_iff.mpr fun cpu hcpu => by simpa using hnone cpu hcpu
  rw [members, Ranges.expand_cons, Ranges.expand_nil, List.append_nil, hrange, List.map_append,
    List.filter_append, hrest]
  decide

/-- `0-2147483647` never comes to an end in a machine with six hardware threads. -/
theorem not_physical_lastInt :
    cpustrToCpulistPhysical [sixCpus] (Ranges.text [.range 0 2147483647]) 8 = .error .undefined ∧
      (members sixCpus [.range 0 2147483647]).take 8 =
        [some 0, some 1, some 2, some 3, some 4, some 5] := by
  have hmembers := members_sixCpus (show 5 ≤ 2147483647 by decide)
  refine ⟨?_, by rw [hmembers]; rfl⟩
  have hints : ∀ e ∈ [Ranges.Entry.range 0 2147483647], e.Below (2 ^ 31) := by
    simp [Ranges.Entry.Below]
  rw [physical_eq .plain (show [sixCpus].find? (·.tag = ['N']) = some sixCpus from rfl),
    forEntries_text (List.cons_ne_nil _ _) hints]
  have hbody : ∀ e ∈ [Ranges.Entry.range 0 2147483647], ∀ j ∈ ints e,
      insertPhysical sixCpus 8 j = insertCpus 8 (memberCells sixCpus j) :=
    fun _ _ j _ => insertPhysical_eq sixCpus 8 j
  rcases entries_run hbody (show ([] : List CpuCell).length < 8 by decide) with
    ⟨hfinishes, -⟩ | ⟨-, hrun⟩
  · have hle := hfinishes [] 0 2147483647 [] rfl (Nat.zero_le _) rfl
    rw [← members_eq, List.nil_append, hmembers] at hle
    exact absurd hle (by decide)
  · rw [inserted, hrun]

end Physical

end Likwid
