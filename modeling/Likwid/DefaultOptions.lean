import Likwid.EventOptions

/-!
# What `parseOptions` makes of the options of an event

The options of an event of the table have distinct types. The removal of what is not allowed
keeps the right options only if none that is not allowed stands before one that is
(`listed_eq_filter_iff`), and the default threshold is the intended one only if the option
list gives no threshold together with an edge (`thresholdIntended_iff`).
-/

namespace Likwid

/-- The options of an event of the table: distinct types, and each is an option. -/
structure DefaultOptions extends OptionArray where
  valid : toOptionArray.Valid

namespace OptionArray

/-! ## The options in the end -/

def finalList (allowed : Word) (l : List PerfmonEventOption) : List PerfmonEventOption :=
  validList allowed l ++
    if .edge ∈ (validList allowed l).map PerfmonEventOption.type then [⟨.threshold, 1⟩] else []

section Final

variable {a : OptionArray} {allowed : Word} {l : List PerfmonEventOption} {o : PerfmonEventOption}
  {tokens : List (List Char)}

theorem filtered_of_allowed (h : Allowed allowed o) : filtered allowed o = o := if_pos h

theorem filtered_of_not_allowed (h : ¬Allowed allowed o) : filtered allowed o = ⟨.none, o.value⟩ :=
  if_neg h

theorem filtered_type {t : EventOptionType} (ht : t ≠ .none) :
    (filtered allowed o).type = t ↔ Allowed allowed o ∧ o.type = t := by
  by_cases h : Allowed allowed o
  · rw [filtered_of_allowed h]
    exact ⟨fun heq => ⟨h, heq⟩, And.right⟩
  · rw [filtered_of_not_allowed h]
    exact ⟨fun heq => absurd heq.symm ht, fun hboth => absurd hboth.1 h⟩

theorem validList_eq (allowed : Word) (l : List PerfmonEventOption) :
    validList allowed l = (l.take (l.countP (Allowed allowed ·))).map (filtered allowed) := by
  unfold validList
  rw [List.map_take]

/-- At most one option is an edge. -/
theorem validList_edge_unique (h : Keyed.Distinct PerfmonEventOption.type l)
    (ha : a.listed = validList allowed l) {j k : ℕ} (hjk : j < k) (hk : k < a.numberOfOptions) :
    ¬((a.options j).type = .edge ∧ (a.options k).type = .edge) := by
  rintro ⟨hj', hk'⟩
  have hentry : ∀ i < a.numberOfOptions, (a.options i).type = .edge →
      ∃ hi : i < l.length, l[i].type = .edge := by
    intro i hi htype
    have hget := getElem?_listed hi
    rw [ha, validList] at hget
    obtain ⟨hlt, hget⟩ := List.getElem?_eq_some_iff.mp hget
    rw [List.getElem_take, List.getElem_map] at hget
    rw [← hget, filtered_type (t := .edge) nofun] at htype
    exact ⟨_, htype.2⟩
  obtain ⟨hjl, hjt⟩ := hentry j (by omega) hj'
  obtain ⟨hkl, hkt⟩ := hentry k hk hk'
  refine Nat.ne_of_lt hjk (h.index_unique (List.getElem?_eq_getElem hjl)
    (List.getElem?_eq_getElem hkl) (hjt.trans hkt.symm))

/-- What `parseOptions` does with distinct options -/
theorem parseOptions_run (h : a.Valid) (tokens : List (List Char)) (allowed : Word) :
    ∃ a', a'.numberOfOptions ≤ numEventOptions ∧
      if numEventOptions < (tokens.drop 2).length then
        parseOptions tokens allowed a = .ret (-erange) a'
      else parseOptions tokens allowed a = .done a'.numberOfOptions a' ∧
        a'.listed = finalList allowed (mergedOptions a tokens) := by
  obtain ⟨a₁, hlt, hrun⟩ := validOptions_run h tokens allowed
  unfold parseOptions
  by_cases hmany : numEventOptions < (tokens.drop 2).length
  · rw [if_pos hmany] at hrun
    refine ⟨a₁, hlt.le, ?_⟩
    rw [if_pos hmany, Prog.bind_of_ret hrun]
  · rw [if_neg hmany] at hrun
    obtain ⟨hrun, hlisted⟩ := hrun
    have hthreshold := defaultThresholds_run (ρ := Int) (Nat.zero_add numEventOptions) hlt
      fun j k _ hjk hk => validList_edge_unique (h.merged tokens).1 hlisted hjk hk
    have hedge : (∃ k, k < a₁.numberOfOptions ∧ 0 ≤ k ∧ (a₁.options k).type = .edge) ↔
        .edge ∈ (validList allowed (mergedOptions a tokens)).map PerfmonEventOption.type := by
      rw [← hlisted, List.mem_map]
      constructor
      · rintro ⟨k, hk, -, ht⟩
        exact ⟨_, mem_listed.mpr ⟨k, hk, rfl⟩, ht⟩
      · rintro ⟨o, ho, ht⟩
        obtain ⟨k, hk, rfl⟩ := mem_listed.mp ho
        exact ⟨k, hk, Nat.zero_le k, ht⟩
    by_cases hmem : .edge ∈ (validList allowed (mergedOptions a tokens)).map
        PerfmonEventOption.type
    · rw [if_pos (hedge.mpr hmem)] at hthreshold
      refine ⟨(a₁.setOption a₁.numberOfOptions ⟨.threshold, 1⟩).setCount (a₁.numberOfOptions + 1),
        hlt, ?_⟩
      rw [if_neg hmany, Prog.bind_of_done hrun, Prog.bind_of_done hthreshold, finalList,
        if_pos hmem, ← hlisted]
      exact ⟨rfl, listed_append⟩
    · rw [if_neg (mt hedge.mp hmem)] at hthreshold
      refine ⟨a₁, hlt.le, ?_⟩
      rw [if_neg hmany, Prog.bind_of_done hrun, Prog.bind_of_done hthreshold, finalList,
        if_neg hmem, List.append_nil, ← hlisted]
      exact ⟨rfl, rfl⟩

end Final

/-- **The accesses stay in the array**: whatever the option list says, `parseOptions` comes to an
end, and no step of it reads or writes beyond the last entry. -/
theorem parseOptions_ends (d : DefaultOptions) (tokens : List (List Char)) (allowed : Word) :
    ∃ a, a.numberOfOptions ≤ numEventOptions ∧
      (parseOptions tokens allowed d.toOptionArray = .done a.numberOfOptions a ∨
        parseOptions tokens allowed d.toOptionArray = .ret (-erange) a) := by
  obtain ⟨a, hle, hrun⟩ := parseOptions_run d.valid tokens allowed
  refine ⟨a, hle, ?_⟩
  split at hrun
  · exact Or.inr hrun
  · exact Or.inl hrun.1

/-! ## The validity filter -/

section Filter

variable {allowed : Word} {l : List PerfmonEventOption}

/-- As many entries as have a property are the entries that have it, if they come first. -/
theorem take_countP_eq_filter {α : Type} {p : α → Prop} [DecidablePred p] {l : List α}
    (h : l.Pairwise fun x y => p y → p x) : l.take (l.countP (p ·)) = l.filter (p ·) := by
  induction l with
  | nil => rfl
  | cons x l ih =>
      obtain ⟨hx, hl⟩ := List.pairwise_cons.mp h
      by_cases hp : p x
      · rw [List.countP_cons_of_pos (by simpa using hp), List.take_succ_cons, ih hl,
          List.filter_cons_of_pos (by simpa using hp)]
      · have hnone : ∀ y ∈ l, ¬p y := fun y hy hpy => hp (hx y hy hpy)
        rw [List.countP_cons_of_neg (by simpa using hp),
          List.countP_eq_zero.mpr fun y hy => by simpa using hnone y hy,
          List.filter_cons_of_neg (by simpa using hp),
          List.filter_eq_nil_iff.mpr fun y hy => by simpa using hnone y hy]
        rfl

/-- If all of the first entries have the property, no entry without it stands before one. -/
theorem pairwise_of_take_countP {α : Type} {p : α → Prop} [DecidablePred p] {l : List α}
    (h : ∀ x ∈ l.take (l.countP (p ·)), p x) : l.Pairwise fun x y => p y → p x := by
  induction l with
  | nil => exact List.Pairwise.nil
  | cons x l ih =>
      by_cases hp : p x
      · rw [List.countP_cons_of_pos (by simpa using hp), List.take_succ_cons] at h
        refine List.pairwise_cons.mpr ⟨fun _ _ _ => hp, ih fun y hy => ?_⟩
        exact h y (List.mem_cons_of_mem _ hy)
      · rw [List.countP_cons_of_neg (by simpa using hp)] at h
        have hzero : l.countP (p ·) = 0 := by
          by_contra hne
          obtain ⟨m, hm⟩ := Nat.exists_eq_succ_of_ne_zero hne
          rw [hm, List.take_succ_cons] at h
          exact hp (h x List.mem_cons_self)
        have hnone : ∀ y ∈ l, ¬p y := fun y hy => by
          simpa using List.countP_eq_zero.mp hzero y hy
        refine List.pairwise_cons.mpr ⟨fun y hy hpy => absurd hpy (hnone y hy), ?_⟩
        exact List.pairwise_of_forall_mem_list fun y _ z hz hpz => absurd hpz (hnone z hz)

/-- The filter leaves the allowed options, in their order, exactly if no option that is not
allowed stands before an allowed one. -/
theorem validList_eq_filter_iff :
    validList allowed l = l.filter (Allowed allowed ·) ↔
      l.Pairwise fun o o' => Allowed allowed o' → Allowed allowed o := by
  rw [validList_eq]
  constructor
  · intro heq
    refine pairwise_of_take_countP fun o ho => ?_
    have hmem : filtered allowed o ∈ l.filter (Allowed allowed ·) :=
      heq ▸ List.mem_map.mpr ⟨o, ho, rfl⟩
    have hok : Allowed allowed (filtered allowed o) := by simpa using (List.mem_filter.mp hmem).2
    by_contra hnot
    exact hok.ne_none (by rw [filtered_of_not_allowed hnot])
  · intro hpair
    rw [take_countP_eq_filter hpair]
    refine (List.map_congr_left fun o ho => ?_).trans (List.map_id _)
    exact filtered_of_allowed (by simpa using (List.mem_filter.mp ho).2)

end Filter

theorem validOptions_listed {d : DefaultOptions} {tokens : List (List Char)} {allowed : Word}
    {a : OptionArray} (h : validOptions tokens allowed d.toOptionArray = .done () a) :
    a.listed = validList allowed (mergedOptions d.toOptionArray tokens) := by
  obtain ⟨a', -, hrun⟩ := validOptions_run d.valid tokens allowed
  by_cases hmany : numEventOptions < (tokens.drop 2).length
  · rw [if_pos hmany, h] at hrun
    cases hrun
  · rw [if_neg hmany, h] at hrun
    obtain ⟨hrun, hlisted⟩ := hrun
    cases hrun
    exact hlisted

/-- After the validity filter the entries in use are the allowed options exactly if none that is
not allowed stands before one that is. -/
theorem listed_eq_filter_iff (d : DefaultOptions) (tokens : List (List Char)) (allowed : Word)
    (a : OptionArray) (h : validOptions tokens allowed d.toOptionArray = .done () a) :
    a.listed = (mergedOptions d.toOptionArray tokens).filter (Allowed allowed ·) ↔
      (mergedOptions d.toOptionArray tokens).Pairwise
        fun o o' => Allowed allowed o' → Allowed allowed o := by
  rw [validOptions_listed h]
  exact validList_eq_filter_iff

/-- An event without options of its own -/
def plainEvent : DefaultOptions where
  options := fun _ => ⟨.none, 0⟩
  numberOfOptions := 0
  valid := ⟨List.nodup_nil, nofun⟩

/-- `E:PMC0:INVERT:THRESHOLD=2` -/
def invertTokens : List (List Char) :=
  ["E".toList, "PMC0".toList, "INVERT".toList, "THRESHOLD=2".toList]

theorem mergedOptions_invert :
    mergedOptions plainEvent.toOptionArray invertTokens = [⟨.invert, 0⟩, ⟨.threshold, 2⟩] := by
  decide +kernel

theorem exists_validOptions (allowed : Word) :
    ∃ a, validOptions invertTokens allowed plainEvent.toOptionArray = .done () a ∧
      a.listed = validList allowed [⟨.invert, 0⟩, ⟨.threshold, 2⟩] := by
  obtain ⟨a, -, hrun⟩ := validOptions_run plainEvent.valid invertTokens allowed
  rw [if_neg (by decide), mergedOptions_invert] at hrun
  exact ⟨a, hrun⟩

/-- With `INVERT` allowed and `THRESHOLD` not, the filter does what it should. -/
theorem listed_eq_filter_first :
    ∃ a, validOptions invertTokens (bit 15) plainEvent.toOptionArray = .done () a ∧
      a.listed = [⟨.invert, 0⟩] := by
  obtain ⟨a, hrun, -⟩ := exists_validOptions (bit 15)
  have hiff := listed_eq_filter_iff plainEvent invertTokens (bit 15) a hrun
  rw [mergedOptions_invert] at hiff
  exact ⟨a, hrun, (hiff.mpr (by decide)).trans (by decide)⟩

/-- With `THRESHOLD` allowed and `INVERT` not, the cleared entry is kept and the allowed one is
cut off. -/
theorem not_listed_eq_filter :
    ∃ a, validOptions invertTokens (bit 14) plainEvent.toOptionArray = .done () a ∧
      a.listed = [⟨.none, 0⟩] ∧
      (mergedOptions plainEvent.toOptionArray invertTokens).filter (Allowed (bit 14) ·) =
        [⟨.threshold, 2⟩] := by
  obtain ⟨a, hrun, hlisted⟩ := exists_validOptions (bit 14)
  refine ⟨a, hrun, hlisted.trans (by decide), ?_⟩
  rw [mergedOptions_invert]
  decide

/-! ## The threshold -/

/-- The edge detection and the occupancy options edge and invert need a threshold. -/
def NeedsThreshold (l : List PerfmonEventOption) : Prop :=
  ∃ o ∈ l, o.type = .edge ∨ o.type = .occupancyEdge ∨ o.type = .occupancyInvert

instance (l : List PerfmonEventOption) : Decidable (NeedsThreshold l) :=
  inferInstanceAs (Decidable (∃ o ∈ l, _))

/-- The threshold that the options lack: 1 if they need one and have none -/
def missingThreshold (l : List PerfmonEventOption) : List PerfmonEventOption :=
  if NeedsThreshold l ∧ .threshold ∉ l.map PerfmonEventOption.type then [⟨.threshold, 1⟩] else []

/-- What the thresholds among the options contribute to the flags of `hasep_pmc_setup` -/
def hasepThreshold (l : List PerfmonEventOption) : Word :=
  (l.filter (·.type = .threshold)).foldl (boxOption 0xFF) 0

/-- The intended thresholds, for an event with the options `l`: `valid` are those that the filter
leaves and `final` those in the end. -/
structure ThresholdIntended (allowed : Word) (l valid final : List PerfmonEventOption) : Prop where
  distinct : (final.map PerfmonEventOption.type).Nodup
  given : ∀ o ∈ l, Allowed allowed o → o.type = .threshold →
    final.filter (·.type = .threshold) = [o]
  default : final = valid ++ missingThreshold (l.filter (Allowed allowed ·))
  flags : hasepThreshold final = hasepThreshold
    (l.filter (Allowed allowed ·) ++ missingThreshold (l.filter (Allowed allowed ·)))

/-- The allowed options among the first of `l`, as many as are allowed altogether -/
def leading (allowed : Word) (l : List PerfmonEventOption) : List PerfmonEventOption :=
  (l.take (l.countP (Allowed allowed ·))).filter (Allowed allowed ·)

/-- When the thresholds are the intended ones: at most one option that is not allowed stands among
the first; an allowed threshold stands among them and an edge does not; without a threshold,
an edge stands among them as soon as one is needed. -/
structure ThresholdReady (allowed : Word) (l : List PerfmonEventOption) : Prop where
  cleared : (l.take (l.countP (Allowed allowed ·))).countP (¬Allowed allowed ·) ≤ 1
  given : .threshold ∈ (l.filter (Allowed allowed ·)).map PerfmonEventOption.type →
    .threshold ∈ (leading allowed l).map PerfmonEventOption.type ∧
      .edge ∉ (leading allowed l).map PerfmonEventOption.type
  needed : .threshold ∉ (l.filter (Allowed allowed ·)).map PerfmonEventOption.type →
    NeedsThreshold (l.filter (Allowed allowed ·)) →
      .edge ∈ (leading allowed l).map PerfmonEventOption.type

section Ready

variable {allowed : Word} {l : List PerfmonEventOption} {o : PerfmonEventOption}
  {t : EventOptionType}

theorem mem_leading : o ∈ leading allowed l ↔
    o ∈ l.take (l.countP (Allowed allowed ·)) ∧ Allowed allowed o := by
  simp [leading, List.mem_filter]

theorem leading_subset : leading allowed l ⊆ l.filter (Allowed allowed ·) := by
  intro o ho
  obtain ⟨htake, hok⟩ := mem_leading.mp ho
  exact List.mem_filter.mpr ⟨List.mem_of_mem_take htake, by simpa using hok⟩

/-- The types behind the filter are those of the leading options. -/
theorem mem_validList_type (ht : t ≠ .none) :
    t ∈ (validList allowed l).map PerfmonEventOption.type ↔
      t ∈ (leading allowed l).map PerfmonEventOption.type := by
  rw [validList_eq, List.map_map, List.mem_map, List.mem_map]
  constructor
  · rintro ⟨o, ho, htype⟩
    obtain ⟨hok, htype⟩ := (filtered_type ht).mp htype
    exact ⟨o, mem_leading.mpr ⟨ho, hok⟩, htype⟩
  · rintro ⟨o, ho, htype⟩
    obtain ⟨htake, hok⟩ := mem_leading.mp ho
    exact ⟨o, htake, (filtered_type ht).mpr ⟨hok, htype⟩⟩

/-- The filter leaves the thresholds of the leading options. -/
theorem filter_validList (ht : t ≠ .none) :
    (validList allowed l).filter (·.type = t) = (leading allowed l).filter (·.type = t) := by
  rw [validList_eq, leading]
  induction l.take (l.countP (Allowed allowed ·)) with
  | nil => rfl
  | cons o rest ih =>
      by_cases hok : Allowed allowed o
      · rw [List.filter_cons_of_pos (p := (decide <| Allowed allowed ·)) (by simpa using hok),
          List.map_cons, filtered_of_allowed hok, List.filter_cons, List.filter_cons, ih]
      · rw [List.filter_cons_of_neg (p := (decide <| Allowed allowed ·)) (by simpa using hok),
          List.map_cons, filtered_of_not_allowed hok,
          List.filter_cons_of_neg (by simpa using Ne.symm ht), ih]

/-- Entries that are not allowed are cleared, so at most one may be left. -/
theorem nodup_filtered_iff (allowed : Word) (h : Keyed.Distinct PerfmonEventOption.type l)
    (hnone : ∀ o ∈ l, o.type ≠ .none) :
    ((l.map (filtered allowed)).map PerfmonEventOption.type).Nodup ↔
      l.countP (¬Allowed allowed ·) ≤ 1 := by
  induction l with
  | nil => simp
  | cons o l ih =>
      obtain ⟨ho, hl⟩ := List.nodup_cons.mp h
      have ih := ih hl fun o' ho' => hnone o' (List.mem_cons_of_mem _ ho')
      have hmem : ∀ type, type ∈ (l.map (filtered allowed)).map PerfmonEventOption.type ↔
          ∃ o' ∈ l, (filtered allowed o').type = type := by
        intro type
        rw [List.map_map, List.mem_map]
        exact Iff.rfl
      rw [List.map_cons, List.map_cons, List.nodup_cons, ih, hmem]
      by_cases hok : Allowed allowed o
      · rw [filtered_of_allowed hok, List.countP_cons_of_neg (by simpa using hok)]
        refine and_iff_right ?_
        rintro ⟨o', ho', htype⟩
        have htype' := ((filtered_type (hnone o List.mem_cons_self)).mp htype).2
        exact ho (List.mem_map.mpr ⟨o', ho', htype'⟩)
      · rw [filtered_of_not_allowed hok, List.countP_cons_of_pos (by simpa using hok)]
        have hcount : (¬∃ o' ∈ l, (filtered allowed o').type = .none) ↔
            l.countP (¬Allowed allowed ·) = 0 := by
          rw [List.countP_eq_zero]
          constructor
          · intro hnot o' ho' hneg
            have hneg' : ¬Allowed allowed o' := by simpa using hneg
            exact hnot ⟨o', ho', by rw [filtered_of_not_allowed hneg']⟩
          · rintro hall ⟨o', ho', htype⟩
            have hok' : Allowed allowed o' := by
              by_contra hneg
              exact hall o' ho' (by simpa using hneg)
            rw [filtered_of_allowed hok'] at htype
            exact hnone o' (List.mem_cons_of_mem _ ho') htype
        rw [hcount]
        omega

/-- The default threshold is the missing one, in terms of the leading options. -/
theorem edge_iff_of_ready (h : ThresholdReady allowed l) :
    .edge ∈ (leading allowed l).map PerfmonEventOption.type ↔
      NeedsThreshold (l.filter (Allowed allowed ·)) ∧
        .threshold ∉ (l.filter (Allowed allowed ·)).map PerfmonEventOption.type := by
  constructor
  · intro hedge
    refine ⟨?_, fun ht => (h.given ht).2 hedge⟩
    obtain ⟨o, ho, htype⟩ := List.mem_map.mp hedge
    exact ⟨o, leading_subset ho, Or.inl htype⟩
  · rintro ⟨hneeds, ht⟩
    exact h.needed ht hneeds

theorem finalList_eq (allowed : Word) (l : List PerfmonEventOption) :
    finalList allowed l = validList allowed l ++
      if .edge ∈ (leading allowed l).map PerfmonEventOption.type then [⟨.threshold, 1⟩]
      else [] := by
  unfold finalList
  exact congrArg _ (if_congr (mem_validList_type nofun) rfl rfl)

theorem finalList_of_ready (h : ThresholdReady allowed l) :
    finalList allowed l =
      validList allowed l ++ missingThreshold (l.filter (Allowed allowed ·)) := by
  rw [finalList_eq]
  exact congrArg _ (if_congr (edge_iff_of_ready h) rfl rfl)

theorem filter_type_eq_nil (h : t ∉ l.map PerfmonEventOption.type) :
    l.filter (·.type = t) = [] := by
  refine List.filter_eq_nil_iff.mpr fun o ho => ?_
  simpa using fun htype => h (List.mem_map.mpr ⟨o, ho, htype⟩)

theorem missingThreshold_of_mem (h : .threshold ∈ l.map PerfmonEventOption.type) :
    missingThreshold l = [] :=
  if_neg fun hmissing => hmissing.2 h

theorem hasepThreshold_congr {l l' : List PerfmonEventOption}
    (h : l.filter (·.type = .threshold) = l'.filter (·.type = .threshold)) :
    hasepThreshold l = hasepThreshold l' := by
  unfold hasepThreshold
  rw [h]

/-- Only the thresholds among the allowed options, and the missing one, are left. -/
theorem filter_finalList (h : Keyed.Distinct PerfmonEventOption.type l)
    (hready : ThresholdReady allowed l) :
    (finalList allowed l).filter (·.type = .threshold) =
      (l.filter (Allowed allowed ·) ++ missingThreshold (l.filter (Allowed allowed ·))).filter
        (·.type = .threshold) := by
  rw [finalList_of_ready hready, List.filter_append, List.filter_append,
    filter_validList (t := .threshold) nofun]
  refine congrArg (· ++ _) ?_
  by_cases ht : .threshold ∈ (l.filter (Allowed allowed ·)).map PerfmonEventOption.type
  · obtain ⟨o, ho, htype⟩ := List.mem_map.mp (hready.given ht).1
    have hall : Keyed.Distinct PerfmonEventOption.type (l.filter (Allowed allowed ·)) :=
      h.sublist List.filter_sublist
    have hleading : Keyed.Distinct PerfmonEventOption.type (leading allowed l) :=
      h.sublist (List.filter_sublist.trans (List.take_sublist ..))
    have hone := hleading.filter_eq ho
    have hone' := hall.filter_eq (leading_subset ho)
    rw [htype] at hone hone'
    rw [hone, hone']
  · have hnot : .threshold ∉ (leading allowed l).map PerfmonEventOption.type := fun hmem =>
      ht (List.map_subset _ leading_subset hmem)
    rw [filter_type_eq_nil ht, filter_type_eq_nil hnot]

/-- **The threshold stage**: the thresholds are the intended ones exactly if the first options are
as `ThresholdReady` says. -/
theorem thresholdIntended_finalList (h : Keyed.Distinct PerfmonEventOption.type l)
    (hnone : ∀ o ∈ l, o.type ≠ .none) :
    ThresholdIntended allowed l (validList allowed l) (finalList allowed l) ↔
      ThresholdReady allowed l := by
  have htake : Keyed.Distinct PerfmonEventOption.type (l.take (l.countP (Allowed allowed ·))) :=
    h.sublist (List.take_sublist ..)
  have hnodup := nodup_filtered_iff allowed htake
    fun o ho => hnone o (List.mem_of_mem_take ho)
  rw [← validList_eq] at hnodup
  constructor
  · rintro ⟨hdistinct, hgiven, hdefault, -⟩
    have hedge : .edge ∈ (leading allowed l).map PerfmonEventOption.type ↔
        NeedsThreshold (l.filter (Allowed allowed ·)) ∧
          .threshold ∉ (l.filter (Allowed allowed ·)).map PerfmonEventOption.type := by
      rw [finalList_eq, missingThreshold] at hdefault
      have heq := List.append_cancel_left hdefault
      by_cases hleft : .edge ∈ (leading allowed l).map PerfmonEventOption.type
      · rw [if_pos hleft] at heq
        refine iff_of_true hleft ?_
        by_contra hright
        rw [if_neg hright] at heq
        cases heq
      · rw [if_neg hleft] at heq
        refine iff_of_false hleft fun hright => ?_
        rw [if_pos hright] at heq
        cases heq
    refine ⟨hnodup.mp ?_, fun ht => ?_, fun ht hneeds => hedge.mpr ⟨hneeds, ht⟩⟩
    · rw [finalList_eq, List.map_append] at hdistinct
      exact (List.nodup_append.mp hdistinct).1
    · have hno : .edge ∉ (leading allowed l).map PerfmonEventOption.type := fun hmem =>
        (hedge.mp hmem).2 ht
      refine ⟨?_, hno⟩
      obtain ⟨o, ho, htype⟩ := List.mem_map.mp ht
      obtain ⟨hol, hok⟩ := List.mem_filter.mp ho
      have hone := hgiven o hol (by simpa using hok) htype
      rw [finalList_eq, if_neg hno, List.append_nil,
        filter_validList (t := .threshold) nofun] at hone
      have hmem : o ∈ (leading allowed l).filter (·.type = .threshold) :=
        hone ▸ List.mem_singleton_self o
      exact List.mem_map.mpr ⟨o, (List.mem_filter.mp hmem).1, htype⟩
  · intro hready
    have hfilter := filter_finalList h hready
    refine ⟨?_, fun o ho hok htype => ?_, finalList_of_ready hready, hasepThreshold_congr hfilter⟩
    · rw [finalList_of_ready hready, List.map_append]
      by_cases hmissing : NeedsThreshold (l.filter (Allowed allowed ·)) ∧
          .threshold ∉ (l.filter (Allowed allowed ·)).map PerfmonEventOption.type
      · rw [missingThreshold, if_pos hmissing]
        refine List.nodup_append.mpr ⟨hnodup.mpr hready.cleared, List.nodup_singleton _, ?_⟩
        intro type ht type' ht'
        obtain rfl : type' = .threshold := List.mem_singleton.mp ht'
        rintro rfl
        have hleading := (mem_validList_type (t := .threshold) nofun).mp ht
        exact hmissing.2 (List.map_subset _ leading_subset hleading)
      · rw [missingThreshold, if_neg hmissing, List.map_nil, List.append_nil]
        exact hnodup.mpr hready.cleared
    · have hmem : o ∈ l.filter (Allowed allowed ·) := List.mem_filter.mpr ⟨ho, by simpa using hok⟩
      have hall : Keyed.Distinct PerfmonEventOption.type (l.filter (Allowed allowed ·)) :=
        h.sublist List.filter_sublist
      have hone := hall.filter_eq hmem
      rw [htype] at hone
      rw [hfilter, missingThreshold_of_mem (List.mem_map.mpr ⟨o, hmem, htype⟩), List.append_nil,
        hone]

end Ready

/-- **The default threshold**: the option types stay distinct, a given threshold stays the only
one, and the threshold of 1 is added where it is needed, exactly if the merged options are as
`ThresholdReady` says. -/
theorem thresholdIntended_iff (d : DefaultOptions) (tokens : List (List Char)) (allowed : Word)
    (valid final : OptionArray) (n : ℕ)
    (hvalid : validOptions tokens allowed d.toOptionArray = .done () valid)
    (hfinal : parseOptions tokens allowed d.toOptionArray = .done n final) :
    ThresholdIntended allowed (mergedOptions d.toOptionArray tokens) valid.listed final.listed ↔
      ThresholdReady allowed (mergedOptions d.toOptionArray tokens) := by
  have hlisted : final.listed = finalList allowed (mergedOptions d.toOptionArray tokens) := by
    obtain ⟨a, -, hrun⟩ := parseOptions_run d.valid tokens allowed
    by_cases hmany : numEventOptions < (tokens.drop 2).length
    · rw [if_pos hmany, hfinal] at hrun
      cases hrun
    · rw [if_neg hmany, hfinal] at hrun
      obtain ⟨hrun, hlisted⟩ := hrun
      cases hrun
      exact hlisted
  rw [validOptions_listed hvalid, hlisted]
  obtain ⟨hdistinct, hnone⟩ := d.valid.merged tokens
  exact thresholdIntended_finalList hdistinct hnone

/-- `E:PMC0:EDGEDETECT:THRESHOLD=2` -/
def edgeTokens : List (List Char) :=
  ["E".toList, "PMC0".toList, "EDGEDETECT".toList, "THRESHOLD=2".toList]

theorem mergedOptions_edge :
    mergedOptions plainEvent.toOptionArray edgeTokens = [⟨.edge, 0⟩, ⟨.threshold, 2⟩] := by
  decide +kernel

theorem exists_parseOptions (allowed : Word) :
    ∃ valid final n, validOptions edgeTokens allowed plainEvent.toOptionArray = .done () valid ∧
      parseOptions edgeTokens allowed plainEvent.toOptionArray = .done n final ∧
      final.listed = finalList allowed [⟨.edge, 0⟩, ⟨.threshold, 2⟩] := by
  obtain ⟨valid, -, hvalid⟩ := validOptions_run plainEvent.valid edgeTokens allowed
  obtain ⟨final, -, hfinal⟩ := parseOptions_run plainEvent.valid edgeTokens allowed
  rw [if_neg (by decide)] at hvalid hfinal
  rw [mergedOptions_edge] at hfinal
  exact ⟨valid, final, _, hvalid.1, hfinal.1, hfinal.2⟩

/-- Where the threshold is not allowed, the edge gets the default one. -/
theorem thresholdIntended_edge :
    ∃ valid final n, validOptions edgeTokens (bit 13) plainEvent.toOptionArray = .done () valid ∧
      parseOptions edgeTokens (bit 13) plainEvent.toOptionArray = .done n final ∧
      final.listed = [⟨.edge, 0⟩, ⟨.threshold, 1⟩] ∧
      ThresholdIntended (bit 13) [⟨.edge, 0⟩, ⟨.threshold, 2⟩] valid.listed final.listed := by
  obtain ⟨valid, final, n, hvalid, hfinal, hlisted⟩ := exists_parseOptions (bit 13)
  have hiff := thresholdIntended_iff plainEvent edgeTokens (bit 13) valid final n hvalid hfinal
  rw [mergedOptions_edge] at hiff
  refine ⟨valid, final, n, hvalid, hfinal, hlisted.trans (by decide), hiff.mpr ⟨?_, ?_, ?_⟩⟩
  · decide
  · exact fun h => absurd h (by decide)
  · exact fun _ _ => by decide

/-- With both allowed there are two thresholds in the end, and the flags have the bits of both. -/
theorem not_thresholdIntended :
    ∃ valid final n,
      validOptions edgeTokens (bit 13 ||| bit 14) plainEvent.toOptionArray = .done () valid ∧
      parseOptions edgeTokens (bit 13 ||| bit 14) plainEvent.toOptionArray = .done n final ∧
      mergedOptions plainEvent.toOptionArray edgeTokens = [⟨.edge, 0⟩, ⟨.threshold, 2⟩] ∧
      final.listed = [⟨.edge, 0⟩, ⟨.threshold, 2⟩, ⟨.threshold, 1⟩] ∧
      hasepThreshold final.listed = 3 <<< 24 ∧
      ¬ThresholdIntended (bit 13 ||| bit 14) [⟨.edge, 0⟩, ⟨.threshold, 2⟩] valid.listed
        final.listed := by
  obtain ⟨valid, final, n, hvalid, hfinal, hlisted⟩ := exists_parseOptions (bit 13 ||| bit 14)
  have hfinalList : final.listed = [⟨.edge, 0⟩, ⟨.threshold, 2⟩, ⟨.threshold, 1⟩] :=
    hlisted.trans (by decide)
  refine ⟨valid, final, n, hvalid, hfinal, mergedOptions_edge, hfinalList, ?_, fun h => ?_⟩
  · rw [hfinalList]
    decide
  · have hdistinct := h.distinct
    rw [hfinalList] at hdistinct
    exact absurd hdistinct (by decide)

/-! ## The same on lists

`perfmon_addEventSet` uses `parseOptions` on the options as a list. -/

section Lists

variable {e : PerfmonEvent} {allowed : Word} {l : List PerfmonEventOption} {k n : ℕ}

/-- The list of the event lists the options `l`. -/
structure Holds (e : PerfmonEvent) (l : List PerfmonEventOption) : Prop where
  room : e.numberOfOptions ≤ e.options.length
  listed : e.optionList = l

theorem Holds.length (h : Holds e l) : l.length = e.numberOfOptions := by
  rw [← h.listed, PerfmonEvent.optionList, List.length_take, Nat.min_eq_left h.room]

theorem setOption_eq (h : k < e.options.length) (o : PerfmonEventOption) :
    (e.setOption k o).options = e.options.set k o := by
  rw [List.set_eq_take_append_cons_drop, if_pos h]
  rfl

theorem Holds.set (h : Holds e l) (hk : k < l.length) (o : PerfmonEventOption) :
    Holds (e.setOption k o) (l.set k o) := by
  have hlt : k < e.options.length := by
    rw [h.length] at hk
    exact Nat.lt_of_lt_of_le hk h.room
  constructor
  · rw [setOption_eq hlt, List.length_set]
    exact h.room
  · rw [PerfmonEvent.optionList, setOption_eq hlt, List.take_set, ← h.listed]
    rfl

theorem Holds.append (h : Holds e l) (o : PerfmonEventOption) :
    Holds { e.setOption e.numberOfOptions o with numberOfOptions := e.numberOfOptions + 1 }
      (l ++ [o]) := by
  have hroom := h.room
  constructor
  · show e.numberOfOptions + 1 ≤ (_ ++ o :: _ : List PerfmonEventOption).length
    rw [List.length_append, List.length_take, Nat.min_eq_left hroom, List.length_cons]
    omega
  · show List.take (e.numberOfOptions + 1) (_ ++ o :: _) = _
    rw [← h.listed, PerfmonEvent.optionList, List.take_append, List.length_take,
      Nat.min_eq_left hroom, List.take_take]
    simp

theorem Holds.assignOption (h : Holds e l) (hl : Keyed.Distinct PerfmonEventOption.type l)
    (type : EventOptionType) (value : Word) :
    Holds (Likwid.assignOption e type value)
      (Keyed.put PerfmonEventOption.type l ⟨type, value⟩) := by
  unfold Likwid.assignOption
  rw [h.listed]
  cases hfind : l.findIdx? (·.type = type) with
  | none =>
      have hnot : type ∉ l.map PerfmonEventOption.type := by
        intro hmem
        obtain ⟨o, ho, htype⟩ := List.mem_map.mp hmem
        simpa [htype] using List.findIdx?_eq_none_iff.mp hfind o ho
      rw [Keyed.put_of_not_mem hnot]
      exact h.append _
  | some k =>
      obtain ⟨hk, htype, -⟩ := List.findIdx?_eq_some_iff_getElem.mp hfind
      rw [hl.put_eq_set (List.getElem?_eq_getElem hk) (by simpa using htype)]
      exact h.set hk _

theorem Holds.parseOption (h : Holds e l) (hl : Keyed.Distinct PerfmonEventOption.type l)
    (token : List Char) : Holds (Likwid.parseOption e token) (assigned l token) := by
  unfold Likwid.parseOption assigned recognised
  rcases token.splitOn '=' with _ | ⟨name, _ | ⟨text, _ | ⟨more, rest⟩⟩⟩
  · exact h
  · dsimp only
    cases flagOption (name.map Char.toLower) with
    | none => exact h
    | some type => exact h.assignOption hl type 0
  · dsimp only
    cases valueOption (name.map Char.toLower) with
    | none => exact h
    | some type => exact h.assignOption hl type (scanHex text)
  · exact h

theorem Holds.parseOption_foldl (h : Holds e l) (hl : Keyed.Distinct PerfmonEventOption.type l)
    (tokens : List (List Char)) :
    Holds (tokens.foldl Likwid.parseOption e)
      (Keyed.merged PerfmonEventOption.type (l ++ tokens.filterMap recognised)) := by
  rw [← hl.foldl_put_eq, ← foldl_assigned]
  induction tokens generalizing e l with
  | nil => exact h
  | cons token tokens ih =>
      refine ih (h.parseOption hl token) ?_
      unfold assigned
      cases recognised token with
      | none => exact hl
      | some o => exact hl.put o

theorem removeInvalid_list (allowed : Word) (hn : n ≤ e.options.length) :
    (Likwid.removeInvalid allowed n e).options =
        (e.options.take n).map (filtered allowed) ++ e.options.drop n ∧
      (Likwid.removeInvalid allowed n e).numberOfOptions =
        e.numberOfOptions - (e.options.take n).countP (¬Allowed allowed ·) := by
  induction n generalizing e with
  | zero => exact ⟨rfl, rfl⟩
  | succ n ih =>
      have hget : e.options[n]? = some e.options[n] := List.getElem?_eq_getElem hn
      have htake : e.options.take (n + 1) = e.options.take n ++ [e.options[n]] :=
        List.take_succ_eq_append_getElem hn
      unfold Likwid.removeInvalid
      rw [hget, htake, List.map_append, List.map_singleton, List.countP_append, List.append_assoc,
        List.singleton_append]
      dsimp only
      by_cases hok : Allowed allowed e.options[n]
      · rw [if_neg hok, filtered_of_allowed hok, List.countP_singleton,
          if_neg (by simpa using hok), ← List.drop_eq_getElem_cons hn]
        exact ih (Nat.le_of_lt hn)
      · rw [if_pos (not_not.mp hok), filtered_of_not_allowed hok, List.countP_singleton,
          if_pos (by simpa using hok)]
        obtain ⟨hoptions, hcount⟩ := ih
          (e := { e.setOption n { e.options[n] with type := .none } with
            numberOfOptions := e.numberOfOptions - 1 })
          (by rw [setOption_eq hn, List.length_set]; exact Nat.le_of_lt hn)
        rw [hoptions, hcount, setOption_eq hn, List.take_set_of_le le_rfl, List.drop_set,
          if_neg (Nat.lt_irrefl n), Nat.sub_self, List.drop_eq_getElem_cons hn, List.set_cons_zero,
          Nat.sub_sub, Nat.add_comm 1]
        exact ⟨rfl, rfl⟩

theorem Holds.removeInvalid (h : Holds e l) (allowed : Word) :
    Holds (Likwid.removeInvalid allowed e.numberOfOptions e) (validList allowed l) := by
  obtain ⟨hoptions, hcount⟩ := removeInvalid_list allowed h.room
  have hlisted : e.options.take e.numberOfOptions = l := h.listed
  have hlen := h.length
  have hsum := List.length_eq_countP_add_countP (fun o => decide (Allowed allowed o)) (l := l)
  have hneg : l.countP (fun o => decide ¬decide (Allowed allowed o) = true) =
      l.countP (¬Allowed allowed ·) := by simp
  rw [hlisted] at hoptions hcount
  have hm : (Likwid.removeInvalid allowed e.numberOfOptions e).numberOfOptions =
      l.countP (Allowed allowed ·) := by omega
  constructor
  · rw [hm, hoptions, List.length_append, List.length_map]
    omega
  · rw [PerfmonEvent.optionList, hm, hoptions, validList, List.take_append_of_le_length]
    rw [List.length_map]
    omega

theorem defaultThreshold_of_no_edge {rest : List PerfmonEventOption}
    (h : .edge ∉ rest.map PerfmonEventOption.type) : rest.foldl Likwid.defaultThreshold e = e := by
  induction rest with
  | nil => rfl
  | cons o rest ih =>
      rw [List.map_cons, List.mem_cons, not_or] at h
      rw [List.foldl_cons, Likwid.defaultThreshold, if_neg fun hedge => h.1 hedge.1.symm]
      exact ih h.2

theorem Holds.defaultThreshold (h : Holds e l) {rest : List PerfmonEventOption}
    (hrest : (rest.filter (·.type = .edge)).length ≤ 1) (hlen : l.length < numEventOptions) :
    Holds (rest.foldl Likwid.defaultThreshold e)
      (l ++ if .edge ∈ rest.map PerfmonEventOption.type then [⟨.threshold, 1⟩] else []) := by
  induction rest with
  | nil => simpa using h
  | cons o rest ih =>
      rw [List.foldl_cons, Likwid.defaultThreshold]
      by_cases hedge : o.type = .edge
      · rw [List.filter_cons_of_pos (by simpa using hedge), List.length_cons] at hrest
        have hnone : .edge ∉ rest.map PerfmonEventOption.type := by
          intro hmem
          obtain ⟨o', ho', htype⟩ := List.mem_map.mp hmem
          have hfilter := List.length_pos_of_mem
            (List.mem_filter.mpr ⟨ho', by simpa using htype⟩ : o' ∈ rest.filter (·.type = .edge))
          omega
        rw [if_pos ⟨hedge, h.length ▸ hlen⟩, if_pos (by simp [hedge]),
          defaultThreshold_of_no_edge hnone]
        exact h.append _
      · rw [List.filter_cons_of_neg (by simpa using hedge)] at hrest
        rw [if_neg fun hboth => hedge hboth.1]
        have hmem : .edge ∈ (o :: rest).map PerfmonEventOption.type ↔
            .edge ∈ rest.map PerfmonEventOption.type := by
          rw [List.map_cons, List.mem_cons]
          exact or_iff_right (Ne.symm hedge)
        rw [if_congr hmem rfl rfl]
        exact ih hrest

theorem parseOption_optionMask (token : List Char) :
    (Likwid.parseOption e token).optionMask = e.optionMask := by
  have hassign : ∀ type value, (Likwid.assignOption e type value).optionMask = e.optionMask := by
    intro type value
    unfold Likwid.assignOption
    split <;> rfl
  unfold Likwid.parseOption
  split
  · split
    · exact hassign ..
    · rfl
  · split
    · exact hassign ..
    · rfl
  · rfl

theorem parseOption_foldl_optionMask (tokens : List (List Char)) :
    (tokens.foldl Likwid.parseOption e).optionMask = e.optionMask := by
  induction tokens generalizing e with
  | nil => rfl
  | cons token tokens ih => rw [List.foldl_cons, ih, parseOption_optionMask]

/-- The filter leaves at most one edge. -/
theorem validList_edge_le (h : Keyed.Distinct PerfmonEventOption.type l) :
    ((validList allowed l).filter (·.type = .edge)).length ≤ 1 := by
  rw [filter_validList (t := .edge) nofun]
  have hleading : Keyed.Distinct PerfmonEventOption.type (leading allowed l) :=
    h.sublist (List.filter_sublist.trans (List.take_sublist ..))
  by_cases hmem : .edge ∈ (leading allowed l).map PerfmonEventOption.type
  · obtain ⟨o, ho, htype⟩ := List.mem_map.mp hmem
    have hone := hleading.filter_eq ho
    rw [htype] at hone
    rw [hone, List.length_singleton]
  · rw [filter_type_eq_nil hmem]
    exact Nat.zero_le 1

/-- **What `parseOptions` leaves**: the options merged by type, filtered, with the default threshold
behind an edge; it fails where there are more tokens than options. -/
theorem parseOptions_list (d : DefaultOptions) (tokens : List (List Char)) (optionMask : Word)
    (h : Holds e d.listed) :
    if numEventOptions < (tokens.drop 2).length then
      Likwid.parseOptions tokens e optionMask = none
    else ∃ e', Likwid.parseOptions tokens e optionMask = some e' ∧
      Holds e' (finalList (optionMask ||| e.optionMask)
        (mergedOptions d.toOptionArray tokens)) := by
  by_cases hmany : numEventOptions < (tokens.drop 2).length
  · rw [if_pos hmany, Likwid.parseOptions, if_pos hmany]
  · rw [if_neg hmany, Likwid.parseOptions, if_neg hmany]
    refine ⟨_, rfl, ?_⟩
    have hassigned := h.parseOption_foldl d.valid.distinct (tokens.drop 2)
    obtain ⟨a, hlt, hrun⟩ := validOptions_run d.valid tokens (optionMask ||| e.optionMask)
    rw [if_neg hmany] at hrun
    have hvalid := hassigned.removeInvalid (optionMask ||| e.optionMask)
    rw [parseOption_foldl_optionMask, hvalid.listed, finalList]
    refine hvalid.defaultThreshold (validList_edge_le (d.valid.merged tokens).1) ?_
    rw [← listed_length, hrun.2] at hlt
    exact hlt

theorem parseOptions_list_edge :
    let event : PerfmonEvent :=
      { name := "L2_RQSTS", limit := "PMC", eventId := 0x24, umask := 0xFF
        numberOfOptions := 0, options := [] }
    ∃ e', Likwid.parseOptions edgeTokens event (bit 13) = some e' ∧
      e'.optionList = [⟨.edge, 0⟩, ⟨.threshold, 1⟩] := by
  intro event
  have h := parseOptions_list (e := event) plainEvent edgeTokens (bit 13) ⟨Nat.le_refl 0, rfl⟩
  rw [if_neg (by decide), mergedOptions_edge] at h
  obtain ⟨e', hrun, -, hlisted⟩ := h
  exact ⟨e', hrun, hlisted.trans (by decide)⟩

end Lists

end OptionArray

end Likwid
